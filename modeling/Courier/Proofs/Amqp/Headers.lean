import Courier.Proofs.Amqp.Doubles
import Courier.Proofs.Text.Utf8

/-!
# Headers that went through a table

Headers are written as an AMQP table and read from it again. All of them come back as they were, at
any depth, except for whole numbers beyond the signed ones of 64 bits, for which AMQP has no kind:
these come back as the double next to them (`headers_readBack`). So headers come back unchanged if
and only if they have no such number, and `headers_readBack_beyond` is a case of one.

What is kept is said of the values that are neither arrays nor objects (`Json.leaves`). Reading back
changes the leaves and nothing else (`toHeaders_ofHeaders`).
-/

namespace Courier

/-! ## Leaves of values -/

namespace Json

mutual

/-- The values in a value, at any depth, that are neither arrays nor objects. -/
def leaves : Json → List Json
  | .array items => leavesOfItems items
  | .object members => leavesOfMembers members
  | value => [value]

/-- The leaves of the items. -/
def leavesOfItems : List Json → List Json
  | [] => []
  | item :: rest => leaves item ++ leavesOfItems rest

/-- The leaves of the members. -/
def leavesOfMembers : List (String × Json) → List Json
  | [] => []
  | (_, value) :: rest => leaves value ++ leavesOfMembers rest

end

mutual

/-- The value with each of its leaves replaced. -/
def mapLeaves (f : Json → Json) : Json → Json
  | .array items => .array (mapItems f items)
  | .object members => .object (mapMembers f members)
  | value => f value

/-- The items with each of their leaves replaced. -/
def mapItems (f : Json → Json) : List Json → List Json
  | [] => []
  | item :: rest => mapLeaves f item :: mapItems f rest

/-- The members with each of their leaves replaced. -/
def mapMembers (f : Json → Json) : List (String × Json) → List (String × Json)
  | [] => []
  | (key, value) :: rest => (key, mapLeaves f value) :: mapMembers f rest

end

variable {f : Json → Json}

mutual

/-- A value stays as it is just if all of its leaves do. -/
theorem mapLeaves_eq_self (value : Json) :
    value.mapLeaves f = value ↔ ∀ leaf ∈ value.leaves, f leaf = leaf := by
  cases value with
  | array items => simp only [mapLeaves, leaves, array.injEq, mapItems_eq_self items]
  | object members => simp only [mapLeaves, leaves, object.injEq, mapMembers_eq_self members]
  | _ => simp only [mapLeaves, leaves, List.mem_singleton, forall_eq]

theorem mapItems_eq_self (items : List Json) :
    mapItems f items = items ↔ ∀ leaf ∈ leavesOfItems items, f leaf = leaf := by
  cases items with
  | nil => simp only [mapItems, leavesOfItems, List.not_mem_nil, false_implies, implies_true]
  | cons item rest =>
    simp only [mapItems, leavesOfItems, List.cons.injEq, List.mem_append, or_imp, forall_and,
      mapLeaves_eq_self item, mapItems_eq_self rest]

theorem mapMembers_eq_self (members : List (String × Json)) :
    mapMembers f members = members ↔ ∀ leaf ∈ leavesOfMembers members, f leaf = leaf := by
  cases members with
  | nil => simp only [mapMembers, leavesOfMembers, List.not_mem_nil, false_implies, implies_true]
  | cons member rest =>
    obtain ⟨key, value⟩ := member
    simp only [mapMembers, leavesOfMembers, List.cons.injEq, Prod.mk.injEq, true_and,
      List.mem_append, or_imp, forall_and, mapLeaves_eq_self value, mapMembers_eq_self rest]

end

/-- The leaves that there can be: whole numbers of 64 bits, with or without a sign, floats that are
finite, and all that are no numbers. -/
def Representable : Json → Prop
  | .int n => Int64.minValue.toInt ≤ n ∧ n < UInt64.size
  | .float x => x.isFinite = true
  | _ => True

theorem beq_self_of_isFinite {x : Float} (h : x.isFinite = true) : (x == x) = true := by
  change x.toModel.unpack.isFinite = true at h
  change x.toModel.unpack.beq x.toModel.unpack = true
  cases hx : x.toModel.unpack with
  | notANumber => rw [hx] at h; cases h
  | infinity sign => rw [hx] at h; cases h
  | zero sign => rfl
  | finite sign mantissa exponent hpos =>
    cases sign <;> simp [Float.Model.UnpackedFloat.beq, Float.Model.UnpackedFloat.compare]

mutual

/-- A value that there can be equals itself. -/
theorem beq_self (value : Json) (h : ∀ leaf ∈ value.leaves, leaf.Representable) :
    beq value value = true := by
  cases value with
  | float x => exact beq_self_of_isFinite (h (.float x) (List.mem_singleton_self _))
  | array items => exact beqItems_self items h
  | object members => exact beqMembers_self members h
  | null => rfl
  | _ => exact beq_self_eq_true _

theorem beqItems_self (items : List Json) (h : ∀ leaf ∈ leavesOfItems items, leaf.Representable) :
    beqItems items items = true := by
  cases items with
  | nil => rfl
  | cons item rest =>
    simp only [leavesOfItems, List.forall_mem_append] at h
    rw [beqItems, beq_self item h.1, beqItems_self rest h.2, Bool.and_self]

theorem beqMembers_self (members : List (String × Json))
    (h : ∀ leaf ∈ leavesOfMembers members, leaf.Representable) :
    beqMembers members members = true := by
  cases members with
  | nil => rfl
  | cons member rest =>
    obtain ⟨key, value⟩ := member
    simp only [leavesOfMembers, List.forall_mem_append] at h
    rw [beqMembers, beq_self_eq_true, beq_self value h.1, beqMembers_self rest h.2, Bool.and_self,
      Bool.and_self]

end

end Json

namespace Amqp

open Json

/-! ## What is read back -/

/-- A leaf that went through a table: a number that has no kind there is a double. -/
def readBack : Json → Json
  | .int n => if n ≤ Int64.maxValue.toInt then .int n else .float (Float.ofInt n)
  | value => value

theorem toInt_ofInt {n : Int} (h : Int64.minValue.toInt ≤ n) (h' : n ≤ Int64.maxValue.toInt) :
    (Int64.ofInt n).toInt = n :=
  Int64.toInt_ofInt_of_le h (Int.lt_add_one_of_le h')

theorem Value.toJson_ofInt {n : Int} (h : Int64.minValue.toInt ≤ n) (h' : n < UInt64.size) :
    (Value.ofInt n).toJson = readBack (.int n) := by
  rw [Value.ofInt, readBack]
  by_cases hmax : n ≤ Int64.maxValue.toInt
  · rw [if_pos ⟨h, hmax⟩, if_pos hmax, Value.toJson, toInt_ofInt h hmax]
  · obtain ⟨_, hvalue, _⟩ := Double.holds_ofInt (Int.not_le.mp hmax) h'
    rw [if_neg fun hin => hmax hin.2, if_neg hmax, Value.toJson, Value.ofFloat,
      if_pos hvalue.isFinite]

mutual

/-- Reading back changes leaves only. -/
theorem Value.toJson_ofJson (value : Json) (h : ∀ leaf ∈ value.leaves, leaf.Representable) :
    (Value.ofJson value).toJson = value.mapLeaves readBack := by
  cases value with
  | null => rfl
  | bool b => rfl
  | int n =>
    have hn := h (.int n) (List.mem_singleton_self _)
    exact Value.toJson_ofInt hn.1 hn.2
  | float x => exact if_pos (h (.float x) (List.mem_singleton_self _))
  | text s => exact congrArg Json.text (Bytes.lossyText_ofText s)
  | array items => exact congrArg Json.array (Value.toItems_ofItems items h)
  | object members => exact congrArg Json.object (Table.toHeaders_ofHeaders members h)

theorem Value.toItems_ofItems (items : List Json)
    (h : ∀ leaf ∈ leavesOfItems items, leaf.Representable) :
    Value.toItems (Value.ofItems items) = mapItems readBack items := by
  cases items with
  | nil => rfl
  | cons item rest =>
    obtain ⟨hitem, hrest⟩ := List.forall_mem_append.mp h
    exact congr (congrArg List.cons (Value.toJson_ofJson item hitem))
      (Value.toItems_ofItems rest hrest)

theorem Table.toHeaders_ofHeaders (headers : List (String × Json))
    (h : ∀ leaf ∈ leavesOfMembers headers, leaf.Representable) :
    Table.toHeaders (Table.ofHeaders headers) = mapMembers readBack headers := by
  cases headers with
  | nil => rfl
  | cons member rest =>
    obtain ⟨key, value⟩ := member
    obtain ⟨hvalue, hrest⟩ := List.forall_mem_append.mp h
    exact congr (congrArg (fun v => List.cons (key, v)) (Value.toJson_ofJson value hvalue))
      (Table.toHeaders_ofHeaders rest hrest)

end

theorem readBack_eq_self {leaf : Json} :
    readBack leaf = leaf ↔ ∀ n, leaf = .int n → n ≤ Int64.maxValue.toInt := by
  cases leaf with
  | int n =>
    simp only [readBack, Json.int.injEq, forall_eq']
    split <;> simp_all
  | _ => simp only [readBack, reduceCtorEq, false_implies, implies_true]

theorem Table.toHeaders_ofHeaders_eq_self {headers : Headers}
    (h : ∀ leaf ∈ leavesOfMembers headers, leaf.Representable) :
    Table.toHeaders (Table.ofHeaders headers) = headers ↔
      ∀ n, .int n ∈ leavesOfMembers headers → n ≤ Int64.maxValue.toInt := by
  rw [Table.toHeaders_ofHeaders headers h, mapMembers_eq_self]
  simp only [readBack_eq_self]
  exact ⟨fun hall n hn => hall _ hn n rfl, fun hall leaf hl n hn => hall n (hn ▸ hl)⟩

/-- What becomes of headers that are written as a table and read from it again. -/
structure ReadBack (headers : Headers) : Prop where
  /-- Keys, arrays and objects are as they were, and so is every leaf but for the whole numbers that
  are beyond the signed ones of 64 bits. Each of these is a float. -/
  leaves : Table.toHeaders (Table.ofHeaders headers) = mapMembers readBack headers
  /-- If there is no such number then nothing has changed, and only then. -/
  unchanged : Table.toHeaders (Table.ofHeaders headers) = headers ↔
    ∀ n, .int n ∈ leavesOfMembers headers → n ≤ Int64.maxValue.toInt
  /-- The float is finite, and off by at most half of the distance between two floats there. -/
  near : ∀ n, .int n ∈ leavesOfMembers headers → Int64.maxValue.toInt < n →
    ∃ value : Nat, Double.Holds (Float.ofInt n) value ∧ value ≤ n + 2 ^ 10 ∧ n ≤ value + 2 ^ 10

/-- Headers that are written as a table and read from it again come back as they were, but for the
numbers that AMQP has no kind for. -/
theorem headers_readBack (headers : Headers)
    (h : ∀ leaf ∈ leavesOfMembers headers, leaf.Representable) : ReadBack headers where
  leaves := Table.toHeaders_ofHeaders headers h
  unchanged := Table.toHeaders_ofHeaders_eq_self h
  near := fun _ hn hmax => Double.holds_ofInt hmax (h _ hn).2

/-- Headers that are nested, with the greatest number without a sign among them. -/
theorem headers_readBack_nested :
    ReadBack [("attempt", .int 2), ("limits", .object [("low", .int (-2 ^ 63)),
      ("high", .array [.int (2 ^ 63 - 1), .int (2 ^ 64 - 1), .float 1.5])])] := by
  refine headers_readBack _ ?_
  simp only [leavesOfMembers, leaves, leavesOfItems, List.append_nil, List.cons_append,
    List.nil_append, List.forall_mem_cons, Representable]
  exact ⟨by decide, by decide, by decide, by decide, by decide +kernel, fun _ hnil => nomatch hnil⟩

/-- Not all headers come back unchanged: the greatest whole number without a sign is a float
then. -/
theorem headers_readBack_beyond :
    ¬∀ headers : Headers, (∀ leaf ∈ leavesOfMembers headers, leaf.Representable) →
      Table.toHeaders (Table.ofHeaders headers) = headers := by
  intro h
  have hmem : ∀ leaf ∈ leavesOfMembers [("h", .int (2 ^ 64 - 1))], leaf.Representable := by
    simp only [leavesOfMembers, leaves, List.append_nil, List.forall_mem_singleton, Representable]
    decide
  have hmax := (Table.toHeaders_ofHeaders_eq_self hmem).mp (h _ hmem) (2 ^ 64 - 1)
    (List.mem_singleton_self _)
  exact absurd hmax (by decide)

end Amqp

end Courier
