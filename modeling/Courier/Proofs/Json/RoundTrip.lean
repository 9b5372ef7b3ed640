import Courier.Proofs.Json.Lexemes

/-!
# Written values read back

The text of a value spells the value again, down to the deepest nesting that a reader follows.
Said of are the values whose text says all of them (`Exact`): any texts, integers of 64 bits, no
floats, and objects in the order of their keys, which is how objects are kept.

`readValue_encode` is by recursion on the value, one statement for each kind of text that the
printer writes: a value, the items of an array or the members of an object from the first one on,
and those that follow another. What stands behind the text is any bytes that cannot go on with a
number. A value that nests too deep for the reader is refused, wherever in it the limit is passed
(`bounded`), so the statements need no assumption about the nesting.
-/

namespace Courier.Json

/-! ## Values that their text says -/

mutual

/-- How many arrays and objects stand inside each other in a value. -/
def nesting : Json → Nat
  | .array items => nestingItems items + 1
  | .object members => nestingMembers members + 1
  | .null | .bool _ | .int _ | .float _ | .text _ => 0

/-- The deepest nesting of the items. -/
def nestingItems : List Json → Nat
  | [] => 0
  | item :: rest => max (nesting item) (nestingItems rest)

/-- The deepest nesting of the members. -/
def nestingMembers : List (String × Json) → Nat
  | [] => 0
  | (_, value) :: rest => max (nesting value) (nestingMembers rest)

end

/-- The keys of the members ascend, so none comes twice. -/
def Object.Ascending (members : Object) : Prop :=
  members.Pairwise fun a b => a.1 < b.1

mutual

/-- The text of the value says all of it. -/
def Exact : Json → Prop
  | .int value => InRange value
  | .float _ => False
  | .array items => ExactItems items
  | .object members => Object.Ascending members ∧ ExactMembers members
  | .null | .bool _ | .text _ => True

/-- So does the text of each item. -/
def ExactItems : List Json → Prop
  | [] => True
  | item :: rest => Exact item ∧ ExactItems rest

/-- So does the text of each member. -/
def ExactMembers : List (String × Json) → Prop
  | [] => True
  | (_, value) :: rest => Exact value ∧ ExactMembers rest

end

/-- A key above all others goes to the end. -/
theorem Object.insert_last {members : Object} {key : String} (h : ∀ m ∈ members, m.1 < key)
    (value : Json) : Object.insert key value members = members ++ [(key, value)] := by
  induction members with
  | nil => rfl
  | cons m rest ih =>
    obtain ⟨k, v⟩ := m
    obtain ⟨hk, hrest⟩ := List.forall_mem_cons.mp h
    have hne : key ≠ k := fun heq => String.lt_irrefl k (heq ▸ hk)
    rw [Object.insert, if_neg (String.lt_asymm hk), if_neg hne, ih hrest, List.cons_append]

theorem Object.Ascending.insert_last {members rest : Object} {key : String} {value : Json}
    (h : Object.Ascending (members ++ (key, value) :: rest)) :
    Object.insert key value members = members ++ [(key, value)] :=
  Object.insert_last
    (fun m hm => (List.pairwise_append.mp h).2.2 m hm (key, value) List.mem_cons_self) value

/-! ## What is found within the limit -/

/-- What has been found, unless it nests too deep. -/
def bounded {α : Type} (depth nesting : Nat) (found : α) : Except Fault α :=
  if nesting < depth then .ok found else .error .malformed

theorem bounded_of_lt {α : Type} {depth nesting : Nat} (h : nesting < depth) (found : α) :
    bounded depth nesting found = .ok found :=
  if_pos h

theorem bounded_bind {α β : Type} {depth m n : Nat} {found : α} {found' : β}
    {next : α → Except Fault β} (h : next found = bounded depth n found') :
    (bounded depth m found >>= next) = bounded depth (max m n) found' := by
  unfold bounded at *
  by_cases hm : m < depth
  · rw [if_pos hm]
    change next found = _
    rw [h]
    simp only [Nat.max_lt, hm, true_and]
  · rw [if_neg hm, if_neg (fun hmax => hm (Nat.max_lt.mp hmax).1)]
    rfl

/-- An array or object is a level of its own: what is in it has one level less. -/
theorem bounded_level {α β : Type} {depth n : Nat} {found : α} {found' : β} {read : Except Fault α}
    {next : α → Except Fault β} (h : 1 < depth → read = bounded (depth - 1) n found)
    (hnext : next found = .ok found') :
    (if depth ≤ 1 then .error .malformed else read >>= next) = bounded depth (n + 1) found' := by
  by_cases hd : depth ≤ 1
  · rw [if_pos hd, bounded, if_neg (by omega)]
  · rw [if_neg hd, h (by omega), bounded, bounded]
    by_cases hn : n < depth - 1
    · rw [if_pos hn, if_pos (by omega)]
      exact hnext
    · rw [if_neg hn, if_neg (by omega)]
      rfl

/-! ## Beginnings and ends -/

theorem skipBlanks_cons {b : UInt8} (h : isBlankByte b = false) (rest : Bytes) :
    skipBlanks (b :: rest) = b :: rest := by
  rw [skipBlanks, List.dropWhile_cons_of_neg (by rw [h]; decide)]

theorem ends_cons {b : UInt8} (h : isDigit b = false ∧ b ≠ 0x2E ∧ b ≠ 0x65 ∧ b ≠ 0x45)
    (rest : Bytes) : Ends (b :: rest) := by
  intro b' hb'
  obtain rfl := Option.some.inj hb'
  exact h

theorem ends_nil : Ends [] := by
  intro b hb
  exact absurd hb (Option.not_mem_none b)

theorem not_blank_of_number {b : UInt8} (h : (b == 0x2D || isDigit b) = true) :
    b.toNat = 0x2D ∨ 0x30 ≤ b.toNat ∧ b.toNat ≤ 0x39 := by
  rcases Bool.or_eq_true_iff.mp h with hminus | hdigit
  · exact .inl (congrArg UInt8.toNat (eq_of_beq hminus))
  · exact .inr (isDigit_iff.mp hdigit)

/-- A value begins with a byte that is neither blank nor the end of an array. -/
theorem exists_encode {value : Json} (h : Exact value) :
    ∃ b more, encode value = b :: more ∧ isBlankByte b = false ∧ b ≠ 0x5D := by
  cases value with
  | null => exact ⟨_, _, rfl, rfl, by decide⟩
  | bool value => cases value <;> exact ⟨_, _, rfl, rfl, by decide⟩
  | int value =>
    obtain ⟨b, more, hbytes, hb⟩ := exists_encodeInt value
    have hnat := not_blank_of_number hb
    refine ⟨b, more, by rw [encode, hbytes], ?_, fun heq => ?_⟩
    · simp only [isBlankByte, Bool.or_eq_false_iff, beq_eq_false_iff_ne, ne_eq, ← UInt8.toNat_inj,
        UInt8.reduceToNat]
      omega
    · subst heq
      exact absurd hnat (by decide)
  | float value => exact absurd h (by rw [Exact]; exact id)
  | text value => exact ⟨_, _, rfl, rfl, by decide⟩
  | array items => exact ⟨_, _, by rw [encode], rfl, by decide⟩
  | object members => exact ⟨_, _, by rw [encode], rfl, by decide⟩

/-! ## Items and members -/

/-- A further item stands behind a comma, the first one stands alone. -/
theorem readItemStart_encode {value : Json} (h : Exact value) (rest : Bytes) :
    readItemStart true (encode value ++ rest) = .ok (some (encode value ++ rest)) ∧
      readItemStart false (0x2C :: (encode value ++ rest)) = .ok (some (encode value ++ rest)) := by
  obtain ⟨b, more, hbytes, hblank, hclose⟩ := exists_encode h
  have hclose' : (b == 0x5D) = false := beq_eq_false_iff_ne.mpr hclose
  rw [hbytes, List.cons_append]
  constructor
  · simp only [readItemStart, skipBlanks_cons hblank, hclose', Bool.false_eq_true, if_false, if_true]
  · simp only [readItemStart, skipBlanks_cons (show isBlankByte 0x2C = false from rfl),
      skipBlanks_cons hblank, hclose', show ((0x2C : UInt8) == 0x5D) = false from rfl,
      beq_self_eq_true, Bool.false_eq_true, if_false, if_true]

theorem readItems_nil {steps depth : Nat} (hd : 0 < depth) (first : Bool) (rest : Bytes) :
    readItems (steps + 1) depth first (0x5D :: rest) =
      bounded depth (nestingItems []) ([], rest) := by
  rw [nestingItems, bounded_of_lt hd]
  rfl

theorem readItems_cons {steps depth : Nat} {first : Bool} {bytes rest : Bytes} {item : Json}
    {more : List Json}
    (hstart : readItemStart first bytes = .ok (some (encode item ++ (encodeMoreItems more ++ rest))))
    (hitem : readValue steps depth (encode item ++ (encodeMoreItems more ++ rest)) =
      bounded depth (nesting item) (item, encodeMoreItems more ++ rest))
    (hmore : readItems steps depth false (encodeMoreItems more ++ rest) =
      bounded depth (nestingItems more) (more, rest)) :
    readItems (steps + 1) depth first bytes =
      bounded depth (nestingItems (item :: more)) (item :: more, rest) := by
  have hnil : bounded depth (nestingItems more) (item :: more, rest) =
      (bounded depth (nestingItems more) (more, rest) >>= fun found =>
        .ok (item :: found.1, found.2)) := by
    unfold bounded
    split <;> rfl
  rw [readItems, hstart]
  change (readValue steps depth _ >>= _) = _
  rw [hitem, nestingItems]
  refine bounded_bind ?_
  rw [hnil, ← hmore]

/-- A key and its colon are passed, and the value is next: behind a comma, or at the beginning. -/
theorem readKeyStart_encodeText (key : String) (rest : Bytes) :
    let found := key.toList.flatMap encodeChar ++ 0x22 :: 0x3A :: rest
    readKeyStart true (encodeText key ++ 0x3A :: rest) = .ok (some found) ∧
      readKeyStart false (0x2C :: (encodeText key ++ 0x3A :: rest)) = .ok (some found) := by
  rw [encodeText_append]
  exact ⟨rfl, rfl⟩

theorem readMembers_nil {steps depth : Nat} (hd : 0 < depth) (first : Bool) (seen : Object)
    (rest : Bytes) : readMembers (steps + 1) depth first seen (0x7D :: rest) =
      bounded depth (nestingMembers []) (seen, rest) := by
  rw [nestingMembers, bounded_of_lt hd]
  rfl

theorem readMembers_cons {steps depth : Nat} {first : Bool} {bytes rest : Bytes} {key : String}
    {value : Json} {seen : Object} {more : List (String × Json)}
    {found : Object × Bytes}
    (hstart : readKeyStart first bytes =
      .ok (some (key.toList.flatMap encodeChar ++ 0x22 :: 0x3A :: (encode value ++ rest))))
    (hvalue : readValue steps depth (encode value ++ rest) =
      bounded depth (nesting value) (value, rest))
    (hmore : readMembers steps depth false (Object.insert key value seen) rest =
      bounded depth (nestingMembers more) found) :
    readMembers (steps + 1) depth first seen bytes =
      bounded depth (nestingMembers ((key, value) :: more)) found := by
  rw [readMembers, hstart]
  change (readText _ >>= _) = _
  rw [readText_chars]
  change (readValue steps depth _ >>= _) = _
  rw [hvalue, nestingMembers]
  exact bounded_bind hmore

/-! ## Values -/

theorem readValue_number {b : UInt8} (h : (b == 0x2D || isDigit b) = true) (steps depth : Nat)
    (rest : Bytes) : readValue (steps + 1) depth (b :: rest) = readNumber (b :: rest) := by
  have hb : b ∈ [(0x2D : UInt8), 0x30, 0x31, 0x32, 0x33, 0x34, 0x35, 0x36, 0x37, 0x38, 0x39] := by
    have := not_blank_of_number h
    simp only [List.mem_cons, List.not_mem_nil, ← UInt8.toNat_inj, UInt8.reduceToNat, or_false]
    omega
  simp only [List.mem_cons, List.not_mem_nil, or_false] at hb
  rcases hb with rfl | rfl | rfl | rfl | rfl | rfl | rfl | rfl | rfl | rfl | rfl <;> rfl

theorem encode_pos {value : Json} (h : Exact value) : 0 < (encode value).length := by
  obtain ⟨b, more, hbytes, -⟩ := exists_encode h
  rw [hbytes]
  exact Nat.succ_pos _

theorem encodeMoreItems_pos (items : List Json) : 0 < (encodeMoreItems items).length := by
  cases items <;> exact Nat.succ_pos _

theorem ends_encodeMoreItems (items : List Json) (rest : Bytes) :
    Ends (encodeMoreItems items ++ rest) := by
  cases items <;> exact ends_cons (by decide) _

theorem encodeMoreMembers_pos (members : List (String × Json)) :
    0 < (encodeMoreMembers members).length := by
  cases members <;> exact Nat.succ_pos _

theorem ends_encodeMoreMembers (members : List (String × Json)) (rest : Bytes) :
    Ends (encodeMoreMembers members ++ rest) := by
  cases members <;> exact ends_cons (by decide) _

mutual

/-- The text of a value is read as the value, if it does not nest too deep. -/
theorem readValue_encode : (value : Json) → Exact value → ∀ {steps depth : Nat} {rest : Bytes},
    0 < depth → (encode value).length ≤ steps → Ends rest →
      readValue steps depth (encode value ++ rest) = bounded depth (nesting value) (value, rest)
  | value, h, 0, _, _, _, hs, _ => absurd (encode_pos h) (by omega)
  | .null, _, steps + 1, depth, rest, hd, _, _ => by
    rw [nesting, bounded_of_lt hd]
    rfl
  | .bool true, _, steps + 1, depth, rest, hd, _, _ => by
    rw [nesting, bounded_of_lt hd]
    rfl
  | .bool false, _, steps + 1, depth, rest, hd, _, _ => by
    rw [nesting, bounded_of_lt hd]
    rfl
  | .int value, h, steps + 1, depth, rest, hd, _, hr => by
    obtain ⟨b, more, hbytes, hb⟩ := exists_encodeInt value
    have hread := readNumber_encodeInt (by rwa [Exact] at h) hr
    rw [nesting, bounded_of_lt hd, encode]
    rw [hbytes, List.cons_append] at hread ⊢
    rw [readValue_number hb, hread]
  | .float _, h, _, _, _, _, _, _ => absurd h (by rw [Exact]; exact id)
  | .text value, _, steps + 1, depth, rest, hd, _, _ => by
    rw [nesting, bounded_of_lt hd, encode, encodeText_append]
    change (readText _ >>= _) = _
    rw [readText_chars]
    rfl
  | .array items, h, steps + 1, depth, rest, hd, hs, _ => by
    rw [nesting, encode]
    rw [encode, List.length_cons] at hs
    exact bounded_level
      (fun hd' => readItems_encodeItems items (by rwa [Exact] at h) (by omega) (by omega)) rfl
  | .object members, h, steps + 1, depth, rest, hd, hs, _ => by
    rw [nesting, encode]
    rw [encode, List.length_cons] at hs
    rw [Exact] at h
    exact bounded_level
      (fun hd' => readMembers_encodeMembers members h.1 h.2 (by omega) (by omega)) rfl

theorem readItems_encodeItems : (items : List Json) → ExactItems items →
    ∀ {steps depth : Nat} {rest : Bytes}, 0 < depth → (encodeItems items).length ≤ steps →
      readItems steps depth true (encodeItems items ++ rest) =
        bounded depth (nestingItems items) (items, rest)
  | [], _, steps, depth, rest, hd, hs => by
    obtain ⟨steps, rfl⟩ := Nat.exists_eq_add_of_lt hs
    exact readItems_nil hd true rest
  | item :: more, h, steps, depth, rest, hd, hs => by
    obtain ⟨hitem, hmore⟩ := h
    have hpos := encode_pos hitem
    have hpos' := encodeMoreItems_pos more
    rw [encodeItems, List.length_append] at hs
    obtain ⟨steps, rfl⟩ : ∃ n, steps = n + 1 := ⟨steps - 1, by omega⟩
    rw [encodeItems, List.append_assoc]
    exact readItems_cons (readItemStart_encode hitem _).1
      (readValue_encode item hitem hd (by omega) (ends_encodeMoreItems more rest))
      (readItems_encodeMoreItems more hmore hd (by omega))

theorem readItems_encodeMoreItems : (items : List Json) → ExactItems items →
    ∀ {steps depth : Nat} {rest : Bytes}, 0 < depth → (encodeMoreItems items).length ≤ steps →
      readItems steps depth false (encodeMoreItems items ++ rest) =
        bounded depth (nestingItems items) (items, rest)
  | [], _, steps, depth, rest, hd, hs => by
    obtain ⟨steps, rfl⟩ := Nat.exists_eq_add_of_lt hs
    exact readItems_nil hd false rest
  | item :: more, h, steps, depth, rest, hd, hs => by
    obtain ⟨hitem, hmore⟩ := h
    rw [encodeMoreItems, List.length_append, List.length_cons] at hs
    obtain ⟨steps, rfl⟩ : ∃ n, steps = n + 1 := ⟨steps - 1, by omega⟩
    rw [encodeMoreItems, List.append_assoc, List.cons_append]
    exact readItems_cons (readItemStart_encode hitem _).2
      (readValue_encode item hitem hd (by omega) (ends_encodeMoreItems more rest))
      (readItems_encodeMoreItems more hmore hd (by omega))

theorem readMembers_encodeMembers : (members : List (String × Json)) →
    Object.Ascending members → ExactMembers members →
    ∀ {steps depth : Nat} {rest : Bytes}, 0 < depth → (encodeMembers members).length ≤ steps →
      readMembers steps depth true [] (encodeMembers members ++ rest) =
        bounded depth (nestingMembers members) (members, rest)
  | [], _, _, steps, depth, rest, hd, hs => by
    obtain ⟨steps, rfl⟩ := Nat.exists_eq_add_of_lt hs
    exact readMembers_nil hd true [] rest
  | (key, value) :: more, hsorted, h, steps, depth, rest, hd, hs => by
    obtain ⟨hvalue, hmore⟩ := h
    have hpos := encode_pos hvalue
    have hpos' := encodeMoreMembers_pos more
    simp only [encodeMembers, List.length_append, List.length_cons] at hs
    obtain ⟨steps, rfl⟩ : ∃ n, steps = n + 1 := ⟨steps - 1, by omega⟩
    simp only [encodeMembers, List.append_assoc, List.cons_append]
    exact readMembers_cons (readKeyStart_encodeText key _).1
      (readValue_encode value hvalue hd (by omega) (ends_encodeMoreMembers more rest))
      (readMembers_encodeMoreMembers more [(key, value)] hsorted hmore hd (by omega))

theorem readMembers_encodeMoreMembers : (members : List (String × Json)) → (seen : Object) →
    Object.Ascending (seen ++ members) → ExactMembers members →
    ∀ {steps depth : Nat} {rest : Bytes}, 0 < depth → (encodeMoreMembers members).length ≤ steps →
      readMembers steps depth false seen (encodeMoreMembers members ++ rest) =
        bounded depth (nestingMembers members) (seen ++ members, rest)
  | [], seen, _, _, steps, depth, rest, hd, hs => by
    obtain ⟨steps, rfl⟩ := Nat.exists_eq_add_of_lt hs
    rw [List.append_nil]
    exact readMembers_nil hd false seen rest
  | (key, value) :: more, seen, hsorted, h, steps, depth, rest, hd, hs => by
    obtain ⟨hvalue, hmore⟩ := h
    have hinsert := hsorted.insert_last
    simp only [encodeMoreMembers, List.length_append, List.length_cons] at hs
    obtain ⟨steps, rfl⟩ : ∃ n, steps = n + 1 := ⟨steps - 1, by omega⟩
    simp only [encodeMoreMembers, List.append_assoc, List.cons_append]
    rw [List.append_cons seen (key, value) more] at hsorted ⊢
    refine readMembers_cons (readKeyStart_encodeText key _).2
      (readValue_encode value hvalue hd (by omega) (ends_encodeMoreMembers more rest)) ?_
    rw [hinsert]
    exact readMembers_encodeMoreMembers more _ hsorted hmore hd (by omega)

end

/-- The text of a value spells the value, if its arrays and objects nest 127 deep at most. -/
theorem decode_encode {value : Json} (h : Exact value) :
    decode (encode value) = bounded depthLimit (nesting value) value := by
  have hread : readValue (stepsFor (encode value)) depthLimit (encode value ++ []) =
      bounded depthLimit (nesting value) (value, []) :=
    readValue_encode value h (by decide) (by rw [stepsFor]; omega) ends_nil
  rw [List.append_nil] at hread
  rw [decode, readAll, hread]
  unfold bounded
  split <;> rfl

end Courier.Json
