import Courier.Json.Typed
import Courier.Proofs.Json.RoundTrip

/-!
# Typed values and records read back

A reader of a type recovers what it was written for when, wherever the text of the value stands, it
finds that and goes on behind the text (`Reader.Recovers`). The readers of texts, flags, integers,
headers and of any value do. From readers of the fields it follows for a record that is written with
its members in the order of its fields (`Reader.plainRecord_recovers`): each field finds its member
in turn, under a name that no other field has, and none is missing at the end.
-/

namespace Courier.Json

/-! ## Readers -/

/-- Where the text of the value stands, the reader finds this, or refuses what nests too deep. -/
def Reader.Recovers {α : Type} (reader : Reader α) (value : Json) (found : α) : Prop :=
  ∀ (depth : Nat) (rest : Bytes), 0 < depth → Ends rest →
    reader depth (encode value ++ rest) = bounded depth (nesting value) (found, rest)

/-- The whole text of the value is read as what was found. -/
theorem decodeAs_encode {α : Type} {reader : Reader α} {value : Json} {found : α}
    (h : reader.Recovers value found) :
    decodeAs reader (encode value) = bounded depthLimit (nesting value) found := by
  have hread := h depthLimit [] (by decide) ends_nil
  rw [List.append_nil] at hread
  rw [decodeAs, readAll, hread]
  unfold bounded
  split <;> rfl

namespace Reader

theorem free_recovers {value : Json} (h : Exact value) : free.Recovers value value := by
  intro depth rest hd hr
  refine readValue_encode value h hd ?_ hr
  rw [stepsFor, List.length_append]
  omega

theorem text_recovers (value : String) : text.Recovers (.text value) value := by
  intro depth rest hd _
  rw [nesting, bounded_of_lt hd, encode, encodeText_append]
  exact readText_chars value rest

theorem flag_recovers (value : Bool) : flag.Recovers (.bool value) value := by
  intro depth rest hd _
  rw [nesting, bounded_of_lt hd]
  cases value <;> rfl

theorem int64_recovers {value : Int} (hlow : Int64.minValue.toInt ≤ value)
    (hhigh : value ≤ Int64.maxValue.toInt) : int64.Recovers (.int value) value := by
  intro depth rest hd hr
  have hrange : InRange value :=
    ⟨hlow, Int.le_trans hhigh (by decide)⟩
  have hread := readNumber_encodeInt hrange hr
  obtain ⟨b, more, hbytes, hb⟩ := exists_encodeInt value
  obtain ⟨b', more', hbytes', hblank, -⟩ := exists_encode (show Exact (.int value) by rwa [Exact])
  rw [encode, hbytes, List.cons.injEq] at hbytes'
  obtain ⟨rfl, rfl⟩ := hbytes'
  rw [nesting, bounded_of_lt hd, encode]
  rw [hbytes, List.cons_append] at hread ⊢
  simp only [int64, intBetween, skipBlanks_cons hblank, hb, if_true, hread, bind, Except.bind,
    hlow, hhigh, and_self]

theorem headers_recovers {members : Headers} (h : Exact (.object members)) :
    headers.Recovers (.object members) members := by
  intro depth rest hd _
  rw [Exact] at h
  rw [nesting, encode]
  change (if depth ≤ 1 then _ else readMembers _ (depth - 1) true [] (encodeMembers members ++ rest))
    = _
  rw [← bind_pure (readMembers _ (depth - 1) true [] (encodeMembers members ++ rest))]
  have hsteps : (encodeMembers members).length ≤ stepsFor (encodeMembers members ++ rest) := by
    rw [stepsFor, List.length_append]
    omega
  exact bounded_level
    (fun hd' => readMembers_encodeMembers members h.1 h.2 (by omega) hsteps) rfl

end Reader

/-! ## Fields -/

/-- A field of a record and the value that is written for it, with what it makes of the record. -/
structure Filling (S : Type) where
  field : RecordField S
  value : Json
  put : S → S

namespace Filling

variable {S : Type}

/-- The member that stands for the field. -/
def member (m : Filling S) : String × Json :=
  (m.field.name, m.value)

/-- The field finds its value. -/
def Reads (m : Filling S) : Prop :=
  m.field.read.Recovers m.value m.put

/-- A field that is put into the record by `put`, with what a reader is to find of it. -/
def of {α : Type} (name : String) (presence : Presence) (reader : Reader α) (put : α → S → S)
    (value : Json) (found : α) : Filling S :=
  ⟨.of name presence reader put, value, put found⟩

theorem reads_of {α : Type} {name : String} {presence : Presence} {reader : Reader α}
    {put : α → S → S} {value : Json} {found : α} (h : reader.Recovers value found) :
    (of name presence reader put value found).Reads := by
  intro depth rest hd hr
  change (reader depth (encode value ++ rest) >>= fun found => .ok (put found.1, found.2)) = _
  rw [h depth rest hd hr]
  change _ = bounded depth (nesting value) (put found, rest)
  unfold bounded
  split <;> rfl

/-- The record after these fields. -/
def fill (fillings : List (Filling S)) (record : S) : S :=
  fillings.foldl (fun record m => m.put record) record

end Filling

variable {S : Type}

theorem find?_name {fields : List (RecordField S)} (hnames : (fields.map (·.name)).Nodup)
    {field : RecordField S} (h : field ∈ fields) :
    fields.find? (·.name == field.name) = some field := by
  induction fields with
  | nil => exact absurd h List.not_mem_nil
  | cons f fs ih =>
    obtain ⟨hf, hfs⟩ := List.nodup_cons.mp hnames
    rcases List.mem_cons.mp h with rfl | hmem
    · exact List.find?_cons_of_pos (beq_self_eq_true _)
    · have hne : f.name ≠ field.name := fun heq =>
        hf (List.mem_map.mpr ⟨field, hmem, heq.symm⟩)
      rw [List.find?_cons_of_neg (by rwa [beq_iff_eq]), ih hfs hmem]

/-- One field: its name is known and new, and its value is found behind the colon. -/
theorem readFields_cons {fields : List (RecordField S)} {unknown : Unknown} {steps depth n : Nat}
    {first : Bool} {seen : List String} {record : S} {bytes rest : Bytes} {m : Filling S}
    {found : (List String × S) × Bytes}
    (hstart : readKeyStart first bytes = .ok (some
      (m.field.name.toList.flatMap encodeChar ++ 0x22 :: 0x3A :: (encode m.value ++ rest))))
    (hfind : fields.find? (·.name == m.field.name) = some m.field) (hnew : m.field.name ∉ seen)
    (hreads : m.Reads) (hd : 0 < depth) (hr : Ends rest)
    (hmore : readFields fields unknown steps depth false (m.field.name :: seen) (m.put record) rest =
      bounded depth n found) :
    readFields fields unknown (steps + 1) depth first seen record bytes =
      bounded depth (max (nesting m.value) n) found := by
  have hnew' : seen.contains m.field.name = false := by
    rw [List.contains_eq_mem, decide_eq_false_iff_not]
    exact hnew
  rw [readFields, hstart]
  change (readText _ >>= _) = _
  rw [readText_chars]
  dsimp only [Bind.bind, Except.bind]
  rw [hfind]
  change (if seen.contains m.field.name = true then _ else _) = _
  rw [hnew', if_neg Bool.false_ne_true]
  change (m.field.read depth _ >>= _) = _
  rw [hreads depth rest hd hr]
  exact bounded_bind hmore

/-- The fields of a record behind its first ones, up to the brace that closes it. -/
theorem readFields_encodeMoreMembers {fields : List (RecordField S)} (unknown : Unknown)
    {depth : Nat} (hd : 0 < depth) (rest : Bytes) (fillings : List (Filling S)) (seen : List String)
    (record : S) (steps : Nat) (hsteps : fillings.length < steps)
    (hnames : (fillings.map (·.field.name)).Nodup)
    (hnew : ∀ m ∈ fillings, m.field.name ∉ seen)
    (hfind : ∀ m ∈ fillings, fields.find? (·.name == m.field.name) = some m.field)
    (hreads : ∀ m ∈ fillings, m.Reads) :
    readFields fields unknown steps depth false seen record
        (encodeMoreMembers (fillings.map Filling.member) ++ rest) =
      bounded depth (nestingMembers (fillings.map Filling.member))
        (((fillings.map (·.field.name)).reverse ++ seen, Filling.fill fillings record),
          0x7D :: rest) := by
  induction fillings generalizing seen record steps with
  | nil =>
    obtain ⟨steps, rfl⟩ := Nat.exists_eq_add_of_lt hsteps
    rw [List.map_nil, nestingMembers, bounded_of_lt hd]
    rfl
  | cons m more ih =>
    obtain ⟨steps, rfl⟩ : ∃ n, steps = n + 1 := ⟨steps - 1, by omega⟩
    obtain ⟨hname, hnames⟩ := List.nodup_cons.mp hnames
    obtain ⟨hnewM, hnew⟩ := List.forall_mem_cons.mp hnew
    obtain ⟨hfindM, hfind⟩ := List.forall_mem_cons.mp hfind
    obtain ⟨hreadsM, hreads⟩ := List.forall_mem_cons.mp hreads
    have hmore := ih (m.field.name :: seen) (m.put record) steps
      (by rw [List.length_cons] at hsteps; omega) hnames
      (fun m' hm' hmem => (List.mem_cons.mp hmem).elim
        (fun heq => hname (List.mem_map.mpr ⟨m', hm', heq⟩)) (hnew m' hm')) hfind hreads
    simp only [List.map_cons, Filling.member, encodeMoreMembers, List.append_assoc,
      List.cons_append, nestingMembers, List.reverse_cons]
    exact readFields_cons (readKeyStart_encodeText _ _).2 hfindM hnewM hreadsM hd
      (ends_encodeMoreMembers _ _) hmore

theorem readFields_encodeMembers {fields : List (RecordField S)} (unknown : Unknown)
    {depth : Nat} (hd : 0 < depth) (rest : Bytes) (fillings : List (Filling S))
    (record : S) (steps : Nat) (hsteps : fillings.length < steps)
    (hnames : (fillings.map (·.field.name)).Nodup)
    (hfind : ∀ m ∈ fillings, fields.find? (·.name == m.field.name) = some m.field)
    (hreads : ∀ m ∈ fillings, m.Reads) :
    readFields fields unknown steps depth true [] record
        (encodeMembers (fillings.map Filling.member) ++ rest) =
      bounded depth (nestingMembers (fillings.map Filling.member))
        (((fillings.map (·.field.name)).reverse, Filling.fill fillings record), 0x7D :: rest) := by
  cases fillings with
  | nil =>
    obtain ⟨steps, rfl⟩ := Nat.exists_eq_add_of_lt hsteps
    rw [List.map_nil, nestingMembers, bounded_of_lt hd]
    rfl
  | cons m more =>
    obtain ⟨steps, rfl⟩ : ∃ n, steps = n + 1 := ⟨steps - 1, by omega⟩
    obtain ⟨hname, hnames⟩ := List.nodup_cons.mp hnames
    obtain ⟨hfindM, hfind⟩ := List.forall_mem_cons.mp hfind
    obtain ⟨hreadsM, hreads⟩ := List.forall_mem_cons.mp hreads
    have hmore := readFields_encodeMoreMembers unknown hd rest more [m.field.name] (m.put record)
      steps (by rw [List.length_cons] at hsteps; omega) hnames
      (fun m' hm' hmem => hname (List.mem_map.mpr ⟨m', hm', List.mem_singleton.mp hmem⟩))
      hfind hreads
    simp only [List.map_cons, Filling.member, encodeMembers, List.append_assoc, List.cons_append,
      nestingMembers, List.reverse_cons]
    exact readFields_cons (readKeyStart_encodeText _ _).1 hfindM List.not_mem_nil hreadsM hd
      (ends_encodeMoreMembers _ _) hmore

theorem length_lt_stepsFor (members : List (String × Json)) (rest : Bytes) :
    members.length < stepsFor (encodeMembers members ++ rest) := by
  have hmore : ∀ members : List (String × Json),
      members.length ≤ (encodeMoreMembers members).length := by
    intro members
    induction members with
    | nil => exact Nat.zero_le _
    | cons m more ih =>
      simp only [encodeMoreMembers, List.length_append, List.length_cons]
      omega
  have hlength : members.length ≤ (encodeMembers members).length + 1 := by
    cases members with
    | nil => exact Nat.zero_le _
    | cons m more =>
      have := hmore more
      simp only [encodeMembers, List.length_append, List.length_cons]
      omega
  rw [stepsFor, List.length_append]
  omega

/-- A record that is written member by member in the order of its fields is read as what the
fields make of it. -/
theorem Reader.plainRecord_recovers (start : S) (fillings : List (Filling S))
    (hnames : (fillings.map (·.field.name)).Nodup) (hreads : ∀ m ∈ fillings, m.Reads) :
    (Reader.plainRecord start (fillings.map (·.field))).Recovers
      (.object (fillings.map Filling.member)) (Filling.fill fillings start) := by
  intro depth rest hd _
  have hfind : ∀ m ∈ fillings,
      (fillings.map (·.field)).find? (·.name == m.field.name) = some m.field := fun m hm =>
    find?_name (by rwa [List.map_map]) (List.mem_map_of_mem hm)
  have hpresent : ((fillings.map (·.field)).any fun f => f.presence = .required &&
      !(fillings.map (·.field.name)).reverse.contains f.name) = false := by
    rw [List.any_eq_false]
    intro f hf
    obtain ⟨m, hm, rfl⟩ := List.mem_map.mp hf
    have : m.field.name ∈ (fillings.map (·.field.name)).reverse :=
      List.mem_reverse.mpr (List.mem_map_of_mem hm)
    rw [List.contains_iff_mem.mpr this, Bool.not_true, Bool.and_false]
    exact Bool.false_ne_true
  have hsteps := length_lt_stepsFor (fillings.map Filling.member) rest
  rw [List.length_map] at hsteps
  rw [nesting, encode]
  refine bounded_level (fun hd' => readFields_encodeMembers .skipped (by omega) rest fillings start
    _ hsteps hnames hfind hreads) ?_
  change (if _ = true then _ else _) = _
  rw [hpresent]
  rfl

end Courier.Json
