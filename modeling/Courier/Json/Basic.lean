/-!
# JSON values

Numbers are of two kinds, integers and floats, and a number is equal only to one of its own kind.
An object is kept in the order of its keys, each key once, so that two objects with the same
members are the same list; `Object.insert` keeps it so, and `Object.ofPairs` brings pairs into it,
the last of several with one key counting. What was put under a key is found there, and nothing else
changes (`Object.get?_insert_self`, `Object.get?_insert_of_ne`).
-/

namespace Courier

/-- A JSON value. -/
inductive Json where
  | null
  | bool (value : Bool)
  | int (value : Int)
  | float (value : Float)
  | text (value : String)
  | array (items : List Json)
  | object (members : List (String × Json))
  deriving Inhabited

namespace Json

/-- The members of an object, in ascending order of their keys. -/
abbrev Object := List (String × Json)

mutual

/-- Equality of values: floats by their numeric value, all else by form. -/
def beq : Json → Json → Bool
  | .null, .null => true
  | .bool a, .bool b => a == b
  | .int a, .int b => a == b
  | .float a, .float b => a == b
  | .text a, .text b => a == b
  | .array a, .array b => beqItems a b
  | .object a, .object b => beqMembers a b
  | _, _ => false

/-- Equality of two lists of values, position by position. -/
def beqItems : List Json → List Json → Bool
  | [], [] => true
  | a :: as, b :: bs => beq a b && beqItems as bs
  | _, _ => false

/-- Equality of two lists of members, position by position. -/
def beqMembers : List (String × Json) → List (String × Json) → Bool
  | [], [] => true
  | (k, a) :: as, (l, b) :: bs => k == l && beq a b && beqMembers as bs
  | _, _ => false

end

instance : BEq Json := ⟨beq⟩

/-- The text of a string value. -/
def text? : Json → Option String
  | .text value => some value
  | _ => none

/-- The truth value of a Boolean. -/
def bool? : Json → Option Bool
  | .bool value => some value
  | _ => none

/-- The members of an object. -/
def object? : Json → Option Object
  | .object members => some members
  | _ => none

/-- The items of an array. -/
def array? : Json → Option (List Json)
  | .array items => some items
  | _ => none

/-- The value of an integer that is not negative. -/
def nat? : Json → Option Nat
  | .int value => if 0 ≤ value then some value.toNat else none
  | _ => none

namespace Object

/-- The value under a key. -/
def get? (members : Object) (key : String) : Option Json :=
  members.lookup key

/-- Put a value under a key, replacing the one that is there. -/
def insert (key : String) (value : Json) : Object → Object
  | [] => [(key, value)]
  | (k, v) :: rest =>
    if key < k then (key, value) :: (k, v) :: rest
    else if key = k then (key, value) :: rest
    else (k, v) :: insert key value rest

@[simp] theorem get?_insert_self (key : String) (value : Json) (members : Object) :
    (insert key value members).get? key = some value := by
  induction members with
  | nil => simp [insert, get?]
  | cons m rest ih =>
    obtain ⟨k, v⟩ := m
    simp only [insert]
    split
    · simp [get?]
    · split
      · simp [get?]
      · rename_i h
        simp only [get?, List.lookup_cons, beq_false_of_ne h]
        exact ih

theorem get?_insert_of_ne {key other : String} (h : other ≠ key) (value : Json)
    (members : Object) : (insert key value members).get? other = members.get? other := by
  have hb : (other == key) = false := beq_false_of_ne h
  induction members with
  | nil => simp [insert, get?, h]
  | cons m rest ih =>
    obtain ⟨k, v⟩ := m
    simp only [insert]
    split
    · simp only [get?, List.lookup_cons, hb]
    · split
      · rename_i hk
        subst hk
        simp only [get?, List.lookup_cons, hb]
      · simp only [get?, List.lookup_cons] at ih ⊢
        rw [ih]

/-- The object with these members; of several with one key the last counts. -/
def ofPairs (pairs : List (String × Json)) : Object :=
  pairs.foldl (fun members (key, value) => insert key value members) []

end Object

/-- The object with these members, given in any order. -/
def ofPairs (pairs : List (String × Json)) : Json :=
  .object (Object.ofPairs pairs)

mutual

/-- The value with the members of every object in ascending order of their keys. -/
def sorted : Json → Json
  | .array items => .array (sortedItems items)
  | .object members => ofPairs (sortedMembers members)
  | value => value

/-- The items, each with its objects in order. -/
def sortedItems : List Json → List Json
  | [] => []
  | item :: rest => sorted item :: sortedItems rest

/-- The members, in the order in which they stand, each with its objects in order. -/
def sortedMembers : List (String × Json) → List (String × Json)
  | [] => []
  | (key, value) :: rest => (key, sorted value) :: sortedMembers rest

end

/-- A member of an object; of any other value, and where there is none, null. -/
def field (value : Json) (key : String) : Json :=
  match value with
  | .object members => (Object.get? members key).getD .null
  | _ => .null

end Json

/-- Key and value pairs that travel beside a message body. -/
abbrev Headers := Json.Object

end Courier
