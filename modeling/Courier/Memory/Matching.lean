import Courier.Message

/-!
# Which bindings a message matches

A topic is a text cut into words at its points. In the pattern of a binding the word `*` stands for
any one word and the word `#` for any number of words; the empty routing key has no words at all.
A headers binding asks for the members of its arguments, those beginning with `x-` left out, in
the headers of the message: for all of them, or for one if `x-match` is `any`.

Cutting loses nothing: the words with points between them are the text again
(`intercalate_splitWords`).
-/

namespace Courier.Memory

/-- Cut a text at its points. -/
def splitWords : List Char → List (List Char)
  | [] => [[]]
  | c :: rest =>
    if c = '.' then [] :: splitWords rest
    else
      match splitWords rest with
      | [] => [[c]]
      | word :: words => (c :: word) :: words

theorem splitWords_ne_nil (cs : List Char) : splitWords cs ≠ [] := by
  cases cs with
  | nil => simp [splitWords]
  | cons c rest =>
    simp only [splitWords]
    split
    · simp
    · split <;> simp

/-- Nothing is lost by cutting: the words with points between them are the text. -/
theorem intercalate_splitWords (cs : List Char) :
    List.intercalate ['.'] (splitWords cs) = cs := by
  induction cs with
  | nil => rfl
  | cons c rest ih =>
    simp only [splitWords]
    split
    · rename_i h
      rw [List.intercalate_cons_of_ne_nil (splitWords_ne_nil rest), ih, h]
      rfl
    · split
      · rename_i h
        exact absurd h (splitWords_ne_nil rest)
      · rename_i word words h
        rw [h] at ih
        cases words with
        | nil => simpa using ih
        | cons w ws => simpa using ih

/-- The words of a pattern. -/
def patternWords (pattern : String) : List (List Char) :=
  splitWords pattern.toList

/-- The words of a routing key; the empty key has none. -/
def keyWords (key : String) : List (List Char) :=
  if key.toList.isEmpty then [] else splitWords key.toList

/-- Does some suffix of the list, the list itself and the empty one included, pass the test? -/
def anySuffix {α : Type} (test : List α → Bool) : List α → Bool
  | [] => test []
  | a :: rest => test (a :: rest) || anySuffix test rest

theorem anySuffix_eq_true_iff {α : Type} (test : List α → Bool) (l : List α) :
    anySuffix test l = true ↔ ∃ suffix, suffix <:+ l ∧ test suffix = true := by
  induction l with
  | nil => simp [anySuffix]
  | cons a rest ih =>
    simp only [anySuffix, Bool.or_eq_true, ih, List.suffix_cons_iff]
    grind

/-- Do the words of a routing key match the words of a pattern? -/
def wordsMatch : List (List Char) → List (List Char) → Bool
  | [], key => key.isEmpty
  | ['#'] :: rest, key => anySuffix (wordsMatch rest) key
  | ['*'] :: rest, key =>
    match key with
    | [] => false
    | _ :: more => wordsMatch rest more
  | word :: rest, key =>
    match key with
    | [] => false
    | first :: more => first == word && wordsMatch rest more

/-- Does a routing key match the pattern of a topic binding? -/
def topicMatches (pattern key : String) : Bool :=
  wordsMatch (patternWords pattern) (keyWords key)

/-- Is the argument one about the binding itself? -/
def isReserved (key : String) : Bool :=
  ['x', '-'].isPrefixOf key.toList

/-- Has the message the header, with this value? -/
def hasHeader (headers : Headers) (argument : String × Json) : Bool :=
  match headers.get? argument.1 with
  | some value => value == argument.2
  | none => false

/-- Do the headers of a message match the arguments of a headers binding? -/
def headersMatch (arguments headers : Headers) : Bool :=
  let wanted := arguments.filter fun argument => !isReserved argument.1
  let any := match arguments.get? "x-match" with
    | some value => value.text? == some "any"
    | none => false
  if any then wanted.any (hasHeader headers) else wanted.all (hasHeader headers)

end Courier.Memory
