import Courier.Json.Basic
import Courier.Text.Utf8

/-!
# AMQP values and headers

AMQP knows numbers of many widths, two kinds of strings, arrays and tables. `Value.ofJson` and
`Table.ofHeaders` write headers as a table, `Value.toJson` and `Table.toHeaders` read any table as
headers. An integer that fits 64 bits with a sign is written as such, any other number as a double;
a text as a long string, which holds bytes, so it is read with replacement characters where it is
no valid UTF-8.
-/

namespace Courier.Amqp

/-- A value in a table. -/
inductive Value where
  | void
  | boolean (value : Bool)
  | shortShortInt (value : Int8)
  | shortShortUInt (value : UInt8)
  | shortInt (value : Int16)
  | shortUInt (value : UInt16)
  | longInt (value : Int32)
  | longUInt (value : UInt32)
  | longLongInt (value : Int64)
  | timestamp (value : UInt64)
  | float (value : Float32)
  | double (value : Float)
  | decimal (scale : UInt8) (value : UInt32)
  | shortString (value : String)
  | longString (value : Bytes)
  | byteArray (value : Bytes)
  | array (items : List Value)
  | table (entries : List (String × Value))
  deriving Inhabited

/-- A table, in ascending order of its keys. -/
abbrev Table := List (String × Value)

/-! ## From headers -/

/-- A whole number as it is written. -/
def Value.ofInt (n : Int) : Value :=
  if Int64.minValue.toInt ≤ n ∧ n ≤ Int64.maxValue.toInt then .longLongInt (Int64.ofInt n)
  else .double (Float.ofInt n)

mutual

/-- A header's value as it is written. -/
def Value.ofJson : Json → Value
  | .null => .void
  | .bool value => .boolean value
  | .int value => .ofInt value
  | .float value => .double value
  | .text value => .longString (Bytes.ofText value)
  | .array items => .array (Value.ofItems items)
  | .object members => .table (Table.ofHeaders members)

/-- The items of an array as they are written. -/
def Value.ofItems : List Json → List Value
  | [] => []
  | item :: rest => Value.ofJson item :: Value.ofItems rest

/-- Headers as a table. -/
def Table.ofHeaders : List (String × Json) → List (String × Value)
  | [] => []
  | (key, value) :: rest => (key, Value.ofJson value) :: Table.ofHeaders rest

end

/-! ## To headers -/

/-- A float as it is read; there is no JSON number for one that is not finite. -/
def Value.ofFloat (value : Float) : Json :=
  if value.isFinite then .float value else .null

/-- Bytes as they are read: a number each. -/
def Value.ofBytes (bytes : Bytes) : Json :=
  .array (bytes.map fun b => .int b.toNat)

mutual

/-- A value as it is read. -/
def Value.toJson : Value → Json
  | .void => .null
  | .boolean value => .bool value
  | .shortShortInt value => .int value.toInt
  | .shortShortUInt value => .int value.toNat
  | .shortInt value => .int value.toInt
  | .shortUInt value => .int value.toNat
  | .longInt value => .int value.toInt
  | .longUInt value => .int value.toNat
  | .longLongInt value => .int value.toInt
  | .timestamp value => .int value.toNat
  | .float value => Value.ofFloat value.toFloat
  | .double value => Value.ofFloat value
  | .decimal _ _ => .null
  | .shortString value => .text value
  | .longString value => .text value.lossyText
  | .byteArray value => Value.ofBytes value
  | .array items => .array (Value.toItems items)
  | .table entries => .object (Table.toHeaders entries)

/-- The items of an array as they are read. -/
def Value.toItems : List Value → List Json
  | [] => []
  | item :: rest => item.toJson :: Value.toItems rest

/-- A table as headers. -/
def Table.toHeaders : List (String × Value) → List (String × Json)
  | [] => []
  | (key, value) :: rest => (key, value.toJson) :: Table.toHeaders rest

end

end Courier.Amqp
