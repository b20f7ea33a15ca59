import Informer.Json.Basic
import Informer.Decimal.Shortest
import Informer.Text.Quoted
import Std.Data.ExtTreeMap

/-!
# Decoding records from JSON values

A record is decoded from an object, member by member in the order of the names, or from an array of
its fields in declaration order. The first failure is the error. Unknown members are ignored; a
required field that no member gave is reported after all members have been read.

`DecodeError` holds the cause of a failure and `DecodeError.message` its wording.
-/

namespace Informer

/-- Why a value did not decode. -/
inductive DecodeError where
  /-- The value is of another type than `wanted`. -/
  | invalidType (found : Json) (wanted : String)
  /-- The value is of the right type and out of range. -/
  | invalidValue (found : Json) (wanted : String)
  /-- An array ended before the required fields of a record with `fields` fields. -/
  | tooShort (length : Nat) (record : String) (fields : Nat)
  /-- An array holds more items than the record has fields. -/
  | tooLong (length : Nat)
  /-- No member gave a required field. -/
  | missingField (name : String)
deriving DecidableEq

namespace DecodeError

/-- How a message shows the value that was found. -/
def describe : Json → String
  | .null => "null"
  | .bool true => "boolean `true`"
  | .bool false => "boolean `false`"
  | .integer n => "integer `" ++ toString n ++ "`"
  | .float x => "floating point `" ++ Decimal.shortestText x ++ "`"
  | .string s => "string " ++ Text.quote s
  | .array _ => "sequence"
  | .object _ => "map"

/-- The wording of a failure. -/
def message : DecodeError → String
  | invalidType found wanted => "invalid type: " ++ describe found ++ ", expected " ++ wanted
  | invalidValue found wanted => "invalid value: " ++ describe found ++ ", expected " ++ wanted
  | tooShort length record fields =>
    "invalid length " ++ toString length ++ ", expected struct " ++ record ++ " with "
      ++ toString fields ++ " elements"
  | tooLong length =>
    "invalid length " ++ toString length ++ ", expected fewer elements in array"
  | missingField name => "missing field `" ++ name ++ "`"

end DecodeError

namespace Decode

/-! ### Values -/

/-- Decodes a string. -/
def text : Json → Except DecodeError String
  | .string s => .ok s
  | v => .error (.invalidType v "a string")

/-- Decodes an unsigned integer of 32 bits. -/
def word32 : Json → Except DecodeError UInt32
  | .integer n =>
    if 0 ≤ n ∧ n < UInt32.size then .ok (UInt32.ofNat n.toNat)
    else .error (.invalidValue (.integer n) "u32")
  | v => .error (.invalidType v "u32")

/-- Decodes a signed integer of 64 bits. -/
def int64 : Json → Except DecodeError Int64
  | .integer n =>
    if Int64.minValue.toInt ≤ n ∧ n ≤ Int64.maxValue.toInt then .ok (Int64.ofInt n)
    else .error (.invalidValue (.integer n) "i64")
  | v => .error (.invalidType v "i64")

/-- Decodes a value that may be null. -/
def nullable {α : Type} (decode : Json → Except DecodeError α) :
    Json → Except DecodeError (Option α)
  | .null => .ok none
  | v => (decode v).map some

/-- Texts under names, in the order of the names. -/
abbrev TextMap := Std.ExtTreeMap String String

/-- Adds the members of an object to a map of texts. -/
def addTexts (texts : TextMap) : List (String × Json) → Except DecodeError TextMap
  | [] => .ok texts
  | (name, v) :: rest => do addTexts (texts.insert name (← text v)) rest

/-- Decodes an object whose members are all strings. -/
def textMap : Json → Except DecodeError TextMap
  | .object members => addTexts ∅ members
  | v => .error (.invalidType v "a map")

/-! ### Records -/

/-- One field of a record: its name and how its value enters the record. -/
structure Field (α : Type) where
  name : String
  /-- Whether the record cannot do without it. -/
  required : Bool
  /-- Decodes a value into the field. -/
  read : Json → α → Except DecodeError α

/-- Reads members into a record. -/
def readMembers {α : Type} (fields : List (Field α)) :
    List (String × Json) → α → Except DecodeError α
  | [], x => .ok x
  | (name, v) :: rest, x =>
    match fields.find? (·.name = name) with
    | some field => do readMembers fields rest (← field.read v x)
    | none => readMembers fields rest x

/-- Reads the items of an array of `length` items into the fields of a record in turn. -/
def readItems {α : Type} (record : String) (count length : Nat) :
    List (Field α) → List Json → α → Except DecodeError α
  | [], [], x => .ok x
  | [], _ :: _, _ => .error (.tooLong length)
  | field :: fields, [], x =>
    if field.required then .error (.tooShort length record count)
    else readItems record count length fields [] x
  | field :: fields, v :: vs, x => do
    readItems record count length fields vs (← field.read v x)

/-- Decodes a record called `record` with the given fields, starting from `blank`. -/
def record {α : Type} (record : String) (fields : List (Field α)) (blank : α) :
    Json → Except DecodeError α
  | .object members => do
    let x ← readMembers fields members blank
    match fields.find? fun field ↦ field.required && (Json.member? field.name members).isNone with
    | some field => .error (.missingField field.name)
    | none => .ok x
  | .array items => readItems record fields.length items.length fields items blank
  | v => .error (.invalidType v ("struct " ++ record))

end Decode

end Informer
