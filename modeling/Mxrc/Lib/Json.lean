import Mathlib

/-!
# A JSON library

The library is a parameter: `JsonLib` lists the functions that are called, and
whatever may throw returns `Except`. Floating-point numbers are bit patterns.
`JsonValue` is a plain document type without fractions. A document that a
`JsonCodec` prints has no control characters, and it parses back if it is
`Finite`, without infinities and NaNs.
-/

namespace Mxrc.Lib

inductive ParseFailure
  | parseError (what : String)
  | other (what : String)
deriving DecidableEq

structure JsonLib (J : Type) where
  parse : List UInt8 → Except ParseFailure J
  contains : J → String → Bool
  field : J → String → J
  isNumberInteger : J → Bool
  isArray : J → Bool
  elements : J → List J
  getInt : J → Except String Int32
  getLong : J → Except String Int64
  getDouble : J → Except String UInt64
  getFloat : J → Except String UInt32
  getString : J → Except String String
  getBool : J → Except String Bool

structure JsonCodec (J : Type) extends JsonLib J where
  ofLong : Int64 → J
  ofString : String → J
  object : List (String × J) → J
  dump : J → Except String (List UInt8)
  Finite : J → Prop
  finite_parse : ∀ {text j}, parse text = .ok j → Finite j
  finite_ofLong : ∀ n, Finite (ofLong n)
  finite_ofString : ∀ text, Finite (ofString text)
  finite_object : ∀ {fields}, (∀ f ∈ fields, Finite f.2) → Finite (object fields)
  parse_dump : ∀ {j text}, Finite j → dump j = .ok text → parse text = .ok j
  printable_dump : ∀ {j text}, dump j = .ok text → text ≠ [] ∧ ∀ b ∈ text, 32 ≤ b
  dump_member : ∀ {fields text}, dump (object fields) = .ok text →
    ∀ f ∈ fields, (dump f.2).isOk = true
  field_object : ∀ {fields name v}, fields.lookup name = some v → field (object fields) name = v
  getLong_ofLong : ∀ n, getLong (ofLong n) = .ok n
  getString_ofString : ∀ text, getString (ofString text) = .ok text

inductive JsonValue
  | null
  | bool (value : Bool)
  | integer (value : ℤ)
  | string (value : String)
  | array (elements : List JsonValue)
  | object (fields : List (String × JsonValue))

namespace JsonValue

def typeName : JsonValue → String
  | .null => "null"
  | .bool _ => "boolean"
  | .integer _ => "number"
  | .string _ => "string"
  | .array _ => "array"
  | .object _ => "object"

def field? : JsonValue → String → Option JsonValue
  | .object fields, name => fields.lookup name
  | _, _ => none

def mustBe (expected : String) (v : JsonValue) : String :=
  "[json.exception.type_error.302] type must be " ++ expected ++ ", but is " ++ v.typeName

def lib (parse : List UInt8 → Except ParseFailure JsonValue) : JsonLib JsonValue where
  parse := parse
  contains v name := (v.field? name).isSome
  field v name := (v.field? name).getD .null
  isNumberInteger
    | .integer _ => true
    | _ => false
  isArray
    | .array _ => true
    | _ => false
  elements
    | .array elements => elements
    | _ => []
  getInt
    | .integer n => .ok (Int32.ofInt n)
    | .bool b => .ok (if b then 1 else 0)
    | v => .error (v.mustBe "number")
  getLong
    | .integer n => .ok (Int64.ofInt n)
    | .bool b => .ok (if b then 1 else 0)
    | v => .error (v.mustBe "number")
  getDouble v := .error (v.mustBe "number")
  getFloat v := .error (v.mustBe "number")
  getString
    | .string text => .ok text
    | v => .error (v.mustBe "string")
  getBool
    | .bool b => .ok b
    | v => .error (v.mustBe "boolean")

end JsonValue
end Mxrc.Lib
