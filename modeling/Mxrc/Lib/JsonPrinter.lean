import Mxrc.Lib.Json

/-!
# Printing JSON documents

A `JsonPrinter` also builds documents and prints them with an indentation: what
is put into a document is found there, and a `Finite` document is parsed back,
up to the representation of its numbers. In `JsonTree` the text of a document is
its number in unary.
-/

namespace Mxrc.Lib
open List

def FiniteDouble (bits : UInt64) : Prop := (bits >>> 52) &&& 0x7FF ≠ 0x7FF

def FiniteFloat (bits : UInt32) : Prop := (bits >>> 23) &&& 0xFF ≠ 0xFF

instance (bits : UInt64) : Decidable (FiniteDouble bits) := inferInstanceAs (Decidable (_ ≠ _))

instance (bits : UInt32) : Decidable (FiniteFloat bits) := inferInstanceAs (Decidable (_ ≠ _))

structure JsonPrinter (J : Type) extends JsonLib J where
  ofInt : Int32 → J
  ofLong : Int64 → J
  ofDouble : UInt64 → J
  ofFloat : UInt32 → J
  ofString : String → J
  ofBool : Bool → J
  array : List J → J
  object : List (String × J) → J
  dump : J → Except String (List UInt8)
  Finite : J → Prop
  dump_finite : ∀ {j}, Finite j → ∃ text, dump j = .ok text ∧ parse text = .ok j
  finite_ofInt : ∀ n, Finite (ofInt n)
  finite_ofLong : ∀ n, Finite (ofLong n)
  finite_ofDouble : ∀ {bits}, FiniteDouble bits → Finite (ofDouble bits)
  finite_ofFloat : ∀ {bits}, FiniteFloat bits → Finite (ofFloat bits)
  finite_ofString : ∀ text, Finite (ofString text)
  finite_ofBool : ∀ b, Finite (ofBool b)
  finite_array : ∀ {elements}, (∀ e ∈ elements, Finite e) → Finite (array elements)
  finite_object : ∀ {fields}, (∀ f ∈ fields, Finite f.2) → Finite (object fields)
  contains_object : ∀ fields name, contains (object fields) name = (fields.lookup name).isSome
  field_object : ∀ {fields name v}, fields.lookup name = some v → field (object fields) name = v
  isArray_array : ∀ elements, isArray (array elements) = true
  elements_array : ∀ es, elements (array es) = es
  isNumberInteger_ofInt : ∀ n, isNumberInteger (ofInt n) = true
  getInt_ofInt : ∀ n, getInt (ofInt n) = .ok n
  getLong_ofLong : ∀ n, getLong (ofLong n) = .ok n
  getDouble_ofDouble : ∀ {bits}, FiniteDouble bits → getDouble (ofDouble bits) = .ok bits
  getFloat_ofFloat : ∀ {bits}, FiniteFloat bits → getFloat (ofFloat bits) = .ok bits
  getString_ofString : ∀ text, getString (ofString text) = .ok text
  getBool_ofBool : ∀ b, getBool (ofBool b) = .ok b

instance countableChar : Countable Char := by
  have hinj : Function.Injective Char.toNat := fun a b h => Char.toNat_inj.mp h
  exact hinj.countable

instance countableString : Countable String := by
  have hinj : Function.Injective String.toList := fun a b h => String.toList_inj.mp h
  exact hinj.countable

inductive JsonTree
  | null
  | bool (value : Bool)
  | integer (value : ℤ)
  | double (bits : UInt64)
  | float (bits : UInt32)
  | string (value : String)
  | emptyArray
  | cons (element elements : JsonTree)
  | emptyObject
  | insert (name : String) (value fields : JsonTree)
deriving Countable

namespace JsonTree

def array (elements : List JsonTree) : JsonTree := elements.foldr cons emptyArray

def object (fields : List (String × JsonTree)) : JsonTree :=
  fields.foldr (fun f rest => insert f.1 f.2 rest) emptyObject

def isArray : JsonTree → Bool
  | .emptyArray => true
  | .cons _ _ => true
  | _ => false

def elements : JsonTree → List JsonTree
  | .cons element rest => element :: rest.elements
  | _ => []

def field? : JsonTree → String → Option JsonTree
  | .insert name value rest, name' => if name' = name then some value else rest.field? name'
  | _, _ => none

lemma isArray_array (es : List JsonTree) : (array es).isArray = true := by
  cases es with
  | nil => rfl
  | cons e es => rfl

lemma elements_array (es : List JsonTree) : (array es).elements = es := by
  induction es with
  | nil => rfl
  | cons e es ih => exact congrArg (e :: ·) ih

lemma field?_object (fields : List (String × JsonTree)) (name : String) :
    (object fields).field? name = fields.lookup name := by
  induction fields with
  | nil => rfl
  | cons f fields ih =>
    rw [object, foldr_cons, field?, ← object, ih, lookup_cons]
    by_cases hname : name = f.1
    · rw [if_pos hname, hname, beq_self_eq_true]
    · rw [if_neg hname, beq_false_of_ne hname]

lemma exists_text : ∃ text : JsonTree → List UInt8,
    Function.Injective text ∧ ∀ j, text j ≠ [] := by
  obtain ⟨number, hnum⟩ := exists_injective_nat JsonTree
  refine ⟨fun j => List.replicate (number j + 1) 0, fun a b hab => ?_, fun j => ?_⟩
  · have hlen := congrArg List.length hab
    rw [length_replicate, length_replicate] at hlen
    exact hnum (Nat.succ.inj hlen)
  · exact cons_ne_nil _ _

noncomputable def text : JsonTree → List UInt8 := exists_text.choose

lemma text_injective : Function.Injective text := exists_text.choose_spec.1

lemma text_ne_nil (j : JsonTree) : text j ≠ [] := exists_text.choose_spec.2 j

open Classical in
noncomputable def parse (bytes : List UInt8) : Except ParseFailure JsonTree :=
  match Function.partialInv text bytes with
  | some j => .ok j
  | none => .error (.parseError "")

lemma parse_text (j : JsonTree) : parse (text j) = .ok j := by
  rw [parse, Function.partialInv_left text_injective]

def mustBe (expected : String) : String :=
  "[json.exception.type_error.302] type must be " ++ expected

noncomputable def lib : JsonLib JsonTree where
  parse := parse
  contains j name := (j.field? name).isSome
  field j name := (j.field? name).getD .null
  isNumberInteger
    | .integer _ => true
    | _ => false
  isArray := isArray
  elements := elements
  getInt
    | .integer n => .ok (Int32.ofInt n)
    | _ => .error (mustBe "number")
  getLong
    | .integer n => .ok (Int64.ofInt n)
    | _ => .error (mustBe "number")
  getDouble
    | .double bits => .ok bits
    | _ => .error (mustBe "number")
  getFloat
    | .float bits => .ok bits
    | _ => .error (mustBe "number")
  getString
    | .string text => .ok text
    | _ => .error (mustBe "string")
  getBool
    | .bool b => .ok b
    | _ => .error (mustBe "boolean")

noncomputable def printer : JsonPrinter JsonTree where
  toJsonLib := lib
  ofInt n := .integer n.toInt
  ofLong n := .integer n.toInt
  ofDouble bits := .double bits
  ofFloat bits := .float bits
  ofString text := .string text
  ofBool b := .bool b
  array := array
  object := object
  dump j := .ok (text j)
  Finite _ := True
  dump_finite _ := ⟨_, rfl, parse_text _⟩
  finite_ofInt _ := trivial
  finite_ofLong _ := trivial
  finite_ofDouble _ := trivial
  finite_ofFloat _ := trivial
  finite_ofString _ := trivial
  finite_ofBool _ := trivial
  finite_array _ := trivial
  finite_object _ := trivial
  contains_object fields name := by
    change ((object fields).field? name).isSome = _
    rw [field?_object]
  field_object {fields name v} h := by
    change ((object fields).field? name).getD .null = v
    rw [field?_object, h]
    rfl
  isArray_array := isArray_array
  elements_array := elements_array
  isNumberInteger_ofInt _ := rfl
  getInt_ofInt n := congrArg Except.ok (Int32.ofInt_toInt n)
  getLong_ofLong n := congrArg Except.ok (Int64.ofInt_toInt n)
  getDouble_ofDouble _ := rfl
  getFloat_ofFloat _ := rfl
  getString_ofString _ := rfl
  getBool_ofBool _ := rfl

end JsonTree
end Mxrc.Lib
