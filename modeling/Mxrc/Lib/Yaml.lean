import Mathlib

/-!
# A YAML library

The functions that are called are a parameter, and what may throw returns
`Except`. `get` is `operator[]` with a key; a node that tests false is `none`,
and every conversion of it throws. `YamlTree` is a plain document type.
-/

namespace Mxrc.Lib

structure YamlLib (Y : Type) where
  get : Y → String → Except String (Option Y)
  elements? : Y → Option (List Y)
  asString : Y → Except String String
  asInt : Y → Except String Int32
  asUInt32 : Y → Except String UInt32
  asBool : Y → Except String Bool

namespace YamlLib
variable {Y τ : Type} (lib : YamlLib Y)

def required (node : Y) (name : String) (convert : Y → Except String τ) : Except String τ := do
  match ← lib.get node name with
  | none => throw ("invalid node; first invalid key: \"" ++ name ++ "\"")
  | some value => convert value

def optional (node : Y) (name : String) (convert : Y → Except String τ) (default : τ) :
    Except String τ := do
  match ← lib.get node name with
  | none => return default
  | some value => convert value

end YamlLib

inductive YamlTree
  | scalar (text : String)
  | sequence (elements : List YamlTree)
  | map (entries : List (String × YamlTree))

namespace YamlTree

def convert {τ : Type} (f : String → Option τ) : YamlTree → Except String τ
  | .scalar text => (f text).elim (throw "bad conversion") pure
  | _ => throw "bad conversion"

def boolOf (text : String) : Option Bool :=
  if text ∈ ["y", "yes", "true", "on"] then some true
  else if text ∈ ["n", "no", "false", "off"] then some false
  else none

def lib : YamlLib YamlTree where
  get
    | .map entries, key => pure (entries.lookup key)
    | .sequence _, _ => pure none
    | .scalar _, _ => throw "operator[] call on a scalar"
  elements?
    | .sequence elements => some elements
    | _ => none
  asString := convert some
  asInt := convert fun text =>
    text.toInt?.bind fun n => if -2 ^ 31 ≤ n ∧ n < 2 ^ 31 then some (Int32.ofInt n) else none
  asUInt32 := convert fun text =>
    text.toNat?.bind fun n => if n < 2 ^ 32 then some (UInt32.ofNat n) else none
  asBool := convert boolOf

end YamlTree
end Mxrc.Lib
