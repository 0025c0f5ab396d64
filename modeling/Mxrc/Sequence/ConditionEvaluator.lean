import Mxrc.Lib.Decimal
import Mxrc.Lib.Text

/-!
# Condition expressions

`evaluate` trims the expression and searches it for `==`, `!=`, `>=`, `<=`, `>`,
`<`, each over the whole text. The first candidate that occurs anywhere is the
operator, cut at its first occurrence. Texts are lists of characters; numbers
are exact rationals.
-/

namespace Mxrc.Sequence.ConditionEvaluator
open List
open Lib

abbrev Text := List Char

inductive Variable
  | int (n : Int32)
  | long (n : Int64)
  | double (x : ℚ)
  | float (x : ℚ)
  | bool (b : Bool)
  | string (s : Text)
  | charPointer (s : Text)
  | other
  deriving DecidableEq

abbrev ExecutionContext := Text → Option Variable

inductive Operator
  | eq
  | ne
  | ge
  | le
  | gt
  | lt
  deriving DecidableEq

def Operator.text : Operator → Text
  | .eq => ['=', '=']
  | .ne => ['!', '=']
  | .ge => ['>', '=']
  | .le => ['<', '=']
  | .gt => ['>']
  | .lt => ['<']

def isBlank (c : Char) : Bool := [' ', '\t', '\n', '\r'].contains c

def trim (str : Text) : Text := Lib.trim isBlank str

def search (candidates : List Operator) (expr : Text) : Option (Operator × ℕ) :=
  candidates.findSome? fun candidate => (find candidate.text expr).map fun pos => (candidate, pos)

def findOperator (expr : Text) : Option (Operator × ℕ) :=
  (search [.eq, .ne, .ge, .le] expr).or (search [.gt, .lt] expr)

def split (expression : Text) : Option (Text × Operator × Text) :=
  let expr := trim expression
  (findOperator expr).map fun found =>
    (trim (expr.take found.2), found.1, trim (expr.drop (found.2 + found.1.text.length)))

def getVariableAsString (varName : Text) (context : ExecutionContext) : Text :=
  match context varName with
  | none => varName
  | some (.int n) => Decimal.ofInt n.toInt
  | some (.long n) => Decimal.ofInt n.toInt
  | some (.double x) => Decimal.fixed 6 x
  | some (.float x) => Decimal.fixed 6 x
  | some (.bool b) => (if b then "true" else "false").toList
  | some (.string s) => s
  | some (.charPointer s) => s
  | some .other => varName

def compareStrings (left : Text) (op : Operator) (right : Text) : Bool :=
  match op with
  | .eq => left = right
  | .ne => left ≠ right
  | .gt => right < left
  | .lt => left < right
  | .ge => right ≤ left
  | .le => left ≤ right

def compareNumbers (left : ℚ) (op : Operator) (right : ℚ) : Bool :=
  match op with
  | .eq => |left - right| < 1 / 10 ^ 9
  | .ne => 1 / 10 ^ 9 ≤ |left - right|
  | .gt => right < left
  | .lt => left < right
  | .ge => right ≤ left
  | .le => left ≤ right

/-- The comparison of `evaluate`: of numbers when `isNumber` holds of both texts. -/
def compare (left : Text) (op : Operator) (right : Text) : Bool :=
  match Decimal.number? left, Decimal.number? right with
  | some leftNum, some rightNum => compareNumbers leftNum op rightNum
  | _, _ => compareStrings left op right

def evaluate (expression : Text) (context : ExecutionContext) : Except Text Bool :=
  match split expression with
  | none => .error ("Invalid condition expression: ".toList ++ expression)
  | some (left, op, right) => .ok (compare (getVariableAsString left context) op right)

lemma evaluate_of_split {expression left right : Text} {op : Operator}
    (h : split expression = some (left, op, right)) (context : ExecutionContext) :
    evaluate expression context = .ok (compare (getVariableAsString left context) op right) := by
  rw [evaluate, h]

/-! ### What a comparison can say -/

section
variable {left right : Text} {op : Operator}

lemma compare_of_number?_left (h : Decimal.number? left = none) :
    compare left op right = compareStrings left op right := by
  rw [compare, h]

lemma compare_of_number?_right (h : Decimal.number? right = none) :
    compare left op right = compareStrings left op right := by
  rw [compare, h]
  cases Decimal.number? left <;> rfl

lemma compare_of_numbers {x y : ℚ} (hleft : Decimal.number? left = some x)
    (hrig : Decimal.number? right = some y) :
    compare left op right = compareNumbers x op y := by
  rw [compare, hleft, hrig]

lemma compare_self_eq (s : Text) : compare s .eq s = true := by
  cases hs : Decimal.number? s with
  | none => simp [compare_of_number?_left hs, compareStrings]
  | some x => simp [compare_of_numbers hs hs, compareNumbers]

lemma compare_self_ne (s : Text) : compare s .ne s = false := by
  cases hs : Decimal.number? s with
  | none => simp [compare_of_number?_left hs, compareStrings]
  | some x => simp [compare_of_numbers hs hs, compareNumbers]

lemma number?_blank (s : Text) : Decimal.number? (s ++ [' ']) = none := by
  by_contra h
  have hnum := Decimal.isNumeric_of_number? (Option.isSome_iff_ne_none.mpr h)
    (mem_append_right s (mem_singleton_self ' '))
  exact absurd hnum (by decide)

lemma lt_append_blank (s : Text) : s < s ++ [' '] := by
  induction s with
  | nil => decide
  | cons c s ih => exact cons_lt_cons_iff.mpr (.inr ⟨rfl, ih⟩)

lemma nil_le_text (s : Text) : [] ≤ s := not_lt.mp (List.not_lt_nil s)

/-- No left side changes the outcome: every text is at least the empty one. -/
def Decided (op : Operator) (right : Text) : Prop := right = [] ∧ (op = .ge ∨ op = .lt)

lemma compare_of_decided (h : Decided op right) (s t : Text) :
    compare s op right = compare t op right := by
  obtain ⟨rfl, rfl | rfl⟩ := h
  · rw [compare_of_number?_right rfl, compare_of_number?_right rfl]
    simp [compareStrings, nil_le_text]
  · rw [compare_of_number?_right rfl, compare_of_number?_right rfl]
    simp [compareStrings]

lemma exists_compare_eq (h : ¬Decided op right) (b : Bool) : ∃ s, compare s op right = b := by
  have hbel : right ≠ [] → ([] : Text) < right := fun hne => by
    obtain ⟨c, t, rfl⟩ := exists_cons_of_ne_nil hne
    exact nil_lt_cons c t
  have habove := lt_append_blank right
  have hemp : compare [] op right = compareStrings [] op right := compare_of_number?_left rfl
  have hbln : compare (right ++ [' ']) op right = compareStrings (right ++ [' ']) op right :=
    compare_of_number?_left (number?_blank right)
  cases op with
  | eq =>
    cases b with
    | true => exact ⟨right, compare_self_eq right⟩
    | false => exact ⟨right ++ [' '], by rw [hbln]; simp [compareStrings]⟩
  | ne =>
    cases b with
    | true => exact ⟨right ++ [' '], by rw [hbln]; simp [compareStrings]⟩
    | false => exact ⟨right, compare_self_ne right⟩
  | ge =>
    have hne : right ≠ [] := fun hr => h ⟨hr, .inl rfl⟩
    cases b with
    | true => exact ⟨right ++ [' '], by rw [hbln]; simp [compareStrings, habove.le]⟩
    | false => exact ⟨[], by rw [hemp]; simp [compareStrings, hbel hne]⟩
  | le =>
    cases b with
    | true => exact ⟨[], by rw [hemp]; simp [compareStrings, nil_le_text]⟩
    | false => exact ⟨right ++ [' '], by rw [hbln]; simp [compareStrings, habove]⟩
  | gt =>
    cases b with
    | true => exact ⟨right ++ [' '], by rw [hbln]; simp [compareStrings, habove]⟩
    | false => exact ⟨[], by rw [hemp]; simp [compareStrings]⟩
  | lt =>
    have hne : right ≠ [] := fun hr => h ⟨hr, .inr rfl⟩
    cases b with
    | true => exact ⟨[], by rw [hemp]; simp [compareStrings, hbel hne]⟩
    | false => exact ⟨right ++ [' '], by rw [hbln]; simp [compareStrings, habove.le]⟩

end
end Mxrc.Sequence.ConditionEvaluator
