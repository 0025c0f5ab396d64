import Mxrc.Sequence.FirstOperator

/-!
# Conditions on numbers

A numeric variable is compared through its text, `double` and `float` with six
decimals. `==` has a tolerance of `10⁻⁹` and the order comparisons have none.
-/

namespace Mxrc.Sequence.ConditionEvaluator
open List
open Lib

def Variable.number? : Variable → Option ℚ
  | .int n => some n.toInt
  | .long n => some n.toInt
  | .double x => some x
  | .float x => some x
  | _ => none

def Variable.shown : Variable → ℚ
  | .int n => n.toInt
  | .long n => n.toInt
  | .double x => Decimal.rounded 6 x
  | .float x => Decimal.rounded 6 x
  | _ => 0

def Holds (name : Text) (op : Operator) (literal : Text) (context : ExecutionContext) : Prop :=
  evaluate (expression name op literal) context = .ok true

/-- The laws of the order for the variable `name` of exact value `x` and the literal of
value `r`. -/
structure Coherent (name literal : Text) (context : ExecutionContext) (x r : ℚ) : Prop where
  exactlyOne : (Holds name .lt literal context ∧ ¬Holds name .eq literal context ∧
      ¬Holds name .gt literal context) ∨
    (¬Holds name .lt literal context ∧ Holds name .eq literal context ∧
      ¬Holds name .gt literal context) ∨
    (¬Holds name .lt literal context ∧ ¬Holds name .eq literal context ∧
      Holds name .gt literal context)
  le_iff : Holds name .le literal context ↔
    Holds name .lt literal context ∨ Holds name .eq literal context
  ge_iff : Holds name .ge literal context ↔
    Holds name .gt literal context ∨ Holds name .eq literal context
  lt_iff : Holds name .lt literal context ↔ x < r

section
variable {name literal : Text} {context : ExecutionContext} {v : Variable} {x r : ℚ}

lemma number?_getVariableAsString (hv : context name = some v) (hx : v.number? = some x) :
    Decimal.number? (getVariableAsString name context) = some v.shown := by
  rw [getVariableAsString, hv]
  cases v with
  | int n => exact Decimal.number?_ofInt _
  | long n => exact Decimal.number?_ofInt _
  | double y => exact Decimal.number?_fixed (by decide) y
  | float y => exact Decimal.number?_fixed (by decide) y
  | bool b => simp [Variable.number?] at hx
  | string s => simp [Variable.number?] at hx
  | charPointer s => simp [Variable.number?] at hx
  | other => simp [Variable.number?] at hx

lemma not_isOperatorChar_of_number? (h : Decimal.number? literal = some r) :
    ∀ c ∈ literal, ¬IsOperatorChar c ∧ ¬isBlank c := by
  intro c hc
  have hnum := Decimal.isNumeric_of_number? (by rw [h]; rfl) hc
  constructor
  · intro hop
    simp only [IsOperatorChar, mem_cons, not_mem_nil, or_false] at hop
    rcases hop with rfl | rfl | rfl | rfl <;> revert hnum <;> decide
  · intro hbln
    simp only [isBlank, contains_eq_mem, decide_eq_true_eq, mem_cons, not_mem_nil, or_false] at hbln
    rcases hbln with rfl | rfl | rfl | rfl <;> revert hnum <;> decide

lemma split_literal (hname : ∀ c ∈ name, ¬IsOperatorChar c) (htrim : trim name = name)
    (hr : Decimal.number? literal = some r) (op : Operator) :
    split (expression name op literal) = some (name, op, literal) := by
  have hlit := not_isOperatorChar_of_number? hr
  have hnone : ∀ candidate ∈ searchedBefore op, ¬candidate.text <:+: literal := by
    intro candidate _ hocc
    obtain ⟨c, hc⟩ := exists_mem_of_ne_nil _ (text_ne_nil candidate)
    exact (hlit c (hocc.subset hc)).1 (isOperatorChar_of_mem_text candidate c hc)
  have hself : trim literal = literal := trim_eq_self fun c hc => (hlit c hc).2
  rw [split_expression hname hnone, htrim, hself]

lemma holds_iff (hname : ∀ c ∈ name, ¬IsOperatorChar c) (htrim : trim name = name)
    (hv : context name = some v) (hx : v.number? = some x)
    (hr : Decimal.number? literal = some r) (op : Operator) :
    Holds name op literal context ↔ compareNumbers v.shown op r = true := by
  rw [Holds, evaluate_of_split (split_literal hname htrim hr op),
    compare_of_numbers (number?_getVariableAsString hv hx) hr, Except.ok.injEq]

end

lemma exactlyOne_iff (q r : ℚ) :
    ((q < r ∧ ¬|q - r| < 1 / 10 ^ 9 ∧ ¬r < q) ∨ (¬q < r ∧ |q - r| < 1 / 10 ^ 9 ∧ ¬r < q) ∨
      (¬q < r ∧ ¬|q - r| < 1 / 10 ^ 9 ∧ r < q)) ↔ q = r ∨ 1 / 10 ^ 9 ≤ |q - r| := by
  rcases lt_trichotomy q r with hlt | rfl | hgt
  · simp [hlt, hlt.le, hlt.ne]
  · simp
  · simp [hgt, hgt.le, hgt.ne']

lemma le_iff_lt_or_near {q r : ℚ} (h : q = r ∨ 1 / 10 ^ 9 ≤ |q - r|) :
    q ≤ r ↔ q < r ∨ |q - r| < 1 / 10 ^ 9 := by
  rcases h with rfl | hfar
  · simp
  · have hne : q ≠ r := by
      rintro rfl
      rw [sub_self, abs_zero] at hfar
      norm_num at hfar
    rw [or_iff_left (not_lt.mpr hfar)]
    exact ⟨fun hle => lt_of_le_of_ne hle hne, le_of_lt⟩

theorem coherent_iff (name literal : Text) (context : ExecutionContext) (v : Variable) (x r : ℚ)
    (hname : ∀ c ∈ name, ¬IsOperatorChar c) (htrim : trim name = name)
    (hv : context name = some v) (hx : v.number? = some x)
    (hr : Decimal.number? literal = some r) :
    Coherent name literal context x r ↔
      (v.shown = r ∨ 1 / 10 ^ 9 ≤ |v.shown - r|) ∧ (v.shown < r ↔ x < r) := by
  have hhol := holds_iff hname htrim hv hx hr
  constructor
  · intro h
    have hone := h.exactlyOne
    have hlt := h.lt_iff
    simp only [hhol, compareNumbers, decide_eq_true_eq] at hone hlt
    exact ⟨(exactlyOne_iff _ _).mp hone, hlt⟩
  · rintro ⟨hprt, hlt⟩
    refine ⟨?_, ?_, ?_, ?_⟩ <;> simp only [hhol, compareNumbers, decide_eq_true_eq]
    · exact (exactlyOne_iff _ _).mpr hprt
    · exact le_iff_lt_or_near hprt
    · rw [abs_sub_comm, eq_comm] at hprt
      rw [abs_sub_comm]
      exact le_iff_lt_or_near hprt
    · exact hlt

theorem coherent_iff_half :
    Decimal.number? "0.25".toList = some (1 / 4) ∧
      (Coherent "x".toList "0.25".toList (fun _ => some (.double (1 / 2))) (1 / 2) (1 / 4) ↔
        ((Variable.double (1 / 2)).shown = 1 / 4 ∨
          1 / 10 ^ 9 ≤ |(Variable.double (1 / 2)).shown - 1 / 4|) ∧
        ((Variable.double (1 / 2)).shown < 1 / 4 ↔ (1 / 2 : ℚ) < 1 / 4)) :=
  have hlit : Decimal.number? "0.25".toList = some (1 / 4) := by decide +kernel
  ⟨hlit, coherent_iff _ _ _ (.double (1 / 2)) _ _ (by simp [IsOperatorChar]) (by decide) rfl rfl
    hlit⟩

/-- `0.5 == 0.5000000005` and `0.5 < 0.5000000005` are both true. -/
theorem not_coherent_within_tolerance :
    ¬∀ (name literal : Text) (context : ExecutionContext) (v : Variable) (x r : ℚ),
      (∀ c ∈ name, ¬IsOperatorChar c) → trim name = name → context name = some v →
      v.number? = some x → Decimal.number? literal = some r →
      Coherent name literal context x r := by
  intro h
  have hboth := (h "x".toList "0.5000000005".toList (fun _ => some (.double (1 / 2)))
    (.double (1 / 2)) (1 / 2) (1000000001 / 2000000000) (by simp [IsOperatorChar]) (by decide) rfl
    rfl
    (by decide +kernel)).exactlyOne
  revert hboth
  unfold Holds
  decide +kernel

end Mxrc.Sequence.ConditionEvaluator
