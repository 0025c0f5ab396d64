import Mxrc.Sequence.ConditionEvaluator

/-!
# At which operator an expression is cut

The expression `l op r`, with blanks around the operator and no operator
character in `l`. A candidate that is searched before `op` can occur in `r`
only; when none does, the cut is at `op`.
-/

namespace Mxrc.Sequence.ConditionEvaluator
open List Option
open Lib

def IsOperatorChar (c : Char) : Prop := c ∈ ['=', '!', '<', '>']

instance (c : Char) : Decidable (IsOperatorChar c) := inferInstanceAs (Decidable (_ ∈ _))

def expression (l : Text) (op : Operator) (r : Text) : Text := l ++ ' ' :: (op.text ++ ' ' :: r)

def order : List Operator := [.eq, .ne, .ge, .le, .gt, .lt]

def searchedBefore (op : Operator) : List Operator := order.takeWhile (· ≠ op)

/-- The comparison that the text of the expression asks for, in every context. -/
def ComparesAt (l : Text) (op : Operator) (r : Text) : Prop :=
  ∀ context, evaluate (expression l op r) context =
    .ok (compare (getVariableAsString l context) op (trim r))

section
variable {op candidate : Operator} {c : Char} {a b expr : Text} {pos : ℕ}

lemma findOperator_eq_findSome? (expr : Text) :
    findOperator expr =
      order.findSome? fun candidate =>
        (find candidate.text expr).map fun pos => (candidate, pos) := by
  rw [findOperator, search, search, ← findSome?_append]
  rfl

lemma exists_order_eq (op : Operator) : ∃ later, order = searchedBefore op ++ op :: later := by
  cases op <;> exact ⟨_, rfl⟩

lemma findOperator_of_none (hear : ∀ candidate ∈ searchedBefore op,
      find candidate.text expr = none) (hop : find op.text expr = some pos) :
    findOperator expr = some (op, pos) := by
  obtain ⟨later, hord⟩ := exists_order_eq op
  have hnone : (searchedBefore op).findSome? (fun candidate =>
      (find candidate.text expr).map fun pos => (candidate, pos)) = none := by
    rw [findSome?_eq_none_iff]
    intro candidate hc
    rw [hear candidate hc, map_none]
  rw [findOperator_eq_findSome?, hord, findSome?_append, hnone, none_or,
    findSome?_cons, hop, map_some]

lemma exists_findOperator (hear : candidate ∈ searchedBefore op)
    (hfnd : find candidate.text expr ≠ none) :
    ∃ found ∈ searchedBefore op, ∃ pos, find found.text expr = some pos ∧
      findOperator expr = some (found, pos) := by
  obtain ⟨later, hord⟩ := exists_order_eq op
  have hsome : ((searchedBefore op).findSome? fun candidate =>
      (find candidate.text expr).map fun pos => (candidate, pos)).isSome := by
    rw [isSome_findSome?, List.any_eq_true]
    exact ⟨candidate, hear, by simpa [isSome_iff_ne_none] using hfnd⟩
  obtain ⟨⟨found, pos⟩, heq⟩ := isSome_iff_exists.mp hsome
  obtain ⟨_, hmem, hpos⟩ := exists_of_findSome?_eq_some heq
  obtain ⟨_, hfind, hpair⟩ := map_eq_some_iff.mp hpos
  obtain ⟨rfl, rfl⟩ := Prod.mk.inj hpair
  refine ⟨_, hmem, _, hfind, ?_⟩
  rw [findOperator_eq_findSome?, hord, findSome?_append, heq, some_or]

lemma text_ne_nil (op : Operator) : op.text ≠ [] := by
  cases op <;> decide

lemma isOperatorChar_of_mem_text (op : Operator) : ∀ c ∈ op.text, IsOperatorChar c := by
  cases op <;> simp [Operator.text, IsOperatorChar]

lemma not_isBlank_of_mem_text (op : Operator) : ∀ c ∈ op.text, ¬isBlank c := by
  cases op <;> simp [Operator.text, isBlank]

lemma find_append_of_isOperatorChar (ha : ∀ c ∈ a, ¬IsOperatorChar c) (op : Operator) (b : Text) :
    find op.text (a ++ b) = (find op.text b).map (· + a.length) := by
  obtain ⟨x, t, htext⟩ := exists_cons_of_ne_nil (text_ne_nil op)
  have hx : x ∉ a := fun hx => ha x hx (isOperatorChar_of_mem_text op x (by simp [htext]))
  rw [htext, find_append_of_notMem hx]

lemma find_append_two {needle : Text} {z w : Char} (hz : ¬needle <+: z :: w :: b)
    (hw : ¬needle <+: w :: b) : find needle ([z, w] ++ b) = (find needle b).map (· + 2) := by
  rw [cons_append, singleton_append, find_cons_of_not_prefix hz,
    find_cons_of_not_prefix hw, Option.map_map]
  rfl

lemma find_append_text (h : candidate ∈ searchedBefore op) (hb : ∀ c ∈ b.head?, c = ' ') :
    find candidate.text (op.text ++ b) = (find candidate.text b).map (· + op.text.length) := by
  have hlast : ∀ x y z : Char, y ≠ ' ' → ¬[x, y] <+: z :: b := by
    intro x y z hy hpre
    cases b with
    | nil => simp at hpre
    | cons c b =>
      rw [hb c (by simp)] at hpre
      simp [hy] at hpre
  cases op <;> cases candidate <;> simp [searchedBefore, order] at h
  all_goals first
    | exact find_append_two (by simp [Operator.text]) (hlast _ _ _ (by decide))
    | exact find_cons_of_not_prefix (hlast _ _ _ (by decide))
    | exact find_cons_of_not_prefix (by simp [Operator.text])

end

section
variable {l r : Text} {op candidate : Operator}

def front (l : Text) : Text := (l ++ [' ']).dropWhile isBlank

def back (r : Text) : Text := (' ' :: r).rdropWhile isBlank

lemma trim_expression (l : Text) (op : Operator) (r : Text) :
    trim (expression l op r) = front l ++ op.text ++ back r := by
  have hpar : expression l op r = (l ++ [' ']) ++ op.text ++ ' ' :: r := by
    simp [expression]
  rw [hpar, trim, trim_append_append (text_ne_nil op) (not_isBlank_of_mem_text op)]
  rfl

lemma isBlank_singleton : ∀ c ∈ [' '], isBlank c := by
  simp [isBlank]

lemma trim_front (l : Text) : trim (front l) = trim l := by
  rw [front, trim, trim_dropWhile, trim_append_right isBlank_singleton, trim]

lemma trim_back (r : Text) : trim (back r) = trim r := by
  rw [back, trim, trim_rdropWhile, ← singleton_append, trim_append_left isBlank_singleton, trim]

lemma not_isOperatorChar_front (hl : ∀ c ∈ l, ¬IsOperatorChar c) :
    ∀ c ∈ front l, ¬IsOperatorChar c := by
  intro c hc
  rcases mem_append.mp ((dropWhile_suffix _).subset hc) with hc | hc
  · exact hl c hc
  · rw [mem_singleton.mp hc]
    decide

lemma back_eq (r : Text) : back r = [] ∨ ∃ rest, back r = ' ' :: rest ∧ rest <+: r := by
  have hstr : back r <+: ' ' :: r := List.rdropWhile_prefix _ _
  cases hb : back r with
  | nil => exact .inl rfl
  | cons c rest =>
    rw [hb, cons_prefix_cons] at hstr
    exact .inr ⟨rest, by rw [hstr.1], hstr.2⟩

lemma head?_back (r : Text) : ∀ c ∈ (back r).head?, c = ' ' := by
  intro c hc
  rcases back_eq r with hb | ⟨rest, hb, -⟩
  · simp [hb] at hc
  · simpa [hb, eq_comm] using hc

lemma infix_back_iff : candidate.text <:+: back r ↔ candidate.text <:+: r := by
  obtain ⟨blanks, hr, hblan⟩ := rdropWhile_append_self (p := isBlank) (' ' :: r)
  have hne := text_ne_nil candidate
  have hdis : ∀ s : Text, (∀ c ∈ s, isBlank c) → ∀ c ∈ candidate.text, c ∉ s :=
    fun s hs c hc hcs => not_isBlank_of_mem_text candidate c hc (hs c hcs)
  rw [← infix_append_right_iff hne (hdis blanks hblan), back, ← hr,
    ← singleton_append, infix_append_left_iff hne (hdis _ isBlank_singleton)]

section
variable (hl : ∀ c ∈ l, ¬IsOperatorChar c)
include hl

lemma find_expression_eq_none_iff (h : candidate ∈ searchedBefore op) :
    find candidate.text (trim (expression l op r)) = none ↔ ¬candidate.text <:+: r := by
  rw [trim_expression, append_assoc,
    find_append_of_isOperatorChar (not_isOperatorChar_front hl), find_append_text h (head?_back r),
    Option.map_map, map_eq_none_iff, find_eq_none_iff, infix_back_iff]

lemma find_text_expression : find op.text (trim (expression l op r)) = some (front l).length := by
  rw [trim_expression, append_assoc,
    find_append_of_isOperatorChar (not_isOperatorChar_front hl),
    find_of_prefix (prefix_append _ _), map_some, Nat.zero_add]

lemma split_expression (h : ∀ candidate ∈ searchedBefore op, ¬candidate.text <:+: r) :
    split (expression l op r) = some (trim l, op, trim r) := by
  have hfnd : findOperator (trim (expression l op r)) = some (op, (front l).length) :=
    findOperator_of_none
      (fun candidate hc => (find_expression_eq_none_iff hl hc).mpr (h candidate hc))
      (find_text_expression hl)
  have hleft : (front l ++ op.text ++ back r).take (front l).length = front l := by
    rw [append_assoc, take_left]
  have hrig : (front l ++ op.text ++ back r).drop ((front l).length + op.text.length) =
      back r := by
    rw [← length_append, drop_left]
  rw [split, hfnd, map_some, trim_expression, hleft, hrig, trim_front, trim_back]

lemma exists_split_expression (hc : candidate ∈ searchedBefore op) (h : candidate.text <:+: r) :
    ∃ left found right, split (expression l op r) = some (left, found, right) ∧ left ≠ l := by
  have hsome : find candidate.text (trim (expression l op r)) ≠ none := fun hnone =>
    (find_expression_eq_none_iff hl hc).mp hnone h
  obtain ⟨found, hfnd, pos, hpos, hop⟩ := exists_findOperator hc hsome
  rw [trim_expression, append_assoc,
    find_append_of_isOperatorChar (not_isOperatorChar_front hl),
    find_append_text hfnd (head?_back r), Option.map_map, map_eq_some_iff] at hpos
  obtain ⟨i, -, rfl⟩ := hpos
  have htake : (trim (expression l op r)).take (i + op.text.length + (front l).length) =
      front l ++ op.text ++ (back r).take i := by
    have hlen : i + op.text.length + (front l).length = (front l ++ op.text).length + i := by
      rw [length_append]
      omega
    rw [trim_expression, hlen, take_length_add_append]
  refine ⟨_, _, _, by rw [split, hop]; rfl, fun hleft => ?_⟩
  obtain ⟨c, hcop⟩ := exists_mem_of_ne_nil _ (text_ne_nil op)
  refine hl c ?_ (isOperatorChar_of_mem_text op c hcop)
  simp only [Function.comp_apply] at hleft
  rw [htake, trim, trim_append_append (text_ne_nil op) (not_isBlank_of_mem_text op)] at hleft
  rw [← hleft]
  simp [hcop]

end

lemma trim_ne_nil (h : candidate.text <:+: r) : trim r ≠ [] := by
  obtain ⟨a, b, rfl⟩ := h
  rw [trim, trim_append_append (text_ne_nil candidate) (not_isBlank_of_mem_text candidate)]
  simp [text_ne_nil candidate]

def contextOf (left l s t : Text) : ExecutionContext := fun name =>
  if name = left then some (.string s) else if name = l then some (.string t) else none

lemma not_comparesAt {left right : Text} {found : Operator}
    (hspl : split (expression l op r) = some (left, found, right)) (hne : left ≠ l)
    (hdec : ¬Decided op (trim r)) : ¬ComparesAt l op r := by
  intro h
  obtain ⟨t, ht⟩ := exists_compare_eq hdec (!compare [] found right)
  have hboth := h (contextOf left l [] t)
  have hleft : getVariableAsString left (contextOf left l [] t) = [] := by
    simp [getVariableAsString, contextOf]
  have hl : getVariableAsString l (contextOf left l [] t) = t := by
    simp [getVariableAsString, contextOf, hne.symm]
  rw [evaluate_of_split hspl, hleft, hl, ht] at hboth
  simp at hboth

end

end Mxrc.Sequence.ConditionEvaluator
