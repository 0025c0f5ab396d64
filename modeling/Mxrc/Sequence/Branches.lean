import Mxrc.Sequence.Accounting

/-!
# Exclusiveness of conditional branches

The actions of a branch are looked up among the steps of the sequence, and the
main loop walks over all steps. So the branches exclude each other only for ids
that are no steps at all.
-/

namespace Mxrc.Sequence
open Mxrc.Lib Mxrc.Action

def ConditionalBranch.actions (branch : ConditionalBranch) (value : Bool) : List String :=
  if value then branch.trueActions else branch.falseActions

namespace SequenceEngine

/-- The id occurs in the other list of the branch of `key` and nowhere else in the branches. -/
structure OnlyUnselected (d : SequenceDefinition) (key : String) (branch : ConditionalBranch)
    (value : Bool) (a : String) : Prop where
  unselected : a ∈ branch.actions (!value)
  not_selected : a ∉ branch.actions value
  not_elsewhere : ∀ key' branch', d.conditionalBranches.lookup key' = some branch' → key' ≠ key →
    ∀ value', a ∉ branch'.actions value'

/-- When a branch has been evaluated, the actions that occur in its other list only are not executed
during that execution. -/
def Exclusive (d : SequenceDefinition) : Prop :=
  ∀ progress context ls s i step branch value s' ls' t a,
    Run (next d) (fun _ _ => True) (start progress context) ls s → s.pc = .evaluate i step →
    d.conditionalBranches.lookup step.actionId = some branch →
    next d s (.step (.condition value)) = some s' → Run (next d) (fun _ _ => True) s' ls' t →
    OnlyUnselected d step.actionId branch value a → ∀ x ∈ t.submissions, x.actionId ≠ a

def Leads (d : SequenceDefinition) (s s' : Engine) : Prop :=
  ∃ ls, Run (next d) (fun _ _ => True) s ls s'

structure Ready (s : Engine) (i : ℕ) : Prop where
  pc : s.pc = .head i
  cancel : s.cancelRequested = false
  pause : s.pauseRequested = false

variable {d : SequenceDefinition} {s s' t : Engine} {i : ℕ} {x : ActionStep}

lemma Leads.trans (h : Leads d s s') (h' : Leads d s' t) : Leads d s t := by
  obtain ⟨ls, hls⟩ := h
  obtain ⟨ls', hls'⟩ := h'
  exact ⟨ls ++ ls', hls.append hls'⟩

lemma Leads.of_exec (ls : List Label) (h : exec (next d) (fun _ _ => true) s ls = some s') :
    Leads d s s' :=
  ⟨ls, Run.of_exec (fun _ _ _ => trivial) h⟩

lemma Ready.leads_take (h : Ready s i) (hi : i < d.steps.length) :
    Leads d s { s with pc := .take i } := by
  obtain ⟨hpc, hcan, hpause⟩ := h
  exact .of_exec [.step .go, .step .go] (by simp [exec, next, step, hpc, hcan, hpause, hi])

lemma leads_fetch {site : Site} (hpc : s.pc = .action site x .create) :
    Leads d s { s with
      pc := .action site x .fetch
      currentActionId := none
      submissions := s.submissions ++ [x] } :=
  .of_exec [.step .go, .step .go, .step .go, .step .go, .step .go]
    (by simp [exec, next, step, hpc, runAction])

lemma leads_succeeded {retryCount : ℕ} (hpc : s.pc = .action (.main i retryCount) x .fetch)
    (hpos : 0 < d.steps.length) :
    Leads d s { s with
      pc := .evaluate i x
      progress := (s.completedSteps + 1 : ℕ) / d.steps.length
      completedSteps := s.completedSteps + 1
      executedActions := x.actionId :: s.executedActions
      context := s.context.insert x.actionId ⟨x.actionId, .completed, ""⟩ } :=
  .of_exec [.step (.result ⟨x.actionId, .completed, ""⟩), .step .go]
    (by simp [exec, next, step, hpc, runAction, conclude, updateProgress, hpos,
      ExecutionResult.isSuccessful, ExecutionResult.isCancelled, ExecutionResult.isFailed])

lemma Ready.leads_evaluate (h : Ready s i) (hx : d.steps[i]? = some x)
    (hnew : x.actionId ∉ s.executedActions) :
    ∃ s', Leads d s s' ∧ s'.pc = .evaluate i x ∧ s'.cancelRequested = false ∧
      s'.pauseRequested = false ∧ s'.submissions = s.submissions ++ [x] ∧
      s'.executedActions = x.actionId :: s.executedActions := by
  have hi : i < d.steps.length := (List.getElem?_eq_some_iff.mp hx).1
  have hcrt : Leads d { s with pc := .take i } { s with pc := .action (.main i 0) x .create } :=
    .of_exec [.step .go] (by simp only [exec, next, step, hx, Option.map_some, if_neg hnew]; rfl)
  exact ⟨_, (h.leads_take hi).trans (hcrt.trans ((leads_fetch rfl).trans
    (leads_succeeded rfl (Nat.zero_lt_of_lt hi)))), rfl, h.cancel, h.pause, rfl, rfl⟩

lemma leads_head (hpc : s.pc = .evaluate i x) : Leads d s { s with pc := .head (i + 1) } := by
  cases hbran : d.conditionalBranches.lookup x.actionId with
  | none => exact .of_exec [.step .go] (by simp [exec, next, step, hpc, evaluate, hbran])
  | some branch =>
    exact .of_exec [.step (.throws "")] (by simp [exec, next, step, hpc, evaluate, hbran])

lemma Ready.leads_skip (h : Ready s i) (hx : d.steps[i]? = some x)
    (hold : x.actionId ∈ s.executedActions) : Leads d s { s with pc := .head (i + 1) } := by
  refine (h.leads_take (List.getElem?_eq_some_iff.mp hx).1).trans (.of_exec [.step .go] ?_)
  simp only [exec, next, step, hx, Option.map_some, if_pos hold]
  rfl

lemma Ready.leads_next (h : Ready s i) (hx : d.steps[i]? = some x) :
    ∃ s', Leads d s s' ∧ Ready s' (i + 1) ∧
      ∀ a ∈ s'.executedActions, a ∈ s.executedActions ∨ a = x.actionId := by
  by_cases hold : x.actionId ∈ s.executedActions
  · exact ⟨_, h.leads_skip hx hold, ⟨rfl, h.cancel, h.pause⟩, fun a ha => .inl ha⟩
  · obtain ⟨s', hlds, hpc, hcan, hpause, -, hexe⟩ := h.leads_evaluate hx hold
    refine ⟨_, hlds.trans (leads_head hpc), ⟨rfl, hcan, hpause⟩, fun a ha => ?_⟩
    have ha' : a ∈ s'.executedActions := ha
    rw [hexe] at ha'
    exact (List.mem_cons.mp ha').symm

lemma Ready.leads_to (h : Ready s i) (n : ℕ) (hn : i + n ≤ d.steps.length) :
    ∃ s', Leads d s s' ∧ Ready s' (i + n) ∧ ∀ a ∈ s'.executedActions, a ∈ s.executedActions ∨
      ∃ j < i + n, ∃ x, d.steps[j]? = some x ∧ x.actionId = a := by
  induction n with
  | zero => exact ⟨s, ⟨[], .nil⟩, h, fun a ha => .inl ha⟩
  | succ n ih =>
    obtain ⟨s₁, hlds, hrdy, hexe⟩ := ih (by omega)
    have hlt : i + n < d.steps.length := by omega
    have hx := List.getElem?_eq_getElem hlt
    obtain ⟨s₂, hlds₂, hrdy₂, hexe₂⟩ := hrdy.leads_next hx
    refine ⟨s₂, hlds.trans hlds₂, hrdy₂, fun a ha => ?_⟩
    rcases hexe₂ a ha with ha | rfl
    · rcases hexe a ha with ha | ⟨j, hj, x, hjx, hxa⟩
      · exact .inl ha
      · exact .inr ⟨j, by omega, x, hjx, hxa⟩
    · exact .inr ⟨i + n, by omega, _, hx, rfl⟩

lemma leads_branch_end (todo : List String) {done : ℕ} (hpc : s.pc = .branching i todo done)
    (hcan : s.cancelRequested = false) (hpause : s.pauseRequested = false) :
    ∃ s', Leads d s s' ∧ Ready s' (i + 1) := by
  induction todo generalizing s with
  | nil =>
    refine ⟨branching d s i [] done, .of_exec [.step .go] ?_, ?_⟩
    · simp [exec, next, step, hpc]
    · rw [branching, updateProgress]
      split_ifs <;> exact ⟨rfl, hcan, hpause⟩
  | cons a rest ih =>
    obtain ⟨s', hlds, hrdy⟩ :=
      ih (s := { s with pc := .branching i rest done }) rfl hcan hpause
    refine ⟨s', Leads.trans ?_ hlds, hrdy⟩
    by_cases hexe : a ∈ s.executedActions
    · exact .of_exec [.step .go] (by simp [exec, next, step, hpc, branching, hexe])
    · cases hfind : findStep d a with
      | none =>
        exact .of_exec [.step .go] (by simp [exec, next, step, hpc, branching, hexe, hfind])
      | some x =>
        exact .of_exec [.step .go, .step (.throws "")]
          (by simp [exec, next, step, hpc, branching, hexe, hfind, runAction, raise])

lemma exists_first_step {key : String} (h : ∃ x ∈ d.steps, x.actionId = key) :
    ∃ (k : ℕ) (x : ActionStep), d.steps[k]? = some x ∧ x.actionId = key ∧
      ∀ j < k, ∀ y : ActionStep, d.steps[j]? = some y → y.actionId ≠ key := by
  obtain ⟨x, hx, hkey⟩ := h
  obtain ⟨k, hk⟩ := List.mem_iff_getElem?.mp hx
  have hex : ∃ k, ∃ x : ActionStep, d.steps[k]? = some x ∧ x.actionId = key := ⟨k, x, hk, hkey⟩
  classical
  obtain ⟨y, hy, hykey⟩ := Nat.find_spec hex
  exact ⟨_, y, hy, hykey, fun j hj z hz hzkey => Nat.find_min hex hj ⟨z, hz, hzkey⟩⟩

lemma exists_run_evaluated {key : String} {branch : ConditionalBranch}
    (hbran : d.conditionalBranches.lookup key = some branch)
    (hkey : ∃ x ∈ d.steps, x.actionId = key) (value : Bool) :
    ∃ s i x s' t, Leads d (start 0 ∅) s ∧ s.pc = .evaluate i x ∧ x.actionId = key ∧
      next d s (.step (.condition value)) = some s' ∧ Leads d s' t ∧ Ready t d.steps.length := by
  obtain ⟨k, x, hx, rfl, hfir⟩ := exists_first_step hkey
  obtain ⟨hk, -⟩ := List.getElem?_eq_some_iff.mp hx
  have hstr : Ready (start 0 ∅) 0 := ⟨rfl, rfl, rfl⟩
  obtain ⟨s₁, hlds₁, hrdy₁, hexe⟩ := hstr.leads_to (d := d) k (by omega)
  rw [Nat.zero_add] at hrdy₁
  -- Only steps before the first one of the branch are executed so far.
  have hnew : x.actionId ∉ s₁.executedActions := by
    intro hmem
    rcases hexe _ hmem with hnil | ⟨j, hj, y, hy, hyx⟩
    · cases hnil
    · exact hfir j (by omega) y hy hyx
  obtain ⟨s₂, hlds₂, hpc, hcan, hpause, -⟩ := hrdy₁.leads_evaluate hx hnew
  have hnext : next d s₂ (.step (.condition value)) =
      some { s₂ with pc := .branching k (branch.actions value) 0 } := by
    simp [next, step, hpc, evaluate, hbran, ConditionalBranch.actions]
  obtain ⟨s₃, hlds₃, hrdy₃⟩ :=
    leads_branch_end (d := d) (s := { s₂ with pc := .branching k (branch.actions value) 0 })
      (branch.actions value) rfl hcan hpause
  obtain ⟨t, hlds₄, hrdy₄, -⟩ := hrdy₃.leads_to (d := d) (d.steps.length - (k + 1)) (by omega)
  rw [Nat.add_sub_cancel' (by omega)] at hrdy₄
  exact ⟨s₂, k, x, _, t, hlds₁.trans hlds₂, hpc, rfl, hnext, hlds₃.trans hlds₄, hrdy₄⟩

theorem exclusive_iff (d : SequenceDefinition) : Exclusive d ↔ ∀ key branch value a,
    d.conditionalBranches.lookup key = some branch → (∃ x ∈ d.steps, x.actionId = key) →
    OnlyUnselected d key branch value a → ∀ x ∈ d.steps, x.actionId ≠ a := by
  constructor
  · rintro hexc key branch value a hbran hkey honly x hx rfl
    obtain ⟨s, i, y, s', t, ⟨ls, hls⟩, hpc, rfl, hnext, ⟨ls', hls'⟩, hrdy⟩ :=
      exists_run_evaluated hbran hkey value
    have hacc := accounted_run ((hls.snoc trivial hnext).append hls')
    have hat := hacc.atPc
    simp only [AtPc, hrdy.pc] at hat
    obtain ⟨z, hz, hzx⟩ := hacc.submitted _ (hat.mem hx)
    exact hexc 0 ∅ ls s i y branch value s' ls' t _ hls hpc hbran hnext hls' honly z hz hzx
  · intro hstp progress context ls s i x branch value s' ls' t a hls hpc hbran hnext hls' honly
    have hat := (accounted_run hls).atPc
    simp only [AtPc, hpc] at hat
    have hacc := accounted_run ((hls.snoc trivial hnext).append hls')
    intro y hy
    exact hstp _ branch value a hbran ⟨x, hat.2, rfl⟩ honly y (hacc.inSteps y hy)

/-- The check succeeds, and the repair that only its failure asks for is executed as well. -/
def checkAndRepair : SequenceDefinition where
  id := "inspection"
  steps := [⟨"check", "sensor", 0⟩, ⟨"report", "message", 0⟩, ⟨"repair", "tool", 0⟩]
  conditionalBranches := AList.insert "check" ⟨"check == ok", ["report"], ["repair"]⟩ ∅
  retryPolicy := none

theorem not_exclusive : ¬ ∀ d, Exclusive d := by
  intro hall
  have hexec : ∃ s s' t, exec (next checkAndRepair) (fun _ _ => true) (start 0 ∅)
      [.step .go, .step .go, .step .go, .step .go, .step .go, .step .go, .step .go, .step .go,
        .step (.result ⟨"check", .completed, ""⟩), .step .go] = some s ∧
      s.pc = .evaluate 0 ⟨"check", "sensor", 0⟩ ∧
      next checkAndRepair s (.step (.condition true)) = some s' ∧
      exec (next checkAndRepair) (fun _ _ => true) s'
        [.step .go, .step .go, .step .go, .step .go, .step .go, .step .go,
          .step (.result ⟨"report", .completed, ""⟩), .step .go, .step .go, .step .go, .step .go,
          .step .go, .step .go, .step .go, .step .go, .step .go] = some t ∧
      ⟨"repair", "tool", 0⟩ ∈ t.submissions := ⟨_, _, _, rfl, rfl, rfl, rfl, by decide⟩
  obtain ⟨s, s', t, hs, hpc, hnext, ht, hmem⟩ := hexec
  refine hall checkAndRepair 0 ∅ _ s 0 _
    ⟨"check == ok", ["report"], ["repair"]⟩ true s' _ t "repair"
    (Run.of_exec (fun _ _ _ => trivial) hs) hpc (by decide) hnext
    (Run.of_exec (fun _ _ _ => trivial) ht) ⟨by decide, by decide, ?_⟩ _ hmem rfl
  intro key' branch' hlk hne
  rw [checkAndRepair, AList.lookup_insert_ne hne] at hlk
  cases hlk

end SequenceEngine
end Mxrc.Sequence
