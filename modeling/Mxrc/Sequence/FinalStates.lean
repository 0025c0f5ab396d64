import Mxrc.Lib.Runs
import Mxrc.Sequence.Moves

/-!
# The entry of a sequence id

The entry of one sequence id in `states_`, with every call of `execute` for the
id and the control calls in any order. `load` and `state` pass between the entry
and the execution of `SequenceEngine`. After `clearCompletedSequences` the
further steps of a call that still runs are left out.
-/

namespace Mxrc.Sequence
open Mxrc.Lib Mxrc.Action List Option

structure SequenceState where
  status : SequenceStatus := .pending
  progress : ℚ := 0
  cancelRequested : Bool := false
  pauseRequested : Bool := false
  currentActionId : Option String := none
deriving DecidableEq

def Engine.load (s : Engine) (state : SequenceState) : Engine :=
  { s with
    status := state.status
    progress := state.progress
    cancelRequested := state.cancelRequested
    pauseRequested := state.pauseRequested
    currentActionId := state.currentActionId }

def Engine.state (s : Engine) : SequenceState :=
  ⟨s.status, s.progress, s.cancelRequested, s.pauseRequested, s.currentActionId⟩

def SequenceStatus.isFinal (status : SequenceStatus) : Bool :=
  status = .completed || status = .failed || status = .cancelled

namespace SequenceEngine

structure Call where
  definition : SequenceDefinition
  engine : Engine

structure States where
  entry : Option SequenceState := none
  calls : List Call := []

namespace States

inductive Label
  | execute (definition : SequenceDefinition) (context : AList (fun _ : String => ExecutionResult))
  | step (k : ℕ) (o : Oracle)
  | cancel
  | pause
  | resume
  | clearCompletedSequences

def getStatus (s : States) : SequenceStatus :=
  match s.entry with
  | some state => state.status
  | none => .pending

def getProgress (s : States) : ℚ :=
  match s.entry with
  | some state => state.progress
  | none => 0

def execute (s : States) (definition : SequenceDefinition)
    (context : AList (fun _ : String => ExecutionResult)) : States :=
  let state := s.entry.getD {}
  { entry := some { state with
      status := .running, cancelRequested := false, pauseRequested := false }
    calls := s.calls ++ [⟨definition, start state.progress context⟩] }

def step (s : States) (k : ℕ) (o : Oracle) : Option States :=
  match s.calls[k]?, s.entry with
  | some call, some state =>
    (SequenceEngine.step call.definition (call.engine.load state) o).map fun engine =>
      { entry := some engine.state, calls := s.calls.set k { call with engine := engine } }
  | _, _ => none

def clearCompletedSequences (s : States) : States :=
  if s.entry.any (·.status.isFinal) then {} else s

def next (s : States) : Label → Option States
  | .execute definition context => some (s.execute definition context)
  | .step k o => s.step k o
  | .cancel => some { s with
      entry := s.entry.map fun state => { state with cancelRequested := true } }
  | .pause => some { s with
      entry := s.entry.map fun state => { state with pauseRequested := true, status := .paused } }
  | .resume => some { s with
      entry := s.entry.map fun state => { state with pauseRequested := false, status := .running } }
  | .clearCompletedSequences => some s.clearCompletedSequences

def NoExecute (ls : List Label) : Prop := ∀ definition context, .execute definition context ∉ ls

/-- When a call ends, its status stays until the entry is cleared, and clearing
removes the entry, as long as `execute` is not called again. -/
def KeepsFinal (G : States → Label → Prop) (s : States) : Prop :=
  ∀ k o s' call r ls t, G s (.step k o) → s.step k o = some s' → s'.calls[k]? = some call →
    call.engine.pc = .returned r → NoExecute ls → Run next G s' ls t →
    (.clearCompletedSequences ∉ ls → t.getStatus = r.status) ∧
      (.clearCompletedSequences ∈ ls → t.entry = none)

/-- The progress is zero while the new call has completed no step and has not
returned COMPLETED. -/
def StartsAtZero (G : States → Label → Prop) (s : States) : Prop :=
  ∀ definition context ls t call, G s (.execute definition context) → NoExecute ls →
    Run next G (s.execute definition context) ls t → t.calls[s.calls.length]? = some call →
    call.engine.completedSteps = 0 →
    (∀ r, call.engine.pc = .returned r → r.status ≠ .completed) → t.getProgress = 0

def Final (G : States → Label → Prop) (ls : List Label) : Prop :=
  ∀ s, Run next G {} ls s → KeepsFinal G s ∧ StartsAtZero G s

def Running (s : States) : Prop := ∃ call ∈ s.calls, call.engine.pc.isReturned = false

/-- Calls do not overlap and start with no progress, and an entry is paused or
resumed only while a call runs. -/
def Separate (s : States) : Label → Prop
  | .execute _ _ => ¬ s.Running ∧ s.getProgress = 0
  | .pause | .resume => s.entry.isSome → s.Running
  | _ => True

end States

/-! ## Steps of one call -/

variable {d : SequenceDefinition} {s s' : Engine} {o : Oracle}

lemma Moved.returned (hm : Moved d s o s') {r : SequenceResult} (hpc' : s'.pc = .returned r) :
    s'.status = r.status ∧ r.status.isFinal = true := by
  cases hm with
  | test pc hpc hpc'' =>
    cases hpc'
    cases hpc''
  | cancelled hpc
  | completed hpc =>
    cases hpc'
    exact ⟨rfl, rfl⟩
  | branched hpc =>
    rw [branching_nil_pc] at hpc'
    cases hpc'
  | @createThrew site _ _ hpc
  | @submitThrew site _ _ hpc =>
    cases site <;> cases hpc'
    exact ⟨rfl, rfl⟩
  | concluded hpc =>
    rw [conclude] at hpc' ⊢
    split_ifs at hpc' ⊢
    · cases hpc'
      exact ⟨rfl, rfl⟩
    · cases hpc'
      exact ⟨rfl, rfl⟩
    · rw [updateProgress_pc] at hpc'
      cases hpc'
  | _ => cases hpc'

lemma Moved.progress (hm : Moved d s o s') (hzero : s'.completedSteps = 0)
    (hopen : ∀ r, s'.pc = .returned r → r.status ≠ .completed) :
    s.completedSteps = 0 ∧ s'.progress = s.progress := by
  cases hm with
  | completed hpc => exact absurd rfl (hopen _ rfl)
  | @branched i added hpc =>
    rw [branching] at hzero ⊢
    split_ifs at hzero ⊢ with hadd
    · rw [updateProgress_completedSteps] at hzero
      exact absurd (Nat.eq_zero_of_add_eq_zero_left hzero) (Nat.ne_of_gt hadd)
    · exact ⟨Nat.eq_zero_of_add_eq_zero_right hzero, rfl⟩
  | @createThrew site _ _ hpc => cases site <;> exact ⟨hzero, rfl⟩
  | @submitThrew site _ _ hpc => cases site <;> exact ⟨hzero, rfl⟩
  | concluded hpc =>
    rw [conclude] at hzero ⊢
    split_ifs at hzero ⊢
    · exact ⟨hzero, rfl⟩
    · exact ⟨hzero, rfl⟩
    · rw [updateProgress_completedSteps] at hzero
      cases hzero
  | _ => exact ⟨hzero, rfl⟩

namespace States
variable {s s' t : States} {l : Label} {k : ℕ}

lemma step_eq_some (hn : s.step k o = some s') : ∃ call state engine,
    s.calls[k]? = some call ∧ s.entry = some state ∧
      Moved call.definition (call.engine.load state) o engine ∧
      s' = { entry := some engine.state,
             calls := s.calls.set k { call with engine := engine } } := by
  unfold step at hn
  split at hn
  next call state hcall hent =>
    obtain ⟨engine, heng, rfl⟩ := map_eq_some_iff.mp hn
    exact ⟨call, state, engine, hcall, hent, moved_of_step heng, rfl⟩
  next => cases hn

def Label.seenBy (k : ℕ) : Label → Option Sequence.Label
  | .step i o => if i = k then some (.step o) else none
  | .cancel => some .cancel
  | .pause => some .pause
  | .resume => some .resume
  | _ => none

lemma next_load {call : Call} {state : SequenceState} {m : Sequence.Label}
    (hcall : s.calls[k]? = some call) (hent : s.entry = some state) (hl : l.seenBy k = some m)
    (hn : next s l = some s') : ∃ call' state', s'.calls[k]? = some call' ∧
      call'.definition = call.definition ∧ s'.entry = some state' ∧
      SequenceEngine.next call.definition (call.engine.load state) m =
        some (call'.engine.load state') := by
  cases l with
  | execute definition context => cases hl
  | clearCompletedSequences => cases hl
  | step i o =>
    rw [Label.seenBy] at hl
    split_ifs at hl with hi
    cases hl
    subst hi
    rw [next, step, hcall, hent] at hn
    obtain ⟨engine, heng, rfl⟩ := map_eq_some_iff.mp hn
    have hlt := (List.getElem?_eq_some_iff.mp hcall).1
    exact ⟨_, _, getElem?_set_self hlt, rfl, rfl, heng⟩
  | cancel
  | pause
  | resume =>
    cases hl
    cases hn
    exact ⟨call, _, hcall, rfl, by rw [hent]; rfl, rfl⟩

def Others (s : States) (k : ℕ) : Prop :=
  ∀ i call, s.calls[i]? = some call → i ≠ k → call.engine.pc.isReturned = true

lemma others_of_not_running (h : ¬ s.Running) (k : ℕ) : s.Others k := by
  intro i call hcall _
  by_contra hopen
  exact h ⟨call, mem_of_getElem? hcall, by simpa using hopen⟩

variable {i : ℕ} {ls : List Label}

lemma Others.eq_of_step (h : s.Others k) (hn : s.step i o = some s') : i = k := by
  obtain ⟨call, state, engine, hcall, -, hm, -⟩ := step_eq_some hn
  by_contra hne
  have hret := h i call hcall hne
  rw [show call.engine.pc.isReturned = false from hm.isReturned] at hret
  cases hret

lemma Others.step (h : s.Others k) (hn : s.step i o = some s') : s'.Others k := by
  obtain rfl := h.eq_of_step hn
  obtain ⟨call, state, engine, hcall, -, -, rfl⟩ := step_eq_some hn
  intro j call' hcall' hne
  rw [getElem?_set_ne hne.symm] at hcall'
  exact h j call' hcall' hne

lemma Others.execute {definition : SequenceDefinition}
    {context : AList (fun _ : String => ExecutionResult)} (h : ¬ s.Running) :
    (s.execute definition context).Others s.calls.length := by
  intro i call hcall hne
  rw [States.execute, getElem?_append] at hcall
  split_ifs at hcall with hlt
  · exact others_of_not_running h s.calls.length i call hcall hne
  · rw [getElem?_singleton] at hcall
    split_ifs at hcall with hzero
    omega

lemma Others.clear (h : s.Others k) : s.clearCompletedSequences.Others k := by
  rw [clearCompletedSequences]
  split_ifs
  · intro i call hcall
    cases hcall
  · exact h

lemma others_run (h : Run next Separate {} ls s) : ∃ k, s.Others k := by
  refine h.invariant (fun s => ∃ k, s.Others k) ⟨0, ?_⟩ ?_
  · intro i call hcall
    cases hcall
  · rintro s l s' ⟨k, hk⟩ hg hn
    cases l with
    | execute definition context =>
      cases hn
      exact ⟨_, Others.execute hg.1⟩
    | step i o => exact ⟨k, hk.step hn⟩
    | cancel
    | pause
    | resume =>
      cases hn
      exact ⟨k, hk⟩
    | clearCompletedSequences =>
      cases hn
      exact ⟨k, hk.clear⟩

/-! ## After the end -/

structure Ended (status : SequenceStatus) (ls : List Label) (s : States) : Prop where
  idle : ¬ s.Running
  kept : .clearCompletedSequences ∉ ls → ∃ state, s.entry = some state ∧ state.status = status
  cleared : .clearCompletedSequences ∈ ls → s.entry = none

variable {status : SequenceStatus}

lemma Ended.step_eq_none (h : Ended status ls s) (k : ℕ) (o : Oracle) : s.step k o = none := by
  by_contra hne
  obtain ⟨s', hn⟩ := ne_none_iff_exists'.mp hne
  obtain ⟨call, state, engine, hcall, -, hm, -⟩ := step_eq_some hn
  exact h.idle ⟨call, mem_of_getElem? hcall, hm.isReturned⟩

lemma Ended.snoc (h : Ended status ls s) (hl : l ≠ .clearCompletedSequences)
    (hcal : s'.calls = s.calls) (hent : s'.entry = none ↔ s.entry = none)
    (hst : ∀ state, s.entry = some state → state.status = status →
      ∃ state', s'.entry = some state' ∧ state'.status = status) : Ended status (ls ++ [l]) s' where
  idle := by
    rw [Running, hcal]
    exact h.idle
  kept := by
    intro hnot
    obtain ⟨state, hsta, hkept⟩ := h.kept fun hmem => hnot (mem_append_left _ hmem)
    exact hst state hsta hkept
  cleared := by
    intro hmem
    rcases mem_append.mp hmem with hmem | hmem
    · exact hent.mpr (h.cleared hmem)
    · exact absurd (mem_singleton.mp hmem).symm hl

lemma Ended.clear (h : Ended status ls s) (hfin : status.isFinal = true) :
    Ended status (ls ++ [.clearCompletedSequences]) s.clearCompletedSequences := by
  have hent : s.clearCompletedSequences.entry = none := by
    rw [clearCompletedSequences]
    split_ifs with hany
    · rfl
    · by_cases hmem : .clearCompletedSequences ∈ ls
      · exact h.cleared hmem
      · obtain ⟨state, hsta, rfl⟩ := h.kept hmem
        rw [hsta] at hany
        exact absurd hfin hany
  refine ⟨?_, fun hnot => absurd (mem_append_right _ mem_cons_self) hnot, fun _ => hent⟩
  rw [clearCompletedSequences]
  split_ifs
  · rintro ⟨call, hcall, -⟩
    cases hcall
  · exact h.idle

lemma Ended.next (h : Ended status ls s) (hfin : status.isFinal = true)
    (hl : ∀ definition context, l ≠ .execute definition context) (hg : Separate s l)
    (hn : next s l = some s') : Ended status (ls ++ [l]) s' := by
  cases l with
  | execute definition context => exact absurd rfl (hl definition context)
  | step k o =>
    rw [States.next, h.step_eq_none] at hn
    cases hn
  | cancel =>
    cases hn
    refine h.snoc (by simp) rfl map_eq_none_iff ?_
    intro state hsta hst
    exact ⟨{ state with cancelRequested := true }, by simp [hsta], hst⟩
  | pause
  | resume =>
    cases hn
    refine h.snoc (by simp) rfl map_eq_none_iff ?_
    intro state hsta _
    exact absurd (hg (by simp [hsta])) h.idle
  | clearCompletedSequences =>
    cases hn
    exact h.clear hfin

lemma noExecute_snoc (h : NoExecute (ls ++ [l])) :
    NoExecute ls ∧ ∀ definition context, l ≠ .execute definition context := by
  refine ⟨fun definition context hmem => h definition context (mem_append_left _ hmem), ?_⟩
  rintro definition context rfl
  exact h definition context (mem_append_right _ mem_cons_self)

lemma ended_of_step {call : Call} {r : SequenceResult} (hoth : s.Others i)
    (hn : s.step k o = some s') (hcall : s'.calls[k]? = some call)
    (hpc : call.engine.pc = .returned r) : Ended r.status [] s' ∧ r.status.isFinal = true := by
  have hoth' := hoth.step hn
  obtain rfl := hoth.eq_of_step hn
  obtain ⟨before, state, engine, hbef, -, hm, rfl⟩ := step_eq_some hn
  obtain ⟨hlt, -⟩ := List.getElem?_eq_some_iff.mp hbef
  rw [getElem?_set_self hlt] at hcall
  cases hcall
  obtain ⟨hst, hfin⟩ := hm.returned hpc
  refine ⟨⟨?_, fun _ => ⟨_, rfl, hst⟩, fun hmem => nomatch hmem⟩, hfin⟩
  rintro ⟨other, hthr, hopen⟩
  obtain ⟨j, hj⟩ := mem_iff_getElem?.mp hthr
  by_cases hjk : j = k
  · subst hjk
    rw [getElem?_set_self hlt] at hj
    cases hj
    rw [hpc] at hopen
    cases hopen
  · rw [hoth' j other hj hjk] at hopen
    cases hopen

lemma keepsFinal_of_others (h : ∃ k, s.Others k) : KeepsFinal Separate s := by
  intro k o s' call r ls t _ hn hcall hpc hno hrun
  obtain ⟨i, hoth⟩ := h
  obtain ⟨hend, hfin⟩ := ended_of_step hoth hn hcall hpc
  have ht : NoExecute ls → Ended r.status ls t := by
    refine hrun.invariant_history (fun ls t => NoExecute ls → Ended r.status ls t)
      (fun _ => hend) ?_
    intro ls t l t' ih hg hn hno
    obtain ⟨hno, hl⟩ := noExecute_snoc hno
    exact (ih hno).next hfin hl hg hn
  refine ⟨fun hnot => ?_, (ht hno).cleared⟩
  obtain ⟨state, hsta, hst⟩ := (ht hno).kept hnot
  rw [getStatus, hsta]
  exact hst

/-! ## From the start -/

structure ZeroAt (k : ℕ) (s : States) : Prop where
  others : s.Others k
  zero : ∀ call, s.calls[k]? = some call → call.engine.completedSteps = 0 →
    (∀ r, call.engine.pc = .returned r → r.status ≠ .completed) → s.getProgress = 0

lemma ZeroAt.step (h : ZeroAt k s) (hn : s.step i o = some s') : ZeroAt k s' := by
  refine ⟨h.others.step hn, ?_⟩
  obtain rfl := h.others.eq_of_step hn
  obtain ⟨before, state, engine, hbef, hent, hm, rfl⟩ := step_eq_some hn
  intro call hcall hzero hopen
  rw [getElem?_set_self (List.getElem?_eq_some_iff.mp hbef).1] at hcall
  cases hcall
  obtain ⟨hzero', hprog⟩ := hm.progress hzero hopen
  have hbeforeZero := h.zero before hbef hzero' ?_
  · rw [getProgress, hent] at hbeforeZero
    exact hprog.trans hbeforeZero
  · intro r hr
    have hret := hm.isReturned
    rw [show (before.engine.load state).pc = .returned r from hr] at hret
    cases hret

lemma ZeroAt.write (h : ZeroAt k s) {f : SequenceState → SequenceState}
    (hf : ∀ state, (f state).progress = state.progress) :
    ZeroAt k { s with entry := s.entry.map f } := by
  refine ⟨h.others, ?_⟩
  intro call hcall hzero hopen
  have hprog := h.zero call hcall hzero hopen
  rw [getProgress] at hprog ⊢
  cases hent : s.entry with
  | none => rfl
  | some state =>
    rw [hent] at hprog
    exact (hf state).trans hprog

lemma ZeroAt.clear (h : ZeroAt k s) : ZeroAt k s.clearCompletedSequences := by
  refine ⟨h.others.clear, ?_⟩
  rw [clearCompletedSequences]
  split_ifs
  · intro call hcall
    cases hcall
  · exact h.zero

lemma ZeroAt.next (h : ZeroAt k s) (hl : ∀ definition context, l ≠ .execute definition context)
    (hn : next s l = some s') : ZeroAt k s' := by
  cases l with
  | execute definition context => exact absurd rfl (hl definition context)
  | step i o => exact h.step hn
  | cancel
  | pause
  | resume =>
    cases hn
    exact h.write fun _ => rfl
  | clearCompletedSequences =>
    cases hn
    exact h.clear

lemma startsAtZero_separate (s : States) : StartsAtZero Separate s := by
  intro definition context ls t call hg hno hrun hcall hzero hopen
  have hstr : ZeroAt s.calls.length (s.execute definition context) := by
    refine ⟨Others.execute hg.1, fun _ _ _ _ => ?_⟩
    have hprog := hg.2
    rw [getProgress] at hprog ⊢
    rw [execute]
    cases hent : s.entry with
    | none => rfl
    | some state =>
      rw [hent] at hprog
      exact hprog
  have ht : NoExecute ls → ZeroAt s.calls.length t := by
    refine hrun.invariant_history (fun ls t => NoExecute ls → ZeroAt s.calls.length t)
      (fun _ => hstr) ?_
    intro ls t l t' ih _ hn hno
    obtain ⟨hno, hl⟩ := noExecute_snoc hno
    exact (ih hno).next hl hn
  exact (ht hno).zero call hcall hzero hopen

theorem final_of_separate (ls : List Label) : Final Separate ls :=
  fun s h => ⟨keepsFinal_of_others (others_run h), startsAtZero_separate s⟩

def singlePick : SequenceDefinition :=
  ⟨"transport", [⟨"pick", "move", 0⟩], ∅, none⟩

def pickLabels : List Label :=
  [.execute singlePick ∅, .step 0 .go, .step 0 .go, .step 0 .go, .step 0 .go, .step 0 .go,
    .step 0 .go, .step 0 .go, .step 0 .go, .step 0 (.result ⟨"pick", .completed, ""⟩),
    .step 0 .go, .step 0 .go]

/-- `pause` after the end takes the status COMPLETED away. -/
theorem not_final : ¬ ∀ ls, Final (fun _ _ => True) ls := by
  intro hall
  have hexec : ((exec next (fun _ _ => true) {} pickLabels).bind fun s =>
      (s.step 0 .go).bind fun s' => (s'.next .pause).map fun t =>
        (s'.calls.map (·.engine.pc), t.getStatus)) =
      some ([.returned ⟨"transport", .completed, "", 1, 1⟩], .paused) := by
    decide +kernel
  obtain ⟨s, hs, hexec⟩ := bind_eq_some_iff.mp hexec
  obtain ⟨s', hs', hexec⟩ := bind_eq_some_iff.mp hexec
  obtain ⟨t, ht, heq⟩ := map_eq_some_iff.mp hexec
  obtain ⟨hpc, hst⟩ := Prod.mk.inj heq
  obtain ⟨call, hcal, hcall⟩ := map_eq_singleton_iff.mp hpc
  obtain ⟨hkps, -⟩ := hall pickLabels s (Run.of_exec (fun _ _ _ => trivial) hs)
  obtain ⟨hkept, -⟩ := hkps 0 .go s' call _ [.pause] t trivial hs' (by rw [hcal]; rfl) hcall
    (fun _ _ => by simp) (Run.single trivial ht)
  rw [hst] at hkept
  exact absurd (hkept (by simp)) (by decide)

/-- A second call reports the progress of the first one. -/
lemma not_startsAtZero : ¬ ∀ ls s, Run next (fun _ _ => True) {} ls s →
    StartsAtZero (fun _ _ => True) s := by
  intro hall
  have hexec : (exec next (fun _ _ => true) {} (pickLabels ++ [.step 0 .go])).map (fun s =>
      (s.execute singlePick ∅).getProgress) = some 1 := by
    decide +kernel
  obtain ⟨s, hrun, hprog⟩ := exists_run_of_exec (fun _ _ _ => trivial) hexec
  have hzero := hall _ s hrun singlePick ∅ []
    (s.execute singlePick ∅) ⟨singlePick, start (s.entry.getD {}).progress ∅⟩ trivial
    (fun _ _ => by simp) .nil (by simp [execute]) rfl (fun r hr => nomatch hr)
  rw [hprog] at hzero
  exact absurd hzero (by decide)

section
variable {G : States → Label → Prop} (hno : NoExecute ls) (hkept : .clearCompletedSequences ∉ ls)
include hno hkept

lemma Others.simulates {call : Call} {state : SequenceState} (hoth : s.Others k)
    (hcall : s.calls[k]? = some call) (hent : s.entry = some state) (hrun : Run next G s ls t) :
    t.Others k ∧ ∃ call' state', t.calls[k]? = some call' ∧
      call'.definition = call.definition ∧ t.entry = some state' ∧
      Run (SequenceEngine.next call.definition) (fun _ _ => True) (call.engine.load state)
        (ls.filterMap (Label.seenBy k)) (call'.engine.load state') := by
  induction hrun with
  | nil => exact ⟨hoth, call, state, hcall, rfl, hent, .nil⟩
  | @snoc ls t l t' hrun _ hn ih =>
    obtain ⟨hno, hl⟩ := noExecute_snoc hno
    obtain ⟨hoth, call', state', hcall, hdef, hent, hsim⟩ :=
      ih hno fun hmem => hkept (mem_append_left _ hmem)
    have hseen : (∃ m, l.seenBy k = some m) ∧ t'.Others k := by
      cases l with
      | execute definition context => exact absurd rfl (hl definition context)
      | clearCompletedSequences => exact absurd (mem_append_right _ mem_cons_self) hkept
      | step i o => exact ⟨⟨_, if_pos (hoth.eq_of_step hn)⟩, hoth.step hn⟩
      | _ =>
        cases hn
        exact ⟨⟨_, rfl⟩, hoth⟩
    obtain ⟨⟨m, hm⟩, hoth⟩ := hseen
    obtain ⟨call'', state'', hcall, hdef', hent, hstep⟩ := next_load hcall hent hm hn
    refine ⟨hoth, call'', state'', hcall, hdef'.trans hdef, hent, ?_⟩
    rw [filterMap_append, filterMap_cons_some hm]
    exact hsim.snoc trivial (hdef ▸ hstep)

/-- A call that runs alone is an execution of the engine, with the progress of the last one. -/
theorem execute_refines {definition : SequenceDefinition}
    {context : AList (fun _ : String => ExecutionResult)} (h : ¬ s.Running)
    (hrun : Run next G (s.execute definition context) ls t) :
    ∃ call state, t.calls[s.calls.length]? = some call ∧ t.entry = some state ∧
      Run (SequenceEngine.next definition) (fun _ _ => True)
        { start (s.entry.getD {}).progress context with
          currentActionId := (s.entry.getD {}).currentActionId }
        (ls.filterMap (Label.seenBy s.calls.length)) (call.engine.load state) := by
  obtain ⟨-, call, state, hcall, -, hent, hsim⟩ :=
    (Others.execute h).simulates hno hkept getElem?_concat_length rfl hrun
  exact ⟨call, state, hcall, hent, hsim⟩

end

theorem execute_refines_singlePick : ∃ t : States, ∃ call state, t.calls[0]? = some call ∧
    t.entry = some state ∧ Run (SequenceEngine.next singlePick) (fun _ _ => True) (start 0 ∅)
      [.step .go, .pause, .cancel] (call.engine.load state) := by
  obtain ⟨t, ht⟩ : ∃ t, exec next (fun _ _ => true) (execute {} singlePick ∅)
      [.step 0 .go, .pause, .cancel] = some t := ⟨_, rfl⟩
  exact ⟨t, execute_refines (fun _ _ => by simp) (by simp) (fun ⟨_, hmem, _⟩ => nomatch hmem)
    (Run.of_exec (fun _ _ _ => trivial) ht)⟩

end States
end SequenceEngine
end Mxrc.Sequence
