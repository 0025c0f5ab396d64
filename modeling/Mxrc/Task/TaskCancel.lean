import Mxrc.Task.TaskExecutor

/-!
# Cancelling a task

The thread of a task asks for the result of its action right after it has
forwarded the cancel. If the worker has not reacted by then, the task is
reported as FAILED while its action goes on; if it completes before the cancel
is forwarded, the task is COMPLETED.
-/

namespace Mxrc.Action.ActionExecutor
open Mxrc.Lib List Option
variable {s s' : ActionExecutor} {l : Label}

lemma Worked.entry {id : String} {e : ExecutionState} (h : Worked s s' l)
    (he : s.runningActions.lookup id = some e) :
    ∃ e', s'.runningActions.lookup id = some e' ∧ e'.action = e.action ∧ e'.future = e.future ∧
      (e'.exceptionOccurred = e.exceptionOccurred ∨ ∃ k x, l = .recordException k ∧
        s.executions[k]? = some x ∧ x.actionId = id) := by
  have hflag : ∀ id',
      (s.runningActions.modify id' fun e => { e with cancelRequested := true }).lookup id =
        some (if id = id' then { e with cancelRequested := true } else e) := by
    intro id'
    rw [Registry.modify, lookup_modify]
    split_ifs with hid
    · subst hid
      rw [he]
      rfl
    · exact he
  cases h with
  | cancelled id' h =>
    subst h
    refine ⟨_, hflag id', ?_⟩
    split_ifs <;> exact ⟨rfl, rfl, .inl rfl⟩
  | finished k thrown x worker hx hrng hwor h hthr =>
    subst h
    exact ⟨e, he, rfl, rfl, .inl rfl⟩
  | recorded k x message hx hthrew h =>
    subst h
    by_cases hid : id = x.actionId
    · subst hid
      refine ⟨{ e with exceptionOccurred := true, exceptionMessage := message }, ?_, rfl, rfl,
        .inr ⟨k, x, rfl, hx, rfl⟩⟩
      simp only [Registry.modify, lookup_modify, if_true, he]
      rfl
    · refine ⟨e, ?_, rfl, rfl, .inl rfl⟩
      simp only [Registry.modify, lookup_modify, if_neg hid, he]
  | monitored m h =>
    cases h with
    | waits h
    | ends t ht hpc h =>
      subst h
      exact ⟨e, he, rfl, rfl, .inl rfl⟩
    | exceeds t e' ht hpc he' hstop hlate hf h
    | cancels t ht hpc h =>
      subst h
      refine ⟨_, hflag t.actionId, ?_⟩
      split_ifs <;> exact ⟨rfl, rfl, .inl rfl⟩
  | wrote object status h
  | elapsed ms h =>
    subst h
    exact ⟨e, he, rfl, rfl, .inl rfl⟩

lemma ready_congr (h : s'.executions = s.executions) (k : ℕ) : s'.ready k = s.ready k := by
  rw [ready, ready, h]

lemma ready_set {j : ℕ} {x : Execution} {worker : Worker} (hx : s.executions[j]? = some x)
    (hnot : x.worker.isDone = false) (h : s'.executions = s.executions.set j { x with worker })
    (k : ℕ) : (s.ready k = true → s'.ready k = true) ∧
      (s'.ready k = true → s.ready k = true ∨ k = j) := by
  by_cases hk : k = j
  · subst hk
    have hbef : s.ready k = false := (ready_of_execution hx).trans hnot
    exact ⟨fun hrdy => absurd (hbef.symm.trans hrdy) (by simp), fun _ => .inr rfl⟩
  · have hsame : s'.ready k = s.ready k := by
      rw [ready, ready, h, getElem?_set_ne (Ne.symm hk)]
    rw [hsame]
    exact ⟨fun hrdy => hrdy, .inl⟩

lemma Worked.ready_cases (h : Worked s s' l) (k : ℕ) :
    (s.ready k = true → s'.ready k = true) ∧
    (s'.ready k = true → s.ready k = true ∨ (∃ thrown, l = .finish k thrown) ∨
      l = .recordException k) := by
  have hquiet : s'.executions = s.executions → (s.ready k = true → s'.ready k = true) ∧
      (s'.ready k = true → s.ready k = true ∨ (∃ thrown, l = .finish k thrown) ∨
        l = .recordException k) := by
    intro hsame
    rw [ready_congr hsame]
    exact ⟨fun hrdy => hrdy, .inl⟩
  cases h with
  | finished j thrown x worker hx hrng hwor h hthr =>
    have hset : s'.executions = s.executions.set j { x with worker } := by rw [h]
    obtain ⟨hsty, hnew⟩ := ready_set hx (by rw [hrng]; rfl) hset k
    refine ⟨hsty, fun hrdy => ?_⟩
    obtain hold | rfl := hnew hrdy
    · exact .inl hold
    · exact .inr (.inl ⟨thrown, rfl⟩)
  | recorded j x message hx hthrew h =>
    have hset : s'.executions = s.executions.set j { x with worker := .done (some message) } := by
      rw [h]
    obtain ⟨hsty, hnew⟩ := ready_set hx (by rw [hthrew]; rfl) hset k
    refine ⟨hsty, fun hrdy => ?_⟩
    obtain hold | rfl := hnew hrdy
    · exact .inl hold
    · exact .inr (.inr rfl)
  | cancelled id h => exact hquiet (by rw [h])
  | monitored m h => exact hquiet h.quiet.1
  | wrote object status h => exact hquiet (by rw [h])
  | elapsed ms h => exact hquiet (by rw [h])

lemma Worked.status_cases (h : Worked s s' l) (object : ℕ) :
    s'.status object = s.status object ∨ ∃ status, l = .setStatus object status ∧
      s'.status object = status := by
  cases h with
  | wrote object' status h =>
    subst h
    rcases eq_or_ne object object' with rfl | hne
    · exact .inr ⟨status, rfl, Function.update_self ..⟩
    · exact .inl (Function.update_of_ne hne ..)
  | finished j thrown x worker hx hrng hwor h hthr => exact .inl (by rw [h])
  | recorded j x message hx hthrew h => exact .inl (by rw [h])
  | cancelled id h => exact .inl (by rw [h])
  | monitored m h => exact .inl (by rw [h.quiet.2])
  | elapsed ms h => exact .inl (by rw [h])

end Mxrc.Action.ActionExecutor

namespace Mxrc.Task
open Mxrc.Lib Mxrc.Action List Option
open Mxrc.Control (TaskStatus)

def TaskPc.found : TaskPc → Bool
  | .cancelling wasRunning => wasRunning
  | .collecting wasRunning => wasRunning
  | .converting wasRunning _ => wasRunning
  | .returned wasRunning _ => wasRunning
  | _ => false

def TaskPc.forwarded : TaskPc → Bool
  | .collecting wasRunning => wasRunning
  | .converting wasRunning _ => wasRunning
  | .returned wasRunning _ => wasRunning
  | _ => false

def TaskPc.followed : TaskPc → Bool
  | .submitting => true
  | .polling => true
  | .checking => true
  | pc => pc.found

namespace TaskExecutor

/-- A task whose thread found the cancel while its action was running is CANCELLED, and its action
does not run any more. -/
def CancelReported (d : TaskDefinition) (created : Except String ℕ)
    (G : TaskExecutor → TaskLabel → Prop) (s₀ : TaskExecutor) (ls : List TaskLabel) : Prop :=
  ∀ s, Run (next d created) G s₀ ls s → ∀ result, s.pc = .returned true result →
    result.status = .cancelled ∧ s.executor.isRunning d.workId = false

/-- From `since` on, the worker of the task's action finishes only as cancelled, and the action
stays so. -/
def EndsCancelled (since : TaskPc → Bool) (d : TaskDefinition) (s : TaskExecutor) :
    TaskLabel → Prop
  | .environment (.finish k thrown) => since s.pc = true → ∀ e,
      s.executor.runningActions.lookup d.workId = some e → e.future = k →
        thrown = none ∧ s.executor.status e.action = .cancelled
  | .environment (.recordException k) => since s.pc = true → ∀ e,
      s.executor.runningActions.lookup d.workId = some e → e.future ≠ k
  | .environment (.setStatus object status) => since s.pc = true → ∀ e,
      s.executor.runningActions.lookup d.workId = some e → e.action = object →
        s.executor.ready e.future = true → status = .cancelled
  | _ => True

/-- The id is not in use, and after the cancel was found the action ends, as cancelled, before the
thread asks. -/
def ReactsInTime (d : TaskDefinition) (s : TaskExecutor) (l : TaskLabel) : Prop :=
  EndsCancelled TaskPc.found d s l ∧
  (l = .task → s.pc = .creating → s.executor.runningActions.lookup d.workId = none ∧
    ∀ x ∈ s.executor.executions, x.actionId ≠ d.workId) ∧
  (l = .task → s.pc = .collecting true → s.executor.isRunning d.workId = false)

structure Submitted (d : TaskDefinition) (e : ActionExecutor) (k object : ℕ) : Prop where
  submission : ∃ t, (e.executions.map Execution.submission)[k]? = some ⟨d.workId, object, t, 0⟩
  only : ∀ (j : ℕ) (x : Execution), e.executions[j]? = some x → x.actionId = d.workId → j = k

def Entered (d : TaskDefinition) (e : ActionExecutor) (k object : ℕ) : Prop :=
  ∃ entry, e.runningActions.lookup d.workId = some entry ∧ entry.action = object ∧
    entry.future = k ∧ (entry.exceptionOccurred = true → e.ready k = true)

def Heeded (d : TaskDefinition) (e : ActionExecutor) (k object : ℕ) : Prop :=
  ∃ entry, e.runningActions.lookup d.workId = some entry ∧ entry.action = object ∧
    entry.future = k ∧ entry.exceptionOccurred = false ∧
    (e.ready k = true → e.status object = .cancelled)

def Stopped (d : TaskDefinition) (e : ActionExecutor) : Prop :=
  ∃ entry, e.runningActions.lookup d.workId = some entry ∧ e.ready entry.future = true

structure Sound (d : TaskDefinition) (s : TaskExecutor) : Prop where
  submitting : s.pc = .submitting → ∃ k object, Submitted d s.executor k object ∧
    (s.executor.caller = .launched k ∧ s.executor.runningActions.lookup d.workId = none ∨
      (s.executor.caller = .registered k ∨ s.executor.caller = .idle) ∧
        Entered d s.executor k object)
  polling : s.pc = .polling ∨ s.pc = .checking → ∃ k object, Submitted d s.executor k object ∧
    Entered d s.executor k object
  found : s.pc = .cancelling true ∨ s.pc = .collecting true → s.state.cancelRequested = true ∧
    ∃ k object, Submitted d s.executor k object ∧ Heeded d s.executor k object
  converting : ∀ result, s.pc = .converting true result → s.state.cancelRequested = true ∧
    (result.status = .cancelled ∨ result.status = .timeout) ∧ Stopped d s.executor
  returned : ∀ result, s.pc = .returned true result →
    result.status = .cancelled ∧ Stopped d s.executor

section
variable {d : TaskDefinition} {s : TaskExecutor} {e e' : ActionExecutor} {k object : ℕ} {l : Label}

lemma Submitted.worked (h : Submitted d e k object) (hw : ActionExecutor.Worked e e' l) :
    Submitted d e' k object := by
  have hsub := hw.background.submissions
  refine ⟨hsub ▸ h.submission, fun j x' hx' hid => ?_⟩
  have hget : (e.executions.map Execution.submission)[j]? = some x'.submission := by
    rw [← hsub, getElem?_map, hx']
    rfl
  rw [getElem?_map] at hget
  obtain ⟨x, hx, heq⟩ := map_eq_some_iff.mp hget
  exact h.only j x hx ((congrArg Submission.actionId heq).trans hid)

lemma Entered.worked (h : Entered d e k object) (hs : Submitted d e k object)
    (hw : ActionExecutor.Worked e e' l) : Entered d e' k object := by
  obtain ⟨entry, hent, rfl, rfl, hexc⟩ := h
  obtain ⟨entry', hent', hact, hfut, hsame | ⟨j, x, rfl, hx, hid⟩⟩ := hw.entry hent
  · refine ⟨entry', hent', hact, hfut, fun hthr => ?_⟩
    exact (hw.ready_cases _).1 (hexc (hsame.symm.trans hthr))
  · refine ⟨entry', hent', hact, hfut, fun _ => ?_⟩
    -- the handler that wrote to the entry is the one of the action's own worker
    cases hs.only j x hx hid
    cases hw with
    | recorded _ y message hy hthrew hnew =>
      rw [hnew, ActionExecutor.ready, getElem?_set_self (List.getElem?_eq_some_iff.mp hy).1]
      rfl

lemma Heeded.worked (h : Heeded d s.executor k object) (hs : Submitted d s.executor k object)
    (hw : ActionExecutor.Worked s.executor e' l)
    (hg : EndsCancelled TaskPc.found d s (.environment l)) (hfnd : s.pc.found = true) :
    Heeded d e' k object := by
  obtain ⟨entry, hent, rfl, rfl, hexc, hcan⟩ := h
  obtain ⟨entry', hent', hact, hfut, hsame | ⟨j, x, rfl, hx, hid⟩⟩ := hw.entry hent
  · refine ⟨entry', hent', hact, hfut, hsame.trans hexc, fun hrdy => ?_⟩
    obtain hold | ⟨thrown, rfl⟩ | rfl := (hw.ready_cases _).2 hrdy
    · obtain hst | ⟨status, rfl, hst⟩ := hw.status_cases entry.action
      · exact hst.trans (hcan hold)
      · exact hst.trans (hg hfnd entry hent rfl hold)
    · obtain hst | ⟨status, hlab, -⟩ := hw.status_cases entry.action
      · exact hst.trans (hg hfnd entry hent rfl).2
      · cases hlab
    · exact absurd rfl (hg hfnd entry hent)
  · exact absurd (hs.only j x hx hid).symm (hg hfnd entry hent)

lemma Stopped.worked (h : Stopped d e) (hw : ActionExecutor.Worked e e' l) : Stopped d e' := by
  obtain ⟨entry, hent, hrdy⟩ := h
  obtain ⟨entry', hent', -, hfut, -⟩ := hw.entry hent
  refine ⟨entry', hent', ?_⟩
  rw [hfut]
  exact (hw.ready_cases _).1 hrdy

lemma Sound.environment (h : Sound d s) (hw : ActionExecutor.Worked s.executor e' l)
    (hg : EndsCancelled TaskPc.found d s (.environment l)) :
    Sound d { s with executor := e' } where
  submitting hpc := by
    obtain ⟨k, object, hs, ⟨hc, hnone⟩ | ⟨hc, henter⟩⟩ := h.submitting hpc
    · refine ⟨k, object, hs.worked hw, .inl ⟨hw.background.caller.trans hc, ?_⟩⟩
      have hslot := hw.background.slots d.workId
      rw [hnone, map_none, map_eq_none_iff] at hslot
      exact hslot
    · refine ⟨k, object, hs.worked hw, .inr ⟨?_, henter.worked hs hw⟩⟩
      rwa [hw.background.caller]
  polling hpc := by
    obtain ⟨k, object, hs, henter⟩ := h.polling hpc
    exact ⟨k, object, hs.worked hw, henter.worked hs hw⟩
  found hpc := by
    obtain ⟨hreq, k, object, hs, hheed⟩ := h.found hpc
    have hfnd : s.pc.found = true := by
      obtain hpc | hpc : s.pc = .cancelling true ∨ s.pc = .collecting true := hpc
      · rw [hpc]
        rfl
      · rw [hpc]
        rfl
    exact ⟨hreq, k, object, hs.worked hw, hheed.worked hs hw hg hfnd⟩
  converting result hpc := by
    obtain ⟨hreq, hst, hstopp⟩ := h.converting result hpc
    exact ⟨hreq, hst, hstopp.worked hw⟩
  returned result hpc := by
    obtain ⟨hst, hstopp⟩ := h.returned result hpc
    exact ⟨hst, hstopp.worked hw⟩

lemma Sound.state {state : TaskState} (h : Sound d s)
    (hsta : s.state.cancelRequested = true → state.cancelRequested = true) :
    Sound d { s with state } where
  submitting hpc := h.submitting hpc
  polling hpc := h.polling hpc
  found hpc := by
    obtain ⟨hreq, hheed⟩ := h.found hpc
    exact ⟨hsta hreq, hheed⟩
  converting result hpc := by
    obtain ⟨hreq, hrest⟩ := h.converting result hpc
    exact ⟨hsta hreq, hrest⟩
  returned result hpc := h.returned result hpc

end

section
variable {d : TaskDefinition} {created : Except String ℕ} {s s' : TaskExecutor} {object : ℕ}
  {e : ActionExecutor}

lemma sound_of_pc (h : s.pc.followed = false) : Sound d s := by
  have hne : ∀ pc : TaskPc, pc.followed = true → s.pc ≠ pc := by
    rintro pc hpc rfl
    rw [h] at hpc
    cases hpc
  refine ⟨fun hpc => absurd hpc (hne _ rfl), ?_, ?_, fun _ hpc => absurd hpc (hne _ rfl),
    fun _ hpc => absurd hpc (hne _ rfl)⟩
  · rintro (hpc | hpc)
    · exact absurd hpc (hne _ rfl)
    · exact absurd hpc (hne _ rfl)
  · rintro (hpc | hpc)
    · exact absurd hpc (hne _ rfl)
    · exact absurd hpc (hne _ rfl)

lemma sound_of_polling (hpc : s.pc = .polling ∨ s.pc = .checking)
    (h : ∃ k object, Submitted d s.executor k object ∧ Entered d s.executor k object) :
    Sound d s := by
  obtain hpc | hpc := hpc
  · exact ⟨by simp [hpc], fun _ => h, by simp [hpc], by simp [hpc], by simp [hpc]⟩
  · exact ⟨by simp [hpc], fun _ => h, by simp [hpc], by simp [hpc], by simp [hpc]⟩

lemma sound_of_found (hpc : s.pc = .cancelling true ∨ s.pc = .collecting true)
    (hreq : s.state.cancelRequested = true)
    (h : ∃ k object, Submitted d s.executor k object ∧ Heeded d s.executor k object) :
    Sound d s := by
  obtain hpc | hpc := hpc
  · exact ⟨by simp [hpc], by simp [hpc], fun _ => ⟨hreq, h⟩, by simp [hpc], by simp [hpc]⟩
  · exact ⟨by simp [hpc], by simp [hpc], fun _ => ⟨hreq, h⟩, by simp [hpc], by simp [hpc]⟩

lemma Sound.create (hnone : s.executor.runningActions.lookup d.workId = none)
    (hunus : ∀ x ∈ s.executor.executions, x.actionId ≠ d.workId)
    (hn : s.executor.next (.executeAsync d.workId object 0) = some e) :
    Sound d { s with executor := e, pc := .submitting } := by
  have hstep := ActionExecutor.step_of_next hn
  simp only [ActionExecutor.step] at hstep
  split_ifs at hstep with hidle
  cases hstep
  refine ⟨fun _ => ⟨s.executor.executions.length, object, ⟨⟨s.executor.now, ?_⟩, ?_⟩,
    .inl ⟨rfl, hnone⟩⟩, by simp, by simp, by simp, by simp⟩
  · rw [map_append, getElem?_append_right (by simp)]
    simp [Execution.submission]
  · intro j x hx hid
    rw [getElem?_append] at hx
    split_ifs at hx with hlt
    · exact absurd hid (hunus x (mem_of_getElem? hx))
    · have hbnd := (List.getElem?_eq_some_iff.mp hx).1
      rw [length_singleton] at hbnd
      omega

lemma Submitted.congr {e' : ActionExecutor} {k : ℕ} (h : Submitted d e k object)
    (hexec : e'.executions = e.executions) : Submitted d e' k object :=
  ⟨hexec ▸ h.submission, hexec ▸ h.only⟩

lemma Submitted.execution {k : ℕ} (h : Submitted d e k object) :
    ∃ x, e.executions[k]? = some x ∧ x.actionId = d.workId ∧ x.object = object ∧ x.timeout = 0 := by
  obtain ⟨t, ht⟩ := h.submission
  rw [getElem?_map] at ht
  obtain ⟨x, hx, heq⟩ := map_eq_some_iff.mp ht
  simp only [Execution.submission, Submission.mk.injEq] at heq
  exact ⟨x, hx, heq.1, heq.2.1, heq.2.2.2⟩

lemma Sound.submit (h : Sound d s) (hpc : s.pc = .submitting)
    (hn : submitStep s.executor = some e) : Sound d { s with executor := e } := by
  suffices hgoal : ∃ k object, Submitted d e k object ∧
      (e.caller = .launched k ∧ e.runningActions.lookup d.workId = none ∨
        (e.caller = .registered k ∨ e.caller = .idle) ∧ Entered d e k object) from
    ⟨fun _ => hgoal, by simp [hpc], by simp [hpc], by simp [hpc], by simp [hpc]⟩
  obtain ⟨k, object, hs, hplc⟩ := h.submitting hpc
  obtain ⟨x, hx, hid, hobj, htmo⟩ := hs.execution
  refine ⟨k, object, ?_⟩
  obtain ⟨hc, hnone⟩ | ⟨hc | hc, henter⟩ := hplc
  · rw [submitStep, hc] at hn
    have hstep : s.executor.emplace = some e := ActionExecutor.step_of_next hn
    rw [← hid] at hnone
    simp only [ActionExecutor.emplace, hc, hx, map_some, hnone, isSome_none,
      Bool.false_eq_true, if_false, Option.some.injEq] at hstep
    subst hstep
    refine ⟨hs.congr rfl, .inr ⟨.inl rfl, ?_⟩⟩
    rw [Entered, ← hid]
    exact ⟨_, AList.lookup_insert _, hobj, rfl, by simp⟩
  · rw [submitStep, hc] at hn
    have hstep : s.executor.startMonitor = some e := ActionExecutor.step_of_next hn
    simp only [ActionExecutor.startMonitor, hc, hx, map_some, htmo, if_true,
      Option.some.injEq] at hstep
    subst hstep
    exact ⟨hs.congr rfl, .inr ⟨.inr rfl, henter⟩⟩
  · rw [submitStep, hc] at hn
    cases hn

lemma isRunning_of_lookup {id : String} {entry : ExecutionState}
    (h : e.runningActions.lookup id = some entry) : e.isRunning id = !e.ready entry.future := by
  rw [ActionExecutor.isRunning, h]
  rfl

lemma Entered.heeded {k : ℕ} (h : Entered d e k object) (hrng : e.isRunning d.workId = true) :
    Heeded d e k object := by
  obtain ⟨entry, hent, hact, rfl, hexc⟩ := h
  rw [isRunning_of_lookup hent, Bool.not_eq_true'] at hrng
  refine ⟨entry, hent, hact, rfl, ?_, fun hrdy => ?_⟩
  · by_contra hthr
    rw [hexc (by simpa using hthr)] at hrng
    cases hrng
  · rw [hrdy] at hrng
    cases hrng

lemma Heeded.getResult {k : ℕ} (h : Heeded d e k object)
    (hstopp : e.isRunning d.workId = false) :
    ((e.getResult d.workId).status = .cancelled ∨ (e.getResult d.workId).status = .timeout) ∧
      Stopped d e := by
  obtain ⟨entry, hent, rfl, rfl, hexc, hcan⟩ := h
  rw [isRunning_of_lookup hent, Bool.not_eq_false'] at hstopp
  refine ⟨?_, entry, hent, hstopp⟩
  simp only [ActionExecutor.getResult, hent, hstopp, hexc, if_true, Bool.false_eq_true, if_false]
  split_ifs
  · exact .inr rfl
  · exact .inl (hcan hstopp)

lemma convert_status {taskId : String} {r : ExecutionResult}
    (h : r.status = .cancelled ∨ r.status = .timeout) :
    (convert taskId r true).status = .cancelled := by
  rw [convert]
  obtain h | h := h
  · simp [ExecutionResult.isCancelled, h]
  · simp [h]

lemma Sound.task (h : Sound d s) (hg : ReactsInTime d s .task)
    (hn : s.step d created = some s') : Sound d s' := by
  obtain ⟨-, hfr, hend⟩ := hg
  rw [step.eq_def] at hn
  split at hn
  next hpc =>
    cases hn
    exact sound_of_pc rfl
  next hpc =>
    split at hn
    next message =>
      cases hn
      exact sound_of_pc rfl
    next object =>
      obtain ⟨e, he, rfl⟩ := map_eq_some_iff.mp hn
      obtain ⟨hnone, hunus⟩ := hfr rfl hpc
      exact Sound.create hnone hunus he
  next hpc =>
    split_ifs at hn with hidle
    · cases hn
      obtain ⟨k, object, hs, ⟨hc, -⟩ | ⟨-, henter⟩⟩ := h.submitting hpc
      · rw [hc] at hidle
        cases hidle
      · exact sound_of_polling (.inl rfl) ⟨k, object, hs, henter⟩
    · obtain ⟨e, he, rfl⟩ := map_eq_some_iff.mp hn
      exact h.submit hpc he
  next hpc =>
    split_ifs at hn
    · cases hn
      exact sound_of_polling (.inr rfl) (h.polling (.inl hpc))
    · cases hn
      exact sound_of_pc rfl
  next hpc =>
    split_ifs at hn with hreq
    · cases hn
      cases hrng : s.executor.isRunning d.workId with
      | false => exact sound_of_pc rfl
      | true =>
        obtain ⟨k, object, hs, henter⟩ := h.polling (.inr hpc)
        exact sound_of_found (.inl rfl) hreq ⟨k, object, hs, henter.heeded hrng⟩
    · cases hn
      exact sound_of_polling (.inl rfl) (h.polling (.inr hpc))
  next wasRunning hpc =>
    obtain ⟨e, he, rfl⟩ := map_eq_some_iff.mp hn
    cases wasRunning with
    | false => exact sound_of_pc rfl
    | true =>
      obtain ⟨hreq, k, object, hs, hheed⟩ := h.found (.inl hpc)
      have hw := ActionExecutor.worked_of_step rfl (ActionExecutor.step_of_next he)
      exact sound_of_found (.inr rfl) hreq
        ⟨k, object, hs.worked hw, hheed.worked hs hw trivial (by rw [hpc]; rfl)⟩
  next wasRunning hpc =>
    cases hn
    cases wasRunning with
    | false => exact sound_of_pc rfl
    | true =>
      obtain ⟨hreq, k, object, hs, hheed⟩ := h.found (.inr hpc)
      obtain ⟨hst, hstopp⟩ := hheed.getResult (hend rfl hpc)
      refine ⟨by simp, by simp, by simp, ?_, by simp⟩
      rintro result hpc'
      cases hpc'
      exact ⟨hreq, hst, hstopp⟩
  next wasRunning actionResult hpc =>
    cases hn
    cases wasRunning with
    | false => exact sound_of_pc rfl
    | true =>
      obtain ⟨hreq, hst, hstopp⟩ := h.converting actionResult hpc
      refine ⟨by simp [returnResult], by simp [returnResult], by simp [returnResult],
        by simp [returnResult], ?_⟩
      rintro result hpc'
      cases hpc'
      rw [hreq]
      exact ⟨convert_status hst, hstopp⟩
  next => cases hn

lemma sound_next {l : TaskLabel} (h : Sound d s) (hg : ReactsInTime d s l)
    (hn : next d created s l = some s') : Sound d s' := by
  cases l with
  | task => exact h.task hg hn
  | cancel =>
    cases hn
    exact h.state fun _ => rfl
  | pause
  | resume =>
    cases hn
    exact h.state fun hreq => hreq
  | environment l =>
    simp only [next] at hn
    split_ifs at hn with hl
    obtain ⟨e, he, rfl⟩ := map_eq_some_iff.mp hn
    exact h.environment (ActionExecutor.worked_of_step (Bool.eq_false_iff.mpr hl)
      (ActionExecutor.step_of_next he)) hg.1

end

theorem cancelReported_of_reactsInTime (d : TaskDefinition) (created : Except String ℕ)
    (executor : ActionExecutor) (state : TaskState) (ls : List TaskLabel) :
    CancelReported d created (ReactsInTime d) (start executor state) ls := by
  intro s hrun result hpc
  have hsnd : Sound d s :=
    hrun.invariant (Sound d) (sound_of_pc rfl) fun s l s' h hg hn => sound_next h hg hn
  obtain ⟨hst, entry, hent, hrdy⟩ := hsnd.returned result hpc
  rw [isRunning_of_lookup hent, hrdy]
  exact ⟨hst, rfl⟩

/-- The worker has not looked at the cancel when the thread asks; it ends as cancelled later. -/
def cancelWhileRunning : List TaskLabel :=
  [.task, .task, .task, .task, .task, .environment (.setStatus 0 .running), .task, .cancel, .task,
    .task, .task, .task, .environment (.setStatus 0 .cancelled), .environment (.finish 0 none)]

def cancelledLate (s : TaskExecutor) (l : TaskLabel) : Bool :=
  !s.pc.forwarded || l = .task || l = .environment (.setStatus 0 .cancelled) ||
    l = .environment (.finish 0 none) &&
      (s.executor.runningActions.lookup "move").all fun e => s.executor.status e.action = .cancelled

lemma endsCancelled_of_cancelledLate {d : TaskDefinition} (hd : d.workId = "move")
    (s : TaskExecutor) (l : TaskLabel) (h : cancelledLate s l = true) :
    EndsCancelled TaskPc.forwarded d s l := by
  simp only [cancelledLate, Bool.or_eq_true, Bool.and_eq_true, Bool.not_eq_true',
    decide_eq_true_eq] at h
  obtain ((hnot | rfl) | rfl) | ⟨rfl, hall⟩ := h
  · rw [EndsCancelled.eq_def]
    split <;> simp [hnot]
  · trivial
  · intro _ e _ _ _
    rfl
  · intro _ e he _
    rw [← hd, he] at hall
    exact ⟨rfl, of_decide_eq_true hall⟩

theorem not_cancelReported : ¬ ∀ d created executor state ls,
    CancelReported d created (EndsCancelled TaskPc.forwarded d) (start executor state) ls := by
  intro h
  have hexec : ∃ s, exec (next ⟨"task", "move"⟩ (.ok 0)) cancelledLate
      (start .init ⟨.idle, 0, false, false⟩) cancelWhileRunning = some s ∧
      s.pc = .returned true ⟨"task", .failed, 0, ""⟩ := ⟨_, rfl, rfl⟩
  obtain ⟨s, hs, hpc⟩ := hexec
  have hrun := Run.of_exec (endsCancelled_of_cancelledLate (d := ⟨"task", "move"⟩) rfl) hs
  have hrep := h ⟨"task", "move"⟩ (.ok 0) .init ⟨.idle, 0, false, false⟩ _ s hrun _ hpc
  cases hrep.1

end TaskExecutor
end Mxrc.Task
