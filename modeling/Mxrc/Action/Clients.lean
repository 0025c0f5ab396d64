import Mxrc.Lib.Runs
import Mxrc.Action.ActionExecutor

/-!
# An action executor with several clients

Any number of threads stand where `ActionExecutor` has its one caller. The field
`caller` of the shared executor says whether some client holds the mutex.
-/

namespace Mxrc.Action
open Mxrc.Lib List Option

structure Submission where
  actionId : String
  object : ℕ
  startTime : ℕ
  timeout : ℕ
deriving DecidableEq

def Execution.submission (x : Execution) : Submission :=
  ⟨x.actionId, x.object, x.startTime, x.timeout⟩

structure Slot where
  action : ℕ
  future : ℕ
  startTime : ℕ
  timeout : ℕ
  timeoutThread : Option ℕ
deriving DecidableEq

def ExecutionState.slot (e : ExecutionState) : Slot :=
  ⟨e.action, e.future, e.startTime, e.timeout, e.timeoutThread⟩

def Caller.submits : Caller → Option ℕ
  | .launched k => some k
  | .dropping k => some k
  | .registered k => some k
  | _ => none

def Label.isClient : Label → Bool
  | .executeAsync _ _ _ => true
  | .emplace => true
  | .dropFuture => true
  | .startMonitor => true
  | .waitForCompletion _ => true
  | .clearCollect => true
  | .clearErase => true
  | _ => false

structure Clients where
  executor : ActionExecutor
  callers : ℕ → Caller

namespace Clients

def init : Clients := ⟨.init, fun _ => .idle⟩

def mayEnter (s : Clients) (c : ℕ) : Label → Bool
  | .executeAsync _ _ _ => true
  | _ => s.executor.mutexFree || s.callers c = s.executor.caller

def seenBy (s : Clients) (c : ℕ) : ActionExecutor := { s.executor with caller := s.callers c }

def holder : Caller → Caller
  | .dropping k => .dropping k
  | _ => .idle

def leave (s : Clients) (c : ℕ) (l : Label) (e : ActionExecutor) : Clients where
  executor := { e with
    caller := match l with
      | .executeAsync _ _ _ => s.executor.caller
      | _ => holder e.caller }
  callers := Function.update s.callers c e.caller

def next (s : Clients) : ℕ × Label → Option Clients
  | (c, l) =>
    if s.executor.terminated then none
    else if l.isClient then
      if s.mayEnter c l then ((s.seenBy c).step l).map (s.leave c l) else none
    else (s.executor.step l).map fun e => { s with executor := e }

def collect (m : Registry) (ids : List String) : Registry :=
  ids.foldl (fun m id => m.modify id fun e => { e with
    shouldStopMonitoring := e.shouldStopMonitoring || e.timeoutThread.isSome
    timeoutThread := none }) m

def submissions (s : Clients) : List Submission := s.executor.executions.map Execution.submission

def Submitting (s : Clients) (c : ℕ) (x : Submission) : Prop :=
  ∃ k, (s.callers c).submits = some k ∧ s.submissions[k]? = some x

def Clearing (s : Clients) (c : ℕ) (id : String) : Prop :=
  ∃ ids threads, s.callers c = .clearing ids threads ∧ id ∈ ids

variable {s s' : Clients} {c : ℕ} {l : Label}

lemma client_of_next (hl : l.isClient = true) (hn : next s (c, l) = some s') :
    s.executor.terminated = false ∧ ∃ e, (s.seenBy c).step l = some e ∧ s' = s.leave c l e := by
  rw [next] at hn
  split_ifs at hn with hterm hmay
  obtain ⟨e, he, rfl⟩ := map_eq_some_iff.mp hn
  exact ⟨Bool.eq_false_iff.mpr hterm, e, he, rfl⟩

lemma other_of_next (hl : l.isClient = false) (hn : next s (c, l) = some s') :
    s.executor.terminated = false ∧ ∃ e, s.executor.step l = some e ∧
      s' = { s with executor := e } := by
  simp only [next, hl, Bool.false_eq_true, if_false] at hn
  split_ifs at hn with hterm
  obtain ⟨e, he, rfl⟩ := map_eq_some_iff.mp hn
  exact ⟨Bool.eq_false_iff.mpr hterm, e, he, rfl⟩

end Clients

namespace ActionExecutor
variable {s s' : ActionExecutor} {k : ℕ}

lemma map_submission_set {l : List Execution} {x y : Execution} (hx : l[k]? = some x)
    (hy : y.submission = x.submission) :
    (l.set k y).map Execution.submission = l.map Execution.submission := by
  rw [map_set, hy]
  refine ext_getElem? fun j => ?_
  rw [getElem?_set]
  split_ifs with hj hlt
  · subst hj
    rw [getElem?_map, hx]
    rfl
  · subst hj
    rw [getElem?_eq_none (Nat.le_of_not_lt hlt)]
  · rfl

structure Background (s s' : ActionExecutor) : Prop where
  submissions : s'.executions.map Execution.submission = s.executions.map Execution.submission
  slots : ∀ id, (s'.runningActions.lookup id).map ExecutionState.slot =
    (s.runningActions.lookup id).map ExecutionState.slot
  caller : s'.caller = s.caller
  terminated : s'.terminated = s.terminated

lemma Background.refl (s : ActionExecutor) : Background s s := ⟨rfl, fun _ => rfl, rfl, rfl⟩

lemma Background.of_modify {id : String} {f : ExecutionState → ExecutionState}
    (hsub : s'.executions.map Execution.submission = s.executions.map Execution.submission)
    (hmap : s'.runningActions = s.runningActions.modify id f) (hf : ∀ e, (f e).slot = e.slot)
    (hclr : s'.caller = s.caller) (hterm : s'.terminated = s.terminated) :
    Background s s' := by
  refine ⟨hsub, fun id' => ?_, hclr, hterm⟩
  rw [hmap]
  exact map_lookup_modify hf _ _ _

inductive Monitored (s s' : ActionExecutor) (m : ℕ) : Prop
  | waits (h : s' = s)
  | ends (t : Monitor) (ht : s.monitors[m]? = some t) (hpc : t.pc = .polling)
      (h : s' = { s with monitors := s.monitors.set m { t with pc := .ended } })
  | exceeds (t : Monitor) (e : ExecutionState) (ht : s.monitors[m]? = some t)
      (hpc : t.pc = .polling) (he : s.runningActions.lookup t.actionId = some e)
      (hstop : e.shouldStopMonitoring = false) (hlate : t.timeout < s.now - t.startTime)
      (hflag : e.cancelRequested = false)
      (h : s' = { s with
        runningActions := s.runningActions.modify t.actionId fun e =>
          { e with cancelRequested := true }
        monitors := s.monitors.set m { t with pc := .cancelling } })
  | cancels (t : Monitor) (ht : s.monitors[m]? = some t) (hpc : t.pc = .cancelling)
      (h : s' = { s with
        runningActions := s.runningActions.modify t.actionId fun e =>
          { e with cancelRequested := true }
        monitors := s.monitors.set m { t with pc := .ended } })

variable {m : ℕ}

lemma monitored (h : s.monitor m = some s') : Monitored s s' m := by
  unfold monitor at h
  split at h
  next t ht =>
    simp only at h
    split_ifs at h
    split at h
    next hpc =>
      split at h
      next =>
        cases h
        exact .ends t ht hpc rfl
      next e he =>
        split_ifs at h with hstop hlate
        · cases h
          exact .ends t ht hpc rfl
        · cases h
          simp only [Bool.and_eq_true, decide_eq_true_eq, Bool.not_eq_true'] at hlate
          exact .exceeds t e ht hpc he (Bool.eq_false_iff.mpr hstop) hlate.1 hlate.2 rfl
        · cases h
          exact .waits rfl
    next hpc =>
      obtain ⟨s₁, hs₁, rfl⟩ := map_eq_some_iff.mp h
      unfold cancel at hs₁
      split_ifs at hs₁
      cases hs₁
      exact .cancels t ht hpc rfl
    next => cases h
  next => cases h

inductive Worked (s s' : ActionExecutor) : Label → Prop
  | cancelled (id : String) (h : s' = { s with
      runningActions := s.runningActions.modify id fun e => { e with cancelRequested := true } }) :
      Worked s s' (.cancel id)
  | finished (k : ℕ) (thrown : Option String) (x : Execution) (worker : Worker)
      (hx : s.executions[k]? = some x) (hrunning : x.worker = .running)
      (hworker : thrown = none → worker = .done none)
      (h : s' = { s with executions := s.executions.set k { x with worker } })
      (hthrown : ∀ message, worker ≠ .done (some message)) : Worked s s' (.finish k thrown)
  | recorded (k : ℕ) (x : Execution) (message : String) (hx : s.executions[k]? = some x)
      (hthrew : x.worker = .threw message)
      (h : s' = { s with
        executions := s.executions.set k { x with worker := .done (some message) }
        runningActions := s.runningActions.modify x.actionId fun e =>
          { e with exceptionOccurred := true, exceptionMessage := message } }) :
      Worked s s' (.recordException k)
  | monitored (m : ℕ) (h : Monitored s s' m) : Worked s s' (.monitor m)
  | wrote (object : ℕ) (status : ActionStatus)
      (h : s' = { s with status := Function.update s.status object status }) :
      Worked s s' (.setStatus object status)
  | elapsed (ms : ℕ) (h : s' = { s with now := s.now + ms }) : Worked s s' (.elapse ms)

lemma worked_of_finish {thrown : Option String} (h : s.finish k thrown = some s') :
    Worked s s' (.finish k thrown) := by
  unfold finish at h
  split at h
  next x hx =>
    split_ifs at h with hrng
    cases h
    refine .finished k thrown x _ hx hrng ?_ rfl ?_
    · rintro rfl
      rfl
    · cases thrown <;> simp
  next => cases h

lemma worked_of_recordException (h : s.recordException k = some s') :
    Worked s s' (.recordException k) := by
  unfold recordException at h
  split at h
  next x hx =>
    split at h
    next message hthrew =>
      split_ifs at h
      cases h
      exact .recorded k x message hx hthrew rfl
    next => cases h
  next => cases h

variable {l : Label}

lemma worked_of_step (hl : l.isClient = false) (h : s.step l = some s') : Worked s s' l := by
  cases l with
  | cancel id =>
    simp only [step, cancel] at h
    split_ifs at h
    cases h
    exact .cancelled id rfl
  | finish k thrown => exact worked_of_finish h
  | recordException k => exact worked_of_recordException h
  | monitor m => exact .monitored m (monitored h)
  | setStatus object status =>
    cases h
    exact .wrote object status rfl
  | elapse ms =>
    cases h
    exact .elapsed ms rfl
  | _ => cases hl

lemma Monitored.background (h : Monitored s s' m) : Background s s' := by
  cases h with
  | waits h =>
    subst h
    exact .refl _
  | ends t ht hpc h =>
    subst h
    exact ⟨rfl, fun _ => rfl, rfl, rfl⟩
  | exceeds t e ht hpc he hstop hlate hflag h
  | cancels t ht hpc h =>
    subst h
    exact .of_modify rfl rfl (fun _ => rfl) rfl rfl

lemma Worked.background (h : Worked s s' l) : Background s s' := by
  cases h with
  | cancelled id h =>
    subst h
    exact .of_modify rfl rfl (fun _ => rfl) rfl rfl
  | finished k thrown x worker hx hrng hwor h hthrw =>
    subst h
    exact ⟨map_submission_set hx rfl, fun _ => rfl, rfl, rfl⟩
  | recorded k x message hx hthrew h =>
    subst h
    exact .of_modify (map_submission_set hx rfl) rfl (fun _ => rfl) rfl rfl
  | monitored m h => exact h.background
  | wrote object status h
  | elapsed ms h =>
    subst h
    exact ⟨rfl, fun _ => rfl, rfl, rfl⟩

lemma Monitored.quiet (h : Monitored s s' m) :
    s'.executions = s.executions ∧ s'.status = s.status := by
  cases h with
  | waits h => simp [h]
  | ends t ht hpc h => simp [h]
  | exceeds t e ht hpc he hstop hlate hflag h => simp [h]
  | cancels t ht hpc h => simp [h]

inductive Served (s : ActionExecutor) : Label → ActionExecutor → Prop
  | submitted (id : String) (object timeout : ℕ) (hcaller : s.caller = .idle) :
      Served s (.executeAsync id object timeout) { s with
        executions := s.executions ++ [⟨id, object, s.now, timeout, .running⟩]
        caller := .launched s.executions.length }
  | kept (k : ℕ) (x : Execution) (hcaller : s.caller = .launched k)
      (hx : s.executions[k]? = some x) (hold : s.runningActions.lookup x.actionId ≠ none) :
      Served s .emplace { s with caller := .dropping k }
  | registered (k : ℕ) (x : Execution) (hcaller : s.caller = .launched k)
      (hx : s.executions[k]? = some x) (hnew : s.runningActions.lookup x.actionId = none) :
      Served s .emplace { s with
        runningActions := s.runningActions.insert x.actionId
          ⟨x.object, k, x.startTime, x.timeout, false, false, none, false, ""⟩
        caller := .registered k }
  | dropped (k : ℕ) (hcaller : s.caller = .dropping k) (hready : s.ready k = true) :
      Served s .dropFuture { s with caller := .registered k }
  | unwatched (k : ℕ) (x : Execution) (hcaller : s.caller = .registered k)
      (hx : s.executions[k]? = some x)
      (hcause : x.timeout = 0 ∨ s.runningActions.lookup x.actionId = none) :
      Served s .startMonitor { s with caller := .idle }
  | overwritten (k : ℕ) (x : Execution) (e : ExecutionState) (hcaller : s.caller = .registered k)
      (hx : s.executions[k]? = some x) (htimeout : x.timeout ≠ 0)
      (he : s.runningActions.lookup x.actionId = some e) (hthread : e.timeoutThread.isSome = true) :
      Served s .startMonitor { s with terminated := true }
  | watched (k : ℕ) (x : Execution) (e : ExecutionState) (hcaller : s.caller = .registered k)
      (hx : s.executions[k]? = some x) (htimeout : x.timeout ≠ 0)
      (he : s.runningActions.lookup x.actionId = some e) (hthread : e.timeoutThread = none) :
      Served s .startMonitor { s with
        runningActions := s.runningActions.modify x.actionId fun e =>
          { e with timeoutThread := some s.monitors.length }
        monitors := s.monitors ++ [⟨x.actionId, x.startTime, x.timeout, .polling⟩]
        caller := .idle }
  | waited (id : String) (hcaller : s.caller = .idle)
      (hready : (s.runningActions.lookup id).all (fun e => s.ready e.future) = true) :
      Served s (.waitForCompletion id) s
  | collected (hcaller : s.caller = .idle) :
      Served s .clearCollect { s with
        runningActions := Clients.collect s.runningActions (s.completed.map (·.1))
        caller := .clearing (s.completed.map (·.1)) (s.completed.filterMap (·.2.timeoutThread)) }
  | erased (ids : List String) (threads : List ℕ) (hcaller : s.caller = .clearing ids threads) :
      Served s .clearErase { s with
        runningActions := ids.foldl (fun m id => m.erase id) s.runningActions
        caller := .idle
        terminated := ids.any fun id =>
          (s.runningActions.lookup id).any (·.timeoutThread.isSome) }

lemma served_emplace (h : s.emplace = some s') : Served s .emplace s' := by
  unfold emplace at h
  split at h
  next k hk =>
    obtain ⟨x, hx, rfl⟩ := map_eq_some_iff.mp h
    split_ifs with hold
    · exact .kept k x hk hx (isSome_iff_ne_none.mp hold)
    · exact .registered k x hk hx (by simpa using hold)
  next => cases h

lemma served_startMonitor (h : s.startMonitor = some s') : Served s .startMonitor s' := by
  unfold startMonitor at h
  split at h
  next k hk =>
    obtain ⟨x, hx, rfl⟩ := map_eq_some_iff.mp h
    split_ifs with htmo
    · exact .unwatched k x hk hx (.inl htmo)
    · split
      next hnone => exact .unwatched k x hk hx (.inr hnone)
      next e he =>
        split_ifs with hthr
        · exact .overwritten k x e hk hx htmo he hthr
        · exact .watched k x e hk hx htmo he (by simpa using hthr)
  next => cases h

lemma served_of_step (hl : l.isClient = true) (h : s.step l = some s') : Served s l s' := by
  cases l with
  | executeAsync id object timeout =>
    simp only [step] at h
    split_ifs at h with hidle
    cases h
    exact .submitted id object timeout hidle
  | waitForCompletion id =>
    simp only [step, Bool.and_eq_true, decide_eq_true_eq] at h
    split_ifs at h with hrdy
    cases h
    exact .waited id hrdy.1 hrdy.2
  | dropFuture =>
    simp only [step] at h
    split at h
    next k hk =>
      split_ifs at h with hrdy
      cases h
      exact .dropped k hk hrdy
    next => cases h
  | emplace => exact served_emplace h
  | startMonitor => exact served_startMonitor h
  | clearCollect =>
    simp only [step, clearCollect] at h
    split_ifs at h with hidle
    cases h
    exact .collected hidle
  | clearErase =>
    simp only [step, clearErase] at h
    split at h
    next ids threads hclear =>
      split_ifs at h
      cases h
      exact .erased ids threads hclear
    next => cases h
  | _ => cases hl

end ActionExecutor

namespace Clients
variable {s s' : Clients} {c : ℕ} {l : Label} {caller : Caller}

lemma caller_cases (h : s'.callers = Function.update s.callers c caller) (c' : ℕ) :
    (c' = c ∧ s'.callers c' = caller) ∨ (c' ≠ c ∧ s'.callers c' = s.callers c') := by
  rw [h]
  by_cases hc : c' = c
  · subst hc
    exact .inl ⟨rfl, Function.update_self ..⟩
  · exact .inr ⟨hc, Function.update_of_ne hc ..⟩

structure Clock (s s' : Clients) : Prop where
  now : s'.executor.now = s.executor.now
  status : s'.executor.status = s.executor.status

structure Frame (s s' : Clients) : Prop extends Clock s s' where
  executions : s'.executor.executions = s.executor.executions
  runningActions : s'.executor.runningActions = s.executor.runningActions
  monitors : s'.executor.monitors = s.executor.monitors

lemma submissions_congr (h : s'.executor.executions = s.executor.executions) :
    s'.submissions = s.submissions := by
  rw [submissions, h]
  rfl

lemma submission_of_execution {k : ℕ} {x : Execution} (h : s.executor.executions[k]? = some x) :
    s.submissions[k]? = some x.submission := by
  rw [submissions, getElem?_map, h]
  rfl

lemma callers_submitted (s : Clients) (c : ℕ) :
    Function.update s.callers c (.launched s.executor.executions.length) =
      Function.update s.callers c (.launched s.submissions.length) := by
  rw [submissions, length_map]

lemma submits_of_update {c' k : ℕ} (hcls : s'.callers = Function.update s.callers c caller)
    (hclr : ∀ k, caller.submits = some k → (s.callers c).submits = some k)
    (h : (s'.callers c').submits = some k) : (s.callers c').submits = some k := by
  obtain ⟨rfl, hc⟩ | ⟨-, hc⟩ := caller_cases hcls c'
  · rw [hc] at h
    exact hclr k h
  · rwa [hc] at h

lemma submitting_of_update {c' : ℕ} {x : Submission}
    (hcls : s'.callers = Function.update s.callers c caller)
    (hclr : ∀ k, caller.submits = some k → (s.callers c).submits = some k)
    (hsub : s'.submissions = s.submissions) (h : Submitting s' c' x) : Submitting s c' x := by
  obtain ⟨k, hk, hx⟩ := h
  rw [hsub] at hx
  exact ⟨k, submits_of_update hcls hclr hk, hx⟩

section
variable {y : Submission} (hbnd : ∀ c k,
  (s.callers c).submits = some k → k < s.submissions.length)
  (hsub : s'.submissions = s.submissions ++ [y])
  (hcls : s'.callers = Function.update s.callers c (.launched s.submissions.length))
include hbnd hsub hcls

lemma submits_of_submitted {c' k : ℕ} (h : (s'.callers c').submits = some k) :
    (c' = c ∧ k = s.submissions.length ∧ s'.submissions[k]? = some y) ∨
      (c' ≠ c ∧ (s.callers c').submits = some k ∧ s'.submissions[k]? = s.submissions[k]?) := by
  obtain ⟨rfl, hc⟩ | ⟨hne, hc⟩ := caller_cases hcls c'
  · rw [hc] at h
    cases h
    rw [hsub, getElem?_concat_length]
    exact .inl ⟨rfl, rfl, rfl⟩
  · rw [hc] at h
    rw [hsub, getElem?_append_left (hbnd c' k h)]
    exact .inr ⟨hne, h, rfl⟩

lemma submits_lt_of_submitted {c' k : ℕ} (h : (s'.callers c').submits = some k) :
    k < s'.submissions.length := by
  rw [hsub, length_append, length_singleton]
  obtain ⟨-, rfl, -⟩ | ⟨-, h, -⟩ := submits_of_submitted hbnd hsub hcls h
  · exact Nat.lt_succ_self _
  · exact Nat.lt_succ_of_lt (hbnd c' k h)

lemma submitting_of_submitted {c' : ℕ} {x : Submission} (h : Submitting s' c' x) :
    (c' = c ∧ x = y) ∨ (c' ≠ c ∧ Submitting s c' x) := by
  obtain ⟨k, hk, hx⟩ := h
  obtain ⟨rfl, -, hy⟩ | ⟨hne, hk, hsame⟩ := submits_of_submitted hbnd hsub hcls hk
  · exact .inl ⟨rfl, Option.some.inj (hx.symm.trans hy)⟩
  · exact .inr ⟨hne, k, hk, hsame.symm.trans hx⟩

end

lemma served_of_next (hl : l.isClient = true) (hn : next s (c, l) = some s') :
    ∃ e, ActionExecutor.Served (s.seenBy c) l e ∧ s' = s.leave c l e := by
  obtain ⟨-, e, he, rfl⟩ := client_of_next hl hn
  exact ⟨e, ActionExecutor.served_of_step hl he, rfl⟩

end Clients
end Mxrc.Action
