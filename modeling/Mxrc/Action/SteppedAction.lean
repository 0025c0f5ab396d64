import Mxrc.Action.Clients

/-!
# Stepped actions under the executor

`DelayAction` and `MoveAction` wait in rounds and look at `cancelled_` between
them: 10 rounds for a delay, and for a move the truncated tenfold distance, at
least 1. Each access to `cancelled_` or `status_` is a step.
`ActionExecutor::cancel` sets `cancelled_` after its critical section; a call on
its way there is in `cancelling`. Progress is rational.
-/

namespace Mxrc.Action
open Mxrc.Lib List Option Function

inductive SteppedAction
  | delayAction
  | moveAction (tenths : ℤ)
deriving DecidableEq

def SteppedAction.steps : SteppedAction → ℕ
  | .delayAction => 10
  | .moveAction tenths => if tenths < 1 then 1 else tenths.toNat

inductive WorkerPc
  | entered
  | begun
  | looping (i : ℕ)
  | sleeping (i : ℕ)
  | testing
  | ending (cancelled : Bool)
  | returning (cancelled : Bool)
deriving DecidableEq

structure Workers where
  clients : Clients
  pc : ℕ → WorkerPc
  cancelled : ℕ → Bool
  progress : ℕ → ℚ
  cancelling : List ℕ

inductive WorkersLabel
  | client (c : ℕ) (l : Label)
  | work (k : ℕ)
  | cancelAction (j : ℕ)
deriving DecidableEq

def Clients.cancelledId (s : Clients) : Label → Option String
  | .cancel id => some id
  | .monitor m => (s.executor.monitors[m]?).bind fun t =>
      if t.pc = .cancelling then some t.actionId else none
  | _ => none

def Clients.actionToCancel (s : Clients) (l : Label) : Option ℕ :=
  (s.cancelledId l).bind fun id => (s.executor.runningActions.lookup id).map (·.action)

def Label.ofWorker : Label → Bool
  | .finish _ _ => true
  | .setStatus _ _ => true
  | _ => false

namespace Workers

def init : Workers := ⟨.init, fun _ => .entered, fun _ => false, fun _ => 0, []⟩

abbrev executor (s : Workers) : ActionExecutor := s.clients.executor

def goto (s : Workers) (k : ℕ) (pc : WorkerPc) : Workers :=
  { s with pc := Function.update s.pc k pc }

@[simp]
lemma goto_pc (s : Workers) (k : ℕ) (pc : WorkerPc) : (s.goto k pc).pc k = pc :=
  update_self ..

def act (steps : ℕ) (s : Workers) (k object : ℕ) : Option Workers :=
  match s.pc k with
  | .entered => (s.clients.next (0, .setStatus object .running)).map fun clients =>
      goto { s with clients, progress := Function.update s.progress object 0 } k .begun
  | .begun =>
      some (goto { s with cancelled := Function.update s.cancelled object false } k (.looping 0))
  | .looping i =>
      if i < steps && !s.cancelled object then some (s.goto k (.sleeping i))
      else some (s.goto k .testing)
  | .sleeping i =>
      some (goto { s with progress := Function.update s.progress object ((i + 1) / steps) } k
        (.looping (i + 1)))
  | .testing => some (s.goto k (.ending (s.cancelled object)))
  | .ending true => (s.clients.next (0, .setStatus object .cancelled)).map fun clients =>
      goto { s with clients } k (.returning true)
  | .ending false => (s.clients.next (0, .setStatus object .completed)).map fun clients =>
      goto { s with clients, progress := Function.update s.progress object 1 } k (.returning false)
  | .returning _ => (s.clients.next (0, .finish k none)).map fun clients => { s with clients }

def work (actions : ℕ → SteppedAction) (s : Workers) (k : ℕ) : Option Workers :=
  match s.executor.executions[k]? with
  | some x =>
    if x.worker = .running && !s.executor.terminated then
      s.act (actions x.object).steps k x.object
    else none
  | none => none

def next (actions : ℕ → SteppedAction) (s : Workers) : WorkersLabel → Option Workers
  | .client c l =>
    if l.ofWorker then none
    else (s.clients.next (c, l)).map fun clients =>
      { s with clients, cancelling := s.cancelling ++ (s.clients.actionToCancel l).toList }
  | .work k => s.work actions k
  | .cancelAction j =>
    match s.cancelling[j]? with
    | some object =>
      if s.executor.terminated then none
      else some { s with
        cancelled := Function.update s.cancelled object true
        cancelling := s.cancelling.eraseIdx j }
    | none => none

end Workers

def WorkerPc.succ (steps : ℕ) (cancelled : Bool) : WorkerPc → WorkerPc
  | .entered => .begun
  | .begun => .looping 0
  | .looping i => if i < steps && !cancelled then .sleeping i else .testing
  | .sleeping i => .looping (i + 1)
  | .testing => .ending cancelled
  | .ending c => .returning c
  | .returning c => .returning c

def WorkerPc.status : WorkerPc → ActionStatus
  | .entered => .pending
  | .returning true => .cancelled
  | .returning false => .completed
  | _ => .running

def WorkerPc.remaining (steps : ℕ) : WorkerPc → ℕ
  | .entered => 2 * steps + 6
  | .begun => 2 * steps + 5
  | .looping i => 2 * (steps - i) + 4
  | .sleeping i => 2 * (steps - (i + 1)) + 5
  | .testing => 3
  | .ending _ => 2
  | .returning _ => 1

lemma WorkerPc.remaining_succ {steps : ℕ} {cancelled : Bool} {pc : WorkerPc}
    (h : ∀ c, pc ≠ .returning c) :
    (pc.succ steps cancelled).remaining steps < pc.remaining steps := by
  cases pc with
  | looping i =>
    rw [succ]
    split_ifs with hi
    · have : i < steps := by simpa using (Bool.and_eq_true_iff.mp hi).1
      simp only [remaining]
      omega
    · simp only [remaining]
      omega
  | returning c => exact absurd rfl (h c)
  | _ => simp [succ, remaining]

lemma WorkerPc.remaining_pos (steps : ℕ) (pc : WorkerPc) : 0 < pc.remaining steps := by
  cases pc <;> simp [remaining]

namespace Workers
variable {actions : ℕ → SteppedAction} {s s' : Workers} {k : ℕ}

structure Acted (steps : ℕ) (s s' : Workers) (k object : ℕ) : Prop where
  pc : s'.pc = Function.update s.pc k ((s.pc k).succ steps (s.cancelled object))
  cancelled : s'.cancelled =
    if s.pc k = .begun then Function.update s.cancelled object false else s.cancelled
  cancelling : s'.cancelling = s.cancelling
  background : ActionExecutor.Background s.executor s'.executor
  callers : s'.clients.callers = s.clients.callers
  status_self : s.executor.status object = (s.pc k).status →
    s'.executor.status object = (s'.pc k).status
  status_other : ∀ o, o ≠ object → s'.executor.status o = s.executor.status o
  executions : (∀ c, s.pc k ≠ .returning c) → s'.executor.executions = s.executor.executions
  returns : ∀ c, s.pc k = .returning c → s.executor.Worked s'.executor (.finish k none)

variable {steps object : ℕ} {clients : Clients}

lemma Acted.of_goto {t : Workers} {place pc : WorkerPc} (hplc : s.pc k = place)
    (hsucc : place.succ steps (s.cancelled object) = pc) (hst : place.status = pc.status)
    (hsty : ∀ c, place ≠ .returning c) (hcli : t.clients = s.clients) (hpc : t.pc = s.pc)
    (hcanc : t.cancelled =
      if place = .begun then Function.update s.cancelled object false else s.cancelled)
    (hcan : t.cancelling = s.cancelling) : Acted steps s (t.goto k pc) k object := by
  have hexec : (t.goto k pc).executor = s.executor := congrArg Clients.executor hcli
  subst hplc hsucc
  refine ⟨?_, hcanc, hcan, ?_, congrArg Clients.callers hcli, ?_, ?_, ?_, ?_⟩
  · rw [goto, hpc]
  · rw [hexec]
    exact .refl _
  · intro h
    rw [hexec, h, hst, goto_pc]
  · intro o _
    rw [hexec]
  · intro _
    rw [hexec]
  · intro c hc
    exact absurd hc (hsty c)

lemma Acted.of_setStatus {t : Workers} {place pc : WorkerPc} (hplc : s.pc k = place)
    (hsucc : place.succ steps (s.cancelled object) = pc) (hbeg : place ≠ .begun)
    (hsty : ∀ c, place ≠ .returning c)
    (hnext : s.clients.next (0, .setStatus object pc.status) = some t.clients) (hpc : t.pc = s.pc)
    (hcanc : t.cancelled = s.cancelled) (hcan : t.cancelling = s.cancelling) :
    Acted steps s (t.goto k pc) k object := by
  obtain ⟨-, e, he, hcli⟩ := Clients.other_of_next rfl hnext
  have hexec : (t.goto k pc).executor = e := congrArg Clients.executor hcli
  have hcls : t.clients.callers = s.clients.callers := by rw [hcli]
  have hb := (ActionExecutor.worked_of_step rfl he).background
  subst hplc hsucc
  cases he
  refine ⟨?_, ?_, hcan, ?_, hcls, ?_, ?_, ?_, ?_⟩
  · rw [goto, hpc]
  · rw [if_neg hbeg]
    exact hcanc
  · rw [hexec]
    exact hb
  · intro _
    rw [hexec, goto_pc]
    exact update_self ..
  · intro o ho
    rw [hexec]
    exact update_of_ne ho ..
  · intro _
    rw [hexec]
  · intro c hc
    exact absurd hc (hsty c)

lemma Acted.of_finish {c : Bool} (hplc : s.pc k = .returning c)
    (hnext : s.clients.next (0, .finish k none) = some clients) :
    Acted steps s { s with clients } k object := by
  obtain ⟨-, e, he, rfl⟩ := Clients.other_of_next rfl hnext
  have hwor := ActionExecutor.worked_of_step rfl he
  have hst : e.status = s.executor.status := by
    cases hwor with
    | finished k thrown x worker hx hrng hwork h hthr => rw [h]
  refine ⟨?_, ?_, rfl, hwor.background, rfl, ?_, ?_, ?_, fun _ _ => hwor⟩
  · rw [hplc, WorkerPc.succ, ← hplc, update_eq_self]
  · rw [hplc]
    rfl
  · intro h
    exact (congrFun hst object).trans h
  · intro o _
    exact congrFun hst o
  · intro h
    exact absurd hplc (h c)

lemma acted (h : s.act steps k object = some s') : Acted steps s s' k object := by
  rw [act] at h
  split at h
  next hpc =>
    obtain ⟨clients, hnext, rfl⟩ := map_eq_some_iff.mp h
    exact .of_setStatus hpc rfl (by simp) (by simp) hnext rfl rfl rfl
  next hpc =>
    cases h
    exact .of_goto hpc rfl rfl (by simp) rfl rfl rfl rfl
  next i hpc =>
    split_ifs at h with hi
    · cases h
      exact .of_goto hpc (if_pos hi) rfl (by simp) rfl rfl rfl rfl
    · cases h
      exact .of_goto hpc (if_neg hi) rfl (by simp) rfl rfl rfl rfl
  next i hpc =>
    cases h
    exact .of_goto hpc rfl rfl (by simp) rfl rfl rfl rfl
  next hpc =>
    cases h
    exact .of_goto hpc rfl rfl (by simp) rfl rfl rfl rfl
  next hpc =>
    obtain ⟨clients, hnext, rfl⟩ := map_eq_some_iff.mp h
    exact .of_setStatus hpc rfl (by simp) (by simp) hnext rfl rfl rfl
  next hpc =>
    obtain ⟨clients, hnext, rfl⟩ := map_eq_some_iff.mp h
    exact .of_setStatus hpc rfl (by simp) (by simp) hnext rfl rfl rfl
  next c hpc =>
    obtain ⟨clients, hnext, rfl⟩ := map_eq_some_iff.mp h
    exact .of_finish hpc hnext

lemma work_inv (h : s.work actions k = some s') :
    ∃ x, s.executor.executions[k]? = some x ∧ x.worker = .running ∧
      Acted (actions x.object).steps s s' k x.object := by
  rw [work] at h
  split at h
  next x hx =>
    split_ifs at h with hrng
    simp only [Bool.and_eq_true, decide_eq_true_eq] at hrng
    exact ⟨x, hx, hrng.1, acted h⟩
  next => cases h

lemma client_inv {c : ℕ} {l : Label} (h : next actions s (.client c l) = some s') :
    l.ofWorker = false ∧ ∃ clients, s.clients.next (c, l) = some clients ∧
      s' = { s with
        clients
        cancelling := s.cancelling ++ (s.clients.actionToCancel l).toList } := by
  rw [next] at h
  split_ifs at h with hl
  obtain ⟨clients, hn, rfl⟩ := map_eq_some_iff.mp h
  exact ⟨Bool.eq_false_iff.mpr hl, clients, hn, rfl⟩

lemma cancelAction_inv {j : ℕ} (h : next actions s (.cancelAction j) = some s') :
    ∃ object, s.cancelling[j]? = some object ∧ s' = { s with
      cancelled := Function.update s.cancelled object true
      cancelling := s.cancelling.eraseIdx j } := by
  rw [next] at h
  split at h
  next object hobj =>
    split_ifs at h
    cases h
    exact ⟨object, hobj, rfl⟩
  next => cases h

def Calm (s : Workers) : Prop :=
  ∀ x ∈ s.executor.executions, ∀ message, x.worker ≠ .threw message

lemma quiet_of_client {c : ℕ} {l : Label} (hcalm : Calm s) (hl : l.ofWorker = false)
    (hn : s.clients.next (c, l) = some clients) :
    clients.executor.status = s.executor.status ∧
    (clients.executor.executions = s.executor.executions ∨ ∃ id object timeout,
      l = .executeAsync id object timeout ∧ clients.executor.executions =
        s.executor.executions ++ [⟨id, object, s.executor.now, timeout, .running⟩]) := by
  cases hc : l.isClient with
  | true =>
    obtain ⟨e, hser, rfl⟩ := Clients.served_of_next hc hn
    cases hser with
    | submitted id object timeout => exact ⟨rfl, .inr ⟨id, object, timeout, rfl, rfl⟩⟩
    | _ => exact ⟨rfl, .inl rfl⟩
  | false =>
    obtain ⟨-, e, he, rfl⟩ := Clients.other_of_next hc hn
    cases ActionExecutor.worked_of_step hc he with
    | finished => cases hl
    | wrote => cases hl
    | cancelled id hnew => simp [hnew]
    | monitored m hm => exact ⟨hm.quiet.2, .inl hm.quiet.1⟩
    | recorded k x message hx hthrew =>
      exact absurd hthrew (hcalm x (mem_of_getElem? hx) message)
    | elapsed ms hnew => simp [hnew]

lemma Acted.executions_cases (h : Acted steps s s' k object) :
    ((∀ c, s.pc k ≠ .returning c) ∧ s'.executor.executions = s.executor.executions) ∨
    ∃ c x, s.pc k = .returning c ∧ s.executor.executions[k]? = some x ∧
      s'.executor.executions = s.executor.executions.set k { x with worker := .done none } := by
  by_cases hret : ∃ c, s.pc k = .returning c
  · obtain ⟨c, hc⟩ := hret
    cases h.returns c hc with
    | finished k thrown x worker hx hrng hwork hnew hthr =>
      cases hwork rfl
      exact .inr ⟨c, x, hc, hx, congrArg ActionExecutor.executions hnew⟩
  · have hsty : ∀ c, s.pc k ≠ .returning c := fun c hc => hret ⟨c, hc⟩
    exact .inl ⟨hsty, h.executions hsty⟩

variable {l : WorkersLabel}

lemma calm_next (hcalm : Calm s) (hn : next actions s l = some s') : Calm s' := by
  cases l with
  | client c l =>
    obtain ⟨hl, clients, hcli, rfl⟩ := client_inv hn
    obtain ⟨-, hsame | ⟨id, object, timeout, -, happ⟩⟩ := quiet_of_client hcalm hl hcli
    · intro x hx
      exact hcalm x (hsame ▸ hx)
    · intro x hx
      have hx : x ∈ clients.executor.executions := hx
      rw [happ] at hx
      obtain hx | hx := mem_append.mp hx
      · exact hcalm x hx
      · rw [mem_singleton.mp hx]
        simp
  | work k =>
    obtain ⟨x, hx, hrng, hact⟩ := work_inv hn
    obtain ⟨-, hsame⟩ | ⟨c, x, hc, hx, hset⟩ := hact.executions_cases
    · intro y hy
      exact hcalm y (hsame ▸ hy)
    · intro y hy
      rw [hset] at hy
      obtain hy | rfl := mem_or_eq_of_mem_set hy
      · exact hcalm y hy
      · simp
  | cancelAction j =>
    obtain ⟨object, -, rfl⟩ := cancelAction_inv hn
    exact hcalm

def remaining (actions : ℕ → SteppedAction) (s : Workers) (k : ℕ) : ℕ :=
  match s.executor.executions[k]? with
  | some x => if x.worker.isDone then 0 else (s.pc k).remaining (actions x.object).steps
  | none => 0

variable {x : Execution}

lemma remaining_of_some (hx : s.executor.executions[k]? = some x) :
    remaining actions s k =
      if x.worker.isDone then 0 else (s.pc k).remaining (actions x.object).steps := by
  rw [remaining, hx]

lemma remaining_congr (hx : s'.executor.executions[k]? = s.executor.executions[k]?)
    (hpc : s'.pc k = s.pc k) : remaining actions s' k = remaining actions s k := by
  rw [remaining, remaining, hx, hpc]

lemma remaining_work (hn : next actions s (.work k) = some s') :
    remaining actions s' k < remaining actions s k := by
  obtain ⟨x, hx, hrng, hact⟩ := work_inv hn
  have hpc : s'.pc k = (s.pc k).succ (actions x.object).steps (s.cancelled x.object) := by
    rw [hact.pc, update_self]
  have hbef : remaining actions s k = (s.pc k).remaining (actions x.object).steps := by
    rw [remaining_of_some hx, hrng]
    rfl
  obtain ⟨hsty, hsame⟩ | ⟨c, x', hc, hx', hset⟩ := hact.executions_cases
  · have haft : remaining actions s' k = (s'.pc k).remaining (actions x.object).steps := by
      rw [remaining_of_some (hsame ▸ hx), hrng]
      rfl
    rw [haft, hbef, hpc]
    exact WorkerPc.remaining_succ hsty
  · have hlt : k < s.executor.executions.length := (List.getElem?_eq_some_iff.mp hx).1
    have hdone : s'.executor.executions[k]? = some { x' with worker := .done none } := by
      rw [hset, getElem?_set_self hlt]
    rw [remaining_of_some hdone, hbef, hc]
    exact Nat.one_pos

lemma execution_next (hcalm : Calm s) (hx : s.executor.executions[k]? = some x)
    (hl : l ≠ .work k) (hn : next actions s l = some s') :
    s'.executor.executions[k]? = some x ∧ s'.pc k = s.pc k := by
  have hlt : k < s.executor.executions.length := (List.getElem?_eq_some_iff.mp hx).1
  cases l with
  | client c l =>
    obtain ⟨hw, clients, hcli, rfl⟩ := client_inv hn
    refine ⟨?_, rfl⟩
    obtain ⟨-, hsame | ⟨id, object, timeout, -, happ⟩⟩ := quiet_of_client hcalm hw hcli
    · exact (congrArg (·[k]?) hsame).trans hx
    · refine (congrArg (·[k]?) happ).trans ?_
      rw [getElem?_append_left hlt, hx]
  | work j =>
    obtain ⟨y, hy, hrng, hact⟩ := work_inv hn
    have hne : k ≠ j := by
      rintro rfl
      exact hl rfl
    refine ⟨?_, by rw [hact.pc, update_of_ne hne]⟩
    obtain ⟨-, hsame⟩ | ⟨c, y', -, -, hset⟩ := hact.executions_cases
    · rw [hsame, hx]
    · rw [hset, getElem?_set_ne hne.symm, hx]
  | cancelAction j =>
    obtain ⟨object, -, rfl⟩ := cancelAction_inv hn
    exact ⟨hx, rfl⟩

lemma execution_work (hx : s.executor.executions[k]? = some x)
    (hn : next actions s (.work k) = some s') :
    ∃ worker, s'.executor.executions[k]? = some { x with worker } := by
  obtain ⟨y, -, -, hact⟩ := work_inv hn
  obtain ⟨-, hsame⟩ | ⟨c, x', -, hx', hset⟩ := hact.executions_cases
  · exact ⟨x.worker, hsame ▸ hx⟩
  · rw [hx] at hx'
    cases hx'
    exact ⟨.done none, by rw [hset, getElem?_set_self (List.getElem?_eq_some_iff.mp hx).1]⟩

lemma remaining_run {G : Workers → WorkersLabel → Prop} {ls : List WorkersLabel}
    (hcalm : Calm s) (hx : s.executor.executions[k]? = some x)
    (hrun : Run (next actions) G s ls s') :
    Calm s' ∧ (∃ worker, s'.executor.executions[k]? = some { x with worker }) ∧
      remaining actions s' k + ls.count (.work k) ≤ remaining actions s k := by
  induction hrun with
  | nil => exact ⟨hcalm, ⟨x.worker, hx⟩, Nat.le_refl _⟩
  | @snoc ls mid l s' _ _ hn ih =>
    obtain ⟨hmid, ⟨worker, hy⟩, hle⟩ := ih
    rw [count_append]
    refine ⟨calm_next hmid hn, ?_⟩
    by_cases hl : l = .work k
    · subst hl
      obtain ⟨worker', hy'⟩ := execution_work hy hn
      have hlt := remaining_work hn
      rw [count_singleton_self]
      exact ⟨⟨worker', hy'⟩, by omega⟩
    · obtain ⟨hy', hpc⟩ := execution_next hmid hy hl hn
      have hsame : remaining actions s' k = remaining actions mid k :=
        remaining_congr (hy'.trans hy.symm) hpc
      rw [count_singleton, if_neg (by simpa using hl)]
      exact ⟨⟨worker, hy'⟩, by omega⟩

/-- Worker `k` needs a bounded number of steps and can always take the next one, unless the process
is gone. -/
def Ends (actions : ℕ → SteppedAction) (s : Workers) (k : ℕ) : Prop :=
  ∃ n, ∀ ls s', Run (next actions) (fun _ _ => True) s ls s' →
    (n ≤ ls.count (.work k) → s'.executor.ready k = true) ∧
    (s'.executor.ready k = true ∨ s'.executor.terminated = true ∨
      (next actions s' (.work k)).isSome = true)

lemma isSome_act (h : s.executor.terminated = false) (hx : s.executor.executions[k]? = some x)
    (hrng : x.worker = .running) : (s.act steps k object).isSome = true := by
  rw [act]
  split <;> try rfl
  · simp [Clients.next, h, Label.isClient, ActionExecutor.step]
  · split_ifs <;> rfl
  · simp [Clients.next, h, Label.isClient, ActionExecutor.step]
  · simp [Clients.next, h, Label.isClient, ActionExecutor.step]
  · simp [Clients.next, h, Label.isClient, ActionExecutor.step, ActionExecutor.finish, hx, hrng]

lemma ends_of_calm (hcalm : Calm s) (hx : s.executor.executions[k]? = some x) :
    Ends actions s k := by
  refine ⟨remaining actions s k, fun ls s' hrun => ?_⟩
  obtain ⟨hcalm', ⟨worker, hx'⟩, hle⟩ := remaining_run hcalm hx hrun
  have hrdy : s'.executor.ready k = worker.isDone := ActionExecutor.ready_of_execution hx'
  rw [remaining_of_some hx'] at hle
  cases worker with
  | done thrown => exact ⟨fun _ => hrdy, .inl hrdy⟩
  | threw message => exact absurd rfl (hcalm' _ (mem_of_getElem? hx') message)
  | running =>
    have hpos := WorkerPc.remaining_pos (actions x.object).steps (s'.pc k)
    simp only [Worker.isDone, Bool.false_eq_true, if_false] at hle
    refine ⟨fun hn => by omega, .inr ?_⟩
    cases hterm : s'.executor.terminated with
    | true => exact .inl rfl
    | false =>
      refine .inr ?_
      rw [next, work, hx']
      simp only [decide_true, hterm, Bool.not_false, Bool.and_true, if_true]
      exact isSome_act hterm hx' rfl

end Workers
end Mxrc.Action
