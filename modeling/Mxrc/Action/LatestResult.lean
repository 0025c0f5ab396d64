import Mxrc.Action.Clients

/-!
# Whose result `getResult` reports

`Tracked` says that an entry belongs to the latest execution of its id and knows
whether that execution threw. Two steps break it: an `emplace` that finds the id
registered, and an exception handler that runs before its execution is
registered.
-/

namespace Mxrc.Action.ActionExecutor
open Mxrc.Lib List Option

structure Record where
  action : ℕ
  future : ℕ
  exceptionOccurred : Bool
  exceptionMessage : String
deriving DecidableEq

def ofState (e : ExecutionState) : Record :=
  ⟨e.action, e.future, e.exceptionOccurred, e.exceptionMessage⟩

def record (s : ActionExecutor) (id : String) : Option Record :=
  (s.runningActions.lookup id).map ofState

def IsLatest (s : ActionExecutor) (id : String) (k : ℕ) : Prop :=
  (∃ x, s.executions[k]? = some x ∧ x.actionId = id) ∧
    ∀ k' x, s.executions[k']? = some x → x.actionId = id → k' ≤ k

/-- The exception of execution `k` or the status of its action, cancelled perhaps reported as timed
out. -/
def Reports (s : ActionExecutor) (k : ℕ) (result : ExecutionResult) : Prop :=
  ∃ x, s.executions[k]? = some x ∧
    match x.worker with
    | .done (some message) => result.status = .failed ∧ result.errorMessage = message
    | .done none => result.status = s.status x.object ∨
        s.status x.object = .cancelled ∧ result.status = .timeout
    | _ => False

/-- After `waitForCompletion`, a call of `getResult` that meets `R` reports the latest execution of
an id. -/
def ReportsLatest (G : ActionExecutor → Label → Prop) (R : ActionExecutor → String → Prop)
    (ls ls' : List Label) (id : String) : Prop :=
  ∀ s k, Run next G init (ls ++ .waitForCompletion id :: ls') s →
    (∀ object timeout, .executeAsync id object timeout ∉ ls') → s.mutexFree = true → R s id →
    IsLatest s id k → Reports s k (s.getResult id)

/-- `emplace` finds the id free, and an exception handler its own execution
registered. -/
def FreshIds (s : ActionExecutor) : Label → Prop
  | .emplace => ∀ k x, s.caller = .launched k → s.executions[k]? = some x →
      s.record x.actionId = none
  | .recordException k => ∀ x, s.executions[k]? = some x →
      ∃ r, s.record x.actionId = some r ∧ r.future = k
  | _ => True

def Registered (s : ActionExecutor) (id : String) : Prop := s.record id ≠ none

def Record.Recorded (r : Record) : Worker → Prop
  | .done (some message) => r.exceptionOccurred = true ∧ r.exceptionMessage = message
  | _ => r.exceptionOccurred = false

lemma Record.recorded_of_not_thrown {r : Record} {w : Worker} (hr : r.exceptionOccurred = false)
    (hw : ∀ message, w ≠ .done (some message)) : r.Recorded w := by
  cases w with
  | done thrown =>
    cases thrown with
    | none => exact hr
    | some message => exact absurd rfl (hw message)
  | _ => exact hr

structure Tracked (s : ActionExecutor) : Prop where
  entry : ∀ id r, s.record id = some r → ∃ x, s.executions[r.future]? = some x ∧
    x.actionId = id ∧ x.object = r.action ∧ r.Recorded x.worker
  newest : ∀ id r k x, s.record id = some r → s.executions[k]? = some x → x.actionId = id →
    r.future < k → s.caller = .launched k
  settled : ∀ k x, s.executions[k]? = some x → x.worker.isDone = true ∨ s.caller = .launched k ∨
    ∃ r, s.record x.actionId = some r ∧ r.future = k
  launched : ∀ k, s.caller = .launched k → k + 1 = s.executions.length ∧
    (∀ id r, s.record id = some r → r.future ≠ k) ∧
    ∀ x message, s.executions[k]? = some x → x.worker ≠ .done (some message)
  holding : ∀ k, s.caller ≠ .dropping k
  clearing : ∀ ids threads, s.caller = .clearing ids threads → ∀ id ∈ ids, ∀ r,
    s.record id = some r → s.ready r.future = true

variable {s s' : ActionExecutor} {f : ExecutionState → ExecutionState}

lemma record_modify {id : String} (h : s'.runningActions = s.runningActions.modify id f)
    (id' : String) :
    s'.record id' = if id' = id then (s.runningActions.lookup id).map (ofState ∘ f)
      else s.record id' := by
  rw [record, h, lookup_modify]
  split_ifs <;> simp [record]

lemma record_modify_of_eq {id : String} (hf : ∀ e, ofState (f e) = ofState e)
    (h : s'.runningActions = s.runningActions.modify id f) (id' : String) :
    s'.record id' = s.record id' := by
  rw [record_modify h]
  split_ifs with hid
  · subst hid
    rw [record, show ofState ∘ f = ofState from funext hf]
  · rfl

lemma record_collect (ids : List String) (m : Registry) (hf : ∀ e, ofState (f e) = ofState e)
    (id' : String) :
    ((ids.foldl (fun m id => m.modify id f) m).lookup id').map ofState =
      (m.lookup id').map ofState := by
  induction ids generalizing m with
  | nil => rfl
  | cons id ids ih =>
    rw [foldl_cons, ih, lookup_modify]
    split_ifs with hid
    · subst hid
      rw [Option.map_map, show ofState ∘ f = ofState from funext hf]
    · rfl

section
variable {s s' : ActionExecutor} {l : List Execution} {x : Execution} {k : ℕ}

lemma record_insert {id : String} {e : ExecutionState}
    (h : s'.runningActions = s.runningActions.insert id e) (id' : String) :
    s'.record id' = if id' = id then some (ofState e) else s.record id' := by
  rw [record, h]
  split_ifs with hid
  · subst hid
    simp
  · simp [hid, record]

section
variable (h : Tracked s) (he : s'.executions = s.executions) (hr : ∀ id, s'.record id = s.record id)
include h he hr

lemma Tracked.quiet (hl : ∀ k, s'.caller = .launched k ↔ s.caller = .launched k)
    (hd : ∀ k, s'.caller ≠ .dropping k)
    (hc : ∀ ids threads, s'.caller = .clearing ids threads → ∀ id ∈ ids, ∀ r,
      s.record id = some r → s.ready r.future = true) : Tracked s' := by
  refine ⟨?_, ?_, ?_, ?_, hd, ?_⟩
  · simpa only [he, hr] using h.entry
  · simpa only [he, hr, hl] using h.newest
  · simpa only [he, hr, hl] using h.settled
  · simpa only [he, hr, hl] using h.launched
  · simpa only [hr, ready, he] using hc

lemma Tracked.sameCaller (hc : s'.caller = s.caller) : Tracked s' :=
  h.quiet he hr (by simp [hc]) (by simpa only [hc] using h.holding)
    (by simpa only [hc] using h.clearing)

lemma Tracked.backToIdle (hnot : ∀ k, s.caller ≠ .launched k) (hc : s'.caller = .idle) :
    Tracked s' :=
  h.quiet he hr (by simp [hc, hnot]) (by simp [hc]) (by simp [hc])

end

lemma append_some {y : Execution} (h : (l ++ [y])[k]? = some x) :
    l[k]? = some x ∨ k = l.length ∧ x = y := by
  rcases Nat.lt_trichotomy k l.length with hk | hk | hk
  · rw [getElem?_append_left hk] at h
    exact Or.inl h
  · subst hk
    rw [getElem?_concat_length] at h
    cases h
    exact Or.inr ⟨rfl, rfl⟩
  · rw [getElem?_eq_none (by simp; omega)] at h
    cases h

lemma Tracked.executeAsync (h : Tracked s) (hidle : s.caller = .idle) (id : String)
    (object timeout : ℕ) :
    Tracked { s with
      executions := s.executions ++ [⟨id, object, s.now, timeout, .running⟩]
      caller := .launched s.executions.length } := by
  have hlt : ∀ {id r}, s.record id = some r → r.future < s.executions.length := by
    intro id r hr
    obtain ⟨x, hx, -⟩ := h.entry id r hr
    exact (List.getElem?_eq_some_iff.mp hx).1
  refine ⟨?_, ?_, ?_, ?_, by simp, by simp⟩
  · intro id' r hr
    obtain ⟨x, hx, hrest⟩ := h.entry id' r hr
    exact ⟨x, by rw [getElem?_append_left (hlt hr)]; exact hx, hrest⟩
  · intro id' r k x hr hx hid hk
    rcases append_some hx with hx | ⟨rfl, -⟩
    · have := h.newest id' r k x hr hx hid hk
      rw [hidle] at this
      cases this
    · rfl
  · intro k x hx
    rcases append_some hx with hx | ⟨rfl, -⟩
    · rcases h.settled k x hx with hd | hl | hr
      · exact Or.inl hd
      · rw [hidle] at hl
        cases hl
      · exact Or.inr (Or.inr hr)
    · exact Or.inr (Or.inl rfl)
  · intro k hk
    cases hk
    refine ⟨by simp, fun id' r hr => (hlt hr).ne, fun x message hx => ?_⟩
    rw [getElem?_concat_length] at hx
    cases hx
    simp

lemma Tracked.emplace (h : Tracked s) (hk : s.caller = .launched k)
    (hx : s.executions[k]? = some x) (hfree : s.record x.actionId = none)
    (hs : s' = { s with
      runningActions := s.runningActions.insert x.actionId
        ⟨x.object, k, x.startTime, x.timeout, false, false, none, false, ""⟩
      caller := .registered k }) : Tracked s' := by
  obtain ⟨hlen, hoth, hthr⟩ := h.launched k hk
  have hr := record_insert (congrArg runningActions hs)
  subst hs
  refine ⟨?_, ?_, ?_, by simp, by simp, by simp⟩
  · intro id r hrec
    rw [hr] at hrec
    split_ifs at hrec with hid
    · cases hrec
      refine ⟨x, hx, hid.symm, rfl, Record.recorded_of_not_thrown rfl ?_⟩
      exact fun message => hthr x message hx
    · exact h.entry id r hrec
  · intro id r k' y hrec hy hid hlt
    rw [hr] at hrec
    have hk' : k' < s.executions.length := (List.getElem?_eq_some_iff.mp hy).1
    split_ifs at hrec with hidx
    · cases hrec
      simp only [ofState] at hlt
      omega
    · have hl := h.newest id r k' y hrec hy hid hlt
      rw [hk] at hl
      cases hl
      rw [hx] at hy
      cases hy
      exact absurd hid.symm hidx
  · intro k' y hy
    rcases h.settled k' y hy with hd | hl | ⟨r, hrec, hrk⟩
    · exact Or.inl hd
    · rw [hk] at hl
      cases hl
      rw [hx] at hy
      cases hy
      exact Or.inr (Or.inr ⟨_, by rw [hr, if_pos rfl], rfl⟩)
    · refine Or.inr (Or.inr ⟨r, ?_, hrk⟩)
      rw [hr, if_neg]
      · exact hrec
      · intro heq
        rw [heq, hfree] at hrec
        cases hrec

lemma getElem?_set_some {y : Execution} (h : l[k]? = some x) (j : ℕ) :
    (l.set k y)[j]? = if j = k then some y else l[j]? := by
  have hk : k < l.length := (List.getElem?_eq_some_iff.mp h).1
  by_cases hj : j = k
  · subst hj
    simp [hk]
  · simp [hj, Ne.symm hj]

structure Moves (s s' : ActionExecutor) (k : ℕ) (x : Execution) (w : Worker) : Prop where
  running : s.executions[k]? = some x
  undone : x.worker.isDone = false
  executions : s'.executions = s.executions.set k { x with worker := w }
  caller : s'.caller = s.caller

structure Updates (s s' : ActionExecutor) (k : ℕ) (w : Worker) (g : String → Record → Record) :
    Prop where
  record : ∀ id, s'.record id = (s.record id).map (g id)
  owner : ∀ id r, (g id r).action = r.action ∧ (g id r).future = r.future
  others : ∀ id r, s.record id = some r → r.future ≠ k → g id r = r
  own : ∀ id r, s.record id = some r → r.future = k → (g id r).Recorded w

section
variable {k j : ℕ} {x y : Execution} {w : Worker} {g : String → Record → Record} {id : String}
  {r : Record}

lemma Moves.getElem? (h : Moves s s' k x w) (j : ℕ) :
    s'.executions[j]? = if j = k then some { x with worker := w } else s.executions[j]? := by
  rw [h.executions, getElem?_set_some h.running]

lemma Moves.back (h : Moves s s' k x w) (hy : s'.executions[j]? = some y) :
    ∃ y', s.executions[j]? = some y' ∧ y'.actionId = y.actionId ∧ (j ≠ k → y' = y) := by
  rw [h.getElem?] at hy
  split_ifs at hy with hj
  · cases hy
    exact ⟨x, by rw [hj, h.running], rfl, fun hne => absurd hj hne⟩
  · exact ⟨y, hy, rfl, fun _ => rfl⟩

lemma Moves.ne_of_done (h : Moves s s' k x w) (hy : s.executions[j]? = some y)
    (hdone : y.worker.isDone = true) : j ≠ k := by
  intro heq
  subst heq
  rw [h.running] at hy
  cases hy
  rw [h.undone] at hdone
  cases hdone

lemma Moves.ready (h : Moves s s' k x w) (hrdy : s.ready j = true) : s'.ready j = true := by
  rw [ActionExecutor.ready, h.getElem?]
  split_ifs with hjk
  · rw [ActionExecutor.ready, hjk, h.running] at hrdy
    simp only [any_some, h.undone, Bool.false_eq_true] at hrdy
  · exact hrdy

lemma Updates.back (h : Updates s s' k w g) (hr : s'.record id = some r) :
    ∃ r₀, s.record id = some r₀ ∧ r = g id r₀ ∧ r.action = r₀.action ∧ r.future = r₀.future := by
  rw [h.record] at hr
  obtain ⟨r₀, hr₀, rfl⟩ := map_eq_some_iff.mp hr
  exact ⟨r₀, hr₀, rfl, h.owner id r₀⟩

section
variable (h : Tracked s) (hm : Moves s s' k x w) (hu : Updates s s' k w g)
include h hm hu

lemma Tracked.entry_setWorker (hr : s'.record id = some r) :
    ∃ y, s'.executions[r.future]? = some y ∧ y.actionId = id ∧ y.object = r.action ∧
      r.Recorded y.worker := by
  obtain ⟨r₀, hr₀, hrg, hctn, hfut⟩ := hu.back hr
  obtain ⟨x₀, hx₀, hid₀, hobj, hrecor⟩ := h.entry id r₀ hr₀
  rw [hctn, hfut, hm.getElem?]
  by_cases hfk : r₀.future = k
  · rw [hfk, hm.running] at hx₀
    cases hx₀
    exact ⟨{ x with worker := w }, by simp [hfk], hid₀, hobj, hrg ▸ hu.own id r₀ hr₀ hfk⟩
  · rw [if_neg hfk, hrg, hu.others id r₀ hr₀ hfk]
    exact ⟨x₀, hx₀, hid₀, hobj, hrecor⟩

lemma Tracked.settled_setWorker (hy : s'.executions[j]? = some y) :
    y.worker.isDone = true ∨ s'.caller = .launched j ∨
      ∃ r, s'.record y.actionId = some r ∧ r.future = j := by
  obtain ⟨y', hy', hid, hsame⟩ := hm.back hy
  rw [hm.caller, ← hid]
  rcases h.settled j y' hy' with hd | hl | ⟨r, hrec, hrj⟩
  · exact Or.inl (hsame (hm.ne_of_done hy' hd) ▸ hd)
  · exact Or.inr (Or.inl hl)
  · refine Or.inr (Or.inr ⟨g y'.actionId r, ?_, ?_⟩)
    · rw [hu.record, hrec]
      rfl
    · rw [(hu.owner _ r).2, hrj]

lemma Tracked.setWorker (hl : s.caller = .launched k → ∀ message, w ≠ .done (some message)) :
    Tracked s' := by
  refine ⟨fun id r hr => h.entry_setWorker hm hu hr, ?_,
    fun j y hy => h.settled_setWorker hm hu hy, ?_, fun j => hm.caller ▸ h.holding j, ?_⟩
  · intro id r j y hrec hy hid hlt
    obtain ⟨r₀, hr₀, -, -, hfut⟩ := hu.back hrec
    obtain ⟨y', hy', hid', -⟩ := hm.back hy
    rw [hm.caller]
    exact h.newest id r₀ j y' hr₀ hy' (hid'.trans hid) (hfut ▸ hlt)
  · intro j hj
    rw [hm.caller] at hj
    obtain ⟨hlen, hent, hthr⟩ := h.launched j hj
    refine ⟨by rw [hm.executions, length_set]; exact hlen, ?_, ?_⟩
    · intro id r hrec
      obtain ⟨r₀, hr₀, -, -, hfut⟩ := hu.back hrec
      rw [hfut]
      exact hent id r₀ hr₀
    · intro y message hy
      rw [hm.getElem?] at hy
      split_ifs at hy with hjk
      · cases hy
        exact hl (hjk ▸ hj) message
      · exact hthr y message hy
  · intro ids threads hcl id hmem r hrec
    obtain ⟨r₀, hr₀, -, -, hfut⟩ := hu.back hrec
    rw [hfut]
    exact hm.ready (h.clearing ids threads (hm.caller ▸ hcl) id hmem r₀ hr₀)

end
end

lemma Tracked.finish {w : Worker} (h : Tracked s) (hx : s.executions[k]? = some x)
    (hrng : x.worker = .running) (hw : ∀ message, w ≠ .done (some message)) :
    Tracked { s with executions := s.executions.set k { x with worker := w } } := by
  have hund : x.worker.isDone = false := by rw [hrng]; rfl
  refine h.setWorker ⟨hx, hund, rfl, rfl⟩ (g := fun _ r => r)
    ⟨fun _ => Option.map_id'.symm, fun _ _ => ⟨rfl, rfl⟩, fun _ _ _ _ => rfl, ?_⟩ fun _ => hw
  intro id r hr hrk
  obtain ⟨y, hy, -, -, hrec⟩ := h.entry id r hr
  rw [hrk, hx] at hy
  cases hy
  rw [hrng] at hrec
  exact Record.recorded_of_not_thrown hrec hw

lemma Tracked.recordException {message : String} (h : Tracked s)
    (hg : FreshIds s (.recordException k)) (hx : s.executions[k]? = some x)
    (hthrew : x.worker = .threw message) :
    Tracked { s with
      executions := s.executions.set k { x with worker := .done (some message) }
      runningActions := s.runningActions.modify x.actionId fun e =>
        { e with exceptionOccurred := true, exceptionMessage := message } } := by
  obtain ⟨r₀, hr₀, hfut⟩ := hg x hx
  have hund : x.worker.isDone = false := by rw [hthrew]; rfl
  refine h.setWorker ⟨hx, hund, rfl, rfl⟩
    (g := fun id r => if id = x.actionId then
      { r with exceptionOccurred := true, exceptionMessage := message } else r)
    ⟨?_, ?_, ?_, ?_⟩ ?_
  · intro id
    rw [record_modify rfl]
    split_ifs with hid
    · subst hid
      simp [record, Function.comp_def, ofState]
    · simp
  · intro id r
    by_cases hid : id = x.actionId <;> simp [hid]
  · intro id r hr hne
    rw [if_neg]
    intro heq
    subst heq
    rw [hr₀] at hr
    cases hr
    exact hne hfut
  · intro id r hr hrk
    obtain ⟨y, hy, hidy, -⟩ := h.entry id r hr
    rw [hrk, hx] at hy
    cases hy
    simp [hidy, Record.Recorded]
  · intro hl
    exact absurd hfut ((h.launched k hl).2.1 _ r₀ hr₀)

lemma ready_of_mem_completed {id : String} (hid : id ∈ s.completed.map (·.1)) {r : Record}
    (hr : s.record id = some r) : s.ready r.future = true := by
  obtain ⟨e, he, rfl⟩ := List.mem_map.mp hid
  obtain ⟨hmem, hrdy⟩ := mem_filter.mp he
  have hlk : s.runningActions.lookup e.1 = some e.2 := AList.mem_lookup_iff.mpr hmem
  rw [record, hlk] at hr
  cases hr
  exact (Bool.and_eq_true_iff.mp hrdy).1

lemma Tracked.clearErase {ids : List String} {threads : List ℕ} (h : Tracked s)
    (hc : s.caller = .clearing ids threads) (he : s'.executions = s.executions)
    (hmap : s'.runningActions = ids.foldl (fun m id => m.erase id) s.runningActions)
    (hidle : s'.caller = .idle) : Tracked s' := by
  have hr : ∀ id, s'.record id = if id ∈ ids then none else s.record id := by
    intro id
    rw [record, hmap, lookup_foldl_erase]
    split_ifs <;> rfl
  have hold : ∀ {id r}, s'.record id = some r → s.record id = some r ∧ id ∉ ids := by
    intro id r hrec
    rw [hr] at hrec
    split_ifs at hrec with hid
    exact ⟨hrec, hid⟩
  refine ⟨?_, ?_, ?_, by simp [hidle], by simp [hidle], by simp [hidle]⟩
  · intro id r hrec
    rw [he]
    exact h.entry id r (hold hrec).1
  · intro id r k x hrec hx hid hlt
    rw [he] at hx
    have hl := h.newest id r k x (hold hrec).1 hx hid hlt
    rw [hc] at hl
    cases hl
  · intro k x hx
    rw [he] at hx
    rcases h.settled k x hx with hd | hl | ⟨r, hrec, hrk⟩
    · exact Or.inl hd
    · rw [hc] at hl
      cases hl
    · by_cases hid : x.actionId ∈ ids
      · have hrdy := h.clearing ids threads hc x.actionId hid r hrec
        rw [hrk, ready_of_execution hx] at hrdy
        exact Or.inl hrdy
      · exact Or.inr (Or.inr ⟨r, by rw [hr, if_neg hid, hrec], hrk⟩)

lemma Monitored.record {m : ℕ} (h : Monitored s s' m) (id : String) :
    s'.record id = s.record id := by
  cases h with
  | waits h
  | ends t ht hpc h =>
    subst h
    rfl
  | exceeds t e ht hpc he hstop hlate hflag h
  | cancels t ht hpc h =>
    subst h
    exact record_modify_of_eq (by intro; rfl) rfl id

lemma tracked_init : Tracked init := by
  refine ⟨?_, ?_, ?_, ?_, ?_, ?_⟩ <;> simp [init, record]

lemma tracked_next {l : Label} (h : Tracked s) (hg : FreshIds s l) (hn : next s l = some s') :
    Tracked s' := by
  replace hn := step_of_next hn
  cases hl : l.isClient with
  | true =>
    cases served_of_step hl hn with
    | submitted id object timeout hidle => exact h.executeAsync hidle id object timeout
    | kept k x hk hx hold => exact absurd (hg k x hk hx) (by simpa [record] using hold)
    | registered k x hk hx hnew => exact h.emplace hk hx (hg k x hk hx) rfl
    | dropped k hk => exact absurd hk (h.holding k)
    | unwatched k x hk => exact h.backToIdle rfl (fun _ => rfl) (by simp [hk]) rfl
    | overwritten => exact h.sameCaller rfl (fun _ => rfl) rfl
    | watched k x e hk =>
      exact h.backToIdle rfl (record_modify_of_eq (by intro; rfl) rfl) (by simp [hk]) rfl
    | waited => exact h
    | collected hidle =>
      refine h.quiet rfl (fun id => record_collect _ _ ?_ id) (by simp [hidle]) (by simp) ?_
      · intro e
        rfl
      · intro ids threads hc id hid r hr
        cases hc
        exact ready_of_mem_completed hid hr
    | erased ids threads hc => exact h.clearErase hc rfl rfl rfl
  | false =>
    cases worked_of_step hl hn with
    | cancelled id hs =>
      subst hs
      exact h.sameCaller rfl (record_modify_of_eq (by intro; rfl) rfl) rfl
    | finished k thrown x worker hx hrng hwor hs hthr =>
      subst hs
      exact h.finish hx hrng hthr
    | recorded k x message hx hthrew hs =>
      subst hs
      exact h.recordException hg hx hthrew
    | monitored m hm => exact h.sameCaller hm.quiet.1 hm.record hm.background.caller
    | wrote object status hs
    | elapsed ms hs =>
      subst hs
      exact h.sameCaller rfl (fun _ => rfl) rfl

def Frame (s s' : ActionExecutor) : Label → Prop
  | .executeAsync id object timeout =>
      s'.executions = s.executions ++ [⟨id, object, s.now, timeout, .running⟩] ∧
      s'.caller = .launched s.executions.length
  | .finish k _ | .recordException k => ∃ x w, s.executions[k]? = some x ∧
      x.worker.isDone = false ∧ s'.executions = s.executions.set k { x with worker := w } ∧
      s'.caller = s.caller
  | _ => s'.executions = s.executions ∧ ∀ k, s'.caller = .launched k → s.caller = .launched k

lemma step_frame {l : Label} (hn : s.step l = some s') : Frame s s' l := by
  cases hl : l.isClient with
  | true =>
    cases served_of_step hl hn with
    | submitted => exact ⟨rfl, rfl⟩
    | overwritten
    | waited => exact ⟨rfl, fun _ h => h⟩
    | _ => exact ⟨rfl, by simp⟩
  | false =>
    cases worked_of_step hl hn with
    | finished k thrown x worker hx hrng hwor hs =>
      subst hs
      exact ⟨x, worker, hx, by rw [hrng]; rfl, rfl, rfl⟩
    | recorded k x message hx hthrew hs =>
      subst hs
      exact ⟨x, _, hx, by rw [hthrew]; rfl, rfl, rfl⟩
    | monitored m hm => exact ⟨hm.quiet.1, by simp [hm.background.caller]⟩
    | cancelled id hs
    | wrote object status hs
    | elapsed ms hs =>
      subst hs
      exact ⟨rfl, fun _ h => h⟩

structure Waited (id : String) (s : ActionExecutor) : Prop where
  noLaunch : ∀ (k : ℕ) (x : Execution), s.caller = .launched k → s.executions[k]? = some x →
    x.actionId ≠ id
  finished : ∀ (k : ℕ) (x : Execution), s.executions[k]? = some x → x.actionId = id →
    x.worker.isDone = true

lemma Waited.quiet {id : String} (h : Waited id s) (he : s'.executions = s.executions)
    (hl : ∀ k, s'.caller = .launched k → s.caller = .launched k) : Waited id s' :=
  ⟨fun k x hk hx => h.noLaunch k x (hl k hk) (he ▸ hx), by simpa only [he] using h.finished⟩

lemma Waited.setWorker {id : String} {w : Worker} (h : Waited id s) (hm : Moves s s' k x w) :
    Waited id s' := by
  constructor
  · intro j y hj hy
    obtain ⟨y', hy', hid, -⟩ := hm.back hy
    rw [← hid]
    exact h.noLaunch j y' (hm.caller ▸ hj) hy'
  · intro j y hy hid
    obtain ⟨y', hy', hid', hsame⟩ := hm.back hy
    have hdone := h.finished j y' hy' (hid'.trans hid)
    exact hsame (hm.ne_of_done hy' hdone) ▸ hdone

lemma waited_next {id : String} {l : Label}
    (hl : ∀ object timeout, l ≠ .executeAsync id object timeout)
    (h : Waited id s) (hn : next s l = some s') : Waited id s' := by
  have hf := step_frame (step_of_next hn)
  cases l with
  | executeAsync id' object timeout =>
    obtain ⟨he, hc⟩ := hf
    have hne : id' ≠ id := fun heq => hl object timeout (by rw [heq])
    have hold : ∀ {k : ℕ} {x : Execution}, s'.executions[k]? = some x →
        s.executions[k]? = some x ∨ k = s.executions.length ∧ x.actionId = id' := by
      intro k x hx
      rw [he] at hx
      rcases append_some hx with hx | ⟨hk, rfl⟩
      · exact Or.inl hx
      · exact Or.inr ⟨hk, rfl⟩
    constructor
    · intro k x hk hx
      rw [hc] at hk
      cases hk
      rcases hold hx with hx | ⟨-, hx⟩
      · have := (List.getElem?_eq_some_iff.mp hx).1
        omega
      · exact hx.trans_ne hne
    · intro k x hx hid
      rcases hold hx with hx | ⟨-, hx⟩
      · exact h.finished k x hx hid
      · exact absurd (hx.symm.trans hid) hne
  | finish k thrown
  | recordException k =>
    obtain ⟨x, w, hx, hund, he, hc⟩ := hf
    exact h.setWorker ⟨hx, hund, he, hc⟩
  | _ => exact h.quiet hf.1 hf.2

end

lemma waited_of_wait {id : String} (h : Tracked s)
    (hn : next s (.waitForCompletion id) = some s') : Waited id s' := by
  cases served_of_step rfl (step_of_next hn) with | waited _ hidle hall => ?_
  constructor
  · intro k x hk
    rw [hidle] at hk
    cases hk
  · intro k x hx hid
    rcases h.settled k x hx with hd | hl | ⟨r, hr, hk⟩
    · exact hd
    · rw [hidle] at hl
      cases hl
    · obtain ⟨e, he, rfl⟩ := map_eq_some_iff.mp hr
      rw [hid] at he
      rw [he] at hall
      have hrdy : s.ready k = true := hk ▸ hall
      rwa [ready_of_execution hx] at hrdy

lemma Tracked.reports {id : String} {k : ℕ} (h : Tracked s) (hw : Waited id s)
    (hreg : Registered s id) (hk : IsLatest s id k) : Reports s k (s.getResult id) := by
  obtain ⟨⟨x, hx, hid⟩, hmax⟩ := hk
  obtain ⟨r, hr⟩ := ne_none_iff_exists'.mp hreg
  obtain ⟨y, hy, hyid, hbjc, hrecor⟩ := h.entry id r hr
  have hfut : r.future = k := by
    by_contra hne
    have hlt : r.future < k := lt_of_le_of_ne (hmax r.future y hy hyid) hne
    exact hw.noLaunch k x (h.newest id r k x hr hx hid hlt) hx hid
  rw [hfut, hx] at hy
  cases hy
  obtain ⟨e, he, rfl⟩ := map_eq_some_iff.mp hr
  have hdone := hw.finished k x hx hid
  have hrdy : s.ready e.future = true := by
    rw [show e.future = k from hfut, ready_of_execution hx]
    exact hdone
  refine ⟨x, hx, ?_⟩
  simp only [getResult, he, hrdy, if_true]
  cases hwor : x.worker with
  | running
  | threw message =>
    rw [hwor] at hdone
    cases hdone
  | done thrown =>
    rw [hwor] at hrecor
    have hact : x.object = e.action := hbjc
    cases thrown with
    | some message =>
      have hocc : e.exceptionOccurred = true := hrecor.1
      have hmsg : e.exceptionMessage = message := hrecor.2
      simp [hocc, hmsg]
    | none =>
      have hocc : e.exceptionOccurred = false := hrecor
      rw [hocc, hact]
      by_cases hcan : s.status e.action = .cancelled <;> cases e.cancelRequested <;>
        simp [hcan]

theorem reportsLatest_of_freshIds (ls ls' : List Label) (id : String) :
    ReportsLatest FreshIds Registered ls ls' id := by
  intro s k hrun hno hmut hreg hk
  have htr : ∀ {ls s}, Run next FreshIds init ls s → Tracked s := fun hr =>
    hr.invariant Tracked tracked_init fun _ _ _ h hg hn => tracked_next h hg hn
  have ht := htr hrun
  rw [append_cons] at hrun
  obtain ⟨s₁, hwait, hrest⟩ := hrun.split
  obtain ⟨s₀, hbef, -, hn⟩ := hwait.snoc_inv
  have hw := hrest.invariant_history
    (fun ls t => (∀ object timeout, .executeAsync id object timeout ∉ ls) → Waited id t)
    (fun _ => waited_of_wait (htr hbef) hn) (by
      intro ls t l t' ih _ hstep hnot
      refine waited_next (fun object timeout heq => ?_) (ih fun object timeout hmem => ?_) hstep
      · exact hnot object timeout (by simp [heq])
      · exact hnot object timeout (by simp [hmem])) hno
  exact ht.reports hw hreg hk

/-- The first object fails, the second one completes, and the entry of the first is kept. -/
def resubmission : List Label :=
  [.executeAsync "pick" 0 0, .emplace, .startMonitor, .setStatus 0 .failed, .finish 0 none,
    .waitForCompletion "pick",
    .executeAsync "pick" 1 0, .setStatus 1 .completed, .finish 1 none, .emplace, .dropFuture,
    .startMonitor]

theorem not_reportsLatest :
    ¬ ∀ ls ls' id, ReportsLatest (fun _ _ => True) (fun _ _ => True) ls ls' id := by
  intro h
  have hrun : ∃ s, exec next (fun _ _ => true) init
      (resubmission ++ [.waitForCompletion "pick"]) = some s ∧ s.mutexFree = true ∧
      s.executions = [⟨"pick", 0, 0, 0, .done none⟩, ⟨"pick", 1, 0, 0, .done none⟩] ∧
      s.status 1 = .completed ∧ s.getResult "pick" = ⟨"pick", .failed, ""⟩ :=
    ⟨_, rfl, rfl, rfl, rfl, rfl⟩
  obtain ⟨s, hs, hmut, hexec, hst, hres⟩ := hrun
  have hlat : IsLatest s "pick" 1 := by
    refine ⟨⟨_, by rw [hexec]; rfl, rfl⟩, fun k x hx _ => ?_⟩
    have := (List.getElem?_eq_some_iff.mp hx).1
    simp only [hexec, length_cons, length_nil] at this
    omega
  obtain ⟨x, hx, hrep⟩ :=
    h resubmission [] "pick" s 1 (Run.of_exec (by simp) hs) (by simp) hmut trivial hlat
  rw [hexec] at hx
  cases hx
  rw [hres] at hrep
  simp [hst] at hrep

end Mxrc.Action.ActionExecutor
