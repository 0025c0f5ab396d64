import Mxrc.Action.Clients

/-!
# What TIMEOUT means

`getResult` turns CANCELLED into TIMEOUT whenever `cancelRequested` is set, and
the monitor and `cancel` set it alike. When only the monitor sets flags, and
every execution has an id of its own, a flag is the trace of a round that found
the execution late.
-/

namespace Mxrc.Action.Clients
open Mxrc.Lib List Option

/-- A round of monitor `m` finds that execution `k` has run longer than its timeout. -/
def Exceeded (s : Clients) (m k : ℕ) : Prop :=
  ∃ x e, s.submissions[k]? = some x ∧ x.timeout ≠ 0 ∧ x.timeout < s.executor.now - x.startTime ∧
    s.executor.monitors[m]? = some ⟨x.actionId, x.startTime, x.timeout, .polling⟩ ∧
    s.executor.runningActions.lookup x.actionId = some e ∧ e.future = k ∧
    e.shouldStopMonitoring = false

def Observed (ls : List (ℕ × Label)) (k : ℕ) : Prop :=
  ∃ ls₁ ls₂ c m s, ls = ls₁ ++ (c, .monitor m) :: ls₂ ∧ Run next (fun _ _ => True) init ls₁ s ∧
    Exceeded s m k

def CancelledInTime (ls : List (ℕ × Label)) (id : String) (k : ℕ) : Prop :=
  ∃ ls₁ ls₂ c s x e, ls = ls₁ ++ (c, .cancel id) :: ls₂ ∧ Run next (fun _ _ => True) init ls₁ s ∧
    s.executor.runningActions.lookup id = some e ∧ e.future = k ∧ s.submissions[k]? = some x ∧
    (x.timeout = 0 ∨ s.executor.now - x.startTime ≤ x.timeout)

def EndedCancelled (s : ActionExecutor) (e : ExecutionState) : Prop :=
  s.ready e.future = true ∧ e.exceptionOccurred = false ∧ s.status e.action = .cancelled

def TimeoutMeansExceeded (G : Clients → ℕ × Label → Prop) (ls : List (ℕ × Label)) : Prop :=
  ∀ s, Run next G init ls s → ∀ id,
    ((s.executor.getResult id).status = .timeout →
      ∃ e, s.executor.runningActions.lookup id = some e ∧ Observed ls e.future) ∧
    ∀ e, s.executor.runningActions.lookup id = some e → CancelledInTime ls id e.future →
      EndedCancelled s.executor e → (s.executor.getResult id).status = .cancelled

def uncleared : Label → Bool
  | .clearCollect => false
  | .clearErase => false
  | .setStatus _ status => status ≠ .timeout
  | _ => true

/-- Every execution has an id of its own, and only the monitor cancels. -/
def OnlyMonitorCancels (s : Clients) : ℕ × Label → Prop
  | (_, .executeAsync id _ _) => s.executor.runningActions.lookup id = none ∧
      ∀ c x, Submitting s c x → x.actionId ≠ id
  | (_, .cancel id) => ∀ e, s.executor.runningActions.lookup id = some e → e.cancelRequested = true
  | (_, l) => uncleared l = true

structure Timing where
  future : ℕ
  startTime : ℕ
  timeout : ℕ
  cancelRequested : Bool

def Timing.ofState (e : ExecutionState) : Timing :=
  ⟨e.future, e.startTime, e.timeout, e.cancelRequested⟩

def timing (s : Clients) (id : String) : Option Timing :=
  (s.executor.runningActions.lookup id).map Timing.ofState

structure Timed (ls : List (ℕ × Label)) (s : Clients) : Prop where
  status : ∀ object, s.executor.status object ≠ .timeout
  bound : ∀ c k, (s.callers c).submits = some k → k < s.submissions.length
  alone : ∀ c c' x x', Submitting s c x → Submitting s c' x' → x.actionId = x'.actionId → c = c'
  launched : ∀ c k x, s.callers c = .launched k → s.submissions[k]? = some x →
    s.timing x.actionId = none
  dropping : ∀ c k, s.callers c ≠ .dropping k
  registered : ∀ c k x, s.callers c = .registered k → s.submissions[k]? = some x →
    ∃ flag, s.timing x.actionId = some ⟨k, x.startTime, x.timeout, flag⟩
  entry : ∀ id e, s.timing id = some e →
    ∃ object, s.submissions[e.future]? = some ⟨id, object, e.startTime, e.timeout⟩
  monitor : ∀ t ∈ s.executor.monitors, t.timeout ≠ 0 ∧
    ∃ k flag, s.timing t.actionId = some ⟨k, t.startTime, t.timeout, flag⟩ ∧
      (t.pc = .cancelling → flag = true)
  flagged : ∀ id e, s.timing id = some e → e.cancelRequested = true →
    Observed ls e.future ∧ e.timeout ≠ 0 ∧ e.timeout < s.executor.now - e.startTime

variable {ls : List (ℕ × Label)} {s : Clients}

lemma Observed.snoc {k : ℕ} (h : Observed ls k) (cl : ℕ × Label) : Observed (ls ++ [cl]) k := by
  obtain ⟨ls₁, ls₂, c, m, s, rfl, hrun, hexc⟩ := h
  exact ⟨ls₁, ls₂ ++ [cl], c, m, s, by simp, hrun, hexc⟩

section
variable {s s' : Clients} {c : ℕ} {l : Label} {ls : List (ℕ × Label)} {cl : ℕ × Label}
  {x : Submission} {e : ActionExecutor} {m : ℕ}

lemma timing_eq_none {id : String} :
    s.timing id = none ↔ s.executor.runningActions.lookup id = none := by
  rw [timing, map_eq_none_iff]

lemma timing_of_eq (hmap : s'.executor.runningActions = s.executor.runningActions) (id : String) :
    s'.timing id = s.timing id := by
  rw [timing, timing, hmap]

lemma timing_of_modify {id : String} {f : ExecutionState → ExecutionState}
    (hmap : s'.executor.runningActions = s.executor.runningActions.modify id f)
    (hf : ∀ e, Timing.ofState (f e) = Timing.ofState e) (id' : String) :
    s'.timing id' = s.timing id' := by
  rw [timing, hmap]
  exact map_lookup_modify hf _ _ _

section
variable (h : Timed ls s) (hsub : s'.submissions = s.submissions)
  (hnow : s.executor.now ≤ s'.executor.now)
  (hst : ∀ object, s'.executor.status object ≠ .timeout)
  (hcls : ∀ c, s'.callers c = s.callers c ∨ s'.callers c = .idle)
include h hsub hnow hst hcls

lemma Timed.keeps
    (hfor : ∀ id e, s.timing id = some e → ∃ flag,
      s'.timing id = some { e with cancelRequested := flag } ∧
        (e.cancelRequested = true → flag = true))
    (hback : ∀ id, s.timing id = none → s'.timing id = none)
    (hflagg : ∀ id e, s'.timing id = some e → e.cancelRequested = true →
      s.timing id = some e ∨ Observed (ls ++ [cl]) e.future ∧ e.timeout ≠ 0 ∧
        e.timeout < s.executor.now - e.startTime)
    (hmon : ∀ t' ∈ s'.executor.monitors, ∃ t ∈ s.executor.monitors, ∃ pc,
      t' = { t with pc } ∧ (pc = .cancelling → t.pc = .cancelling ∨
        ∃ e, s'.timing t.actionId = some e ∧ e.cancelRequested = true)) :
    Timed (ls ++ [cl]) s' := by
  have hsbm : ∀ c k, (s'.callers c).submits = some k → (s.callers c).submits = some k := by
    intro c k hk
    obtain hc | hc := hcls c
    · rwa [hc] at hk
    · rw [hc] at hk
      cases hk
  have hsubm : ∀ c x, Submitting s' c x → Submitting s c x := by
    rintro c x ⟨k, hk, hx⟩
    rw [hsub] at hx
    exact ⟨k, hsbm c k hk, hx⟩
  have hsty : ∀ c caller, caller ≠ .idle → s'.callers c = caller → s.callers c = caller := by
    intro c caller hne hc
    obtain hc' | hc' := hcls c
    · exact hc'.symm.trans hc
    · exact absurd (hc.symm.trans hc') hne
  refine ⟨hst, ?_, ?_, ?_, ?_, ?_, ?_, ?_, ?_⟩
  · intro c k hk
    rw [hsub]
    exact h.bound c k (hsbm c k hk)
  · intro c₁ c₂ x₁ x₂ hx₁ hx₂
    exact h.alone c₁ c₂ x₁ x₂ (hsubm c₁ x₁ hx₁) (hsubm c₂ x₂ hx₂)
  · intro c k x hc hx
    rw [hsub] at hx
    exact hback _ (h.launched c k x (hsty c _ (by simp) hc) hx)
  · intro c k hc
    exact h.dropping c k (hsty c _ (by simp) hc)
  · intro c k x hc hx
    rw [hsub] at hx
    obtain ⟨flag, he⟩ := h.registered c k x (hsty c _ (by simp) hc) hx
    obtain ⟨flag', he', -⟩ := hfor _ _ he
    exact ⟨flag', he'⟩
  · intro id e' he'
    rw [hsub]
    cases he : s.timing id with
    | none =>
      rw [hback id he] at he'
      cases he'
    | some e =>
      obtain ⟨flag, hflag, -⟩ := hfor id e he
      rw [hflag] at he'
      cases he'
      exact h.entry id e he
  · intro t' ht'
    obtain ⟨t, ht, pc, rfl, hpc⟩ := hmon t' ht'
    obtain ⟨htmo, k, flag, he, hflag⟩ := h.monitor t ht
    obtain ⟨flag', he', hle⟩ := hfor _ _ he
    refine ⟨htmo, k, flag', he', fun hcan => ?_⟩
    obtain hold | ⟨e, hnew, hset⟩ := hpc hcan
    · exact hle (hflag hold)
    · rw [he'] at hnew
      cases hnew
      exact hset
  · intro id e he hflag
    obtain hold | ⟨hobs, htmo, hlate⟩ := hflagg id e he hflag
    · obtain ⟨hobs, htmo, hlate⟩ := h.flagged id e hold hflag
      exact ⟨hobs.snoc cl, htmo, by omega⟩
    · exact ⟨hobs, htmo, by omega⟩

lemma Timed.same (htim : ∀ id, s'.timing id = s.timing id)
    (hmon : s'.executor.monitors = s.executor.monitors) : Timed (ls ++ [cl]) s' := by
  refine h.keeps hsub hnow hst hcls ?_ ?_ ?_ ?_
  · intro id e he
    exact ⟨e.cancelRequested, (htim id).trans he, fun hflag => hflag⟩
  · intro id he
    exact (htim id).trans he
  · intro id e he _
    exact .inl ((htim id).symm.trans he)
  · intro t ht
    rw [hmon] at ht
    exact ⟨t, ht, t.pc, rfl, .inl⟩

end

lemma Timed.frame (h : Timed ls s) (hfrm : Frame s s')
    (hcls : ∀ c, s'.callers c = s.callers c ∨ s'.callers c = .idle) :
    Timed (ls ++ [cl]) s' :=
  h.same (submissions_congr hfrm.executions) hfrm.now.ge
    (fun object => hfrm.status ▸ h.status object) hcls
    (timing_of_eq hfrm.runningActions) hfrm.monitors

lemma idle_or_same (hcls : s'.callers = Function.update s.callers c .idle) (c' : ℕ) :
    s'.callers c' = s.callers c' ∨ s'.callers c' = .idle := by
  obtain ⟨-, hc⟩ | ⟨-, hc⟩ := caller_cases hcls c'
  · exact .inr hc
  · exact .inl hc

lemma Timed.submitted {id : String} {object timeout : ℕ} (h : Timed ls s)
    (hfr : s.executor.runningActions.lookup id = none ∧
      ∀ c x, Submitting s c x → x.actionId ≠ id)
    (hclc : Clock s s')
    (hsub : s'.submissions = s.submissions ++ [⟨id, object, s.executor.now, timeout⟩])
    (hmap : s'.executor.runningActions = s.executor.runningActions)
    (hmon : s'.executor.monitors = s.executor.monitors)
    (hcls : s'.callers = Function.update s.callers c (.launched s.submissions.length)) :
    Timed (ls ++ [cl]) s' := by
  have htim := timing_of_eq hmap
  -- another client's execution is an old one
  have hold : ∀ c' k, c' ≠ c → (s'.callers c').submits = some k →
      s'.submissions[k]? = s.submissions[k]? := by
    intro c' k hne hk
    obtain ⟨hc, -⟩ | ⟨-, -, hsame⟩ := submits_of_submitted h.bound hsub hcls hk
    · exact absurd hc hne
    · exact hsame
  have hcas : ∀ c' x, Submitting s' c' x → (c' = c ∧ x.actionId = id) ∨ Submitting s c' x := by
    intro c' x hx
    obtain ⟨rfl, rfl⟩ | ⟨-, hx⟩ := submitting_of_submitted h.bound hsub hcls hx
    · exact .inl ⟨rfl, rfl⟩
    · exact .inr hx
  refine ⟨fun object => hclc.status ▸ h.status object, ?_, ?_, ?_, ?_, ?_, ?_, ?_, ?_⟩
  · intro c' k
    exact submits_lt_of_submitted h.bound hsub hcls
  · intro c₁ c₂ x₁ x₂ hx₁ hx₂ hid
    obtain ⟨rfl, hid₁⟩ | hx₁ := hcas c₁ x₁ hx₁
    · obtain ⟨rfl, -⟩ | hx₂ := hcas c₂ x₂ hx₂
      · rfl
      · exact absurd (hid.symm.trans hid₁) (hfr.2 c₂ x₂ hx₂)
    · obtain ⟨rfl, hid₂⟩ | hx₂ := hcas c₂ x₂ hx₂
      · exact absurd (hid.trans hid₂) (hfr.2 c₁ x₁ hx₁)
      · exact h.alone c₁ c₂ x₁ x₂ hx₁ hx₂ hid
  · intro c' k x hc' hx
    rw [htim]
    obtain ⟨-, hc⟩ | ⟨hne, hc⟩ := caller_cases hcls c'
    · rw [hc] at hc'
      cases hc'
      rw [hsub, getElem?_concat_length] at hx
      cases hx
      exact timing_eq_none.mpr hfr.1
    · rw [hold c' k hne (by rw [hc']; rfl)] at hx
      exact h.launched c' k x (hc.symm.trans hc') hx
  · intro c' k hc'
    obtain ⟨-, hc⟩ | ⟨-, hc⟩ := caller_cases hcls c'
    · rw [hc] at hc'
      cases hc'
    · exact h.dropping c' k (hc.symm.trans hc')
  · intro c' k x hc' hx
    obtain ⟨-, hc⟩ | ⟨hne, hc⟩ := caller_cases hcls c'
    · rw [hc] at hc'
      cases hc'
    · rw [hold c' k hne (by rw [hc']; rfl)] at hx
      rw [htim]
      exact h.registered c' k x (hc.symm.trans hc') hx
  · intro id' e he
    rw [htim] at he
    obtain ⟨object', hent⟩ := h.entry id' e he
    rw [hsub, getElem?_append_left (List.getElem?_eq_some_iff.mp hent).1]
    exact ⟨object', hent⟩
  · intro t ht
    rw [hmon] at ht
    rw [htim]
    exact h.monitor t ht
  · intro id' e he hflag
    rw [htim] at he
    obtain ⟨hobs, hlate⟩ := h.flagged id' e he hflag
    rw [hclc.now]
    exact ⟨hobs.snoc cl, hlate⟩

lemma Timed.emplaced {k : ℕ} {e : ExecutionState} (h : Timed ls s) (hclc : Clock s s')
    (hclr : s.callers c = .launched k) (hx : s.submissions[k]? = some x)
    (hnew : s.executor.runningActions.lookup x.actionId = none)
    (he : Timing.ofState e = ⟨k, x.startTime, x.timeout, false⟩)
    (hsub : s'.submissions = s.submissions)
    (hmap : s'.executor.runningActions = s.executor.runningActions.insert x.actionId e)
    (hmon : s'.executor.monitors = s.executor.monitors)
    (hcls : s'.callers = Function.update s.callers c (.registered k)) :
    Timed (ls ++ [cl]) s' := by
  have hnone : s.timing x.actionId = none := timing_eq_none.mpr hnew
  have hmine : Submitting s c x := ⟨k, by rw [hclr]; rfl, hx⟩
  have hself : s'.timing x.actionId = some ⟨k, x.startTime, x.timeout, false⟩ := by
    rw [timing, hmap, AList.lookup_insert, map_some, he]
  have hoth : ∀ id, id ≠ x.actionId → s'.timing id = s.timing id := by
    intro id hid
    rw [timing, timing, hmap, AList.lookup_insert_ne hid]
  have hkeep : ∀ id e, s.timing id = some e → s'.timing id = some e := by
    intro id e he
    have hid : id ≠ x.actionId := by
      rintro rfl
      rw [hnone] at he
      cases he
    exact (hoth id hid).trans he
  have hclr' : ∀ j, (Caller.registered k).submits = some j → (s.callers c).submits = some j := by
    rw [hclr]
    exact fun _ hj => hj
  have hsubm : ∀ c' y, Submitting s' c' y → Submitting s c' y :=
    fun c' y => submitting_of_update hcls hclr' hsub
  refine ⟨fun object => hclc.status ▸ h.status object, ?_, ?_, ?_, ?_, ?_, ?_, ?_, ?_⟩
  · intro c' j hj
    rw [hsub]
    exact h.bound c' j (submits_of_update hcls hclr' hj)
  · intro c₁ c₂ x₁ x₂ hx₁ hx₂
    exact h.alone c₁ c₂ x₁ x₂ (hsubm c₁ x₁ hx₁) (hsubm c₂ x₂ hx₂)
  · intro c' j y hc' hy
    obtain ⟨-, hc⟩ | ⟨hne, hc⟩ := caller_cases hcls c'
    · rw [hc] at hc'
      cases hc'
    · rw [hc] at hc'
      rw [hsub] at hy
      have hid : y.actionId ≠ x.actionId := fun hid =>
        hne (h.alone c' c y x ⟨j, by rw [hc']; rfl, hy⟩ hmine hid)
      rw [hoth _ hid]
      exact h.launched c' j y hc' hy
  · intro c' j hc'
    obtain ⟨-, hc⟩ | ⟨-, hc⟩ := caller_cases hcls c'
    · rw [hc] at hc'
      cases hc'
    · exact h.dropping c' j (hc.symm.trans hc')
  · intro c' j y hc' hy
    rw [hsub] at hy
    obtain ⟨-, hc⟩ | ⟨-, hc⟩ := caller_cases hcls c'
    · rw [hc] at hc'
      cases hc'
      rw [hx] at hy
      cases hy
      exact ⟨false, hself⟩
    · obtain ⟨flag, hflag⟩ := h.registered c' j y (hc.symm.trans hc') hy
      exact ⟨flag, hkeep _ _ hflag⟩
  · intro id e' he'
    rw [hsub]
    by_cases hid : id = x.actionId
    · subst hid
      rw [hself] at he'
      cases he'
      exact ⟨x.object, hx⟩
    · rw [hoth id hid] at he'
      exact h.entry id e' he'
  · intro t ht
    rw [hmon] at ht
    obtain ⟨htmo, k', flag, hent, hflag⟩ := h.monitor t ht
    exact ⟨htmo, k', flag, hkeep _ _ hent, hflag⟩
  · intro id e' he' hflag
    rw [hclc.now]
    by_cases hid : id = x.actionId
    · subst hid
      rw [hself] at he'
      cases he'
      cases hflag
    · rw [hoth id hid] at he'
      obtain ⟨hobs, hlate⟩ := h.flagged id e' he' hflag
      exact ⟨hobs.snoc cl, hlate⟩

lemma Timed.watched {k : ℕ} (h : Timed ls s) (hclc : Clock s s')
    (hclr : s.callers c = .registered k) (hx : s.submissions[k]? = some x)
    (htmo : x.timeout ≠ 0) (hsub : s'.submissions = s.submissions)
    (htim : ∀ id, s'.timing id = s.timing id)
    (hmon : s'.executor.monitors =
      s.executor.monitors ++ [⟨x.actionId, x.startTime, x.timeout, .polling⟩])
    (hcls : s'.callers = Function.update s.callers c .idle) : Timed (ls ++ [cl]) s' := by
  have hold : Timed (ls ++ [cl]) { s' with executor := { s'.executor with
      monitors := s.executor.monitors } } :=
    h.same hsub hclc.now.ge (fun object => by exact hclc.status ▸ h.status object)
      (idle_or_same hcls) htim rfl
  refine ⟨hold.status, hold.bound, hold.alone, hold.launched, hold.dropping, hold.registered,
    hold.entry, ?_, hold.flagged⟩
  intro t ht
  rw [hmon] at ht
  obtain ht | ht := mem_append.mp ht
  · exact hold.monitor t ht
  · rw [mem_singleton.mp ht]
    obtain ⟨flag, he⟩ := h.registered c k x hclr hx
    exact ⟨htmo, k, flag, (htim _).trans he, fun hpc => by cases hpc⟩

lemma timing_flag {id : String}
    (hmap : s'.executor.runningActions = s.executor.runningActions.modify id fun e =>
      { e with cancelRequested := true }) (id' : String) :
    s'.timing id' = if id' = id then
      (s.timing id).map fun e => { e with cancelRequested := true } else s.timing id' := by
  rw [timing, hmap, lookup_modify]
  split_ifs
  · rw [timing, Option.map_map, Option.map_map]
    rfl
  · rfl

lemma timing_of_flagged {id : String}
    (hmap : s'.executor.runningActions = s.executor.runningActions.modify id fun e =>
      { e with cancelRequested := true })
    (hflag : ∀ e, s.timing id = some e → e.cancelRequested = true) (id' : String) :
    s'.timing id' = s.timing id' := by
  rw [timing_flag hmap]
  split_ifs with hid
  · subst hid
    cases he : s.timing id' with
    | none => rfl
    | some e =>
      have := hflag e he
      cases e
      cases this
      rfl
  · rfl

lemma monitors_set {t : Monitor} {pc : MonitorPc} (ht : s.executor.monitors[m]? = some t)
    (hmon : s'.executor.monitors = s.executor.monitors.set m { t with pc })
    (hpc : pc = .cancelling → ∃ e, s'.timing t.actionId = some e ∧ e.cancelRequested = true) :
    ∀ t' ∈ s'.executor.monitors, ∃ t ∈ s.executor.monitors, ∃ pc, t' = { t with pc } ∧
      (pc = .cancelling → t.pc = .cancelling ∨
        ∃ e, s'.timing t.actionId = some e ∧ e.cancelRequested = true) := by
  intro t' ht'
  rw [hmon] at ht'
  obtain hold | rfl := mem_or_eq_of_mem_set ht'
  · exact ⟨t', hold, t'.pc, rfl, .inl⟩
  · exact ⟨t, mem_of_getElem? ht, pc, rfl, fun h => .inr (hpc h)⟩

lemma Timed.exceeded {t : Monitor} {e : ExecutionState} (h : Timed ls s)
    (ht : s.executor.monitors[m]? = some t) (hpc : t.pc = .polling)
    (he : s.executor.runningActions.lookup t.actionId = some e)
    (hstop : e.shouldStopMonitoring = false) (hlate : t.timeout < s.executor.now - t.startTime) :
    e.timeout ≠ 0 ∧ e.timeout < s.executor.now - e.startTime ∧ Exceeded s m e.future := by
  obtain ⟨htmo, k, flag, htim, -⟩ := h.monitor t (mem_of_getElem? ht)
  have hent : s.timing t.actionId = some (Timing.ofState e) := by
    rw [timing, he]
    rfl
  have heq : Timing.ofState e = ⟨k, t.startTime, t.timeout, flag⟩ :=
    Option.some.inj (hent.symm.trans htim)
  simp only [Timing.ofState, Timing.mk.injEq] at heq
  obtain ⟨rfl, hstr, hlim, -⟩ := heq
  rw [hstr, hlim]
  obtain ⟨object, hsbms⟩ := h.entry _ _ htim
  refine ⟨htmo, hlate, ⟨t.actionId, object, t.startTime, t.timeout⟩, e, hsbms, htmo,
    hlate, ?_, he, rfl, hstop⟩
  rw [ht, ← hpc]

lemma Timed.monitored (h : Timed ls s) (hrun : Run next (fun _ _ => True) init ls s)
    (hm : ActionExecutor.Monitored s.executor e m) :
    Timed (ls ++ [(c, .monitor m)]) { s with executor := e } := by
  cases hm with
  | waits he =>
    subst he
    exact h.same rfl le_rfl h.status (fun _ => .inl rfl) (fun _ => rfl) rfl
  | ends t ht hpc he =>
    subst he
    refine h.keeps rfl le_rfl h.status (fun _ => .inl rfl) ?_ (fun _ he => he)
      (fun _ _ he _ => .inl he) (monitors_set ht rfl (fun hpc => by cases hpc))
    intro id e he
    exact ⟨e.cancelRequested, he, fun hflag => hflag⟩
  | cancels t ht hpc he =>
    obtain ⟨-, k, flag, htim, hflag⟩ := h.monitor t (mem_of_getElem? ht)
    have hset : ∀ e, s.timing t.actionId = some e → e.cancelRequested = true := by
      intro e he
      rw [htim] at he
      cases he
      exact hflag hpc
    have hsame : ∀ id, timing { s with executor := e } id = s.timing id :=
      timing_of_flagged (congrArg ActionExecutor.runningActions he) hset
    subst he
    refine h.keeps rfl le_rfl h.status (fun _ => .inl rfl) ?_ (fun id he => (hsame id).trans he)
      (fun id _ he _ => .inl ((hsame id).symm.trans he))
      (monitors_set ht rfl (fun hpc => by cases hpc))
    intro id e he
    exact ⟨e.cancelRequested, (hsame id).trans he, fun hflag => hflag⟩
  | exceeds t entry ht hpc hent hstop hlate hflag he =>
    obtain ⟨htmo, hlate, hexc⟩ := h.exceeded ht hpc hent hstop hlate
    have htim : s.timing t.actionId = some (Timing.ofState entry) := by
      rw [timing, hent]
      rfl
    have hset : ∀ id, timing { s with executor := e } id = if id = t.actionId then
        (s.timing t.actionId).map fun e => { e with cancelRequested := true } else s.timing id :=
      timing_flag (congrArg ActionExecutor.runningActions he)
    subst he
    refine h.keeps rfl le_rfl h.status (fun _ => .inl rfl) ?_ ?_ ?_ (monitors_set ht rfl ?_)
    · intro id e he
      rw [hset]
      split_ifs with hid
      · subst hid
        rw [he]
        exact ⟨true, rfl, fun _ => rfl⟩
      · exact ⟨e.cancelRequested, he, fun hflag => hflag⟩
    · intro id he
      rw [hset]
      split_ifs with hid
      · subst hid
        rw [he]
        rfl
      · exact he
    · intro id e he _
      rw [hset] at he
      split_ifs at he with hid
      · rw [htim] at he
        cases he
        exact .inr ⟨⟨ls, [], c, m, s, rfl, hrun, hexc⟩, htmo, hlate⟩
      · exact .inl he
    · intro _
      refine ⟨{ Timing.ofState entry with cancelRequested := true }, ?_, rfl⟩
      rw [hset, if_pos rfl, htim]
      rfl

lemma Timed.background (h : Timed ls s) (hb : ActionExecutor.Background s.executor e)
    (hnow : s.executor.now ≤ e.now) (hst : ∀ object, e.status object ≠ .timeout)
    (htim : ∀ id, timing { s with executor := e } id = s.timing id)
    (hmon : e.monitors = s.executor.monitors) : Timed (ls ++ [cl]) { s with executor := e } :=
  h.same hb.submissions hnow hst (fun _ => .inl rfl) htim hmon

lemma Timed.other (h : Timed ls s) (hrun : Run next (fun _ _ => True) init ls s)
    (hl : l.isClient = false) (hg : OnlyMonitorCancels s (c, l)) (he : s.executor.step l = some e) :
    Timed (ls ++ [(c, l)]) { s with executor := e } := by
  have hwor := ActionExecutor.worked_of_step hl he
  have hb := hwor.background
  cases hwor with
  | monitored m hm => exact h.monitored hrun hm
  | cancelled id hnew =>
    subst hnew
    refine h.background hb le_rfl h.status (timing_of_flagged rfl ?_) rfl
    intro e he
    obtain ⟨e₀, he₀, rfl⟩ := map_eq_some_iff.mp he
    exact hg e₀ he₀
  | finished k thrown x worker hx hrng hwork hnew hthr =>
    subst hnew
    exact h.background hb le_rfl h.status (fun _ => rfl) rfl
  | recorded k x message hx hthrew hnew =>
    subst hnew
    exact h.background hb le_rfl h.status (timing_of_modify rfl fun _ => rfl) rfl
  | wrote object status hnew =>
    subst hnew
    refine h.background hb le_rfl (fun object' => ?_) (fun _ => rfl) rfl
    have hself : status ≠ .timeout := of_decide_eq_true hg
    rcases eq_or_ne object' object with rfl | hne
    · simpa using hself
    · simpa [hne] using h.status object'
  | elapsed ms hnew =>
    subst hnew
    exact h.background hb (Nat.le_add_right _ _) h.status (fun _ => rfl) rfl

end

lemma timed_init : Timed [] init where
  status object h := by cases h
  bound c k h := by cases h
  alone c c' x x' := by
    rintro ⟨k, hk, -⟩
    cases hk
  launched c k x h := by cases h
  dropping c k h := by cases h
  registered c k x h := by cases h
  entry id e h := by cases h
  monitor t ht := by cases ht
  flagged id e h := by cases h

lemma timed_next {s' : Clients} {cl : ℕ × Label} (h : Timed ls s)
    (hrun : Run next (fun _ _ => True) init ls s) (hg : OnlyMonitorCancels s cl)
    (hn : next s cl = some s') : Timed (ls ++ [cl]) s' := by
  obtain ⟨c, l⟩ := cl
  cases hl : l.isClient with
  | false =>
    obtain ⟨-, e, he, rfl⟩ := other_of_next hl hn
    exact h.other hrun hl hg he
  | true =>
    obtain ⟨e, hser, rfl⟩ := served_of_next hl hn
    cases hser with
    | submitted id object timeout hclr =>
      exact h.submitted hg ⟨rfl, rfl⟩ map_append rfl rfl (callers_submitted s c)
    | kept k x hclr hx hold =>
      have hnone := timing_eq_none.mp (h.launched c k _ hclr (submission_of_execution hx))
      exact absurd hnone hold
    | registered k x hclr hx hnew =>
      exact h.emplaced ⟨rfl, rfl⟩ hclr (submission_of_execution hx) hnew rfl rfl rfl rfl rfl
    | dropped k hclr => exact absurd hclr (h.dropping c k)
    | unwatched => exact h.frame ⟨⟨rfl, rfl⟩, rfl, rfl, rfl⟩ (idle_or_same rfl)
    | overwritten =>
      refine h.frame ⟨⟨rfl, rfl⟩, rfl, rfl, rfl⟩ fun c' => .inl ?_
      exact congrFun (Function.update_eq_self c s.callers) c'
    | watched k x entry hclr hx htmo =>
      exact h.watched ⟨rfl, rfl⟩ hclr (submission_of_execution hx) htmo rfl
        (timing_of_modify rfl fun _ => rfl) rfl rfl
    | waited id hclr =>
      exact h.frame ⟨⟨rfl, rfl⟩, rfl, rfl, rfl⟩
        (idle_or_same (congrArg (Function.update s.callers c) hclr))
    | collected => cases hg
    | erased => cases hg

lemma timed_run (hrun : Run next OnlyMonitorCancels init ls s) : Timed ls s := by
  have hboth : Run next (fun _ _ => True) init ls s ∧ Timed ls s := by
    refine hrun.invariant_history (fun ls s => Run next (fun _ _ => True) init ls s ∧ Timed ls s)
      ⟨.nil, timed_init⟩ ?_
    rintro ls s cl s' ⟨hrun, h⟩ hg hn
    exact ⟨hrun.snoc trivial hn, timed_next h hrun hg hn⟩
  exact hboth.2

lemma timeout_cases {s : ActionExecutor} {id : String}
    (h : (s.getResult id).status = .timeout) :
    ∃ e, s.runningActions.lookup id = some e ∧
      (e.cancelRequested = true ∨ s.status e.action = .timeout) := by
  rw [ActionExecutor.getResult] at h
  split at h
  next => cases h
  next e he =>
    split_ifs at h with hrdy hexcep hflag
    · exact ⟨e, he, .inl (Bool.and_eq_true_iff.mp hflag).1⟩
    · exact ⟨e, he, .inr h⟩

lemma not_cancelledInTime {id : String} {k : ℕ} (hrun : Run next OnlyMonitorCancels init ls s) :
    ¬ CancelledInTime ls id k := by
  rintro ⟨ls₁, ls₂, c, s₁, x, e, rfl, hrun₁, he, rfl, hx, htime⟩
  rw [← singleton_append, ← append_assoc] at hrun
  obtain ⟨s₂, hrun₂, -⟩ := hrun.split
  obtain ⟨s₁', hrun₁', hg, -⟩ := hrun₂.snoc_inv
  cases hrun₁.deterministic hrun₁'
  have h := timed_run hrun₁'
  have htim : s₁.timing id = some (Timing.ofState e) := by
    rw [timing, he]
    rfl
  obtain ⟨object, hent⟩ := h.entry id _ htim
  rw [show (Timing.ofState e).future = e.future from rfl, hx] at hent
  cases hent
  obtain ⟨-, htmo, hlate⟩ := h.flagged id _ htim (hg e he)
  obtain hzero | hle := htime
  · exact htmo hzero
  · exact absurd hle (Nat.not_le_of_lt hlate)

theorem timeoutMeansExceeded_of_onlyMonitorCancels (ls : List (ℕ × Label)) :
    TimeoutMeansExceeded OnlyMonitorCancels ls := by
  intro s hrun id
  have h := timed_run hrun
  constructor
  · intro hres
    obtain ⟨e, he, hcause⟩ := timeout_cases hres
    obtain hflag | hst := hcause
    · have htim : s.timing id = some (Timing.ofState e) := by
        rw [timing, he]
        rfl
      exact ⟨e, he, (h.flagged id _ htim hflag).1⟩
    · exact absurd hst (h.status e.action)
  · intro e _ hint
    exact absurd hint (not_cancelledInTime hrun)

/-- The action has no timeout and is cancelled by its caller. -/
def explicitCancel : List (ℕ × Label) :=
  [(0, .executeAsync "pick" 0 0), (0, .emplace), (0, .startMonitor), (0, .setStatus 0 .running),
    (0, .cancel "pick"), (0, .setStatus 0 .cancelled), (0, .finish 0 none)]

theorem not_timeoutMeansExceeded :
    ¬ ∀ ls, TimeoutMeansExceeded (fun _ cl => uncleared cl.2 = true) ls := by
  intro h
  have hexec : ∃ s, exec next (fun _ cl => uncleared cl.2) init explicitCancel = some s ∧
      s.executor.getResult "pick" = ⟨"pick", .timeout, "Action exceeded timeout"⟩ := ⟨_, rfl, rfl⟩
  obtain ⟨s, hs, hres⟩ := hexec
  have hrun : Run next (fun _ cl => uncleared cl.2 = true) init explicitCancel s :=
    Run.of_exec (fun _ _ => id) hs
  obtain ⟨e, -, ls₁, ls₂, c, m, s₁, hls, -⟩ := (h explicitCancel s hrun "pick").1 (by rw [hres])
  have hmem : (c, Label.monitor m) ∈ explicitCancel := by
    rw [hls]
    exact mem_append_right _ mem_cons_self
  simp [explicitCancel] at hmem

end Mxrc.Action.Clients
