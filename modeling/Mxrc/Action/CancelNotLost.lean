import Mxrc.Action.SteppedAction

/-!
# Cancelling a stepped action

`execute` begins by writing `false` to the flag that `cancel` sets, and looks at
it last before it writes the final status. A `cancel` before the reset or after
the last look is lost; between the two every cancel is heeded.
-/

namespace Mxrc.Action
open Mxrc.Lib List Option Function

namespace Clients

def Registered (s : Clients) (k : ℕ) (x : Submission) : Prop :=
  (s.executor.runningActions.lookup x.actionId).map (fun e => (e.action, e.future)) =
    some (x.object, k)

def Listed (s : Clients) : Prop :=
  ∀ k x, s.executor.executions[k]? = some x → x.worker.isDone = false →
    (∃ c, s.callers c = .launched k ∨ s.callers c = .dropping k) ∨ s.Registered k x.submission

section
variable {s s' : Clients} {c : ℕ} {l : Label} {x : Submission} {e : ActionExecutor}

lemma Registered.of_eq {k : ℕ} (h : s.Registered k x)
    (hslot : (s'.executor.runningActions.lookup x.actionId).map ExecutionState.slot =
      (s.executor.runningActions.lookup x.actionId).map ExecutionState.slot) :
    s'.Registered k x := by
  have hpair := congrArg (Option.map fun slot : Slot => (slot.action, slot.future)) hslot
  rw [Option.map_map, Option.map_map] at hpair
  exact hpair.trans h

lemma Listed.keeps (h : Listed s) (hexec : s'.executor.executions = s.executor.executions)
    (hcls : ∀ c k, s.callers c = .launched k ∨ s.callers c = .dropping k →
      s'.callers c = .launched k ∨ s'.callers c = .dropping k)
    (hmap : ∀ k x, s.Registered k x → s'.Registered k x) : Listed s' := by
  intro k x hx hdone
  rw [hexec] at hx
  obtain ⟨c, hc⟩ | hreg := h k x hx hdone
  · exact .inl ⟨c, hcls c k hc⟩
  · exact .inr (hmap k _ hreg)

lemma callers_of_past {caller : Caller}
    (hpast : ∀ k, s.callers c ≠ .launched k ∧ s.callers c ≠ .dropping k)
    (hcls : s'.callers = Function.update s.callers c caller) (c' k : ℕ)
    (h : s.callers c' = .launched k ∨ s.callers c' = .dropping k) :
    s'.callers c' = .launched k ∨ s'.callers c' = .dropping k := by
  obtain ⟨rfl, -⟩ | ⟨-, hc⟩ := caller_cases hcls c'
  · obtain h | h := h
    · exact absurd h (hpast k).1
    · exact absurd h (hpast k).2
  · rwa [hc]

lemma Listed.submitted {id : String} {object timeout : ℕ} (h : Listed s)
    (hclr : s.callers c = .idle)
    (hexec : s'.executor.executions =
      s.executor.executions ++ [⟨id, object, s.executor.now, timeout, .running⟩])
    (hmap : s'.executor.runningActions = s.executor.runningActions)
    (hcls : s'.callers = Function.update s.callers c (.launched s.submissions.length)) :
    Listed s' := by
  intro k x hx hdone
  rw [hexec, getElem?_append] at hx
  split_ifs at hx with hlt
  · obtain ⟨c', hc'⟩ | hreg := h k x hx hdone
    · exact .inl ⟨c', callers_of_past (by simp [hclr]) hcls c' k hc'⟩
    · refine .inr (hreg.of_eq ?_)
      rw [hmap]
  · have hk : k = s.submissions.length := by
      have hbnd := (List.getElem?_eq_some_iff.mp hx).1
      rw [submissions, length_map]
      rw [length_singleton] at hbnd
      omega
    refine .inl ⟨c, .inl ?_⟩
    rw [hcls, update_self, hk]

lemma Listed.emplaced {k : ℕ} {e : ExecutionState} (h : Listed s)
    (hclr : s.callers c = .launched k) (hx : s.submissions[k]? = some x)
    (hnew : s.executor.runningActions.lookup x.actionId = none)
    (he : e.slot = ⟨x.object, k, x.startTime, x.timeout, none⟩)
    (hexec : s'.executor.executions = s.executor.executions)
    (hmap : s'.executor.runningActions = s.executor.runningActions.insert x.actionId e)
    (hcls : s'.callers = Function.update s.callers c (.registered k)) : Listed s' := by
  intro j y hy hdone
  rw [hexec] at hy
  obtain ⟨c', hc'⟩ | hreg := h j y hy hdone
  · obtain ⟨rfl, -⟩ | ⟨-, hsame⟩ := caller_cases hcls c'
    · have hj : k = j := by
        rw [hclr] at hc'
        simpa using hc'
      subst hj
      have hyx : y.submission = x :=
        Option.some.inj ((submission_of_execution hy).symm.trans hx)
      refine .inr ?_
      rw [hyx, Registered, hmap, AList.lookup_insert, map_some]
      exact congrArg (fun slot : Slot => some (slot.action, slot.future)) he
    · exact .inl ⟨c', by rwa [hsame]⟩
  · refine .inr (hreg.of_eq ?_)
    have hid : y.submission.actionId ≠ x.actionId := by
      intro hid
      rw [Registered, hid, hnew] at hreg
      cases hreg
    rw [hmap, AList.lookup_insert_ne hid]

lemma Listed.erased {ids : List String} {threads : List ℕ} (h : Listed s)
    (hclr : s.callers c = .clearing ids threads)
    (hrdy : ∀ id ∈ ids, ∀ e, s.executor.runningActions.lookup id = some e →
      s.executor.ready e.future = true)
    (hexec : s'.executor.executions = s.executor.executions)
    (hmap : s'.executor.runningActions =
      ids.foldl (fun m id => m.erase id) s.executor.runningActions)
    (hcls : s'.callers = Function.update s.callers c .idle) : Listed s' := by
  intro k x hx hdone
  rw [hexec] at hx
  obtain ⟨c', hc'⟩ | hreg := h k x hx hdone
  · exact .inl ⟨c', callers_of_past (by simp [hclr]) hcls c' k hc'⟩
  · refine .inr (hreg.of_eq ?_)
    have hid : x.submission.actionId ∉ ids := by
      intro hid
      obtain ⟨e, he, hpair⟩ := map_eq_some_iff.mp hreg
      have hfut : e.future = k := (Prod.mk.inj hpair).2
      have hdone' := hrdy _ hid e he
      rw [hfut, ActionExecutor.ready_of_execution hx, hdone] at hdone'
      cases hdone'
    rw [hmap, lookup_foldl_erase, if_neg hid]

lemma Listed.served (h : Listed s) (hser : ActionExecutor.Served (s.seenBy c) l e)
    (hrdy : l = .clearErase → ∀ ids threads, s.callers c = .clearing ids threads → ∀ id ∈ ids,
      ∀ e, s.executor.runningActions.lookup id = some e → s.executor.ready e.future = true) :
    Listed (s.leave c l e) := by
  cases hser with
  | submitted id object timeout hclr => exact h.submitted hclr rfl rfl (callers_submitted s c)
  | kept k x hclr =>
    refine h.keeps rfl (fun c' j hc' => ?_) fun _ _ hr => hr
    change s.callers c = .launched k at hclr
    rcases eq_or_ne c' c with rfl | hne
    · simpa [leave, hclr] using hc'
    · simpa [leave, hne] using hc'
  | registered k x hclr hx hnew =>
    exact h.emplaced hclr (submission_of_execution hx) hnew rfl rfl rfl rfl
  | dropped k hclr hdone =>
    intro j y hy hnot
    obtain ⟨c', hc'⟩ | hreg := h j y hy hnot
    · change s.callers c = .dropping k at hclr
      rcases eq_or_ne c' c with rfl | hne
      · have hj : k = j := by simpa [hclr] using hc'
        subst hj
        cases hdone.symm.trans ((ActionExecutor.ready_of_execution hy).trans hnot)
      · exact .inl ⟨c', by simpa [leave, hne] using hc'⟩
    · exact .inr hreg
  | unwatched k x hclr
  | overwritten k x entry hclr
  | waited id hclr =>
    change s.callers c = _ at hclr
    exact h.keeps rfl (callers_of_past (by simp [hclr]) rfl) fun _ _ hr => hr
  | watched k x entry hclr =>
    change s.callers c = _ at hclr
    refine h.keeps rfl (callers_of_past (by simp [hclr]) rfl) fun k y hr => ?_
    exact (map_lookup_modify (fun _ => by rfl) _ _ _).trans hr
  | collected hclr =>
    change s.callers c = _ at hclr
    refine h.keeps rfl (callers_of_past (by simp [hclr]) rfl) fun k y hr => ?_
    change Option.map _ ((collect _ _).lookup _) = _
    rw [collect, lookup_foldl_modify (fun e => by simp), ← hr]
    split_ifs
    · rw [Option.map_map]
      rfl
    · rfl
  | erased ids threads hclr =>
    exact h.erased hclr (hrdy rfl ids threads hclr) rfl rfl rfl

lemma Listed.background (h : Listed s) (hb : ActionExecutor.Background s.executor e)
    (hexec : ∀ (k : ℕ) (x : Execution), e.executions[k]? = some x → x.worker.isDone = false →
      s.executor.executions[k]? = some x) : Listed { s with executor := e } := by
  intro k x hx hdone
  obtain hc | hreg := h k x (hexec k x hx hdone) hdone
  · exact .inl hc
  · exact .inr (hreg.of_eq (hb.slots _))

end
end Clients

def WorkerPc.loses : WorkerPc → Bool
  | .entered => true
  | .begun => true
  | .ending false => true
  | _ => false

def WorkerPc.heeds : WorkerPc → Bool
  | .looping _ => true
  | .sleeping _ => true
  | .testing => true
  | .ending c => c
  | .returning c => c
  | _ => false

lemma WorkerPc.heeds_succ {steps : ℕ} {cancelled : Bool} {pc : WorkerPc} (h : pc.heeds = true)
    (hlast : pc = .testing → cancelled = true) : (pc.succ steps cancelled).heeds = true := by
  cases pc with
  | looping i =>
    rw [succ]
    split_ifs <;> rfl
  | testing =>
    rw [hlast rfl]
    rfl
  | sleeping i => rfl
  | ending c => exact h
  | returning c => exact h
  | _ => cases h

namespace Workers

/-- `cancel` was called for execution `k` between the return of `executeAsync` and the final status.
-/
def CancelledBeforeEnd (actions : ℕ → SteppedAction) (ls : List WorkersLabel) (k : ℕ) : Prop :=
  ∃ ls₁ ls₂ c l s x, ls = ls₁ ++ .client c l :: ls₂ ∧
    Run (next actions) (fun _ _ => True) init ls₁ s ∧ s.executor.executions[k]? = some x ∧
    s.clients.cancelledId l = some x.actionId ∧ (∀ c, (s.clients.callers c).submits ≠ some k) ∧
    (s.executor.status x.object).terminal = false

def CancelNotLost (actions : ℕ → SteppedAction) (G : Workers → WorkersLabel → Prop)
    (ls : List WorkersLabel) : Prop :=
  ∀ s, Run (next actions) G init ls s → ∀ k x, s.executor.executions[k]? = some x →
    CancelledBeforeEnd actions ls k →
      s.executor.status x.object ≠ .completed ∧
      (s.executor.ready k = true → s.executor.status x.object = .cancelled) ∧ Ends actions s k

/-- Every execution has an action of its own and stays registered until it is finished; `cancel` and
its write come between the reset of the flag and the last look. -/
def CancelsInTime (s : Workers) : WorkersLabel → Prop
  | .client _ (.executeAsync _ object _) => ∀ x ∈ s.executor.executions, x.object ≠ object
  | .client c .clearErase => ∀ ids threads, s.clients.callers c = .clearing ids threads →
      ∀ id ∈ ids, ∀ e, s.executor.runningActions.lookup id = some e →
        s.executor.ready e.future = true
  | .client _ l => ∀ object, s.clients.actionToCancel l = some object → ∀ k x,
      s.executor.executions[k]? = some x → x.object = object → (s.pc k).loses = false
  | .work k => s.pc k = .testing → ∀ x, s.executor.executions[k]? = some x →
      x.object ∉ s.cancelling
  | .cancelAction _ => True

structure Owned (s : Workers) : Prop where
  calm : Calm s
  objects : ∀ (j k : ℕ) (x y : Execution), s.executor.executions[j]? = some x →
    s.executor.executions[k]? = some y → x.object = y.object → j = k
  fresh : ∀ k, s.executor.executions.length ≤ k → s.pc k = .entered
  unused : ∀ object, (∀ x ∈ s.executor.executions, x.object ≠ object) →
    s.executor.status object = .pending
  status : ∀ k x, s.executor.executions[k]? = some x → s.executor.status x.object = (s.pc k).status
  done : ∀ k x, s.executor.executions[k]? = some x → x.worker.isDone = true →
    ∃ c, s.pc k = .returning c

structure Heeds (actions : ℕ → SteppedAction) (ls : List WorkersLabel) (s : Workers) : Prop
    extends Owned s where
  listed : s.clients.Listed
  heeded : ∀ k, CancelledBeforeEnd actions ls k → ∃ x, s.executor.executions[k]? = some x ∧
    (s.pc k).heeds = true ∧ (x.object ∈ s.cancelling ∨ s.cancelled x.object = true)

section
variable {actions : ℕ → SteppedAction} {s s' : Workers} {ls : List WorkersLabel} {k : ℕ} {l : Label}
  {x : Execution} {c : ℕ}

lemma CancelledBeforeEnd.snoc_inv {l : WorkersLabel}
    (hrun : Run (next actions) (fun _ _ => True) init ls s)
    (h : CancelledBeforeEnd actions (ls ++ [l]) k) :
    CancelledBeforeEnd actions ls k ∨ ∃ c l' x, l = .client c l' ∧
      s.executor.executions[k]? = some x ∧ s.clients.cancelledId l' = some x.actionId ∧
      (∀ c, (s.clients.callers c).submits ≠ some k) ∧
      (s.executor.status x.object).terminal = false := by
  obtain ⟨ls₁, ls₂, c, l', s₁, x, hls, hrun₁, hx, hid, hret, hst⟩ := h
  obtain rfl | ⟨ls₂, l₂, rfl⟩ := eq_nil_or_concat ls₂
  · obtain ⟨rfl, hl⟩ := append_inj' hls rfl
    cases hl
    cases hrun.deterministic hrun₁
    exact .inr ⟨c, l', x, rfl, hx, hid, hret, hst⟩
  · rw [List.concat_eq_append, ← cons_append, ← append_assoc] at hls
    obtain ⟨rfl, -⟩ := append_inj' hls rfl
    exact .inl ⟨ls₁, ls₂, c, l', s₁, x, rfl, hrun₁, hx, hid, hret, hst⟩

lemma Heeds.finds (h : Heeds actions ls s)
    (hg : ∀ object, s.clients.actionToCancel l = some object → ∀ k x,
      s.executor.executions[k]? = some x → x.object = object → (s.pc k).loses = false)
    (hx : s.executor.executions[k]? = some x) (hid : s.clients.cancelledId l = some x.actionId)
    (hret : ∀ c, (s.clients.callers c).submits ≠ some k)
    (hst : (s.executor.status x.object).terminal = false) :
    s.clients.actionToCancel l = some x.object ∧ (s.pc k).heeds = true := by
  rw [h.status k x hx] at hst
  have hnot : x.worker.isDone = false := by
    by_contra hdone
    obtain ⟨b, hb⟩ := h.done k x hx (by simpa using hdone)
    rw [hb] at hst
    cases b <;> cases hst
  have hctn : s.clients.actionToCancel l = some x.object := by
    obtain ⟨c', hc'⟩ | hreg := h.listed k x hx hnot
    · refine absurd ?_ (hret c')
      obtain hc' | hc' := hc'
      · rw [hc']
        rfl
      · rw [hc']
        rfl
    · obtain ⟨e, he, hpair⟩ := map_eq_some_iff.mp hreg
      rw [Clients.actionToCancel, hid, bind_some,
        show x.actionId = x.submission.actionId from rfl, he, map_some]
      exact congrArg some (Prod.mk.inj hpair).1
  refine ⟨hctn, ?_⟩
  have hlos := hg x.object hctn k x hx rfl
  cases hpc : s.pc k with
  | ending b =>
    rw [hpc] at hlos
    cases b
    · cases hlos
    · rfl
  | returning b =>
    rw [hpc] at hst
    cases b <;> cases hst
  | entered
  | begun =>
    rw [hpc] at hlos
    cases hlos
  | _ => rfl

lemma Owned.submitted {id : String} {object timeout : ℕ} (h : Owned s) (hcalm : Calm s')
    (hfr : ∀ x ∈ s.executor.executions, x.object ≠ object)
    (hexec : s'.executor.executions =
      s.executor.executions ++ [⟨id, object, s.executor.now, timeout, .running⟩])
    (hst : s'.executor.status = s.executor.status) (hpc : s'.pc = s.pc) : Owned s' := by
  have hcas : ∀ (k : ℕ) (x : Execution), s'.executor.executions[k]? = some x →
      s.executor.executions[k]? = some x ∨
      (k = s.executor.executions.length ∧ x.object = object ∧ x.worker = .running) := by
    intro k x hx
    rw [hexec, getElem?_append] at hx
    split_ifs at hx with hlt
    · exact .inl hx
    · obtain ⟨hbnd, rfl⟩ := List.getElem?_eq_some_iff.mp hx
      rw [length_singleton] at hbnd
      exact .inr ⟨by omega, by simp, by simp⟩
  refine ⟨hcalm, ?_, ?_, ?_, ?_, ?_⟩
  · intro j k x y hx hy hobj
    obtain hx | ⟨rfl, hx, -⟩ := hcas j x hx
    · obtain hy | ⟨rfl, hy, -⟩ := hcas k y hy
      · exact h.objects j k x y hx hy hobj
      · exact absurd (hobj.trans hy) (hfr x (mem_of_getElem? hx))
    · obtain hy | ⟨rfl, -, -⟩ := hcas k y hy
      · exact absurd (hobj.symm.trans hx) (hfr y (mem_of_getElem? hy))
      · rfl
  · intro k hk
    rw [hexec, length_append] at hk
    rw [hpc]
    exact h.fresh k (by omega)
  · intro o ho
    rw [hst]
    refine h.unused o fun x hx => ho x ?_
    rw [hexec]
    exact mem_append_left _ hx
  · intro k x hx
    rw [hst, hpc]
    obtain hx | ⟨rfl, rfl, -⟩ := hcas k x hx
    · exact h.status k x hx
    · rw [h.unused _ hfr, h.fresh _ le_rfl]
      rfl
  · intro k x hx hdone
    rw [hpc]
    obtain hx | ⟨-, -, hrng⟩ := hcas k x hx
    · exact h.done k x hx hdone
    · rw [hrng] at hdone
      cases hdone

lemma Owned.same (h : Owned s) (hexec : s'.executor.executions = s.executor.executions)
    (hst : s'.executor.status = s.executor.status) (hpc : s'.pc = s.pc) : Owned s' := by
  obtain ⟨hcalm, hobjec, hfr, hunus, hplc, hdone⟩ := h
  rw [← hexec] at hobjec hfr hunus hplc hdone
  rw [← hst] at hunus hplc
  rw [← hpc] at hfr hplc hdone
  rw [Calm, ← hexec] at hcalm
  exact ⟨hcalm, hobjec, hfr, hunus, hplc, hdone⟩

lemma Owned.acted {steps : ℕ} (h : Owned s) (hcalm : Calm s')
    (hx : s.executor.executions[k]? = some x) (hact : Acted steps s s' k x.object) :
    Owned s' := by
  have hback : ∀ (j : ℕ) (y' : Execution), s'.executor.executions[j]? = some y' →
      ∃ y : Execution, s.executor.executions[j]? = some y ∧ y'.object = y.object ∧
        (y'.worker.isDone = true →
          y.worker.isDone = true ∨ j = k ∧ ∃ c, s.pc k = .returning c) := by
    intro j y' hy'
    obtain ⟨-, hsame⟩ | ⟨c, x', hc, hx', hset⟩ := hact.executions_cases
    · exact ⟨y', hsame ▸ hy', rfl, .inl⟩
    · rw [hset, getElem?_set] at hy'
      split_ifs at hy' with hj hlt
      · cases hy'
        exact ⟨x', hj ▸ hx', rfl, fun _ => .inr ⟨hj.symm, c, hc⟩⟩
      · exact ⟨y', hy', rfl, .inl⟩
  have hlen : s'.executor.executions.length = s.executor.executions.length := by
    have := congrArg List.length hact.background.submissions
    simpa using this
  have hobjec : s'.executor.executions.map (·.object) = s.executor.executions.map (·.object) := by
    have := congrArg (List.map Submission.object) hact.background.submissions
    rwa [List.map_map, List.map_map] at this
  have hobj : ∀ (j : ℕ) (y : Execution), s.executor.executions[j]? = some y → j ≠ k →
      y.object ≠ x.object := fun j y hy hne heq => hne (h.objects j k y x hy hx heq)
  refine ⟨hcalm, ?_, ?_, ?_, ?_, ?_⟩
  · intro i j y' z' hy' hz' heq
    obtain ⟨y, hy, hyo, -⟩ := hback i y' hy'
    obtain ⟨z, hz, hzo, -⟩ := hback j z' hz'
    exact h.objects i j y z hy hz (hyo.symm.trans (heq.trans hzo))
  · intro j hj
    rw [hlen] at hj
    have hne : j ≠ k := by
      rintro rfl
      exact absurd (List.getElem?_eq_some_iff.mp hx).1 (Nat.not_lt.mpr hj)
    rw [hact.pc, update_of_ne hne]
    exact h.fresh j hj
  · intro o ho
    have hold : ∀ y ∈ s.executor.executions, y.object ≠ o := by
      intro y hy hyo
      have hmem : o ∈ s.executor.executions.map (·.object) := List.mem_map.mpr ⟨y, hy, hyo⟩
      rw [← hobjec] at hmem
      obtain ⟨y', hy', hyo'⟩ := List.mem_map.mp hmem
      exact ho y' hy' hyo'
    rw [hact.status_other o (hold x (mem_of_getElem? hx)).symm]
    exact h.unused o hold
  · intro j y' hy'
    obtain ⟨y, hy, hyo, -⟩ := hback j y' hy'
    rw [hyo]
    by_cases hj : j = k
    · subst hj
      rw [hx] at hy
      cases hy
      exact hact.status_self (h.status j x hx)
    · rw [hact.status_other _ (hobj j y hy hj), hact.pc, update_of_ne hj]
      exact h.status j y hy
  · intro j y' hy' hdone
    obtain ⟨y, hy, -, hor⟩ := hback j y' hy'
    have hbef : ∃ c, s.pc j = .returning c := by
      obtain hdone | ⟨rfl, hc⟩ := hor hdone
      · exact h.done j y hy hdone
      · exact hc
    obtain ⟨c, hc⟩ := hbef
    refine ⟨c, ?_⟩
    by_cases hj : j = k
    · subst hj
      rw [hact.pc, update_self, hc]
      rfl
    · rw [hact.pc, update_of_ne hj, hc]

lemma cancels_of_guard {id : String} (hg : CancelsInTime s (.client c l))
    (hid : s.clients.cancelledId l = some id) :
    ∀ object, s.clients.actionToCancel l = some object → ∀ k x,
      s.executor.executions[k]? = some x → x.object = object → (s.pc k).loses = false := by
  cases l with
  | cancel => exact hg
  | monitor => exact hg
  | _ => cases hid

lemma Heeds.listed_client {clients : Clients} (h : Heeds actions ls s)
    (hg : CancelsInTime s (.client c l)) (hl : l.ofWorker = false)
    (hn : s.clients.next (c, l) = some clients) : clients.Listed := by
  cases hc : l.isClient with
  | true =>
    obtain ⟨e, hser, rfl⟩ := Clients.served_of_next hc hn
    refine h.listed.served hser ?_
    rintro rfl
    exact hg
  | false =>
    obtain ⟨-, hsame | ⟨id, object, timeout, rfl, -⟩⟩ := quiet_of_client h.calm hl hn
    · obtain ⟨-, e, he, rfl⟩ := Clients.other_of_next hc hn
      refine h.listed.background (ActionExecutor.worked_of_step hc he).background ?_
      intro k x hx _
      exact hsame ▸ hx
    · cases hc

section
variable (h : Heeds actions ls s) (hrun : Run (next actions) (fun _ _ => True) init ls s)
include h hrun

lemma Heeds.client (hg : CancelsInTime s (.client c l))
    (hn : next actions s (.client c l) = some s') : Heeds actions (ls ++ [.client c l]) s' := by
  have hcalm := calm_next h.calm hn
  have hkps : ∀ (k : ℕ) (x : Execution), s.executor.executions[k]? = some x →
      s'.executor.executions[k]? = some x ∧ s'.pc k = s.pc k := fun k x hx =>
    execution_next h.calm hx (by simp) hn
  obtain ⟨hl, clients, hcli, rfl⟩ := client_inv hn
  obtain ⟨hst, hexec⟩ := quiet_of_client h.calm hl hcli
  refine ⟨?_, h.listed_client hg hl hcli, ?_⟩
  · obtain hsame | ⟨id, object, timeout, rfl, happ⟩ := hexec
    · exact h.toOwned.same hsame hst rfl
    · exact h.toOwned.submitted hcalm hg happ hst rfl
  · intro k hcan
    obtain hold | ⟨c', l', x, hlab, hx, hid, hret, hnot⟩ := hcan.snoc_inv hrun
    · obtain ⟨x, hx, hhds, hflag⟩ := h.heeded k hold
      obtain ⟨hx', hpc⟩ := hkps k x hx
      refine ⟨x, hx', hpc ▸ hhds, ?_⟩
      obtain hpend | hset := hflag
      · exact .inl (mem_append_left _ hpend)
      · exact .inr hset
    · cases hlab
      obtain ⟨hctn, hhds⟩ := h.finds (cancels_of_guard hg hid) hx hid hret hnot
      obtain ⟨hx', hpc⟩ := hkps k x hx
      refine ⟨x, hx', hpc ▸ hhds, .inl (mem_append_right _ ?_)⟩
      rw [hctn]
      exact mem_singleton_self _

lemma Heeds.work {j : ℕ} (hg : CancelsInTime s (.work j))
    (hn : next actions s (.work j) = some s') : Heeds actions (ls ++ [.work j]) s' := by
  obtain ⟨x, hx, hrng, hact⟩ := work_inv hn
  refine ⟨h.toOwned.acted (calm_next h.calm hn) hx hact, ?_, ?_⟩
  · have hcli : s'.clients = ⟨s'.executor, s.clients.callers⟩ := by rw [← hact.callers]
    rw [hcli]
    refine h.listed.background hact.background ?_
    intro k y hy hdone
    obtain ⟨-, hsame⟩ | ⟨c, x', -, -, hset⟩ := hact.executions_cases
    · exact hsame ▸ hy
    · rw [hset, getElem?_set] at hy
      split_ifs at hy
      · cases hy
        cases hdone
      · exact hy
  · intro k hcan
    obtain hold | ⟨c, l, y, hlab, -⟩ := hcan.snoc_inv hrun
    · obtain ⟨y, hy, hhds, hflag⟩ := h.heeded k hold
      by_cases hk : k = j
      · subst hk
        rw [hx] at hy
        cases hy
        obtain ⟨worker, hx'⟩ := execution_work hx hn
        have hbeg : s.pc k ≠ .begun := by
          intro hpc
          rw [hpc] at hhds
          cases hhds
        rw [hact.pc, update_self, hact.cancelled, if_neg hbeg, hact.cancelling]
        refine ⟨{ x with worker }, hx', WorkerPc.heeds_succ hhds fun htes => ?_, hflag⟩
        exact hflag.resolve_left (hg htes x hx)
      · obtain ⟨hy', hpc⟩ := execution_next h.calm hy (fun heq => hk (by cases heq; rfl)) hn
        refine ⟨y, hy', hpc ▸ hhds, ?_⟩
        have hobj : y.object ≠ x.object := fun heq => hk (h.objects k j y x hy hx heq)
        rw [hact.cancelling, hact.cancelled]
        split_ifs
        · rwa [update_of_ne hobj]
        · exact hflag
    · cases hlab

lemma Heeds.cancelAction {j : ℕ} (hn : next actions s (.cancelAction j) = some s') :
    Heeds actions (ls ++ [.cancelAction j]) s' := by
  obtain ⟨object, hobj, rfl⟩ := cancelAction_inv hn
  refine ⟨h.toOwned.same rfl rfl rfl, h.listed, ?_⟩
  intro k hcan
  obtain hold | ⟨c, l, x, hlab, -⟩ := hcan.snoc_inv hrun
  · obtain ⟨x, hx, hhds, hflag⟩ := h.heeded k hold
    refine ⟨x, hx, hhds, ?_⟩
    by_cases hself : x.object = object
    · right
      rw [hself]
      exact update_self ..
    · obtain hpend | hset := hflag
      · left
        obtain ⟨hlt, rfl⟩ := List.getElem?_eq_some_iff.mp hobj
        have hperm := (getElem_cons_eraseIdx_perm hlt).mem_iff.mpr hpend
        exact (mem_cons.mp hperm).resolve_left hself
      · right
        exact (update_of_ne hself ..).trans hset
  · cases hlab

end
end

lemma heeds_init (actions : ℕ → SteppedAction) : Heeds actions [] init where
  calm x hx := by cases hx
  objects j k x y hx := by cases hx
  fresh k _ := rfl
  unused object _ := rfl
  status k x hx := by cases hx
  done k x hx := by cases hx
  listed k x hx := by cases hx
  heeded k := by
    rintro ⟨ls₁, ls₂, c, l, s, x, hls, -⟩
    simp at hls

lemma heeds_run {actions : ℕ → SteppedAction} {ls : List WorkersLabel} {s : Workers}
    (hrun : Run (next actions) CancelsInTime init ls s) : Heeds actions ls s := by
  have hboth : Run (next actions) (fun _ _ => True) init ls s ∧ Heeds actions ls s := by
    refine hrun.invariant_history
      (fun ls s => Run (next actions) (fun _ _ => True) init ls s ∧ Heeds actions ls s)
      ⟨.nil, heeds_init actions⟩ ?_
    rintro ls s l s' ⟨hrun, h⟩ hg hn
    refine ⟨hrun.snoc trivial hn, ?_⟩
    cases l with
    | client c l => exact h.client hrun hg hn
    | work k => exact h.work hrun hg hn
    | cancelAction j => exact h.cancelAction hrun hn
  exact hboth.2

theorem cancelNotLost_of_cancelsInTime (actions : ℕ → SteppedAction) (ls : List WorkersLabel) :
    CancelNotLost actions CancelsInTime ls := by
  intro s hrun k x hx hcan
  have h := heeds_run hrun
  obtain ⟨y, hy, hhds, -⟩ := h.heeded k hcan
  rw [h.status k x hx]
  refine ⟨?_, ?_, ends_of_calm h.calm hx⟩
  · intro hcom
    cases hpc : s.pc k with
    | returning c =>
      rw [hpc] at hhds hcom
      rw [show c = true from hhds] at hcom
      cases hcom
    | _ =>
      rw [hpc] at hcom
      cases hcom
  · intro hrdy
    rw [ActionExecutor.ready_of_execution hx] at hrdy
    obtain ⟨c, hc⟩ := h.done k x hx hrdy
    rw [hc] at hhds ⊢
    rw [show c = true from hhds]
    rfl

def submitWait : List WorkersLabel :=
  [.client 0 (.executeAsync "wait" 0 0), .client 0 .emplace, .client 0 .startMonitor]

/-- The flag is set before the worker has begun, and the worker resets it. -/
def cancelAtOnce : List WorkersLabel :=
  submitWait ++ .client 1 (.cancel "wait") :: .cancelAction 0 :: List.replicate 26 (.work 0)

theorem not_cancelNotLost :
    ¬ ∀ ls, CancelNotLost (fun _ => .delayAction) (fun _ _ => True) ls := by
  intro h
  have hsub : ∃ s, exec (next fun _ => .delayAction) (fun _ _ => true) init submitWait = some s ∧
      s.executor.executions = [⟨"wait", 0, 0, 0, .running⟩] ∧
      s.clients.callers = Function.update (Function.update (Function.update (fun _ => .idle) 0
        (.launched 0)) 0 (.registered 0)) 0 .idle ∧ s.executor.status 0 = .pending :=
    ⟨_, rfl, rfl, rfl, rfl⟩
  have hcan : ∃ s, exec (next fun _ => .delayAction) (fun _ _ => true) init cancelAtOnce =
      some s ∧
      s.executor.executions = [⟨"wait", 0, 0, 0, .done none⟩] ∧
      s.executor.status 0 = .completed := ⟨_, rfl, rfl, rfl⟩
  obtain ⟨s₁, hs₁, hexec₁, hcls₁, hst₁⟩ := hsub
  obtain ⟨s, hs, hexec, hst⟩ := hcan
  have hidle : ∀ c, (s₁.clients.callers c).submits ≠ some 0 := by
    intro c
    rw [hcls₁, update_idem, update_idem, update_eq_self]
    simp [Caller.submits]
  have hrun : ∀ {ls s}, exec (next fun _ => .delayAction) (fun _ _ => true) init ls = some s →
      Run (next fun _ => .delayAction) (fun _ _ => True) init ls s :=
    Run.of_exec (fun _ _ _ => trivial)
  have hlost := h cancelAtOnce s (hrun hs) 0 _ (by rw [hexec]; rfl)
    ⟨submitWait, _, 1, .cancel "wait", s₁, _, rfl, hrun hs₁, by rw [hexec₁]; rfl, rfl, hidle,
      by rw [hst₁]; rfl⟩
  exact hlost.1 hst

end Workers
end Mxrc.Action
