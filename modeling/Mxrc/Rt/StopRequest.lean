import Mxrc.Rt.Heartbeat

/-!
# Stopping the executive

`stop` is called while the RT thread is in `run`, and further threads may send
events. Accesses to `running_` and to the state are steps; `handleEvent` reads
the state in one step and writes the new one in another. The actions of a slot
return.
-/

namespace Mxrc.Rt
open Mxrc.Lib List

def heartbeatDecision (lost : Bool) (state : RTState) : Option RTEvent :=
  if lost then if state = .running then some .safeModeEnter else none
  else if state = .safeMode then some .safeModeExit
  else none

/-- Where the RT thread is in `run`; `acting` has the events still to be sent in this cycle. -/
inductive RunPhase
  | created
  | starting
  | startWriting (new : RTState)
  | setup
  | testing
  | checking (lost : Option Bool) (events : List RTEvent)
  | acting (events : List RTEvent)
  | writing (new : RTState) (events : List RTEvent)
  | left
deriving DecidableEq

inductive StopPhase
  | idle
  | clearing
  | askingRunning
  | askingPaused
  | sending
  | writing (new : RTState)
  | returned
deriving DecidableEq

/-- `others` are the writes to come of further threads; `calledIn` is the state at the call of
`stop`, and `further` counts the cycles after its return. -/
structure StopSystem where
  state : RTState
  running : Bool
  run : RunPhase
  stop : StopPhase
  others : ℕ → Option RTState
  calledIn : RTState
  further : ℕ

inductive StopStep
  | run (lost : Option Bool) (events : List RTEvent)
  | stop
  | eventRead (i : ℕ) (e : RTEvent)
  | eventWrite (i : ℕ)
deriving DecidableEq

def RunPhase.inCycle : RunPhase → Bool
  | .checking _ _ | .acting _ | .writing _ _ => true
  | _ => false

def RunPhase.beforeLoop : RunPhase → Bool
  | .created | .starting | .startWriting _ | .setup => true
  | _ => false

namespace StopSystem

def init : StopSystem := ⟨.ready, false, .created, .idle, fun _ => none, .init, 0⟩

def runStep (s : StopSystem) (lost : Option Bool) (events : List RTEvent) : Option StopSystem :=
  match s.run with
  | .created => some { s with run := if s.state = .ready then .starting else .setup }
  | .starting =>
    let new := s.state.next .start
    some { s with run := if new = s.state then .setup else .startWriting new }
  | .startWriting new => some { s with state := new, run := .setup }
  | .setup => some { s with running := true, run := .testing }
  | .testing =>
    if s.running then
      some { s with
        run := .checking lost events
        further := if s.stop = .returned then s.further + 1 else s.further }
    else some { s with run := .left }
  | .checking lost events =>
    let sent := lost.bind fun lost => heartbeatDecision lost s.state
    some { s with run := .acting (sent.toList ++ events) }
  | .acting [] => some { s with run := .testing }
  | .acting (e :: events) =>
    let new := s.state.next e
    some { s with run := if new = s.state then .acting events else .writing new events }
  | .writing new events => some { s with state := new, run := .acting events }
  | .left => none

def doReturn (s : StopSystem) : StopSystem :=
  { s with stop := .returned, further := if s.run.inCycle then 1 else 0 }

def stopStep (s : StopSystem) : Option StopSystem :=
  match s.stop with
  | .idle =>
    let s := { s with calledIn := s.state }
    some (if s.running then { s with stop := .clearing } else s.doReturn)
  | .clearing => some { s with running := false, stop := .askingRunning }
  | .askingRunning =>
    some { s with stop := if s.state = .running then .sending else .askingPaused }
  | .askingPaused => some (if s.state = .paused then { s with stop := .sending } else s.doReturn)
  | .sending =>
    let new := s.state.next .stop
    some (if new = s.state then s.doReturn else { s with stop := .writing new })
  | .writing new => some { s with state := new }.doReturn
  | .returned => none

def next (s : StopSystem) : StopStep → Option StopSystem
  | .run lost events => s.runStep lost events
  | .stop => s.stopStep
  | .eventRead i e =>
    if s.others i = none then
      let new := s.state.next e
      some { s with others :=
        Function.update s.others i (if new = s.state then none else some new) }
    else none
  | .eventWrite i =>
    (s.others i).map fun new =>
      { s with state := new, others := Function.update s.others i none }

def runs : StopStep → Bool
  | .run _ _ => true
  | _ => false

/-- Once `stop` has returned: at most one more cycle, `run` leaves its loop after a bounded number
of steps, and then the state is SHUTDOWN. -/
structure Honoured (s : StopSystem) : Prop where
  further : s.further ≤ 1
  enabled : s.run ≠ .left → ∀ lost events, (next s (.run lost events)).isSome = true
  bounded : ∃ n, ∀ ls s', Run next (fun _ _ => True) s ls s' → ls.countP runs ≤ n
  shutdown : s.run = .left → s.calledIn ∈ [.running, .paused, .safeMode] → s.state = .shutdown

def StopNotLost (G : StopSystem → StopStep → Prop) (ls : List StopStep) : Prop :=
  ∀ s, Run next G init ls s → s.stop = .returned → Honoured s

def Quiet (s : StopSystem) : Prop :=
  (∀ new events, s.run ≠ .writing new events) ∧ ∀ i, s.others i = none

def underWay (s : StopSystem) : Prop := s.stop ≠ .idle ∧ s.stop ≠ .returned

/-- `stop` is called when `running_` is set, not in safe mode, and until it returns nothing else
changes the state. -/
def Undisturbed (s : StopSystem) : StopStep → Prop
  | .stop => s.stop = .idle → s.running = true ∧ s.state ≠ .safeMode ∧ s.Quiet
  | .run _ _ => s.underWay → ∀ e events, s.run = .acting (e :: events) → s.state.next e = s.state
  | .eventRead _ e => s.underWay → s.state.next e = s.state
  | .eventWrite _ => True

section
variable {s s' : StopSystem} {lost : Option Bool} {events : List RTEvent}

def remaining : RunPhase → ℕ
  | .testing => 1
  | .checking _ events => 2 * events.length + 5
  | .acting events => 2 * events.length + 2
  | .writing _ events => 2 * events.length + 3
  | _ => 0

structure OtherStep (s s' : StopSystem) : Prop where
  stop : s'.stop = s.stop
  calledIn : s'.calledIn = s.calledIn
  running : s'.running = s.running
  beforeLoop : s'.run.beforeLoop = false
  further : s.running = false → s'.further = s.further
  still : s.Quiet → s.underWay ∨ s.state = .shutdown → s'.state = s.state ∧ s'.Quiet

lemma next_shutdown (e : RTEvent) : RTState.shutdown.next e = .shutdown := by
  cases e <;> rfl

inductive LoopStep (s : StopSystem) : StopSystem → Prop
  | cycle (lost : Option Bool) (events : List RTEvent) (further : ℕ) (hrun : s.run = .testing)
      (hrunning : s.running = true) : LoopStep s { s with run := .checking lost events, further }
  | leave (hrun : s.run = .testing) (hrunning : s.running = false) :
      LoopStep s { s with run := .left }
  | check (lost : Option Bool) (events sent : List RTEvent) (hrun : s.run = .checking lost events)
      (hsent : sent.length ≤ 1) : LoopStep s { s with run := .acting (sent ++ events) }
  | done (hrun : s.run = .acting []) : LoopStep s { s with run := .testing }
  | ignore (e : RTEvent) (events : List RTEvent) (hrun : s.run = .acting (e :: events))
      (hkeep : s.state.next e = s.state) : LoopStep s { s with run := .acting events }
  | read (e : RTEvent) (events : List RTEvent) (hrun : s.run = .acting (e :: events))
      (hchange : s.state.next e ≠ s.state) :
      LoopStep s { s with run := .writing (s.state.next e) events }
  | write (new : RTState) (events : List RTEvent) (hrun : s.run = .writing new events) :
      LoopStep s { s with state := new, run := .acting events }

lemma loopStep_of_runStep (hloop : s.run.beforeLoop = false)
    (hn : s.runStep lost events = some s') : LoopStep s s' := by
  rw [runStep] at hn
  cases hrun : s.run <;> simp only [hrun] at hn hloop
  case created => cases hloop
  case starting => cases hloop
  case startWriting => cases hloop
  case setup => cases hloop
  case testing =>
    by_cases hrng : s.running = true
    · rw [if_pos hrng] at hn
      cases hn
      exact .cycle lost events _ hrun hrng
    · rw [if_neg hrng] at hn
      cases hn
      exact .leave hrun (by simpa using hrng)
  case checking lost events =>
    cases hn
    refine .check lost events _ hrun ?_
    cases lost.bind fun lost => heartbeatDecision lost s.state <;> simp
  case acting events =>
    cases events with
    | nil =>
      cases hn
      exact .done hrun
    | cons e events =>
      cases hn
      by_cases hkeep : s.state.next e = s.state
      · rw [if_pos hkeep]
        exact .ignore e events hrun hkeep
      · rw [if_neg hkeep]
        exact .read e events hrun hkeep
  case writing new events =>
    cases hn
    exact .write new events hrun
  case left => cases hn

lemma LoopStep.other (h : LoopStep s s') (hl : s.Undisturbed (.run lost events)) :
    OtherStep s s' := by
  cases h with
  | cycle lost events further hrun hrng =>
    exact ⟨rfl, rfl, rfl, rfl, by simp [hrng], fun hq _ => ⟨rfl, nofun, hq.2⟩⟩
  | leave => exact ⟨rfl, rfl, rfl, rfl, fun _ => rfl, fun hq _ => ⟨rfl, nofun, hq.2⟩⟩
  | check => exact ⟨rfl, rfl, rfl, rfl, fun _ => rfl, fun hq _ => ⟨rfl, nofun, hq.2⟩⟩
  | done => exact ⟨rfl, rfl, rfl, rfl, fun _ => rfl, fun hq _ => ⟨rfl, nofun, hq.2⟩⟩
  | ignore => exact ⟨rfl, rfl, rfl, rfl, fun _ => rfl, fun hq _ => ⟨rfl, nofun, hq.2⟩⟩
  | read e events hrun hchan =>
    -- the event has no transition, by the guard or because the state is SHUTDOWN
    refine ⟨rfl, rfl, rfl, rfl, fun _ => rfl, fun _ hstl => absurd ?_ hchan⟩
    exact hstl.elim (fun h => hl h e events hrun) fun h => by rw [h, next_shutdown]
  | write new events hrun =>
    exact ⟨rfl, rfl, rfl, rfl, fun _ => rfl, fun hq _ => absurd hrun (hq.1 new events)⟩

lemma LoopStep.remaining (h : LoopStep s s') (hrng : s.running = false) :
    remaining s'.run < remaining s.run := by
  cases h with
  | cycle lost events further hrun htrue =>
    rw [hrng] at htrue
    cases htrue
  | leave hrun => simp [hrun, StopSystem.remaining]
  | check lost events sent hrun hsent =>
    simp only [hrun, StopSystem.remaining, length_append]
    omega
  | done hrun => simp [hrun, StopSystem.remaining]
  | ignore e events hrun
  | read e events hrun =>
    simp only [hrun, StopSystem.remaining, length_cons]
    omega
  | write new events hrun => simp [hrun, StopSystem.remaining]

lemma eventRead_other {i : ℕ} {e : RTEvent} (hloop : s.run.beforeLoop = false)
    (hl : s.Undisturbed (.eventRead i e)) (hn : next s (.eventRead i e) = some s') :
    OtherStep s s' := by
  rw [next] at hn
  split_ifs at hn
  cases hn
  refine ⟨rfl, rfl, rfl, hloop, fun _ => rfl, fun hq hstl => ⟨rfl, hq.1, fun j => ?_⟩⟩
  have hkeep : s.state.next e = s.state := hstl.elim hl fun h => by rw [h, next_shutdown]
  simp only [if_pos hkeep, Function.update_apply]
  split_ifs
  · rfl
  · exact hq.2 j

lemma eventWrite_other {i : ℕ} (hloop : s.run.beforeLoop = false)
    (hn : next s (.eventWrite i) = some s') : OtherStep s s' := by
  rw [next, Option.map_eq_some_iff] at hn
  obtain ⟨new, hnew, rfl⟩ := hn
  refine ⟨rfl, rfl, rfl, hloop, fun _ => rfl, fun hq _ => ?_⟩
  rw [hq.2 i] at hnew
  cases hnew

def Stopping (s : StopSystem) : Prop :=
  match s.stop with
  | .idle => True
  | .clearing => s.Quiet ∧ s.state = s.calledIn
  | .askingRunning => s.running = false ∧ s.Quiet ∧ s.state = s.calledIn
  | .askingPaused => s.running = false ∧ s.Quiet ∧ s.state = s.calledIn ∧ s.state ≠ .running
  | .sending => s.running = false ∧ s.Quiet ∧ (s.state = .running ∨ s.state = .paused)
  | .writing new => s.running = false ∧ s.Quiet ∧ new = .shutdown
  | .returned => s.running = false ∧ s.further ≤ 1 ∧
      (s.calledIn = .running ∨ s.calledIn = .paused → s.state = .shutdown ∧ s.Quiet)

structure Inv (s : StopSystem) : Prop where
  before : s.run.beforeLoop = true → s.running = false ∧ s.stop = .idle
  calledIn : s.stop ≠ .idle → s.calledIn ≠ .safeMode
  stopping : s.Stopping

lemma Stopping.other (h : s.Stopping) (ho : OtherStep s s') : s'.Stopping := by
  have hstep := ho.still
  unfold Stopping at h ⊢
  rw [ho.stop, ho.calledIn, ho.running]
  rw [underWay] at hstep
  cases hstop : s.stop with
  | idle => trivial
  | clearing =>
    simp only [hstop] at h hstep
    obtain ⟨hsta, hquiet⟩ := hstep h.1 (Or.inl ⟨nofun, nofun⟩)
    exact ⟨hquiet, hsta.trans h.2⟩
  | askingRunning =>
    simp only [hstop] at h hstep
    obtain ⟨hsta, hquiet⟩ := hstep h.2.1 (Or.inl ⟨nofun, nofun⟩)
    exact ⟨h.1, hquiet, hsta.trans h.2.2⟩
  | askingPaused
  | sending =>
    simp only [hstop] at h hstep
    obtain ⟨hsta, hquiet⟩ := hstep h.2.1 (Or.inl ⟨nofun, nofun⟩)
    exact ⟨h.1, hquiet, hsta ▸ h.2.2⟩
  | writing new =>
    simp only [hstop] at h hstep
    exact ⟨h.1, (hstep h.2.1 (Or.inl ⟨nofun, nofun⟩)).2, h.2.2⟩
  | returned =>
    simp only [hstop] at h hstep
    refine ⟨h.1, ho.further h.1 ▸ h.2.1, fun hcal => ?_⟩
    obtain ⟨hshut, hquiet⟩ := h.2.2 hcal
    obtain ⟨hsta, hquiet⟩ := hstep hquiet (Or.inr hshut)
    exact ⟨hsta.trans hshut, hquiet⟩

lemma Inv.other (h : Inv s) (ho : OtherStep s s') : Inv s' where
  before hbef := by
    rw [ho.beforeLoop] at hbef
    cases hbef
  calledIn hstop := by
    rw [ho.calledIn]
    exact h.calledIn (ho.stop ▸ hstop)
  stopping := h.stopping.other ho

lemma Inv.of_idle (hbef : s'.run.beforeLoop = true → s'.running = false)
    (hidle : s'.stop = .idle) : Inv s' where
  before hb := ⟨hbef hb, hidle⟩
  calledIn hstop := absurd hidle hstop
  stopping := by
    rw [Stopping, hidle]
    trivial

lemma runStep_before (hbef : s.run.beforeLoop = true) (hrng : s.running = false)
    (hn : s.runStep lost events = some s') :
    s'.stop = s.stop ∧ (s'.run.beforeLoop = true → s'.running = false) := by
  rw [runStep] at hn
  cases hrun : s.run <;> simp only [hrun] at hn hbef
  case created =>
    cases hn
    exact ⟨rfl, fun _ => hrng⟩
  case starting =>
    cases hn
    exact ⟨rfl, fun _ => hrng⟩
  case startWriting new =>
    cases hn
    exact ⟨rfl, fun _ => hrng⟩
  case setup =>
    cases hn
    exact ⟨rfl, nofun⟩
  all_goals cases hbef

lemma further_doReturn (s : StopSystem) : s.doReturn.further ≤ 1 := by
  rw [doReturn]
  split_ifs <;> simp

lemma Inv.stopStep (h : Inv s) (hl : s.Undisturbed .stop) (hn : s.stopStep = some s') :
    Inv s' := by
  have hph := h.stopping
  rw [Stopping] at hph
  rw [StopSystem.stopStep] at hn
  have hloop : s.stop ≠ .idle → s.run.beforeLoop = true → False := fun hne hb =>
    hne (h.before hb).2
  cases hstop : s.stop with
  | idle =>
    obtain ⟨hrng, hsafe, hquiet⟩ := hl hstop
    simp only [hstop, hrng, if_true, Option.some.injEq] at hn
    subst hn
    refine ⟨fun hb => ?_, fun _ => hsafe, hquiet, rfl⟩
    have hfal := (h.before hb).1
    rw [hrng] at hfal
    cases hfal
  | clearing =>
    simp only [hstop, Option.some.injEq] at hn hph hloop
    subst hn
    exact ⟨fun hb => (hloop nofun hb).elim, fun _ => h.calledIn (hstop ▸ nofun),
      rfl, hph.1, hph.2⟩
  | askingRunning =>
    simp only [hstop, Option.some.injEq] at hn hph hloop
    subst hn
    refine ⟨fun hb => (hloop nofun hb).elim, fun _ => h.calledIn (hstop ▸ nofun), ?_⟩
    by_cases hsta : s.state = .running
    · simp only [Stopping, hsta, if_true]
      exact ⟨hph.1, hph.2.1, Or.inl trivial⟩
    · simp only [Stopping, if_neg hsta]
      exact ⟨hph.1, hph.2.1, hph.2.2, hsta⟩
  | askingPaused =>
    simp only [hstop, Option.some.injEq] at hn hph hloop
    subst hn
    obtain ⟨hrng, hquiet, hcal, hsta⟩ := hph
    split_ifs with hpau
    · exact ⟨fun hb => (hloop nofun hb).elim, fun _ => h.calledIn (hstop ▸ nofun),
        hrng, hquiet, Or.inr hpau⟩
    · refine ⟨fun hb => (hloop nofun hb).elim, fun _ => h.calledIn (hstop ▸ nofun),
        hrng, further_doReturn s, fun hc => ?_⟩
      exact (hc.elim (fun hc => hsta (hcal.trans hc)) fun hc =>
        hpau (hcal.trans hc)).elim
  | sending =>
    simp only [hstop, Option.some.injEq] at hn hph hloop
    obtain ⟨hrng, hquiet, hsta⟩ := hph
    have hnew : s.state.next .stop = .shutdown ∧ RTState.shutdown ≠ s.state := by
      rcases hsta with hsta | hsta <;> rw [hsta] <;> exact ⟨rfl, nofun⟩
    rw [hnew.1, if_neg hnew.2] at hn
    subst hn
    exact ⟨fun hb => (hloop nofun hb).elim, fun _ => h.calledIn (hstop ▸ nofun),
      hrng, hquiet, rfl⟩
  | writing new =>
    simp only [hstop, Option.some.injEq] at hn hph hloop
    subst hn
    exact ⟨fun hb => (hloop nofun hb).elim, fun _ => h.calledIn (hstop ▸ nofun),
      hph.1, further_doReturn _, fun _ => ⟨hph.2.2, hph.2.1⟩⟩
  | returned => simp [hstop] at hn

lemma Inv.step {l : StopStep} (h : Inv s) (hl : s.Undisturbed l) (hn : next s l = some s') :
    Inv s' := by
  cases hbef : s.run.beforeLoop with
  | false =>
    cases l with
    | run lost events => exact h.other ((loopStep_of_runStep hbef hn).other hl)
    | stop => exact h.stopStep hl hn
    | eventRead i e => exact h.other (eventRead_other hbef hl hn)
    | eventWrite i => exact h.other (eventWrite_other hbef hn)
  | true =>
    obtain ⟨hrng, hidle⟩ := h.before hbef
    cases l with
    | run lost events =>
      obtain ⟨hstop, hb⟩ := runStep_before hbef hrng hn
      exact .of_idle hb (hstop.trans hidle)
    | stop => exact h.stopStep hl hn
    | eventRead i e =>
      rw [next] at hn
      split_ifs at hn
      cases hn
      exact .of_idle (fun _ => hrng) hidle
    | eventWrite i =>
      rw [next, Option.map_eq_some_iff] at hn
      obtain ⟨new, -, rfl⟩ := hn
      exact .of_idle (fun _ => hrng) hidle

structure Ending (s : StopSystem) : Prop where
  stop : s.stop = .returned
  running : s.running = false
  beforeLoop : s.run.beforeLoop = false

lemma Ending.other {l : StopStep} (h : Ending s) (hn : next s l = some s') : OtherStep s s' := by
  have hl : ¬ s.underWay := fun hway => hway.2 h.stop
  cases l with
  | run lost events =>
    have hgrd : s.Undisturbed (.run lost events) := fun hway => absurd hway hl
    exact (loopStep_of_runStep h.beforeLoop hn).other hgrd
  | stop => simp [next, stopStep, h.stop] at hn
  | eventRead i e => exact eventRead_other h.beforeLoop (fun hway => absurd hway hl) hn
  | eventWrite i => exact eventWrite_other h.beforeLoop hn

lemma Ending.step {l : StopStep} (h : Ending s) (hn : next s l = some s') : Ending s' :=
  have ho := h.other hn
  ⟨ho.stop.trans h.stop, ho.running.trans h.running, ho.beforeLoop⟩

lemma run_eq_of_not_runs {l : StopStep} (hl : runs l = false) (hn : next s l = some s')
    (hstop : s.stop = .returned) : s'.run = s.run := by
  cases l with
  | run lost events => cases hl
  | stop => simp [next, stopStep, hstop] at hn
  | eventRead i e =>
    rw [next] at hn
    split_ifs at hn
    cases hn
    rfl
  | eventWrite i =>
    rw [next, Option.map_eq_some_iff] at hn
    obtain ⟨new, -, rfl⟩ := hn
    rfl

lemma Ending.remaining_run {ls : List StopStep} (h : Ending s)
    (hrun : Run next (fun _ _ => True) s ls s') :
    Ending s' ∧ ls.countP runs + remaining s'.run ≤ remaining s.run := by
  induction hrun with
  | nil => exact ⟨h, by simp⟩
  | @snoc ls mid l last _ _ hn ih =>
    obtain ⟨hmid, hle⟩ := ih
    refine ⟨hmid.step hn, ?_⟩
    rw [countP_append, countP_singleton]
    cases hl : runs l with
    | true =>
      cases l with
      | run lost events =>
        have hlt := (loopStep_of_runStep hmid.beforeLoop hn).remaining hmid.running
        simp only [if_true]
        omega
      | _ => cases hl
    | false =>
      rw [run_eq_of_not_runs hl hn hmid.stop]
      simpa using hle

lemma isSome_runStep (h : s.run ≠ .left) : (s.runStep lost events).isSome = true := by
  rw [runStep]
  split
  case h_5 => split_ifs <;> rfl
  case h_10 hrun => exact absurd hrun h
  all_goals rfl

lemma Inv.honoured (h : Inv s) (hstop : s.stop = .returned) : Honoured s := by
  have hph := h.stopping
  rw [Stopping] at hph
  simp only [hstop] at hph
  obtain ⟨hrng, hfur, hshut⟩ := hph
  have hloop : s.run.beforeLoop = false := by
    rw [Bool.eq_false_iff]
    intro hb
    rw [(h.before hb).2] at hstop
    cases hstop
  refine ⟨hfur, fun hrun _ _ => isSome_runStep hrun, ⟨remaining s.run, fun ls s' hrun => ?_⟩,
    fun _ hcal => ?_⟩
  · have hle := (Ending.remaining_run ⟨hstop, hrng, hloop⟩ hrun).2
    omega
  · have hsafe : s.calledIn ≠ .safeMode := h.calledIn (hstop ▸ nofun)
    simp only [mem_cons, not_mem_nil, or_false] at hcal
    refine (hshut ?_).1
    tauto

end
end StopSystem
end Mxrc.Rt
