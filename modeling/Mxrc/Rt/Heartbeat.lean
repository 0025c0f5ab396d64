import Mxrc.Lib.Runs
import Mxrc.Rt.RTExecutive

/-!
# Heartbeat loss

The heartbeat thread reads the clock and then stores the time in shared memory;
`checkHeartbeat` reads the clock and then loads that time. A heartbeat read and
stored between the two is newer than the reading, and the unsigned difference is
close to `2 ^ 64`.
-/

namespace Mxrc.Rt
open Mxrc.Lib Option

namespace RTExecutive
variable {κ : Type}

def concludeHeartbeat (x : RTExecutive κ) (inp : CycleInput) : RTExecutive κ :=
  let timeSinceLastHb := inp.nowNs - inp.nonrtHeartbeatNs
  let x' :=
    if heartbeatTimeoutNs < timeSinceLastHb then
      if x.stateMachine = .running then x.enterSafeMode inp.nowNs timeSinceLastHb else x
    else if x.stateMachine = .safeMode then x.exitSafeMode inp.nowNs
    else x
  { x' with rtHeartbeatNs := inp.nowNs }

lemma checkHeartbeat_eq (x : RTExecutive κ) (inp : CycleInput) :
    x.checkHeartbeat inp = if x.heartbeatMonitoringEnabled && x.sharedMemory
      then x.concludeHeartbeat inp else x := rfl

def heartbeatEvent (x : RTExecutive κ) (inp : CycleInput) : Option RTEvent :=
  if heartbeatTimeoutNs < inp.nowNs - inp.nonrtHeartbeatNs then
    if x.stateMachine = .running then some .safeModeEnter else none
  else if x.stateMachine = .safeMode then some .safeModeExit
  else none

lemma stateMachine_publish (x : RTExecutive κ) (e : RTBusEvent) :
    (x.publish e).stateMachine = x.stateMachine := by
  rw [publish]
  split <;> rfl

lemma stateMachine_handleEvent (x : RTExecutive κ) (e : RTEvent) :
    (x.handleEvent e).2.stateMachine = x.stateMachine.next e := by
  rw [handleEvent]
  split_ifs with h
  · exact h.symm
  · rfl

lemma stateMachine_concludeHeartbeat (x : RTExecutive κ) (inp : CycleInput) :
    (x.concludeHeartbeat inp).stateMachine =
      (x.heartbeatEvent inp).elim x.stateMachine x.stateMachine.next := by
  rw [concludeHeartbeat, heartbeatEvent]
  split_ifs with htmo hrng hsafe
  · simp [enterSafeMode, stateMachine_handleEvent, stateMachine_publish]
  · rfl
  · simp only [exitSafeMode, stateMachine_handleEvent, elim_some]
    split_ifs <;> simp [stateMachine_publish]
  · rfl

end RTExecutive

/-- `beat` and `check` are times read for a store and for a load to come; `stored` is whether a
heartbeat has been stored. -/
structure HeartbeatSystem (κ : Type) where
  executive : RTExecutive κ
  clock : UInt64
  nonrtHeartbeatNs : UInt64
  stored : Bool
  beat : Option UInt64
  check : Option UInt64

inductive HeartbeatStep (κ : Type)
  | elapse (clock : UInt64)
  | beatRead
  | beatStore
  | checkRead
  | checkLoad
  | other (executive : RTExecutive κ)

namespace HeartbeatSystem
variable {κ : Type}

def init (x : RTExecutive κ) (clock nonrtHeartbeatNs : UInt64) : HeartbeatSystem κ :=
  ⟨x, clock, nonrtHeartbeatNs, false, none, none⟩

def next (s : HeartbeatSystem κ) : HeartbeatStep κ → Option (HeartbeatSystem κ)
  | .elapse clock => if s.clock ≤ clock then some { s with clock } else none
  | .beatRead => if s.beat = none then some { s with beat := some s.clock } else none
  | .beatStore =>
    match s.beat with
    | none => none
    | some time => some { s with nonrtHeartbeatNs := time, stored := true, beat := none }
  | .checkRead =>
    if s.check = none ∧ s.executive.heartbeatMonitoringEnabled = true ∧
        s.executive.sharedMemory = true then
      some { s with check := some s.clock } else none
  | .checkLoad =>
    match s.check with
    | none => none
    | some now => some { s with
        executive := s.executive.concludeHeartbeat ⟨now, s.nonrtHeartbeatNs⟩
        check := none }
  | .other executive => some { s with executive }

/-- After a reading `now`, safe mode is entered only if the heartbeat is too old. -/
def OnlyOnLoss (s : HeartbeatSystem κ) : Prop :=
  ∀ now, s.check = some now → s.stored = true →
    s.executive.heartbeatEvent ⟨now, s.nonrtHeartbeatNs⟩ = some .safeModeEnter →
      (RTExecutive.heartbeatTimeoutNs.toNat : ℤ) < now.toNat - s.nonrtHeartbeatNs.toNat

def SafeModeOnlyOnLoss (G : HeartbeatSystem κ → HeartbeatStep κ → Prop) (x : RTExecutive κ)
    (clock nonrtHeartbeatNs : UInt64) (ls : List (HeartbeatStep κ)) : Prop :=
  ∀ s s', Run next G (init x clock nonrtHeartbeatNs) ls s → next s .checkLoad = some s' →
    OnlyOnLoss s

/-- No heartbeat is stored between a reading of the RT process and its load unless it was read
before. -/
def NotOvertaken (s : HeartbeatSystem κ) (l : HeartbeatStep κ) : Prop :=
  l = .beatStore → ∀ time now, s.beat = some time → s.check = some now → time ≤ now

structure Inv (s : HeartbeatSystem κ) : Prop where
  heartbeat : s.stored = true → s.nonrtHeartbeatNs ≤ s.clock
  beat : ∀ time, s.beat = some time → time ≤ s.clock
  check : ∀ now, s.check = some now → s.stored = true → s.nonrtHeartbeatNs ≤ now

lemma Inv.step {s s' : HeartbeatSystem κ} {l : HeartbeatStep κ} (h : Inv s)
    (hl : NotOvertaken s l) (hn : next s l = some s') : Inv s' := by
  cases l with
  | elapse clock =>
    simp only [next, ite_none_right_eq_some, Option.some.injEq] at hn
    obtain ⟨hclc, rfl⟩ := hn
    exact ⟨fun hs => UInt64.le_trans (h.heartbeat hs) hclc,
      fun time ht => UInt64.le_trans (h.beat time ht) hclc, h.check⟩
  | beatRead =>
    simp only [next, ite_none_right_eq_some, Option.some.injEq] at hn
    obtain ⟨-, rfl⟩ := hn
    exact ⟨h.heartbeat, fun time ht => Option.some.inj ht ▸ UInt64.le_refl _, h.check⟩
  | beatStore =>
    rw [next] at hn
    split at hn
    next => cases hn
    next time htime =>
      cases hn
      exact ⟨fun _ => h.beat time htime, nofun, fun now hnow _ => hl rfl time now htime hnow⟩
  | checkRead =>
    simp only [next, ite_none_right_eq_some, Option.some.injEq] at hn
    obtain ⟨-, rfl⟩ := hn
    exact ⟨h.heartbeat, h.beat, fun now hnow hs => Option.some.inj hnow ▸ h.heartbeat hs⟩
  | checkLoad =>
    rw [next] at hn
    split at hn
    next => cases hn
    next =>
      cases hn
      exact ⟨h.heartbeat, h.beat, nofun⟩
  | other executive =>
    cases hn
    exact ⟨h.heartbeat, h.beat, h.check⟩

lemma Inv.onlyOnLoss {s : HeartbeatSystem κ} (h : Inv s) : OnlyOnLoss s := by
  intro now hnow hs hent
  have hle : s.nonrtHeartbeatNs ≤ now := h.check now hnow hs
  rw [RTExecutive.heartbeatEvent] at hent
  split_ifs at hent with htmo
  · rw [UInt64.lt_iff_toNat_lt, UInt64.toNat_sub_of_le _ _ hle] at htmo
    rw [UInt64.le_iff_toNat_le] at hle
    omega
  · cases hent

theorem safeModeOnlyOnLoss (x : RTExecutive κ) (clock nonrtHeartbeatNs : UInt64)
    (ls : List (HeartbeatStep κ)) :
    SafeModeOnlyOnLoss NotOvertaken x clock nonrtHeartbeatNs ls := by
  intro s s' hrun _
  have hinit : Inv (init x clock nonrtHeartbeatNs) := ⟨nofun, nofun, nofun⟩
  exact (hrun.invariant Inv hinit fun _ _ _ h hl hn => h.step hl hn).onlyOnLoss

/-- The RT process reads 5; the heartbeat of time 6 is stored before it loads. -/
theorem not_safeModeOnlyOnLoss : ¬ ∀ (κ : Type) (x : RTExecutive κ)
    (clock nonrtHeartbeatNs : UInt64) (ls : List (HeartbeatStep κ)),
      SafeModeOnlyOnLoss (fun _ _ => True) x clock nonrtHeartbeatNs ls := by
  intro hall
  let x : RTExecutive Unit :=
    { (RTExecutive.enterRun (RTExecutive.make 1 1 false) 0).executive with
      sharedMemory := true, heartbeatMonitoringEnabled := true }
  let ls : List (HeartbeatStep Unit) :=
    [.beatRead, .beatStore, .elapse 5, .checkRead, .elapse 6, .beatRead, .beatStore]
  have hrun : ∃ s, exec next (fun _ _ => true) (init x 0 0) ls = some s ∧
      s.check = some 5 ∧ s.nonrtHeartbeatNs = 6 ∧ s.stored = true ∧
        s.executive.heartbeatEvent ⟨5, 6⟩ = some .safeModeEnter :=
    ⟨_, rfl, rfl, rfl, rfl, rfl⟩
  obtain ⟨s, hs, hchc, hbeat, hsto, hent⟩ := hrun
  have hload : ∃ s', next s .checkLoad = some s' := by simp [next, hchc]
  obtain ⟨s', hs'⟩ := hload
  have hloss := hall Unit x 0 0 ls s s' (Run.of_exec (fun _ _ _ => trivial) hs) hs' 5 hchc hsto
  rw [hbeat] at hloss
  exact absurd (hloss hent) (by decide)

end HeartbeatSystem
end Mxrc.Rt
