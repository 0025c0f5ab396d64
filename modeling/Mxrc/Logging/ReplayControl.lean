import Mxrc.Lib.Runs

/-!
# Starting and stopping a replay

The flags, whether the reader has a file, and `replayThread_` with its thread.
The thread leaves its loop at any moment, clears `isPlaying_` and ends later; a
join returns after that. `waitedFor` records that a join has returned since the
last `start` that began a replay.
-/

namespace Mxrc.Logging
open Mxrc.Lib List

inductive ThreadPhase
  | looping
  | finishing
  | ended
deriving DecidableEq

inductive Joiner
  | stop
  | close
  | wait
  | destroy
deriving DecidableEq

inductive ControlPhase
  | idle
  | joining (joiner : Joiner)
  | destroyed
deriving DecidableEq

/-- `earlier` are the threads that the object was made for before. -/
structure ReplayControl where
  readerOpen : Bool := false
  isPlaying : Bool := false
  isPaused : Bool := false
  shouldStop : Bool := false
  earlier : List ThreadPhase := []
  current : Option ThreadPhase := none
  joinable : Bool := false
  phase : ControlPhase := .idle
  terminated : Bool := false
  waitedFor : Bool := true

namespace ReplayControl
variable (s : ReplayControl)

def begins : Bool := !s.isPlaying && s.readerOpen

def start : ReplayControl :=
  if s.begins then
    { s with
      shouldStop := false
      isPaused := false
      isPlaying := true
      earlier := s.earlier ++ s.current.toList
      current := some .looping
      joinable := true
      terminated := s.joinable
      waitedFor := false }
  else s

def pause : ReplayControl := if s.isPlaying && !s.isPaused then { s with isPaused := true } else s

def resume : ReplayControl := if s.isPlaying && s.isPaused then { s with isPaused := false } else s

def afterJoin : Joiner → ReplayControl
  | .stop => { s with isPlaying := false, phase := .idle }
  | .close => { s with isPlaying := false, readerOpen := false, phase := .idle }
  | .wait => { s with phase := .idle }
  | .destroy => { s with phase := .destroyed, terminated := s.joinable }

def join (joiner : Joiner) : ReplayControl :=
  if s.joinable then { s with phase := .joining joiner } else s.afterJoin joiner

def requestStop : ReplayControl :=
  if s.isPlaying then { s with shouldStop := true, isPaused := false } else s

def stop (joiner : Joiner) : ReplayControl :=
  if s.isPlaying then s.requestStop.join joiner else s.afterJoin joiner

inductive Call
  | openFile (result : Bool)
  | start
  | pause
  | resume
  | stop
  | waitUntilFinished
  | close
  | destroy

def call : Call → ReplayControl
  | .openFile result => if s.isPlaying then s else { s with readerOpen := result }
  | .start => s.start
  | .pause => s.pause
  | .resume => s.resume
  | .stop => s.stop .stop
  | .waitUntilFinished => s.join .wait
  | .close => s.stop .close
  | .destroy => s.requestStop.join .destroy

inductive Label
  | call (c : Call)
  | joined
  | leaves
  | ends

def next : Label → Option ReplayControl
  | .call c => if s.terminated || s.phase ≠ .idle then none else some (s.call c)
  | .joined =>
    match s.phase with
    | .joining joiner =>
      if s.terminated || s.current ≠ some .ended then none
      else some ({ s with joinable := false, waitedFor := true }.afterJoin joiner)
    | _ => none
  | .leaves =>
    if s.terminated || s.current ≠ some .looping then none
    else some { s with current := some .finishing, isPlaying := false }
  | .ends =>
    if s.terminated || s.current ≠ some .finishing then none
    else some { s with current := some .ended }

def runningThreads : ℕ := (s.earlier ++ s.current.toList).countP (· ≠ .ended)

def Safe : Prop := s.terminated = false ∧ s.runningThreads ≤ 1

/-- A call of `start` that begins a replay comes after a join of the one before. -/
def WaitsFirst : Label → Prop
  | .call .start => s.begins = true → s.waitedFor = true
  | _ => True

structure Sound : Prop where
  earlier : ∀ p ∈ s.earlier, p = .ended
  current : s.joinable = false → ∀ p ∈ s.current, p = .ended
  playing : s.isPlaying = true → s.joinable = true ∧ s.current = some .looping
  waited : s.waitedFor = !s.joinable
  alive : s.terminated = false

variable {s} {s' : ReplayControl} {l : Label}

section
variable (h : Sound s)
include h

lemma Sound.runningThreads_le : s.runningThreads ≤ 1 := by
  have hear : s.earlier.countP (· ≠ .ended) = 0 := by
    rw [countP_eq_zero]
    intro p hp
    simp [h.earlier p hp]
  rw [runningThreads, countP_append, hear, Nat.zero_add]
  refine countP_le_length.trans ?_
  cases s.current <;> simp

lemma Sound.afterJoin {joiner : Joiner} (hdes : joiner = .destroy → s.joinable = false) :
    Sound (s.afterJoin joiner) := by
  cases joiner with
  | stop => exact ⟨h.earlier, h.current, nofun, h.waited, h.alive⟩
  | close => exact ⟨h.earlier, h.current, nofun, h.waited, h.alive⟩
  | wait => exact ⟨h.earlier, h.current, h.playing, h.waited, h.alive⟩
  | destroy => exact ⟨h.earlier, h.current, h.playing, h.waited, hdes rfl⟩

lemma Sound.join (joiner : Joiner) : Sound (s.join joiner) := by
  rw [ReplayControl.join]
  split_ifs with hjoin
  · exact ⟨h.earlier, h.current, h.playing, h.waited, h.alive⟩
  · exact h.afterJoin fun _ => by simpa using hjoin

lemma Sound.requestStop : Sound s.requestStop := by
  rw [ReplayControl.requestStop]
  split_ifs
  · exact ⟨h.earlier, h.current, h.playing, h.waited, h.alive⟩
  · exact h

lemma Sound.stop {joiner : Joiner} (hjnr : joiner ≠ .destroy) : Sound (s.stop joiner) := by
  rw [ReplayControl.stop]
  split_ifs
  · exact h.requestStop.join joiner
  · exact h.afterJoin fun hdes => absurd hdes hjnr

lemma Sound.start (hwait : s.begins = true → s.waitedFor = true) : Sound s.start := by
  rw [ReplayControl.start]
  split_ifs with hbeg
  · have hjoin : s.joinable = false := by simpa [h.waited] using hwait hbeg
    refine ⟨fun p hp => ?_, nofun, fun _ => ⟨rfl, rfl⟩, rfl, hjoin⟩
    rcases mem_append.mp hp with hp | hp
    · exact h.earlier p hp
    · exact h.current hjoin p (Option.mem_toList.mp hp)
  · exact h

lemma Sound.call {c : Call} (hg : s.WaitsFirst (.call c)) : Sound (s.call c) := by
  cases c with
  | openFile result =>
    rw [ReplayControl.call]
    split_ifs
    · exact h
    · exact ⟨h.earlier, h.current, h.playing, h.waited, h.alive⟩
  | start => exact h.start hg
  | pause =>
    rw [ReplayControl.call, ReplayControl.pause]
    split_ifs
    · exact ⟨h.earlier, h.current, h.playing, h.waited, h.alive⟩
    · exact h
  | resume =>
    rw [ReplayControl.call, ReplayControl.resume]
    split_ifs
    · exact ⟨h.earlier, h.current, h.playing, h.waited, h.alive⟩
    · exact h
  | stop => exact h.stop (by decide)
  | waitUntilFinished => exact h.join .wait
  | close => exact h.stop (by decide)
  | destroy => exact h.requestStop.join .destroy

lemma Sound.next (hg : s.WaitsFirst l) (hn : s.next l = some s') : Sound s' := by
  cases l with
  | call c =>
    rw [ReplayControl.next] at hn
    split_ifs at hn
    cases hn
    exact h.call hg
  | joined =>
    rw [ReplayControl.next] at hn
    split at hn
    · split_ifs at hn with hends
      cases hn
      have hend : s.current = some .ended := by
        simp only [Bool.or_eq_true, decide_eq_true_eq, not_or, not_not] at hends
        exact hends.2
      have hjnd : Sound { s with joinable := false, waitedFor := true } := by
        refine ⟨h.earlier, fun _ p hp => ?_, fun hplay => ?_, rfl, h.alive⟩
        · cases hend.symm.trans hp
          rfl
        · cases (h.playing hplay).2.symm.trans hend
      exact hjnd.afterJoin fun _ => rfl
    · cases hn
  | leaves =>
    rw [ReplayControl.next] at hn
    split_ifs at hn with hends
    cases hn
    simp only [Bool.or_eq_true, decide_eq_true_eq, not_or, not_not] at hends
    refine ⟨h.earlier, fun hjoin => ?_, nofun, h.waited, h.alive⟩
    cases h.current hjoin .looping hends.2
  | ends =>
    rw [ReplayControl.next] at hn
    split_ifs at hn with hends
    cases hn
    simp only [Bool.or_eq_true, decide_eq_true_eq, not_or, not_not] at hends
    refine ⟨h.earlier, fun _ p hp => (Option.mem_some_iff.mp hp).symm, fun hplay => ?_,
      h.waited, h.alive⟩
    cases (h.playing hplay).2.symm.trans hends.2

lemma Sound.terminated_of_not (hg : ¬s.WaitsFirst l) (hn : s.next l = some s') :
    s'.terminated = true := by
  cases l with
  | call c =>
    cases c with
    | start =>
      simp only [WaitsFirst, Classical.not_imp, Bool.not_eq_true] at hg
      rw [ReplayControl.next] at hn
      split_ifs at hn
      cases hn
      rw [ReplayControl.call, ReplayControl.start, if_pos hg.1]
      simpa [h.waited] using hg.2
    | _ => exact absurd trivial hg
  | _ => exact absurd trivial hg

end

theorem replay_restart_safe_iff (ls : List Label) :
    Throughout next Safe {} ls ↔ EveryStep next WaitsFirst {} ls := by
  have hinit : Sound {} := ⟨nofun, nofun, nofun, rfl, rfl⟩
  refine throughout_iff_everyStep (B := fun s => s.terminated = false → Sound s) (fun _ => hinit)
    ⟨rfl, hinit.runningThreads_le⟩ fun s l s' hs hsafe hn => ?_
  have hsnd := hs hsafe.1
  by_cases hg : s.WaitsFirst l
  · have hsnd' := hsnd.next hg hn
    exact ⟨fun _ => hsnd', iff_of_true ⟨hsnd'.alive, hsnd'.runningThreads_le⟩ hg⟩
  · have hterm := hsnd.terminated_of_not hg hn
    refine ⟨fun halive => ?_, iff_of_false (fun hsafe' => ?_) hg⟩
    · cases halive.symm.trans hterm
    · cases hsafe'.1.symm.trans hterm

/-- The first replay ends by itself, and nobody waits for it. -/
theorem not_replay_restart_safe :
    ¬ ∀ ls : List Label, Throughout next Safe {} ls := by
  intro hall
  have hexec : (exec next (fun _ _ => true) {}
      [.call (.openFile true), .call .start, .leaves, .ends, .call .start]).map (·.terminated) =
        some true := by decide
  obtain ⟨s, hrun, hterm⟩ := exists_run_of_exec (fun _ _ _ => trivial) hexec
  have hsafe := (hall _ _ s prefix_rfl hrun).1
  cases hterm.symm.trans hsafe

end ReplayControl
end Mxrc.Logging
