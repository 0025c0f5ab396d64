import Mxrc.Lib.Bytes
import Mxrc.Lib.Maps
import Mxrc.Lib.Runs

/-!
# Throttling of events

`shouldSend` accepts the first event of a type and then one whose clock reading
is at least the interval after the last accepted one, with an unsigned
difference. A log has the calls with their answers; `Spaced` and `Prompt`
compare its readings over the integers.
-/

namespace Mxrc.Event
open Mxrc.Lib List

structure ThrottlingPolicy where
  throttleIntervalMs : UInt64 := 100
  lastSentTime : AList (fun _ : String => UInt64) := ∅

namespace ThrottlingPolicy
variable (p : ThrottlingPolicy)

/-- The clock is a signed number of milliseconds, which `getCurrentTimeMs` converts. -/
def shouldSend (eventType : String) (clock : Int64) : Bool × ThrottlingPolicy :=
  let now := clock.toUInt64
  match p.lastSentTime.lookup eventType with
  | none => (true, { p with lastSentTime := p.lastSentTime.insert eventType now })
  | some last =>
    if now - last ≥ p.throttleIntervalMs then
      (true, { p with lastSentTime := p.lastSentTime.insert eventType now })
    else (false, p)

def reset : ThrottlingPolicy := { p with lastSentTime := ∅ }

def resetEventType (eventType : String) : ThrottlingPolicy :=
  { p with lastSentTime := p.lastSentTime.erase eventType }

lemma lookup_shouldSend (eventType eventType' : String) (clock : Int64) :
    (p.shouldSend eventType clock).2.lastSentTime.lookup eventType' =
      if (p.shouldSend eventType clock).1 = true ∧ eventType' = eventType then
        some clock.toUInt64
      else p.lastSentTime.lookup eventType' := by
  unfold shouldSend
  cases p.lastSentTime.lookup eventType with
  | none => simp [lookup_insert_ite]
  | some last =>
    dsimp only
    split
    · simp [lookup_insert_ite]
    · simp

lemma throttleIntervalMs_shouldSend (eventType : String) (clock : Int64) :
    (p.shouldSend eventType clock).2.throttleIntervalMs = p.throttleIntervalMs := by
  unfold shouldSend
  cases p.lastSentTime.lookup eventType with
  | none => rfl
  | some last =>
    dsimp only
    split <;> rfl

end ThrottlingPolicy

inductive ThrottleEntry
  | shouldSend (eventType : String) (clock : Int64) (accepted : Bool)
  | reset
  | resetEventType (eventType : String)
deriving DecidableEq

def ThrottleEntry.touches (eventType : String) : ThrottleEntry → Bool
  | .shouldSend sent _ accepted => accepted && sent = eventType
  | .reset => true
  | .resetEventType erased => erased = eventType

def LastSent (log : List ThrottleEntry) (eventType : String) (clock : Int64) : Prop :=
  ∃ before since, log = before ++ .shouldSend eventType clock true :: since ∧
    ∀ e ∈ since, e.touches eventType = false

lemma lastSent_append_singleton {log : List ThrottleEntry} {e : ThrottleEntry}
    {eventType : String} {clock : Int64} :
    LastSent (log ++ [e]) eventType clock ↔ e = .shouldSend eventType clock true ∨
      e.touches eventType = false ∧ LastSent log eventType clock := by
  constructor
  · rintro ⟨before, since, hlog, hsin⟩
    rcases eq_nil_or_concat since with rfl | ⟨since, last, rfl⟩
    · obtain ⟨-, he⟩ := append_inj' hlog rfl
      exact .inl (singleton_inj.mp he)
    · rw [List.concat_eq_append] at hlog hsin
      rw [← cons_append, ← append_assoc] at hlog
      obtain ⟨hlog, he⟩ := append_inj' hlog rfl
      rw [singleton_inj.mp he]
      refine .inr ⟨hsin last (by simp), before, since, hlog, fun e he => ?_⟩
      exact hsin e (mem_append_left _ he)
  · rintro (rfl | ⟨he, before, since, rfl, hsin⟩)
    · exact ⟨log, [], rfl, by simp⟩
    · refine ⟨before, since ++ [e], by simp, fun e' he' => ?_⟩
      rcases mem_append.mp he' with hold | hnew
      · exact hsin e' hold
      · rw [mem_singleton.mp hnew]
        exact he

structure Throttling where
  policy : ThrottlingPolicy
  log : List ThrottleEntry := []

namespace Throttling

inductive Op
  | shouldSend (eventType : String) (clock : Int64)
  | reset
  | resetEventType (eventType : String)
deriving DecidableEq

def next (s : Throttling) : Op → Option Throttling
  | .shouldSend eventType clock =>
    let (accepted, policy) := s.policy.shouldSend eventType clock
    some ⟨policy, s.log ++ [.shouldSend eventType clock accepted]⟩
  | .reset => some ⟨s.policy.reset, s.log ++ [.reset]⟩
  | .resetEventType eventType =>
    some ⟨s.policy.resetEventType eventType, s.log ++ [.resetEventType eventType]⟩

lemma next_shouldSend (s : Throttling) (eventType : String) (clock : Int64) :
    s.next (.shouldSend eventType clock) = some ⟨(s.policy.shouldSend eventType clock).2,
      s.log ++ [.shouldSend eventType clock (s.policy.shouldSend eventType clock).1]⟩ := rfl

def Spaced (interval : UInt64) : List ThrottleEntry → ThrottleEntry → Prop
  | log, .shouldSend eventType clock accepted => accepted = true →
      ∀ last, LastSent log eventType last → interval.toNat ≤ clock.toInt - last.toInt
  | _, _ => True

def Prompt (interval : UInt64) : List ThrottleEntry → ThrottleEntry → Prop
  | log, .shouldSend eventType clock accepted =>
      ∀ last, LastSent log eventType last → interval.toNat ≤ clock.toInt - last.toInt →
        accepted = true
  | _, _ => True

/-- The clock is not behind the last accepted event of the type, or so far that the difference
modulo 2 ^ 64 is below the interval. -/
def Forward (s : Throttling) : Op → Prop
  | .shouldSend eventType clock => ∀ last, LastSent s.log eventType last →
      last.toInt ≤ clock.toInt ∨
        clock.toInt - last.toInt + 2 ^ 64 < s.policy.throttleIntervalMs.toNat
  | _ => True

structure Recorded (interval : UInt64) (s : Throttling) : Prop where
  interval_eq : s.policy.throttleIntervalMs = interval
  lookup : ∀ eventType last, LastSent s.log eventType last →
    s.policy.lastSentTime.lookup eventType = some last.toUInt64

variable {interval : UInt64} {s s' : Throttling} {op : Op}

lemma recorded_start (interval : UInt64) : Recorded interval ⟨⟨interval, ∅⟩, []⟩ where
  interval_eq := rfl
  lookup eventType last hlast := by
    obtain ⟨before, since, hlog, -⟩ := hlast
    simp at hlog

section
variable (h : Recorded interval s)
include h

lemma Recorded.next (hn : s.next op = some s') : Recorded interval s' := by
  cases op with
  | shouldSend eventType clock =>
    rw [next_shouldSend] at hn
    cases hn
    refine ⟨?_, fun eventType' last hlast => ?_⟩
    · exact (ThrottlingPolicy.throttleIntervalMs_shouldSend ..).trans h.interval_eq
    · rw [ThrottlingPolicy.lookup_shouldSend]
      rcases lastSent_append_singleton.mp hlast with heq | ⟨hoth, hlast⟩
      · obtain ⟨rfl, rfl, hacc⟩ := ThrottleEntry.shouldSend.inj heq
        rw [if_pos ⟨hacc, rfl⟩]
      · rw [if_neg, h.lookup eventType' last hlast]
        rintro ⟨hacc, rfl⟩
        simp [ThrottleEntry.touches, hacc] at hoth
  | reset =>
    cases hn
    refine ⟨h.interval_eq, fun eventType' last hlast => ?_⟩
    rcases lastSent_append_singleton.mp hlast with heq | ⟨hoth, -⟩
    · cases heq
    · cases hoth
  | resetEventType eventType =>
    cases hn
    refine ⟨h.interval_eq, fun eventType' last hlast => ?_⟩
    rcases lastSent_append_singleton.mp hlast with heq | ⟨hoth, hlast⟩
    · cases heq
    · have hne : eventType' ≠ eventType := fun heq => by
        simp [ThrottleEntry.touches, heq] at hoth
      rw [← h.lookup eventType' last hlast]
      exact AList.lookup_erase_ne hne

lemma Recorded.accepted_iff {eventType : String} {clock last : Int64}
    (hlast : LastSent s.log eventType last) :
    (s.policy.shouldSend eventType clock).1 = true ↔
      interval.toNat ≤ clock.toInt - last.toInt ∨ clock.toInt < last.toInt ∧
        interval.toNat ≤ clock.toInt - last.toInt + 2 ^ 64 := by
  have hdif := toNat_toUInt64_sub clock last
  have hacc : (s.policy.shouldSend eventType clock).1 = true ↔
      interval.toNat ≤ (clock.toUInt64 - last.toUInt64).toNat := by
    rw [ThrottlingPolicy.shouldSend, h.lookup eventType last hlast, h.interval_eq]
    dsimp only
    split_ifs with hle
    · exact iff_of_true rfl (UInt64.le_iff_toNat_le.mp hle)
    · exact iff_of_false (by simp) fun hle' => hle (UInt64.le_iff_toNat_le.mpr hle')
  rw [hacc]
  split_ifs at hdif with hle
  · omega
  · omega

lemma spaced_shouldSend_iff (eventType : String) (clock : Int64) :
    Spaced interval s.log
        (.shouldSend eventType clock (s.policy.shouldSend eventType clock).1) ↔
      s.Forward (.shouldSend eventType clock) := by
  constructor
  · intro hspac last hlast
    by_contra hback
    rw [h.interval_eq] at hback
    push Not at hback
    have hacc := (h.accepted_iff hlast).mpr (.inr hback)
    have hlong := hspac hacc last hlast
    have hint : (0 : ℤ) ≤ interval.toNat := Int.natCast_nonneg _
    omega
  · intro hfor hacc last hlast
    have hfrn := hfor last hlast
    rw [h.interval_eq] at hfrn
    rcases (h.accepted_iff hlast).mp hacc with hlong | ⟨hback, hlong⟩
    · exact hlong
    · omega

lemma prompt_shouldSend (eventType : String) (clock : Int64) :
    Prompt interval s.log
      (.shouldSend eventType clock (s.policy.shouldSend eventType clock).1) :=
  fun _ hlast hlong => (h.accepted_iff hlast).mpr (.inl hlong)

lemma everyEntry_next (hn : s.next op = some s') :
    (EveryEntry (Prompt interval) s.log → EveryEntry (Prompt interval) s'.log) ∧
      (EveryEntry (Spaced interval) s'.log ↔
        EveryEntry (Spaced interval) s.log ∧ s.Forward op) := by
  cases op with
  | shouldSend eventType clock =>
    rw [next_shouldSend] at hn
    cases hn
    rw [everyEntry_append_singleton, everyEntry_append_singleton, spaced_shouldSend_iff h]
    exact ⟨fun hlog => ⟨hlog, prompt_shouldSend h eventType clock⟩, Iff.rfl⟩
  | reset
  | resetEventType eventType =>
    cases hn
    rw [everyEntry_append_singleton, everyEntry_append_singleton]
    exact ⟨fun hlog => ⟨hlog, trivial⟩, Iff.rfl⟩

end

theorem spaced_iff_forward (interval : UInt64) (ops : List Op) (s : Throttling)
    (hrun : Run next (fun _ _ => True) ⟨⟨interval, ∅⟩, []⟩ ops s) :
    EveryEntry (Prompt interval) s.log ∧
      (EveryEntry (Spaced interval) s.log ↔ Run next Forward ⟨⟨interval, ∅⟩, []⟩ ops s) := by
  constructor
  · have hboth := hrun.invariant (fun s => Recorded interval s ∧ EveryEntry (Prompt interval) s.log)
      ⟨recorded_start interval, everyEntry_nil _⟩ fun s op s' hs _ hn =>
        ⟨hs.1.next hn, (everyEntry_next hs.1 hn).1 hs.2⟩
    exact hboth.2
  · exact hrun.iff_of_step (P := fun s => EveryEntry (Spaced interval) s.log)
      (recorded_start interval) (everyEntry_nil _) fun s op s' hs hn =>
        ⟨hs.next hn, (everyEntry_next hs hn).2⟩

theorem spaced_iff_forward_two : ∃ s, Run next (fun _ _ => True) ⟨⟨100, ∅⟩, []⟩
    [.shouldSend "temperature" 1000, .shouldSend "temperature" 1100] s ∧
      EveryEntry (Prompt 100) s.log ∧ (EveryEntry (Spaced 100) s.log ↔
        Run next Forward ⟨⟨100, ∅⟩, []⟩
          [.shouldSend "temperature" 1000, .shouldSend "temperature" 1100] s) := by
  have hexec : exec next (fun _ _ => true) ⟨⟨100, ∅⟩, []⟩
      [.shouldSend "temperature" 1000, .shouldSend "temperature" 1100] = some _ := rfl
  have hrun := Run.of_exec (G := fun _ _ => True) (fun _ _ _ => trivial) hexec
  exact ⟨_, hrun, spaced_iff_forward 100 _ _ hrun⟩

/-- The clock goes back by one millisecond between two accepted events. -/
theorem not_spaced : ¬ ∀ (interval : UInt64) (ops : List Op) (s : Throttling),
    Run next (fun _ _ => True) ⟨⟨interval, ∅⟩, []⟩ ops s →
      EveryEntry (Spaced interval) s.log ∧ EveryEntry (Prompt interval) s.log := by
  intro hall
  have hrun : (exec next (fun _ _ => true) ⟨⟨100, ∅⟩, []⟩
      [.shouldSend "temperature" 1000, .shouldSend "temperature" 999]).map (·.log) =
      some [.shouldSend "temperature" 1000 true, .shouldSend "temperature" 999 true] := by
    decide +kernel
  obtain ⟨s, hs, hlog⟩ := Option.map_eq_some_iff.mp hrun
  obtain ⟨hspac, -⟩ := hall 100 _ s (Run.of_exec (fun _ _ _ => trivial) hs)
  rw [hlog] at hspac
  have hlong := hspac [.shouldSend "temperature" 1000 true] _ [] rfl rfl 1000 ⟨[], [], rfl, by simp⟩
  exact absurd hlong (by decide)

end Throttling
end Mxrc.Event
