import Mxrc.Alarm.AlarmManager

/-!
# Announcing an escalation

`raiseAlarm` announces an escalation when the given severity is greater than the
configured one as a number. The enumeration begins with CRITICAL, so the test
never succeeds: an escalated alarm is announced like any other.
-/

namespace Mxrc.Alarm
open Mxrc.Lib

def AlarmSeverity.MoreSevere (a b : AlarmSeverity) : Prop := a.toNat < b.toNat

section
variable {config : AlarmConfiguration} {code : String} {c : AlarmConfig}

lemma toNat_shouldEscalateSeverity_le (hcode : config.lookup code = some c) (n : UInt32) :
    (shouldEscalateSeverity config code n).toNat ≤ c.severity.toNat := by
  simp only [shouldEscalateSeverity, hcode]
  split_ifs
  · cases c.severity <;> decide
  · exact le_rfl

lemma moreSevere_shouldEscalateSeverity_iff (hcode : config.lookup code = some c) (n : UInt32) :
    (shouldEscalateSeverity config code n).MoreSevere c.severity ↔
      c.severity ≠ .critical ∧ c.recurrenceThreshold ≤ n := by
  simp only [AlarmSeverity.MoreSevere, shouldEscalateSeverity, hcode]
  split_ifs with hn
  · cases c.severity <;> simp [AlarmSeverity.toNat, hn]
  · simp [hn]

end

namespace AlarmManager

def published (s s' : AlarmManager) : List AlarmEvent := s'.events.drop s.events.length

/-- An escalation is published, with both severities, when the alarm gets a higher one than
configured. -/
def EscalationAnnounced (config : AlarmConfiguration) (s : AlarmManager) : Label → Prop
  | .raiseAlarm code source details now created =>
    let r := s.raiseAlarm config code source details now created
    ((∃ id code' old new n, .escalated id code' old new n ∈ published s r.2) ↔
      ∃ c alarm, config.lookup code = some c ∧ r.1 = some alarm ∧
        alarm.severity.MoreSevere c.severity) ∧
    ∀ id code' old new n, .escalated id code' old new n ∈ published s r.2 →
      ∃ c alarm, config.lookup code = some c ∧ r.1 = some alarm ∧ old = c.severity ∧
        new = alarm.severity
  | _ => True

/-- The raise stays below the threshold, or its code is configured as CRITICAL. -/
def Unescalated (config : AlarmConfiguration) (s : AlarmManager) : Label → Prop
  | .raiseAlarm code _ _ now _ => ∀ c, config.lookup code = some c →
      c.severity = .critical ∨ (s.checkRecurrence c code now).1 < c.recurrenceThreshold
  | _ => True

section
variable {config : AlarmConfiguration} {s : AlarmManager}

lemma published_of_unknown {code : String} (hcode : config.lookup code = none)
    (source : String) (details : Option String) (now created : ℤ) :
    let r := s.raiseAlarm config code source details now created
    r.1 = none ∧ published s r.2 = [] := by
  rw [raiseAlarm, hcode]
  exact ⟨rfl, List.drop_length⟩

lemma published_raiseAlarm {code : String} {c : AlarmConfig} (hcode : config.lookup code = some c)
    (source : String) (details : Option String) (now created : ℤ) :
    let r := s.raiseAlarm config code source details now created
    ∃ alarm, r.1 = some alarm ∧ published s r.2 = [.raised alarm] ∧
      alarm.severity = shouldEscalateSeverity config code (s.checkRecurrence c code now).1 := by
  have hle := toNat_shouldEscalateSeverity_le hcode (s.checkRecurrence c code now).1
  have htest : decide (c.severity.toNat <
      (shouldEscalateSeverity config code (s.checkRecurrence c code now).1).toNat) = false :=
    decide_eq_false (Nat.not_lt.mpr hle)
  rw [raiseAlarm, hcode]
  refine ⟨_, rfl, ?_, rfl⟩
  simp only [htest, Bool.false_and, Bool.false_eq_true, if_false]
  exact List.drop_left

lemma escalationAnnounced_iff (l : Label) :
    EscalationAnnounced config s l ↔ Unescalated config s l := by
  cases l with
  | raiseAlarm code source details now created =>
    cases hcode : config.lookup code with
    | none =>
      obtain ⟨-, hpub⟩ := published_of_unknown (s := s) hcode source details now created
      simp [EscalationAnnounced, Unescalated, hpub, hcode]
    | some c =>
      obtain ⟨alarm, hlrm, hpub, hsev⟩ :=
        published_raiseAlarm (s := s) hcode source details now created
      have hmore := moreSevere_shouldEscalateSeverity_iff hcode (s.checkRecurrence c code now).1
      rw [← hsev] at hmore
      simp [EscalationAnnounced, Unescalated, hpub, hlrm, hcode, hmore,
        or_iff_not_imp_left, UInt32.not_le]
  | _ => exact Iff.rfl

end

theorem announced_throughout_iff (config : AlarmConfiguration) (ls : List Label) :
    EveryStep (next config) (EscalationAnnounced config) init ls ↔
      ∃ s, Run (next config) (Unescalated config) init ls s := by
  have hgrd : EscalationAnnounced config = Unescalated config := by
    funext s l
    exact propext (escalationAnnounced_iff l)
  rw [hgrd]
  obtain ⟨s, hs⟩ := exists_run config ls
  constructor
  · intro h
    exact ⟨s, hs.everyStep_iff.mp h⟩
  · rintro ⟨s', hs'⟩
    exact (hs'.weaken fun _ _ _ => trivial).everyStep_iff.mpr hs'

/-- The second raise within a minute makes the alarm CRITICAL and is published as a raise. -/
theorem not_announced_throughout :
    ¬ ∀ config ls, EveryStep (next config) (EscalationAnnounced config) init ls := by
  intro h
  let config : AlarmConfiguration := AList.singleton "W1" ⟨"battery", .warning, 60, 2⟩
  let first : Label := .raiseAlarm "W1" "robot" none 1000000000 1000000000
  let second : Label := .raiseAlarm "W1" "robot" none 2000000000 2000000000
  have hfir : ∃ s, exec (next config) (fun _ _ => true) init [first] = some s ∧
      (s.checkRecurrence ⟨"battery", .warning, 60, 2⟩ "W1" 2000000000).1 = 2 := ⟨_, rfl, rfl⟩
  obtain ⟨s, hs, hcnt⟩ := hfir
  have hrun := Run.of_exec (G := fun _ _ => True) (fun _ _ _ => trivial) hs
  have hann := h config [first, second] [first] second [] s _ rfl hrun rfl
  have hsml := (escalationAnnounced_iff _).mp hann ⟨"battery", .warning, 60, 2⟩ rfl
  rw [hcnt] at hsml
  revert hsml
  decide

end AlarmManager
end Mxrc.Alarm
