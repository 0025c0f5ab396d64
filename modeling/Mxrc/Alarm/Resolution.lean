import Mxrc.Alarm.AlarmManager

/-!
# Resolving alarms

`resolveAlarm` and `resetAllAlarms` act on alarms in state ACTIVE, so neither of
them ends an acknowledged alarm. Everything unresolved can be resolved as long
as no acknowledgement has met an active alarm.
-/

namespace Mxrc.Alarm
open Mxrc.Lib

lemma AlarmDto.state_resolve (a : AlarmDto) (now : ℤ) : (a.resolve now).state = .resolved := by
  rw [resolve]
  split_ifs with h
  · rfl
  · exact not_not.mp h

lemma AlarmDto.isActive_iff (a : AlarmDto) : a.isActive = true ↔ a.state = .active := by
  rw [isActive, decide_eq_true_eq]

namespace AlarmManager

/-- Each unresolved alarm can be resolved by its id, and a reset resolves them all. -/
structure Resolvable (s : AlarmManager) : Prop where
  resolveAlarm : ∀ id a now, s.alarms.lookup id = some a → a.state ≠ .resolved →
    (s.resolveAlarm id now).1 = true ∧
      ∃ a', (s.resolveAlarm id now).2.alarms.lookup id = some a' ∧ a'.state = .resolved
  resetAllAlarms : ∀ now id a, (s.resetAllAlarms now).2.alarms.lookup id = some a →
    a.state = .resolved

def NoneAcknowledged (s : AlarmManager) : Prop :=
  ∀ id a, s.alarms.lookup id = some a → a.state ≠ .acknowledged

def AcknowledgesNothing (s : AlarmManager) : Label → Prop
  | .acknowledgeAlarm id _ _ => ∀ a, s.alarms.lookup id = some a → a.state ≠ .active
  | _ => True

section
variable {config : AlarmConfiguration} {s : AlarmManager}

lemma resolveAlarm_of_active {id : String} {a : AlarmDto} (ha : s.alarms.lookup id = some a)
    (hactv : a.state = .active) (now : ℤ) :
    (s.resolveAlarm id now).1 = true ∧
      (s.resolveAlarm id now).2.alarms = s.alarms.insert id (a.resolve now) := by
  have hisActive : a.isActive = true := a.isActive_iff.mpr hactv
  simp only [AlarmManager.resolveAlarm, ha, hisActive, if_true]
  exact ⟨trivial, rfl⟩

lemma resolveAlarm_of_not_active {id : String}
    (h : ∀ a, s.alarms.lookup id = some a → a.state ≠ .active) (now : ℤ) :
    s.resolveAlarm id now = (false, s) := by
  rw [AlarmManager.resolveAlarm]
  cases ha : s.alarms.lookup id with
  | none => rfl
  | some a =>
    have hnot : ¬ a.isActive = true := fun hactv => h a ha (a.isActive_iff.mp hactv)
    simp only [hnot]
    rfl

lemma lookup_resetAllAlarms (now : String → ℤ) (id : String) :
    (s.resetAllAlarms now).2.alarms.lookup id =
      (s.alarms.lookup id).map fun a => if a.isActive then a.resolve (now id) else a :=
  lookup_mapValues _ _ _

lemma lookup_acknowledgeAlarm (id acknowledgedBy : String) (now : ℤ) (id' : String) :
    (s.acknowledgeAlarm id acknowledgedBy now).2.alarms.lookup id' = if id' = id then
      (s.alarms.lookup id).map (·.acknowledge acknowledgedBy now) else s.alarms.lookup id' :=
  lookup_modify _ _ _ _

lemma alarms_raiseAlarm (config : AlarmConfiguration) (s : AlarmManager) (code source : String)
    (details : Option String) (now created : ℤ) :
    (s.raiseAlarm config code source details now created).2.alarms = s.alarms ∨
      ∃ id alarm, alarm.state = .active ∧
        (s.raiseAlarm config code source details now created).2.alarms =
          s.alarms.insert id alarm := by
  cases hcode : config.lookup code with
  | none => exact .inl (by rw [raiseAlarm, hcode])
  | some c =>
    rw [raiseAlarm, hcode]
    exact .inr ⟨_, _, rfl, rfl⟩

lemma NoneAcknowledged.insert (h : NoneAcknowledged s) {s' : AlarmManager} {id : String}
    {alarm : AlarmDto} (hlrm : alarm.state ≠ .acknowledged)
    (halar : s'.alarms = s.alarms.insert id alarm) : NoneAcknowledged s' := by
  intro id' a ha
  rw [halar] at ha
  rcases lookup_insert_cases ha with ⟨rfl, rfl⟩ | ⟨-, ha⟩
  · exact hlrm
  · exact h id' a ha

lemma resolvable_iff_noneAcknowledged : Resolvable s ↔ NoneAcknowledged s := by
  constructor
  · intro h id a ha hsta
    have hres := (h.resolveAlarm id a 0 ha (by simp [hsta])).1
    rw [resolveAlarm_of_not_active (fun a' ha' => by simp_all)] at hres
    cases hres
  · intro h
    have hactv : ∀ id a, s.alarms.lookup id = some a → a.state ≠ .resolved →
        a.state = .active := by
      intro id a ha hnot
      have hack := h id a ha
      cases hsta : a.state <;> simp_all
    constructor
    · intro id a now ha hnot
      obtain ⟨htrue, halar⟩ := resolveAlarm_of_active ha (hactv id a ha hnot) now
      refine ⟨htrue, a.resolve now, ?_, a.state_resolve now⟩
      rw [halar, AList.lookup_insert]
    · intro now id a ha
      rw [lookup_resetAllAlarms] at ha
      obtain ⟨a₀, ha₀, rfl⟩ := Option.map_eq_some_iff.mp ha
      split_ifs with hisActive
      · exact a₀.state_resolve _
      · by_contra hnot
        exact hisActive (a₀.isActive_iff.mpr (hactv id a₀ ha₀ hnot))

lemma noneAcknowledged_acknowledgeAlarm_iff (h : NoneAcknowledged s)
    (id acknowledgedBy : String) (now : ℤ) :
    NoneAcknowledged (s.acknowledgeAlarm id acknowledgedBy now).2 ↔
      AcknowledgesNothing s (.acknowledgeAlarm id acknowledgedBy now) := by
  constructor
  · intro h' a ha hactv
    refine h' id (a.acknowledge acknowledgedBy now) ?_ ?_
    · rw [lookup_acknowledgeAlarm, if_pos rfl, ha]
      rfl
    · rw [AlarmDto.acknowledge, if_pos hactv]
  · intro hnoth id' a ha
    rw [lookup_acknowledgeAlarm] at ha
    split_ifs at ha with hid
    · obtain ⟨a₀, ha₀, rfl⟩ := Option.map_eq_some_iff.mp ha
      rw [AlarmDto.acknowledge, if_neg (hnoth a₀ ha₀)]
      exact h id a₀ ha₀
    · exact h id' a ha

lemma noneAcknowledged_after_iff (h : NoneAcknowledged s) (l : Label) :
    NoneAcknowledged (s.after config l) ↔ AcknowledgesNothing s l := by
  cases l with
  | raiseAlarm code source details now created =>
    refine iff_of_true ?_ trivial
    obtain hsame | ⟨id, alarm, hsta, halar⟩ :=
      alarms_raiseAlarm config s code source details now created
    · intro id a ha
      exact h id a (hsame ▸ ha)
    · exact h.insert (by simp [hsta]) halar
  | acknowledgeAlarm id acknowledgedBy now =>
    exact noneAcknowledged_acknowledgeAlarm_iff h id acknowledgedBy now
  | resolveAlarm id now =>
    refine iff_of_true ?_ trivial
    by_cases hactv : ∃ a, s.alarms.lookup id = some a ∧ a.state = .active
    · obtain ⟨a, ha, hsta⟩ := hactv
      exact h.insert (by simp [a.state_resolve]) (resolveAlarm_of_active ha hsta now).2
    · have hsame := resolveAlarm_of_not_active (fun a ha hsta => hactv ⟨a, ha, hsta⟩) now
      change NoneAcknowledged (s.resolveAlarm id now).2
      rwa [hsame]
  | resetAllAlarms now =>
    refine iff_of_true ?_ trivial
    intro id a ha
    change (s.resetAllAlarms now).2.alarms.lookup id = some a at ha
    rw [lookup_resetAllAlarms] at ha
    obtain ⟨a₀, ha₀, rfl⟩ := Option.map_eq_some_iff.mp ha
    split_ifs
    · simp [a₀.state_resolve]
    · exact h id a₀ ha₀

end

theorem resolvable_throughout_iff (config : AlarmConfiguration) (ls : List Label) :
    Throughout (next config) Resolvable init ls ↔
      ∃ s, Run (next config) AcknowledgesNothing init ls s := by
  have hinit : Resolvable init := resolvable_iff_noneAcknowledged.mpr fun id a ha => by cases ha
  have hstep : ∀ s l s', Resolvable s → next config s l = some s' →
      (Resolvable s' ↔ AcknowledgesNothing s l) := by
    intro s l s' hs hn
    cases hn
    rw [resolvable_iff_noneAcknowledged] at hs ⊢
    exact noneAcknowledged_after_iff hs l
  obtain ⟨s, hs⟩ := exists_run config ls
  constructor
  · intro h
    exact ⟨s, (hs.throughout_iff hinit hstep).mp h⟩
  · rintro ⟨s', hs'⟩
    exact ((hs'.weaken fun _ _ _ => trivial).throughout_iff hinit hstep).mpr hs'

/-- An acknowledged alarm stays unresolved. -/
theorem not_resolvable_throughout :
    ¬ ∀ config ls, Throughout (next config) Resolvable init ls := by
  intro h
  let config : AlarmConfiguration := AList.singleton "E1" ⟨"estop", .critical, 60, 3⟩
  let ls : List Label :=
    [.raiseAlarm "E1" "robot" none 5000000 5000000, .acknowledgeAlarm "E1_5" "operator" 6000000]
  have hfin : ∃ s a, exec (next config) (fun _ _ => true) init ls = some s ∧
      s.alarms.lookup "E1_5" = some a ∧ a.state = .acknowledged := ⟨_, _, rfl, rfl, rfl⟩
  obtain ⟨s, a, hs, ha, hsta⟩ := hfin
  have hresol := h config ls ls s List.prefix_rfl (Run.of_exec (by simp) hs)
  exact resolvable_iff_noneAcknowledged.mp hresol "E1_5" a ha hsta

end AlarmManager
end Mxrc.Alarm
