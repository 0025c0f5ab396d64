import Mxrc.Lib.Streak
import Mxrc.Alarm.AlarmManager

/-!
# Counting recurrences

`checkRecurrence` converts the time since the last raise of a code to whole
seconds, so the count is the length of a streak whose gaps are shorter than the
window and one second.
-/

namespace Mxrc.Alarm
open Mxrc.Lib List

structure Raise where
  code : String
  source : String
  details : Option String
  now : ℤ
  created : ℤ

variable (config : AlarmConfiguration)

def Raise.call (r : Raise) (s : AlarmManager) : Option AlarmDto × AlarmManager :=
  s.raiseAlarm config r.code r.source r.details r.now r.created

def afterRaises (raises : List Raise) : AlarmManager :=
  raises.foldl (fun s r => (r.call config s).2) .init

def timesOf (code : String) (raises : List Raise) : List ℤ :=
  (raises.filter (·.code = code)).map (·.now)

def WithinSeconds (window : ℤ) (last now : ℤ) : Prop := (now - last).tdiv 1000000000 ≤ window

def WithinWindow (window : ℤ) (last now : ℤ) : Prop := now - last ≤ window * 1000000000

/-- The raise gets the length of the longest run of raises of its code with gaps within the window,
and the severity of that count. -/
def RecurrenceCounted (before : List Raise) (r : Raise) : Prop :=
  ∀ c, config.lookup r.code = some c →
    ∃ alarm, (r.call config (afterRaises config before)).1 = some alarm ∧
      IsStreak (WithinWindow c.recurrenceWindow) (timesOf r.code (before ++ [r]))
        alarm.recurrenceCount.toNat ∧
      (alarm.severity.toNat + 1 = c.severity.toNat ↔
        c.recurrenceThreshold ≤ alarm.recurrenceCount ∧ c.severity ≠ .critical) ∧
      (alarm.severity.toNat + 1 ≠ c.severity.toNat → alarm.severity = c.severity)

/-- The last raise of the code is not between the window and one second more ago. -/
def OutsideLastSecond (before : List Raise) (r : Raise) : Prop :=
  ∀ c last, config.lookup r.code = some c → (timesOf r.code before).getLast? = some last →
    ¬ (c.recurrenceWindow * 1000000000 < r.now - last ∧
      r.now - last < (c.recurrenceWindow + 1) * 1000000000)

lemma withinSeconds_iff {window last now : ℤ} (h : last ≤ now) :
    WithinSeconds window last now ↔ now - last < (window + 1) * 1000000000 := by
  have hnon : 0 ≤ now - last := by omega
  rw [WithinSeconds, Int.tdiv_eq_ediv_of_nonneg hnon]
  omega

lemma within_iff_within {window last now : ℤ} (h : last ≤ now) :
    (WithinSeconds window last now ↔ WithinWindow window last now) ↔
      ¬ (window * 1000000000 < now - last ∧ now - last < (window + 1) * 1000000000) := by
  rw [withinSeconds_iff h, WithinWindow]
  omega

section
variable {config} {raises : List Raise} {r : Raise} {c : AlarmConfig} {code : String}

lemma afterRaises_append (raises : List Raise) (r : Raise) :
    afterRaises config (raises ++ [r]) = (r.call config (afterRaises config raises)).2 := by
  rw [afterRaises, foldl_append, ← afterRaises]
  rfl

lemma timesOf_append_same (raises : List Raise) (r : Raise) :
    timesOf r.code (raises ++ [r]) = timesOf r.code raises ++ [r.now] := by
  simp [timesOf]

lemma timesOf_append_other (hne : r.code ≠ code) (raises : List Raise) :
    timesOf code (raises ++ [r]) = timesOf code raises := by
  simp [timesOf, hne]

lemma call_of_unknown (h : config.lookup r.code = none) (s : AlarmManager) :
    r.call config s = (none, s) := by
  rw [Raise.call, AlarmManager.raiseAlarm, h]

lemma call_of_known (h : config.lookup r.code = some c) (s : AlarmManager) :
    let count := (s.checkRecurrence c r.code r.now).1
    (r.call config s).2.lastOccurrence = s.lastOccurrence.insert r.code r.now ∧
      (r.call config s).2.recurrenceCount = s.recurrenceCount.insert r.code count ∧
      ∃ alarm, (r.call config s).1 = some alarm ∧ alarm.recurrenceCount = count ∧
        alarm.severity = shouldEscalateSeverity config r.code count := by
  rw [Raise.call, AlarmManager.raiseAlarm, h]
  exact ⟨rfl, rfl, _, rfl, rfl, rfl⟩

structure Tallied (raises : List Raise) (s : AlarmManager) (code : String) (c : AlarmConfig) :
    Prop where
  last : s.lastOccurrence.lookup code = (timesOf code raises).getLast?
  count : timesOf code raises ≠ [] → ∃ n, s.recurrenceCount.lookup code = some n ∧
    IsStreak (WithinSeconds c.recurrenceWindow) (timesOf code raises) n.toNat

lemma length_timesOf_le (code : String) (raises : List Raise) :
    (timesOf code raises).length ≤ raises.length := by
  rw [timesOf, length_map]
  exact length_filter_le ..

lemma Tallied.checkRecurrence {s : AlarmManager} (h : Tallied raises s r.code c)
    (hfew : raises.length + 1 < 2 ^ 32) :
    IsStreak (WithinSeconds c.recurrenceWindow) (timesOf r.code (raises ++ [r]))
      (s.checkRecurrence c r.code r.now).1.toNat := by
  rw [timesOf_append_same]
  cases hlast : (timesOf r.code raises).getLast? with
  | none =>
    have hnil : timesOf r.code raises = [] := List.getLast?_eq_none_iff.mp hlast
    have hcnt : (s.checkRecurrence c r.code r.now).1 = 1 := by
      simp only [AlarmManager.checkRecurrence, h.last, hlast]
    rw [hnil, hcnt]
    exact IsStreak.singleton _ _
  | some last =>
    have hne : timesOf r.code raises ≠ [] := by
      intro hnil
      rw [hnil] at hlast
      cases hlast
    obtain ⟨n, hn, hstr⟩ := h.count hne
    by_cases hwit : WithinSeconds c.recurrenceWindow last r.now
    · have hcnt : (s.checkRecurrence c r.code r.now).1 = n + 1 := by
        simp only [AlarmManager.checkRecurrence, h.last, hlast, hn, Option.getD_some]
        exact if_pos hwit
      have hsucc : (n + 1).toNat = n.toNat + 1 := by
        have hle := hstr.le_length.trans (length_timesOf_le r.code raises)
        rw [UInt32.toNat_add, UInt32.toNat_one]
        omega
      rw [hcnt, hsucc]
      exact hstr.extend hlast hwit
    · have hcnt : (s.checkRecurrence c r.code r.now).1 = 1 := by
        simp only [AlarmManager.checkRecurrence, h.last, hlast]
        exact if_neg hwit
      rw [hcnt]
      exact IsStreak.restart hlast hwit

lemma tallied_afterRaises (raises : List Raise) (hfew : raises.length < 2 ^ 32)
    (hcode : config.lookup code = some c) :
    Tallied raises (afterRaises config raises) code c := by
  induction raises using List.reverseRecOn with
  | nil => exact ⟨rfl, fun h => absurd rfl h⟩
  | append_singleton raises r ih =>
    rw [length_append, length_singleton] at hfew
    have hbef := ih (by omega)
    rw [afterRaises_append]
    by_cases hsame : r.code = code
    · subst hsame
      obtain ⟨hlast, hcnt, -⟩ := call_of_known hcode (afterRaises config raises)
      constructor
      · rw [hlast, AList.lookup_insert, timesOf_append_same, getLast?_concat]
      · intro _
        rw [hcnt]
        exact ⟨_, AList.lookup_insert _, hbef.checkRecurrence hfew⟩
    · have hkeep : ((r.call config (afterRaises config raises)).2.lastOccurrence.lookup code =
            (afterRaises config raises).lastOccurrence.lookup code) ∧
          ((r.call config (afterRaises config raises)).2.recurrenceCount.lookup code =
            (afterRaises config raises).recurrenceCount.lookup code) := by
        cases hr : config.lookup r.code with
        | none =>
          rw [call_of_unknown hr]
          exact ⟨rfl, rfl⟩
        | some c' =>
          obtain ⟨hlast, hcnt, -⟩ := call_of_known hr (afterRaises config raises)
          rw [hlast, hcnt, AList.lookup_insert_ne (Ne.symm hsame),
            AList.lookup_insert_ne (Ne.symm hsame)]
          exact ⟨rfl, rfl⟩
      constructor
      · rw [hkeep.1, timesOf_append_other hsame]
        exact hbef.last
      · rw [hkeep.2, timesOf_append_other hsame]
        exact hbef.count

lemma last_le_now (hclock : ((raises ++ [r]).map (·.now)).Pairwise (· ≤ ·)) {last : ℤ}
    (hlast : (timesOf code raises).getLast? = some last) : last ≤ r.now := by
  have hmem : last ∈ timesOf code raises := mem_of_getLast? hlast
  obtain ⟨earlier, hear, rfl⟩ := mem_map.mp hmem
  rw [map_append, List.pairwise_append] at hclock
  have hin : earlier ∈ raises := (mem_filter.mp hear).1
  exact hclock.2.2 _ (mem_map_of_mem hin) _ (by simp)

lemma isChain_timesOf (hclock : (raises.map (·.now)).Pairwise (· ≤ ·))
    (hcode : config.lookup code = some c) (h : EveryEntry (OutsideLastSecond config) raises) :
    (timesOf code raises).IsChain fun last now =>
      WithinSeconds c.recurrenceWindow last now ↔ WithinWindow c.recurrenceWindow last now := by
  induction raises using List.reverseRecOn with
  | nil => exact .nil
  | append_singleton raises r ih =>
    obtain ⟨hear, hr⟩ := everyEntry_append_singleton.mp h
    have hsrt : (raises.map (·.now)).Pairwise (· ≤ ·) := by
      rw [map_append, List.pairwise_append] at hclock
      exact hclock.1
    have hchn := ih hsrt hear
    by_cases hsame : r.code = code
    · subst hsame
      rw [timesOf_append_same, isChain_append]
      refine ⟨hchn, .singleton _, fun last hlast now hnow => ?_⟩
      cases hnow
      rw [within_iff_within (last_le_now hclock hlast)]
      exact hr c last hcode hlast
    · rw [timesOf_append_other hsame]
      exact hchn

lemma toNat_succ_shouldEscalateSeverity_iff (hcode : config.lookup code = some c) (n : UInt32) :
    ((shouldEscalateSeverity config code n).toNat + 1 = c.severity.toNat ↔
        c.recurrenceThreshold ≤ n ∧ c.severity ≠ .critical) ∧
      ((shouldEscalateSeverity config code n).toNat + 1 ≠ c.severity.toNat →
        shouldEscalateSeverity config code n = c.severity) := by
  simp only [shouldEscalateSeverity, hcode]
  split_ifs with hn
  · cases c.severity <;> simp [AlarmSeverity.toNat, hn]
  · simp [hn]

lemma call_after (hfew : raises.length + 1 < 2 ^ 32) (hcode : config.lookup r.code = some c) :
    ∃ alarm, (r.call config (afterRaises config raises)).1 = some alarm ∧
      IsStreak (WithinSeconds c.recurrenceWindow) (timesOf r.code (raises ++ [r]))
        alarm.recurrenceCount.toNat ∧
      alarm.severity = shouldEscalateSeverity config r.code alarm.recurrenceCount := by
  obtain ⟨-, -, alarm, hlrm, hcnt, hsev⟩ :=
    call_of_known hcode (afterRaises config raises)
  have htal := tallied_afterRaises raises (by omega) hcode
  rw [← hcnt] at hsev
  exact ⟨alarm, hlrm, hcnt ▸ htal.checkRecurrence hfew, hsev⟩

lemma RecurrenceCounted.outsideLastSecond (h : RecurrenceCounted config raises r)
    (hclock : ((raises ++ [r]).map (·.now)).Pairwise (· ≤ ·))
    (hfew : raises.length + 1 < 2 ^ 32) : OutsideLastSecond config raises r := by
  intro c last hcode hlast
  obtain ⟨alarm, hlrm, hxct, -⟩ := h c hcode
  obtain ⟨_, hlrm', hsec, -⟩ := call_after hfew hcode
  rw [hlrm] at hlrm'
  cases hlrm'
  rw [← within_iff_within (last_le_now hclock hlast)]
  rw [timesOf_append_same] at hxct hsec
  have hne : timesOf r.code raises ≠ [] := by
    intro hnil
    rw [hnil] at hlast
    cases hlast
  have htal := tallied_afterRaises raises (by omega) hcode
  obtain ⟨n, -, hn⟩ := htal.count hne
  constructor
  · intro hwit
    by_contra hlate
    have hmore := (hn.extend hlast hwit).unique hsec
    have hone := (IsStreak.restart hlast hlate).unique hxct
    have hpos := hn.pos hne
    omega
  · intro hwit
    have hlt : r.now - last < (c.recurrenceWindow + 1) * 1000000000 := by
      rw [WithinWindow] at hwit
      omega
    exact (withinSeconds_iff (last_le_now hclock hlast)).mpr hlt

end

theorem recurrence_counted_iff (config : AlarmConfiguration) (raises : List Raise)
    (hclock : (raises.map (·.now)).Pairwise (· ≤ ·)) (hfew : raises.length < 2 ^ 32) :
    EveryEntry (RecurrenceCounted config) raises ↔
      EveryEntry (OutsideLastSecond config) raises := by
  have hpart : ∀ before r after, raises = before ++ r :: after →
      ((before ++ [r]).map (·.now)).Pairwise (· ≤ ·) ∧ before.length + 1 < 2 ^ 32 := by
    rintro before r after rfl
    rw [length_append, length_cons] at hfew
    refine ⟨?_, by omega⟩
    rw [append_cons, map_append, List.pairwise_append] at hclock
    exact hclock.1
  constructor
  · intro h before r after hrais
    obtain ⟨hsrt, hlt⟩ := hpart before r after hrais
    exact (h before r after hrais).outsideLastSecond hsrt hlt
  · intro h before r after hrais c hcode
    obtain ⟨hsrt, hlt⟩ := hpart before r after hrais
    have hbef : EveryEntry (OutsideLastSecond config) (before ++ [r]) := by
      intro before' r' after' hear
      refine h before' r' (after' ++ after) ?_
      rw [hrais, append_cons, hear]
      simp
    obtain ⟨alarm, hlrm, hstr, hsev⟩ := call_after hlt hcode
    obtain ⟨hesc, hkept⟩ :=
      toNat_succ_shouldEscalateSeverity_iff hcode alarm.recurrenceCount
    rw [← hsev] at hesc hkept
    have hchn := isChain_timesOf hsrt hcode hbef
    exact ⟨alarm, hlrm, (isStreak_congr hchn _).mp hstr, hesc, hkept⟩

def batteryRaise (now : ℤ) : Raise := ⟨"W1", "robot", none, now, now⟩

def batteryConfig : AlarmConfiguration := AList.singleton "W1" ⟨"battery", .warning, 60, 2⟩

theorem recurrence_counted_minute :
    EveryEntry (RecurrenceCounted batteryConfig) [batteryRaise 0, batteryRaise 60000000000] := by
  refine (recurrence_counted_iff _ _ (by decide) (by decide)).mpr ?_
  have hfir : OutsideLastSecond batteryConfig [] (batteryRaise 0) := by
    intro c last hcode hlast
    cases hlast
  have hscn : OutsideLastSecond batteryConfig [batteryRaise 0] (batteryRaise 60000000000) := by
    intro c last hcode hlast
    cases hcode
    cases hlast
    decide
  have hone := everyEntry_append_singleton.mpr ⟨everyEntry_nil _, hfir⟩
  exact everyEntry_append_singleton.mpr ⟨hone, hscn⟩

/-- The second raise comes half a second after the end of the window and is counted as a
recurrence. -/
theorem not_recurrence_counted :
    ¬ ∀ (config : AlarmConfiguration) (raises : List Raise),
      (raises.map (·.now)).Pairwise (· ≤ ·) → raises.length < 2 ^ 32 →
        EveryEntry (RecurrenceCounted config) raises := by
  intro h
  have hall := h batteryConfig [batteryRaise 0, batteryRaise 60500000000] (by decide) (by decide)
  have hlast : RecurrenceCounted batteryConfig [batteryRaise 0] (batteryRaise 60500000000) :=
    hall [batteryRaise 0] (batteryRaise 60500000000) [] rfl
  have hout := hlast.outsideLastSecond (by decide) (by decide)
  exact hout ⟨"battery", .warning, 60, 2⟩ 0 rfl rfl (by decide)

end Mxrc.Alarm
