import Mxrc.Alarm.AlarmManager

/-!
# Alarm statistics and stored alarms

The counters should describe the map: per severity, the stored alarms that are
not resolved. `resetAllAlarms` leaves acknowledged alarms, and a raise may
replace an unresolved alarm that is still counted.
-/

namespace Mxrc.Alarm
open Mxrc.Lib

def AlarmDto.isOpen (a : AlarmDto) : Bool := a.state ≠ .resolved

def openOf (severity : AlarmSeverity) (a : AlarmDto) : Bool := a.isOpen && a.severity = severity

def AlarmStats.countOf (st : AlarmStats) : AlarmSeverity → ℕ
  | .critical => st.criticalCount
  | .warning => st.warningCount
  | .info => st.infoCount

lemma AlarmStats.countOf_increment (st : AlarmStats) (severity : AlarmSeverity) :
    let st' := { st with
      totalRaised := st.totalRaised + 1
      activeCount := st.activeCount + 1 }.update severity (· + 1)
    (∀ severity', st'.countOf severity' =
        st.countOf severity' + if severity = severity' then 1 else 0) ∧
      st'.totalRaised = st.totalRaised + 1 ∧ st'.activeCount = st.activeCount + 1 ∧
      st'.resolvedCount = st.resolvedCount := by
  cases severity <;> exact ⟨fun severity' => by cases severity' <;> rfl, rfl, rfl, rfl⟩

lemma AlarmStats.countOf_decrement (st : AlarmStats) (severity : AlarmSeverity) :
    let st' := { st with
      activeCount := st.activeCount - 1
      resolvedCount := st.resolvedCount + 1 }.update severity (· - 1)
    (∀ severity', st'.countOf severity' =
        st.countOf severity' - if severity = severity' then 1 else 0) ∧
      st'.totalRaised = st.totalRaised ∧ st'.activeCount = st.activeCount - 1 ∧
      st'.resolvedCount = st.resolvedCount + 1 := by
  cases severity <;> exact ⟨fun severity' => by cases severity' <;> rfl, rfl, rfl, rfl⟩

lemma sum_add_one (f : AlarmSeverity → ℕ) (severity : AlarmSeverity) :
    ∑ severity', (f severity' + if severity = severity' then 1 else 0) =
      (∑ severity', f severity') + 1 := by
  rw [Finset.sum_add_distrib, Finset.sum_ite_eq]
  simp

lemma openOf_acknowledge (severity : AlarmSeverity) (by_ : String) (now : ℤ) (a : AlarmDto) :
    openOf severity (a.acknowledge by_ now) = openOf severity a := by
  rw [AlarmDto.acknowledge]
  split
  · rename_i hactv
    simp [openOf, AlarmDto.isOpen, hactv]
  · rfl

lemma isOpen_resolve (now : ℤ) (a : AlarmDto) : (a.resolve now).isOpen = false := by
  rw [AlarmDto.resolve]
  split <;> simp_all [AlarmDto.isOpen]

lemma openOf_resolve (severity : AlarmSeverity) (now : ℤ) (a : AlarmDto) :
    openOf severity (a.resolve now) = false := by
  simp [openOf, isOpen_resolve]

namespace AlarmManager

structure Agree (s : AlarmManager) : Prop where
  counts : ∀ severity, s.stats.countOf severity = count (openOf severity) s.alarms
  active : s.stats.activeCount = ∑ severity, s.stats.countOf severity
  total : s.stats.totalRaised = s.stats.activeCount + s.stats.resolvedCount
  critical : s.hasCriticalAlarm = true ↔
    ∃ id a, s.alarms.lookup id = some a ∧ a.severity = .critical ∧ a.state ≠ .resolved

variable {s : AlarmManager}

lemma hasCriticalAlarm_iff (h : s.stats.countOf .critical = count (openOf .critical) s.alarms) :
    s.hasCriticalAlarm = true ↔
      ∃ id a, s.alarms.lookup id = some a ∧ a.severity = .critical ∧ a.state ≠ .resolved := by
  have hpos := count_pos_iff (openOf .critical) s.alarms
  rw [← h] at hpos
  simpa [hasCriticalAlarm, AlarmStats.countOf, openOf, AlarmDto.isOpen, and_comm] using hpos

lemma Agree.activeCount_eq (h : Agree s) :
    s.stats.activeCount = count AlarmDto.isOpen s.alarms := by
  rw [h.active, count_eq_sum_fiber AlarmDto.isOpen AlarmDto.severity s.alarms]
  exact Finset.sum_congr rfl fun severity _ => h.counts severity

section
variable {config : AlarmConfiguration} {s : AlarmManager}

lemma raiseAlarm_of_unknown {code : String} (hcode : config.lookup code = none)
    (source : String) (details : Option String) (now created : ℤ) :
    (s.raiseAlarm config code source details now created).2 = s := by
  simp [raiseAlarm, hcode]

lemma raiseAlarm_spec {code : String} {c : AlarmConfig} (hcode : config.lookup code = some c)
    (source : String) (details : Option String) (now created : ℤ) :
    let s' := (s.raiseAlarm config code source details now created).2
    ∃ alarm : AlarmDto, alarm.state = .active ∧
      s'.alarms = s.alarms.insert (AlarmDto.idFor code created) alarm ∧
      (∀ severity, s'.stats.countOf severity =
        s.stats.countOf severity + if alarm.severity = severity then 1 else 0) ∧
      s'.stats.totalRaised = s.stats.totalRaised + 1 ∧
      s'.stats.activeCount = s.stats.activeCount + 1 ∧
      s'.stats.resolvedCount = s.stats.resolvedCount := by
  rw [raiseAlarm, hcode]
  exact ⟨_, rfl, rfl, AlarmStats.countOf_increment s.stats _⟩

lemma resolveAlarm_spec {id : String} {a : AlarmDto} (ha : s.alarms.lookup id = some a)
    (hactv : a.isActive = true) (now : ℤ) :
    let s' := (s.resolveAlarm id now).2
    s'.alarms = s.alarms.insert id (a.resolve now) ∧
      (∀ severity, s'.stats.countOf severity =
        s.stats.countOf severity - if a.severity = severity then 1 else 0) ∧
      s'.stats.totalRaised = s.stats.totalRaised ∧
      s'.stats.activeCount = s.stats.activeCount - 1 ∧
      s'.stats.resolvedCount = s.stats.resolvedCount + 1 := by
  rw [resolveAlarm, ha]
  simp only [hactv, if_true]
  exact ⟨rfl, AlarmStats.countOf_decrement s.stats a.severity⟩

lemma resolveAlarm_cases (s : AlarmManager) (id : String) (now : ℤ) :
    (s.resolveAlarm id now).2 = s ∨
      ∃ a, s.alarms.lookup id = some a ∧ a.isActive = true := by
  cases ha : s.alarms.lookup id with
  | none => exact Or.inl (by simp [resolveAlarm, ha])
  | some a =>
    cases hactv : a.isActive with
    | false => exact Or.inl (by simp [resolveAlarm, ha, hactv])
    | true => exact Or.inr ⟨a, rfl, hactv⟩

/-- The alarm that an accepted raise overwrites must be resolved, and a reset must find
no acknowledged alarm. -/
def Faithful (config : AlarmConfiguration) (s : AlarmManager) : Label → Prop
  | .raiseAlarm code _ _ _ created =>
    (config.lookup code).isSome → ∀ a,
      s.alarms.lookup (AlarmDto.idFor code created) = some a → a.state = .resolved
  | .acknowledgeAlarm _ _ _ => True
  | .resolveAlarm _ _ => True
  | .resetAllAlarms _ => ∀ id a, s.alarms.lookup id = some a → a.state ≠ .acknowledged

lemma agree_raiseAlarm_iff (h : Agree s) (code source : String) (details : Option String)
    (now created : ℤ) :
    Agree (s.raiseAlarm config code source details now created).2 ↔
      Faithful config s (.raiseAlarm code source details now created) := by
  cases hcode : config.lookup code with
  | none => simp [raiseAlarm_of_unknown hcode, h, Faithful, hcode]
  | some c =>
    obtain ⟨alarm, hsta, halar, hcountOf, htot, hactv, hres⟩ :=
      raiseAlarm_spec (s := s) hcode source details now created
    generalize (s.raiseAlarm config code source details now created).2 = s' at *
    simp only [Faithful, hcode, Option.isSome_some, forall_true_left]
    generalize AlarmDto.idFor code created = id at halar
    -- the overwritten alarm is what the counter and the map disagree on
    have hcoun : ∀ severity, count (openOf severity) s'.alarms +
        (if (s.alarms.lookup id).any (openOf severity) then 1 else 0) =
          s'.stats.countOf severity := by
      intro severity
      rw [halar, count_insert, ← h.counts, hcountOf]
      simp [openOf, AlarmDto.isOpen, hsta]
    constructor
    · intro h' a ha
      by_contra hopen
      have hlost := hcoun a.severity
      rw [h'.counts, ha] at hlost
      simp [openOf, AlarmDto.isOpen, hopen] at hlost
    · intro hover
      have hagr : ∀ severity, s'.stats.countOf severity = count (openOf severity) s'.alarms := by
        intro severity
        have hnone : (s.alarms.lookup id).any (openOf severity) = false := by
          cases ha : s.alarms.lookup id with
          | none => rfl
          | some a => simp [openOf, AlarmDto.isOpen, hover a ha]
        rw [← hcoun, hnone]
        simp
      refine ⟨hagr, ?_, ?_, hasCriticalAlarm_iff (hagr _)⟩
      · rw [hactv, h.active, ← sum_add_one _ alarm.severity]
        exact Finset.sum_congr rfl fun severity _ => (hcountOf severity).symm
      · rw [htot, hactv, hres, h.total]
        omega

lemma agree_acknowledgeAlarm (h : Agree s) (id acknowledgedBy : String) (now : ℤ) :
    Agree (s.acknowledgeAlarm id acknowledgedBy now).2 := by
  have hagr : ∀ severity, s.stats.countOf severity =
      count (openOf severity) (s.acknowledgeAlarm id acknowledgedBy now).2.alarms := by
    intro severity
    have hcnt := count_modify (openOf severity) s.alarms id (·.acknowledge acknowledgedBy now)
    have hkeep : openOf severity ∘ (·.acknowledge acknowledgedBy now) = openOf severity :=
      funext fun a => openOf_acknowledge severity acknowledgedBy now a
    rw [hkeep] at hcnt
    rw [h.counts]
    exact (Nat.add_right_cancel hcnt).symm
  exact ⟨hagr, h.active, h.total, hasCriticalAlarm_iff (hagr _)⟩

lemma agree_resolveAlarm (h : Agree s) (id : String) (now : ℤ) :
    Agree (s.resolveAlarm id now).2 := by
  rcases s.resolveAlarm_cases id now with hsame | ⟨a, ha, hisActive⟩
  · rwa [hsame]
  obtain ⟨halar, hcountOf, htot, hactv, hres⟩ := resolveAlarm_spec ha hisActive now
  generalize (s.resolveAlarm id now).2 = s' at *
  have hopen : a.isOpen = true := by
    simp_all [AlarmDto.isOpen, AlarmDto.isActive]
  have hcoun : ∀ severity, s.stats.countOf severity =
      count (openOf severity) s'.alarms + if a.severity = severity then 1 else 0 := by
    intro severity
    have hcnt := count_insert (openOf severity) s.alarms id (a.resolve now)
    rw [← halar, ha, Option.any_some, openOf_resolve, openOf, hopen, ← h.counts] at hcnt
    simpa using hcnt.symm
  have hagr : ∀ severity, s'.stats.countOf severity = count (openOf severity) s'.alarms := by
    intro severity
    rw [hcountOf, hcoun]
    omega
  have hsum : s.stats.activeCount = (∑ severity, s'.stats.countOf severity) + 1 := by
    rw [h.active, ← sum_add_one _ a.severity]
    exact Finset.sum_congr rfl fun severity _ => by rw [hcoun, hagr]
  refine ⟨hagr, ?_, ?_, hasCriticalAlarm_iff (hagr _)⟩
  · omega
  · rw [htot, hactv, hres, h.total]
    omega

lemma count_openOf_resetAllAlarms (severity : AlarmSeverity) (now : String → ℤ) :
    count (openOf severity) (s.resetAllAlarms now).2.alarms =
      count (fun a => a.state = .acknowledged && a.severity = severity) s.alarms := by
  rw [resetAllAlarms, count_mapValues, count]
  congr 1
  funext e
  cases hsta : e.2.state <;>
    simp [openOf, AlarmDto.isActive, AlarmDto.isOpen, AlarmDto.resolve, hsta]

lemma agree_resetAllAlarms_iff (h : Agree s) (now : String → ℤ) :
    Agree (s.resetAllAlarms now).2 ↔ Faithful config s (.resetAllAlarms now) := by
  have hzero : ∀ severity, (s.resetAllAlarms now).2.stats.countOf severity = 0 := by
    intro severity
    cases severity <;> rfl
  constructor
  · intro h' id a ha hsta
    have hnone := h'.counts a.severity
    rw [hzero, count_openOf_resetAllAlarms] at hnone
    simpa [hsta] using (count_eq_zero_iff _ _).mp hnone.symm id a ha
  · intro hfait
    have hagr : ∀ severity, (s.resetAllAlarms now).2.stats.countOf severity =
        count (openOf severity) (s.resetAllAlarms now).2.alarms := by
      intro severity
      rw [hzero, count_openOf_resetAllAlarms]
      refine ((count_eq_zero_iff _ _).mpr fun id a ha => ?_).symm
      simp [hfait id a ha]
    have hall : count AlarmDto.isActive s.alarms = s.stats.activeCount := by
      rw [h.activeCount_eq]
      refine count_congr fun id a ha => ?_
      have := hfait id a ha
      cases hsta : a.state <;> simp_all [AlarmDto.isActive, AlarmDto.isOpen]
    refine ⟨hagr, ?_, ?_, hasCriticalAlarm_iff (hagr _)⟩
    · simp only [hzero, Finset.sum_const_zero]
      rfl
    · have htot := h.total
      simp only [resetAllAlarms, hall]
      omega

lemma agree_after_iff (h : Agree s) (l : Label) :
    Agree (s.after config l) ↔ Faithful config s l := by
  cases l with
  | raiseAlarm code source details now created =>
    exact agree_raiseAlarm_iff h code source details now created
  | acknowledgeAlarm id acknowledgedBy now =>
    exact iff_of_true (agree_acknowledgeAlarm h id acknowledgedBy now) trivial
  | resolveAlarm id now => exact iff_of_true (agree_resolveAlarm h id now) trivial
  | resetAllAlarms now => exact agree_resetAllAlarms_iff h now

end

lemma agree_init : Agree init where
  counts severity := by cases severity <;> rfl
  active := by decide
  total := rfl
  critical := by simp [hasCriticalAlarm, init]

theorem statsAgree_iff (config : AlarmConfiguration) (ls : List Label) :
    Throughout (next config) Agree init ls ↔
      ∃ s, Run (next config) (Faithful config) init ls s := by
  have hstep : ∀ s l s', Agree s → next config s l = some s' →
    (Agree s' ↔ Faithful config s l) := by
    intro s l s' hs hn
    cases hn
    exact agree_after_iff hs l
  obtain ⟨s, hs⟩ := exists_run config ls
  constructor
  · intro h
    exact ⟨s, (hs.throughout_iff agree_init hstep).mp h⟩
  · intro hfait
    obtain ⟨s', hs'⟩ := hfait
    have heq := (hs'.weaken fun _ _ _ => trivial).deterministic hs
    exact (hs.throughout_iff agree_init hstep).mpr (heq ▸ hs')

/-- A critical alarm is acknowledged and everything is reset: it is still there, but
`hasCriticalAlarm` is false. -/
theorem not_statsAgree : ¬ ∀ config ls, Throughout (next config) Agree init ls := by
  intro h
  let config : AlarmConfiguration :=
    AList.singleton "E1" ⟨"estop", .critical, 60, 3⟩
  let ls : List Label :=
    [.raiseAlarm "E1" "robot" none 5000000 5000000,
      .acknowledgeAlarm "E1_5" "operator" 6000000, .resetAllAlarms fun _ => 7000000]
  have hfin : ∃ s, exec (next config) (fun _ _ => true) init ls = some s ∧
      s.stats.countOf .critical = 0 ∧ count (openOf .critical) s.alarms = 1 :=
    ⟨_, rfl, rfl, by decide⟩
  obtain ⟨s, hs, hcntr, hsto⟩ := hfin
  have hagr := h config ls ls s List.prefix_rfl (Run.of_exec (by simp) hs)
  rw [hagr.counts, hsto] at hcntr
  exact absurd hcntr (by decide)

section
variable {config : AlarmConfiguration} {s s' : AlarmManager} {l : Label}

def activeOf (severity : AlarmSeverity) (a : AlarmDto) : Bool := a.isActive && a.severity = severity

structure Bounded (s : AlarmManager) : Prop where
  counts : ∀ severity, count (activeOf severity) s.alarms ≤ s.stats.countOf severity
  active : s.stats.activeCount = ∑ severity, s.stats.countOf severity

lemma Bounded.countOf_pos (h : Bounded s) {id : String} {a : AlarmDto}
    (ha : s.alarms.lookup id = some a) (hactv : a.isActive = true) :
    0 < s.stats.countOf a.severity :=
  ((count_pos_iff _ _).mpr ⟨id, a, ha, by simp [activeOf, hactv]⟩).trans_le (h.counts _)

lemma bounded_raiseAlarm (h : Bounded s) (code source : String) (details : Option String)
    (now created : ℤ) : Bounded (s.raiseAlarm config code source details now created).2 := by
  cases hcode : config.lookup code with
  | none => rwa [raiseAlarm_of_unknown hcode]
  | some c =>
    obtain ⟨alarm, hsta, halar, hcountOf, -, hactv, -⟩ :=
      raiseAlarm_spec (s := s) hcode source details now created
    generalize (s.raiseAlarm config code source details now created).2 = s' at *
    constructor
    · intro severity
      have hcnt := count_insert (activeOf severity) s.alarms (AlarmDto.idFor code created) alarm
      have hle := h.counts severity
      rw [halar, hcountOf]
      simp only [activeOf, AlarmDto.isActive, hsta, decide_true, Bool.true_and,
        decide_eq_true_eq] at hcnt hle ⊢
      omega
    · rw [hactv, h.active, ← sum_add_one _ alarm.severity]
      exact Finset.sum_congr rfl fun severity _ => (hcountOf severity).symm

lemma bounded_acknowledgeAlarm (h : Bounded s) (id acknowledgedBy : String) (now : ℤ) :
    Bounded (s.acknowledgeAlarm id acknowledgedBy now).2 := by
  refine ⟨fun severity => le_trans ?_ (h.counts severity), h.active⟩
  have hcnt := count_modify (activeOf severity) s.alarms id (·.acknowledge acknowledgedBy now)
  have hnone : (activeOf severity ∘ fun a : AlarmDto => a.acknowledge acknowledgedBy now) =
      fun _ => false := by
    funext a
    by_cases hsta : a.state = .active <;>
      simp [activeOf, AlarmDto.acknowledge, AlarmDto.isActive, hsta]
  have hany : (s.alarms.lookup id).any (fun _ => false) = false := by
    cases s.alarms.lookup id <;> rfl
  rw [hnone, hany] at hcnt
  change count _ (modify _ _ _) ≤ _
  simp only [Bool.false_eq_true, if_false] at hcnt
  omega

lemma bounded_resolveAlarm (h : Bounded s) (id : String) (now : ℤ) :
    Bounded (s.resolveAlarm id now).2 := by
  rcases s.resolveAlarm_cases id now with hsame | ⟨a, ha, hisActive⟩
  · rwa [hsame]
  have hpos := h.countOf_pos ha hisActive
  obtain ⟨halar, hcountOf, -, hactv, -⟩ := resolveAlarm_spec ha hisActive now
  generalize (s.resolveAlarm id now).2 = s' at *
  have hback : ∀ severity, s.stats.countOf severity =
      s'.stats.countOf severity + if a.severity = severity then 1 else 0 := by
    intro severity
    rw [hcountOf]
    by_cases hsev : a.severity = severity
    · subst hsev
      simp only [if_true]
      omega
    · simp [hsev]
  constructor
  · intro severity
    have hcnt := count_insert (activeOf severity) s.alarms id (a.resolve now)
    have hres : activeOf severity (a.resolve now) = false := by
      by_cases hsta : a.state = .resolved <;>
        simp [activeOf, AlarmDto.isActive, AlarmDto.resolve, hsta]
    have hle := h.counts severity
    rw [← halar, ha, Option.any_some, hres, activeOf, hisActive] at hcnt
    rw [hback] at hle
    simp only [Bool.true_and, decide_eq_true_eq, Bool.false_eq_true, if_false] at hcnt
    omega
  · have hsum : s.stats.activeCount = (∑ severity, s'.stats.countOf severity) + 1 := by
      rw [h.active, ← sum_add_one _ a.severity]
      exact Finset.sum_congr rfl fun severity _ => hback severity
    omega

lemma bounded_resetAllAlarms (now : String → ℤ) : Bounded (s.resetAllAlarms now).2 := by
  constructor
  · intro severity
    rw [resetAllAlarms, count_mapValues]
    refine (List.countP_eq_zero.mpr fun e _ => ?_).trans_le (Nat.zero_le _)
    cases hsta : e.2.state <;> simp [activeOf, AlarmDto.isActive, AlarmDto.resolve, hsta]
  · have hzero : ∀ severity, (s.resetAllAlarms now).2.stats.countOf severity = 0 := by
      intro severity
      cases severity <;> rfl
    simp only [hzero, Finset.sum_const_zero]
    rfl

variable {G : AlarmManager → Label → Prop} {ls : List Label}

lemma bounded_of_run (h : Run (next config) G init ls s) : Bounded s := by
  refine h.invariant Bounded ⟨fun severity => by cases severity <;> decide, by decide⟩ ?_
  intro s l s' hs _ hn
  cases hn
  cases l with
  | raiseAlarm code source details now created =>
    exact bounded_raiseAlarm hs code source details now created
  | acknowledgeAlarm id acknowledgedBy now =>
    exact bounded_acknowledgeAlarm hs id acknowledgedBy now
  | resolveAlarm id now => exact bounded_resolveAlarm hs id now
  | resetAllAlarms now => exact bounded_resetAllAlarms now

/-- The counters that `resolveAlarm` decrements are positive, so no unsigned subtraction wraps
around. -/
theorem resolveAlarm_counters_pos (h : Run (next config) G init ls s) {id : String} {a : AlarmDto}
    (ha : s.alarms.lookup id = some a) (hactv : a.isActive = true) :
    0 < s.stats.countOf a.severity ∧ 0 < s.stats.activeCount := by
  have hb := bounded_of_run h
  have hpos := hb.countOf_pos ha hactv
  refine ⟨hpos, hpos.trans_le ?_⟩
  rw [hb.active]
  exact Finset.single_le_sum (fun _ _ => Nat.zero_le _) (Finset.mem_univ a.severity)

theorem resolveAlarm_counters_pos_raised : ∃ (s : AlarmManager) (a : AlarmDto),
    s.alarms.lookup "E1_5" = some a ∧ 0 < s.stats.countOf a.severity ∧ 0 < s.stats.activeCount := by
  obtain ⟨s, a, hs, ha, hactv⟩ : ∃ s a,
      exec (next (AList.singleton "E1" ⟨"estop", .critical, 60, 3⟩)) (fun _ _ => true) init
        [.raiseAlarm "E1" "robot" none 5000000 5000000] = some s ∧
      s.alarms.lookup "E1_5" = some a ∧ a.isActive = true := ⟨_, _, rfl, rfl, rfl⟩
  exact ⟨s, a, ha, resolveAlarm_counters_pos (Run.of_exec (fun _ _ _ => trivial) hs) ha hactv⟩

end
end AlarmManager
end Mxrc.Alarm
