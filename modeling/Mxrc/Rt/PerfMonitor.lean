import Mxrc.Lib.Runs

/-!
# The performance monitor

Indexing a vector, taking a remainder and locking `stats_mutex_` are checked
operations, so that undefined behaviour is a `PerfFault`. A latency is a whole
count of microseconds, averages are rational, the jitter is given by its square,
and counters are natural numbers.
-/

namespace Mxrc.Rt
open Mxrc.Lib List

inductive PerfFault
  | outOfBounds
  | divisionByZero
  | relock
deriving DecidableEq

namespace PerfFault
variable {α : Type*}

def store (v : List α) (i : ℕ) (a : α) : Except PerfFault (List α) :=
  if i < v.length then .ok (v.set i a) else .error .outOfBounds

def load (v : List α) (i : ℕ) : Except PerfFault α :=
  if h : i < v.length then .ok v[i] else .error .outOfBounds

def remainder (a b : ℕ) : Except PerfFault ℕ :=
  if b = 0 then .error .divisionByZero else .ok (a % b)

def lock (held : Bool) : Except PerfFault Unit :=
  if held then .error .relock else .ok ()

variable {v : List α} {i b : ℕ}

lemma store_of_lt (h : i < v.length) (a : α) : store v i a = .ok (v.set i a) := if_pos h

lemma store_of_le (h : v.length ≤ i) (a : α) : store v i a = .error .outOfBounds :=
  if_neg (not_lt.mpr h)

lemma load_of_lt (h : i < v.length) : load v i = .ok v[i] := dif_pos h

lemma load_of_le (h : v.length ≤ i) : load v i = .error .outOfBounds := dif_neg (not_lt.mpr h)

lemma remainder_of_pos (h : 0 < b) (a : ℕ) : remainder a b = .ok (a % b) :=
  if_neg (Nat.pos_iff_ne_zero.mp h)

end PerfFault

structure PerfMonitorConfig where
  deadlineUs : ℕ := 1000
  enableHistogram : Bool := true
  histogramBuckets : ℕ := 100
  sampleBufferSize : ℕ := 10000
  enableTracing : Bool := false
deriving DecidableEq

structure PerfStats where
  minLatency : Option ℤ := some 0
  maxLatency : ℤ := 0
  avgLatency : ℚ := 0
  p50Latency : ℤ := 0
  p95Latency : ℤ := 0
  p99Latency : ℤ := 0
  jitterSquared : ℚ := 0
  maxJitter : ℚ := 0
  totalCycles : ℕ := 0
  deadlineMisses : ℕ := 0
  deadlineMissRate : ℚ := 0
  totalExecutionTimeUs : ℕ := 0
  avgExecutionTimeUs : ℚ := 0

/-- Here `none` is the largest double, with which `min_latency_` starts. -/
structure PerfMonitor where
  config : PerfMonitorConfig := {}
  cycleStart : ℤ := 0
  latencySamples : List ℤ := []
  sampleIndex : ℕ := 0
  totalCycles : ℕ := 0
  deadlineMisses : ℕ := 0
  totalExecutionTimeUs : ℕ := 0
  minLatency : Option ℤ := none
  maxLatency : ℤ := 0
  sumLatency : ℤ := 0
  sumSquaredLatency : ℤ := 0
  lastMissedDeadline : Bool := false
  histogram : List ℕ := []

/-- `std::vector::resize`: what does not fit is cut off, new entries are `0`. -/
def resize {α : Type*} [Zero α] (v : List α) (n : ℕ) : List α :=
  v.take n ++ List.replicate (n - v.length) 0

@[simp] lemma length_resize {α : Type*} [Zero α] (v : List α) (n : ℕ) :
    (resize v n).length = n := by
  rw [resize, length_append, length_take, length_replicate]
  omega

lemma resize_nil {α : Type*} [Zero α] (n : ℕ) : resize ([] : List α) n = List.replicate n 0 := by
  rw [resize, take_nil, nil_append, length_nil, Nat.sub_zero]

namespace PerfMonitor
open PerfFault

def configure (m : PerfMonitor) (config : PerfMonitorConfig) : PerfMonitor :=
  { m with
    config
    latencySamples := resize m.latencySamples config.sampleBufferSize
    sampleIndex := 0
    histogram :=
      if config.enableHistogram then resize m.histogram config.histogramBuckets else m.histogram }

def reset (m : PerfMonitor) : PerfMonitor :=
  { config := m.config
    cycleStart := m.cycleStart
    latencySamples := m.latencySamples.map fun _ => 0
    histogram := if m.config.enableHistogram then m.histogram.map fun _ => 0 else m.histogram }

def startCycle (m : PerfMonitor) (now : ℤ) : PerfMonitor := { m with cycleStart := now }

def recordSample (m : PerfMonitor) (latency : ℤ) : Except PerfFault PerfMonitor := do
  let samples ← store m.latencySamples m.sampleIndex latency
  let index ← remainder (m.sampleIndex + 1) samples.length
  return { m with
    minLatency := match m.minLatency with
      | none => some latency
      | some least => if latency < least then some latency else some least
    maxLatency := if m.maxLatency < latency then latency else m.maxLatency
    sumLatency := m.sumLatency + latency
    sumSquaredLatency := m.sumSquaredLatency + latency * latency
    latencySamples := samples
    sampleIndex := index }

def bucket (bucketOf : PerfMonitorConfig → ℤ → ℕ) (m : PerfMonitor) (latency : ℤ) : ℕ :=
  let quotient := bucketOf m.config latency
  if m.histogram.length ≤ quotient then m.histogram.length - 1 else quotient

def updateHistogram (bucketOf : PerfMonitorConfig → ℤ → ℕ) (m : PerfMonitor) (latency : ℤ) :
    Except PerfFault PerfMonitor := do
  let count ← load m.histogram (m.bucket bucketOf latency)
  let histogram ← store m.histogram (m.bucket bucketOf latency) (count + 1)
  return { m with histogram }

def window (m : PerfMonitor) : List ℤ :=
  m.latencySamples.take (min m.totalCycles m.latencySamples.length)

def calculatePercentile (m : PerfMonitor) (percentile : ℚ) : Except PerfFault ℤ :=
  if m.totalCycles = 0 then .ok 0
  else
    let sorted := m.window.insertionSort (· ≤ ·)
    load sorted ⌊percentile * ((sorted.length - 1 : ℕ) : ℚ)⌋₊

def jitterSquared (m : PerfMonitor) : ℚ :=
  if m.totalCycles ≤ 1 then 0
  else
    let mean : ℚ := m.sumLatency / m.totalCycles
    let meanSquared : ℚ := m.sumSquaredLatency / m.totalCycles
    max 0 (meanSquared - mean * mean)

def getStats (m : PerfMonitor) (held : Bool) : Except PerfFault PerfStats := do
  lock held
  if m.totalCycles = 0 then return {}
  let p50Latency ← m.calculatePercentile (50 / 100)
  let p95Latency ← m.calculatePercentile (95 / 100)
  let p99Latency ← m.calculatePercentile (99 / 100)
  return {
    minLatency := m.minLatency
    maxLatency := m.maxLatency
    avgLatency := m.sumLatency / m.totalCycles
    p50Latency, p95Latency, p99Latency
    jitterSquared := m.jitterSquared
    maxJitter := m.maxLatency - m.sumLatency / m.totalCycles
    totalCycles := m.totalCycles
    deadlineMisses := m.deadlineMisses
    deadlineMissRate := m.deadlineMisses * 100 / m.totalCycles
    totalExecutionTimeUs := m.totalExecutionTimeUs
    avgExecutionTimeUs := m.totalExecutionTimeUs / m.totalCycles }

def countCycle (m : PerfMonitor) (latency : ℤ) : PerfMonitor :=
  { m with
    totalCycles := m.totalCycles + 1
    totalExecutionTimeUs := m.totalExecutionTimeUs + latency.toNat
    lastMissedDeadline := m.config.deadlineUs < latency
    deadlineMisses := m.deadlineMisses + if m.config.deadlineUs < latency then 1 else 0 }

variable (bucketOf : PerfMonitorConfig → ℤ → ℕ)

def record (m : PerfMonitor) (latency : ℤ) : Except PerfFault PerfMonitor := do
  let m ← m.recordSample latency
  let m := m.countCycle latency
  if m.config.enableHistogram then m.updateHistogram bucketOf latency else return m

def endCycle (m : PerfMonitor) (now : ℤ) : Except PerfFault PerfMonitor := do
  let latency := (now - m.cycleStart).tdiv 1000
  lock false
  let m ← m.record bucketOf latency
  if m.config.enableTracing && m.totalCycles % 10000 = 0 then
    -- `getStats` locks the mutex that `endCycle` holds.
    let _ ← m.getStats true
    return m
  else return m

inductive Call
  | configure (config : PerfMonitorConfig)
  | reset
  | startCycle (now : ℤ)
  | endCycle (now : ℤ)
  | getStats

def call (m : PerfMonitor) : Call → Except PerfFault PerfMonitor
  | .configure config => .ok (m.configure config)
  | .reset => .ok m.reset
  | .startCycle now => .ok (m.startCycle now)
  | .endCycle now => m.endCycle bucketOf now
  | .getStats => do
    let _ ← m.getStats false
    return m

def next (m : PerfMonitor) (c : Call) : Option PerfMonitor := (m.call bucketOf c).toOption

variable {bucketOf} {m m' : PerfMonitor} {latency : ℤ}

structure Recorded (m : PerfMonitor) (latency : ℤ) (m' : PerfMonitor) : Prop where
  config : m'.config = m.config
  cycleStart : m'.cycleStart = m.cycleStart
  latencySamples : m'.latencySamples = m.latencySamples.set m.sampleIndex latency
  sampleIndex : m'.sampleIndex = (m.sampleIndex + 1) % m.latencySamples.length
  totalCycles : m'.totalCycles = m.totalCycles + 1
  minLatency : m'.minLatency = some (m.minLatency.elim latency (min · latency))
  maxLatency : m'.maxLatency = max m.maxLatency latency
  length_histogram : m'.histogram.length = m.histogram.length
  sum_histogram : m.config.enableHistogram → m'.histogram.sum = m.histogram.sum + 1

def sampled (m : PerfMonitor) (latency : ℤ) : PerfMonitor :=
  { m with
    minLatency := some (m.minLatency.elim latency (min · latency))
    maxLatency := max m.maxLatency latency
    sumLatency := m.sumLatency + latency
    sumSquaredLatency := m.sumSquaredLatency + latency * latency
    latencySamples := m.latencySamples.set m.sampleIndex latency
    sampleIndex := (m.sampleIndex + 1) % m.latencySamples.length }

lemma recordSample_eq (latency : ℤ) (hi : m.sampleIndex < m.latencySamples.length) :
    m.recordSample latency = .ok (m.sampled latency) := by
  have hmin : (match m.minLatency with
      | none => some latency
      | some least => if latency < least then some latency else some least) =
      some (m.minLatency.elim latency (min · latency)) := by
    cases m.minLatency with
    | none => rfl
    | some least =>
      simp only [Option.elim_some]
      split_ifs with hless
      · rw [min_eq_right hless.le]
      · rw [min_eq_left (not_lt.mp hless)]
  have hmax : (if m.maxLatency < latency then latency else m.maxLatency) =
      max m.maxLatency latency := by
    split_ifs with hless
    · exact (max_eq_right hless.le).symm
    · exact (max_eq_left (not_lt.mp hless)).symm
  rw [recordSample, store_of_lt hi, hmin, hmax]
  simp only [bind, Except.bind, length_set, remainder_of_pos (Nat.zero_lt_of_lt hi), pure,
    Except.pure]
  rfl

lemma sum_set_succ {v : List ℕ} {i : ℕ} (h : i < v.length) :
    (v.set i (v[i] + 1)).sum = v.sum + 1 := by
  have hpar : v.sum = (v.take i).sum + v[i] + (v.drop (i + 1)).sum := by
    rw [← sum_take_add_sum_drop v i, drop_eq_getElem_cons h, sum_cons]
    omega
  rw [set_eq_take_append_cons_drop, if_pos h, sum_append, sum_cons, hpar]
  omega

lemma updateHistogram_eq (bucketOf : PerfMonitorConfig → ℤ → ℕ) (latency : ℤ)
    (hne : m.histogram ≠ []) :
    ∃ histogram, m.updateHistogram bucketOf latency = .ok { m with histogram } ∧
      histogram.length = m.histogram.length ∧ histogram.sum = m.histogram.sum + 1 := by
  have hpos : 0 < m.histogram.length := length_pos_of_ne_nil hne
  have hbuck : m.bucket bucketOf latency < m.histogram.length := by
    rw [bucket]
    split_ifs <;> omega
  rw [updateHistogram, load_of_lt hbuck]
  simp only [bind, Except.bind, store_of_lt hbuck, pure, Except.pure]
  exact ⟨_, rfl, length_set .., sum_set_succ hbuck⟩

lemma updateHistogram_nil (h : m.histogram = []) :
    m.updateHistogram bucketOf latency = .error .outOfBounds := by
  rw [updateHistogram, load_of_le (by rw [h]; exact Nat.zero_le _)]
  rfl

lemma record_eq (bucketOf : PerfMonitorConfig → ℤ → ℕ) (latency : ℤ)
    (hi : m.sampleIndex < m.latencySamples.length)
    (hh : m.config.enableHistogram → m.histogram ≠ []) :
    ∃ m', m.record bucketOf latency = .ok m' ∧ Recorded m latency m' := by
  rw [record, recordSample_eq latency hi]
  by_cases hena : m.config.enableHistogram = true
  · obtain ⟨histogram, hupd, hlen, hsum⟩ :=
      updateHistogram_eq (m := (m.sampled latency).countCycle latency) bucketOf latency
        (hh hena)
    refine ⟨_, (if_pos hena).trans hupd, rfl, rfl, rfl, rfl, rfl, rfl, rfl, hlen, ?_⟩
    exact fun _ => hsum
  · exact ⟨_, if_neg hena, rfl, rfl, rfl, rfl, rfl, rfl, rfl, rfl, fun h => absurd h hena⟩

lemma record_of_index_le (hi : m.latencySamples.length ≤ m.sampleIndex) :
    m.record bucketOf latency = .error .outOfBounds := by
  rw [record, recordSample, store_of_le hi]
  rfl

lemma record_of_histogram_nil (hi : m.sampleIndex < m.latencySamples.length)
    (hena : m.config.enableHistogram = true) (hnil : m.histogram = []) :
    m.record bucketOf latency = .error .outOfBounds := by
  rw [record, recordSample_eq latency hi]
  exact (if_pos hena).trans (updateHistogram_nil hnil)

lemma endCycle_of_record {now : ℤ}
    (h : m.record bucketOf ((now - m.cycleStart).tdiv 1000) = .ok m') :
    m.endCycle bucketOf now =
      if m'.config.enableTracing && m'.totalCycles % 10000 = 0 then .error .relock else .ok m' := by
  simp only [endCycle, lock, h, bind, Except.bind, getStats, pure, Except.pure, reduceIte,
    Bool.false_eq_true]

lemma endCycle_of_record_error {now : ℤ} {fault : PerfFault}
    (h : m.record bucketOf ((now - m.cycleStart).tdiv 1000) = .error fault) :
    m.endCycle bucketOf now = .error fault := by
  simp only [endCycle, lock, h, bind, Except.bind, reduceIte, Bool.false_eq_true]

def Ready (m : PerfMonitor) : Prop :=
  0 < m.latencySamples.length ∧ (m.config.enableHistogram → 0 < m.histogram.length) ∧
    (m.config.enableTracing → (m.totalCycles + 1) % 10000 ≠ 0)

lemma endCycle_of_ready (bucketOf : PerfMonitorConfig → ℤ → ℕ) (hrdy : m.Ready)
    (hind : 0 < m.latencySamples.length → m.sampleIndex < m.latencySamples.length) (now : ℤ) :
    ∃ m', m.endCycle bucketOf now = .ok m' ∧
      Recorded m ((now - m.cycleStart).tdiv 1000) m' := by
  obtain ⟨hsize, hbuc, htrac⟩ := hrdy
  obtain ⟨m', hrcd, hm'⟩ := record_eq bucketOf
    ((now - m.cycleStart).tdiv 1000) (hind hsize)
    fun hena => ne_nil_of_length_pos (hbuc hena)
  refine ⟨m', ?_, hm'⟩
  rw [endCycle_of_record hrcd, hm'.config, hm'.totalCycles, if_neg]
  rw [Bool.and_eq_true, decide_eq_true_eq]
  rintro ⟨hena, hper⟩
  exact htrac hena hper

lemma endCycle_of_not_ready (hrdy : ¬ m.Ready)
    (hind : 0 < m.latencySamples.length → m.sampleIndex < m.latencySamples.length) (now : ℤ) :
    ∃ fault, m.endCycle bucketOf now = .error fault := by
  rcases Nat.eq_zero_or_pos m.latencySamples.length with hemp | hsize
  · have hle : m.latencySamples.length ≤ m.sampleIndex := hemp ▸ Nat.zero_le _
    exact ⟨_, endCycle_of_record_error (record_of_index_le hle)⟩
  by_cases hbuc : m.config.enableHistogram → 0 < m.histogram.length
  · -- Everything is recorded, and the periodic statistics lock the mutex again.
    obtain ⟨m', hrcd, hm'⟩ := record_eq bucketOf
      ((now - m.cycleStart).tdiv 1000) (hind hsize)
      fun hena => ne_nil_of_length_pos (hbuc hena)
    refine ⟨.relock, ?_⟩
    rw [endCycle_of_record hrcd, hm'.config, hm'.totalCycles, if_pos]
    rw [Bool.and_eq_true, decide_eq_true_eq]
    by_contra hper
    exact hrdy ⟨hsize, hbuc, fun hena hzero => hper ⟨hena, hzero⟩⟩
  · obtain ⟨hena, hnil⟩ := Classical.not_imp.mp hbuc
    have hnone : m.histogram = [] := eq_nil_of_length_eq_zero (by omega)
    exact ⟨_, endCycle_of_record_error (record_of_histogram_nil (hind hsize) hena hnone)⟩

lemma length_window (m : PerfMonitor) :
    m.window.length = min m.totalCycles m.latencySamples.length := by
  rw [window, length_take]
  omega

lemma rank_lt {p : ℚ} {n : ℕ} (hp : p ≤ 1) (hn : 0 < n) :
    ⌊p * ((n - 1 : ℕ) : ℚ)⌋₊ < n := by
  have hle : p * ((n - 1 : ℕ) : ℚ) ≤ ((n - 1 : ℕ) : ℚ) :=
    mul_le_of_le_one_left (Nat.cast_nonneg _) hp
  have hflr := Nat.floor_le_of_le hle
  omega

lemma calculatePercentile_eq {p : ℚ} (hp : p ≤ 1) (hc : 0 < m.totalCycles)
    (hs : m.latencySamples ≠ []) :
    ∃ r, m.calculatePercentile p = .ok r ∧
      (m.window.insertionSort (· ≤ ·))[⌊p * ((m.window.length - 1 : ℕ) : ℚ)⌋₊]? = some r := by
  have hpos : 0 < m.window.length := by
    have hlen := length_pos_of_ne_nil hs
    rw [length_window]
    omega
  have hrank := rank_lt hp hpos
  rw [calculatePercentile, if_neg (by omega)]
  rw [← length_insertionSort (· ≤ ·) m.window] at hrank ⊢
  exact ⟨_, load_of_lt hrank, getElem?_eq_getElem hrank⟩

lemma calculatePercentile_nil {p : ℚ} (hc : 0 < m.totalCycles) (hs : m.latencySamples = []) :
    m.calculatePercentile p = .error .outOfBounds := by
  have hnil : m.window = [] := by rw [window, hs, take_nil]
  rw [calculatePercentile, if_neg (by omega), hnil]
  exact load_of_le (Nat.zero_le _)

lemma getStats_eq (hc : 0 < m.totalCycles) (hs : m.latencySamples ≠ []) :
    ∃ stats, m.getStats false = .ok stats ∧
      m.calculatePercentile (50 / 100) = .ok stats.p50Latency ∧
      m.calculatePercentile (95 / 100) = .ok stats.p95Latency ∧
      m.calculatePercentile (99 / 100) = .ok stats.p99Latency ∧
      stats.minLatency = m.minLatency ∧ stats.maxLatency = m.maxLatency := by
  obtain ⟨r₅₀, h₅₀, -⟩ := calculatePercentile_eq (p := 50 / 100) (by norm_num) hc hs
  obtain ⟨r₉₅, h₉₅, -⟩ := calculatePercentile_eq (p := 95 / 100) (by norm_num) hc hs
  obtain ⟨r₉₉, h₉₉, -⟩ := calculatePercentile_eq (p := 99 / 100) (by norm_num) hc hs
  have hne : m.totalCycles ≠ 0 := by omega
  simp only [getStats, lock, h₅₀, h₉₅, h₉₉, bind, Except.bind, pure, Except.pure, if_neg hne,
    reduceIte, Bool.false_eq_true]
  exact ⟨_, rfl, rfl, rfl, rfl, rfl, rfl⟩

lemma getStats_zero (hc : m.totalCycles = 0) : m.getStats false = .ok {} := by
  simp only [getStats, lock, hc, bind, Except.bind, pure, Except.pure, reduceIte,
    Bool.false_eq_true]

lemma getStats_nil (hc : 0 < m.totalCycles) (hs : m.latencySamples = []) :
    m.getStats false = .error .outOfBounds := by
  have hne : m.totalCycles ≠ 0 := by omega
  simp only [getStats, lock, calculatePercentile_nil hc hs, bind, Except.bind, pure, Except.pure,
    if_neg hne, reduceIte, Bool.false_eq_true]

lemma getStats_cases (m : PerfMonitor) :
    ((m.totalCycles = 0 ∨ m.latencySamples ≠ []) ∧ ∃ stats, m.getStats false = .ok stats) ∨
      (¬ (m.totalCycles = 0 ∨ m.latencySamples ≠ []) ∧
        m.getStats false = .error .outOfBounds) := by
  rcases Nat.eq_zero_or_pos m.totalCycles with hzero | hpos
  · exact .inl ⟨.inl hzero, _, getStats_zero hzero⟩
  by_cases hnil : m.latencySamples = []
  · refine .inr ⟨?_, getStats_nil hpos hnil⟩
    rintro (hzero | hne)
    · omega
    · exact hne hnil
  · obtain ⟨stats, hstt, -⟩ := getStats_eq hpos hnil
    exact .inl ⟨.inr hnil, stats, hstt⟩

def configOf (calls : List Call) : Option PerfMonitorConfig :=
  calls.foldl (fun last c => match c with
    | .configure config => some config
    | _ => last) none

def cyclesSinceReset (calls : List Call) : ℕ :=
  calls.foldl (fun n c => match c with
    | .reset => 0
    | .endCycle _ => n + 1
    | _ => n) 0

/-- What the calls so far must be for the next call to be free of faults. -/
def SafeAfter (calls : List Call) : Call → Prop
  | .endCycle _ => ∃ config, configOf calls = some config ∧ 0 < config.sampleBufferSize ∧
      (config.enableHistogram → 0 < config.histogramBuckets) ∧
      (config.enableTracing → (cyclesSinceReset calls + 1) % 10000 ≠ 0)
  | .getStats => cyclesSinceReset calls = 0 ∨
      ∃ config, configOf calls = some config ∧ 0 < config.sampleBufferSize
  | _ => True

structure Tracks (calls : List Call) (m : PerfMonitor) : Prop where
  config : m.config = (configOf calls).getD {}
  samples : m.latencySamples.length = (configOf calls).elim 0 (·.sampleBufferSize)
  index : 0 < m.latencySamples.length → m.sampleIndex < m.latencySamples.length
  histogram : m.config.enableHistogram →
    m.histogram.length = (configOf calls).elim 0 (·.histogramBuckets)
  cycles : m.totalCycles = cyclesSinceReset calls

section
variable {calls : List Call} {c : Call}

lemma configOf_concat (calls : List Call) (c : Call) :
    configOf (calls ++ [c]) = match c with
      | .configure config => some config
      | _ => configOf calls := by
  rw [configOf, foldl_append]
  rfl

lemma cyclesSinceReset_concat (calls : List Call) (c : Call) :
    cyclesSinceReset (calls ++ [c]) = match c with
      | .reset => 0
      | .endCycle _ => cyclesSinceReset calls + 1
      | _ => cyclesSinceReset calls := by
  rw [cyclesSinceReset, foldl_append]
  rfl

lemma Tracks.init : Tracks [] {} where
  config := rfl
  samples := rfl
  index := fun h => absurd h (lt_irrefl 0)
  histogram := fun _ => rfl
  cycles := rfl

section
variable (h : Tracks calls m)
include h

lemma Tracks.configure (config : PerfMonitorConfig) :
    Tracks (calls ++ [.configure config]) (m.configure config) where
  config := by rw [configOf_concat]; rfl
  samples := by rw [configOf_concat]; exact length_resize ..
  index := id
  histogram hena := by
    have hnew : (m.configure config).histogram = resize m.histogram config.histogramBuckets :=
      if_pos hena
    rw [configOf_concat, hnew, length_resize]
    rfl
  cycles := by rw [cyclesSinceReset_concat]; exact h.cycles

lemma Tracks.reset : Tracks (calls ++ [.reset]) m.reset where
  config := by rw [configOf_concat]; exact h.config
  samples := by rw [configOf_concat, ← h.samples]; exact List.length_map ..
  index := id
  histogram hena := by
    have hnew : m.reset.histogram = m.histogram.map fun _ => 0 := if_pos hena
    rw [configOf_concat, ← h.histogram hena, hnew, length_map]
  cycles := by rw [cyclesSinceReset_concat]; rfl

lemma Tracks.startCycle (now : ℤ) (hc : c = .startCycle now ∨ c = .getStats) :
    Tracks (calls ++ [c]) (m.startCycle now) := by
  have hcon : configOf (calls ++ [c]) = configOf calls := by
    rw [configOf_concat]
    rcases hc with rfl | rfl <;> rfl
  have hcyc : cyclesSinceReset (calls ++ [c]) = cyclesSinceReset calls := by
    rw [cyclesSinceReset_concat]
    rcases hc with rfl | rfl <;> rfl
  exact ⟨hcon ▸ h.config, hcon ▸ h.samples, h.index, hcon ▸ h.histogram, hcyc ▸ h.cycles⟩

lemma Tracks.recorded (hm : Recorded m latency m') (now : ℤ) :
    Tracks (calls ++ [.endCycle now]) m' where
  config := by rw [configOf_concat, hm.config]; exact h.config
  samples := by rw [configOf_concat, hm.latencySamples, List.length_set]; exact h.samples
  index := by
    rw [hm.latencySamples, length_set, hm.sampleIndex]
    exact Nat.mod_lt _
  histogram := by rw [configOf_concat, hm.config, hm.length_histogram]; exact h.histogram
  cycles := by rw [cyclesSinceReset_concat, hm.totalCycles, h.cycles]

lemma Tracks.safeAfter_endCycle (now : ℤ) : SafeAfter calls (.endCycle now) ↔ m.Ready := by
  obtain ⟨hcon, hsam, -, hhis, hcyc⟩ := h
  rw [SafeAfter, Ready, hsam, hcyc]
  cases hlast : configOf calls with
  | none => simp
  | some config =>
    rw [hlast] at hcon hhis
    rw [hcon] at hhis ⊢
    simp only [Option.getD_some, Option.elim_some] at hhis ⊢
    constructor
    · rintro ⟨_, hsome, hsize, hbuc, htrac⟩
      cases hsome
      exact ⟨hsize, fun hena => hhis hena ▸ hbuc hena, htrac⟩
    · rintro ⟨hsize, hbuc, htrac⟩
      exact ⟨config, rfl, hsize, fun hena => hhis hena ▸ hbuc hena, htrac⟩

lemma Tracks.safeAfter_getStats :
    SafeAfter calls .getStats ↔ m.totalCycles = 0 ∨ m.latencySamples ≠ [] := by
  rw [SafeAfter, h.cycles, ← length_pos_iff, h.samples]
  cases configOf calls with
  | none => simp
  | some config => simp

end

lemma Tracks.call_cases (bucketOf : PerfMonitorConfig → ℤ → ℕ) (h : Tracks calls m)
    (c : Call) :
    (SafeAfter calls c ∧ ∃ m', m.call bucketOf c = .ok m' ∧ Tracks (calls ++ [c]) m') ∨
      (¬ SafeAfter calls c ∧ ∃ fault, m.call bucketOf c = .error fault) := by
  cases c with
  | configure config => exact .inl ⟨trivial, _, rfl, h.configure config⟩
  | reset => exact .inl ⟨trivial, _, rfl, h.reset⟩
  | startCycle now => exact .inl ⟨trivial, _, rfl, h.startCycle now (.inl rfl)⟩
  | endCycle now =>
    rw [h.safeAfter_endCycle now]
    by_cases hrdy : m.Ready
    · obtain ⟨m', hend, hm'⟩ := endCycle_of_ready bucketOf hrdy h.index now
      exact .inl ⟨hrdy, m', hend, h.recorded hm' now⟩
    · exact .inr ⟨hrdy, endCycle_of_not_ready hrdy h.index now⟩
  | getStats =>
    rw [h.safeAfter_getStats]
    rcases getStats_cases m with ⟨hdef, stats, hstt⟩ | ⟨hund, hstt⟩
    · refine .inl ⟨hdef, m, ?_, h.startCycle m.cycleStart (.inr rfl)⟩
      rw [call, hstt]
      rfl
    · refine .inr ⟨hund, .outOfBounds, ?_⟩
      rw [call, hstt]
      rfl

lemma tracks_of_run (h : Run (next bucketOf) (fun _ _ => True) {} calls m) :
    Tracks calls m := by
  refine h.invariant_history Tracks .init fun calls m c m' hm _ hn => ?_
  rcases hm.call_cases bucketOf c with ⟨-, _, hcall, hm'⟩ | ⟨-, fault, hcall⟩
  · rw [next, hcall] at hn
    cases hn
    exact hm'
  · rw [next, hcall] at hn
    cases hn

/-- The calls return without a fault exactly if each `endCycle` has a non-empty buffer, a histogram
that is off or not empty and no periodic statistics, and each `getStats` after a cycle has a
non-empty buffer. -/
theorem perfMonitor_returns_iff (bucketOf : PerfMonitorConfig → ℤ → ℕ) (calls : List Call) :
    (∃ m, Run (next bucketOf) (fun _ _ => True) {} calls m) ↔ EveryEntry SafeAfter calls := by
  induction calls using List.reverseRecOn with
  | nil => exact iff_of_true ⟨_, .nil⟩ (everyEntry_nil _)
  | append_singleton calls c ih =>
    rw [everyEntry_append_singleton, ← ih]
    constructor
    · rintro ⟨m', hrun⟩
      obtain ⟨m, hm, -, hn⟩ := hrun.snoc_inv
      refine ⟨⟨m, hm⟩, ?_⟩
      rcases (tracks_of_run hm).call_cases bucketOf c with
        ⟨hsafe, -⟩ | ⟨-, fault, hcall⟩
      · exact hsafe
      · rw [next, hcall] at hn
        cases hn
    · rintro ⟨⟨m, hm⟩, hsafe⟩
      rcases (tracks_of_run hm).call_cases bucketOf c with
        ⟨-, m', hcall, -⟩ | ⟨hnot, -⟩
      · exact ⟨m', hm.snoc trivial (by rw [next, hcall]; rfl)⟩
      · exact absurd hsafe hnot

/-- The real-time loop ends its first cycle on a monitor that was never configured. -/
theorem endCycle_fresh_faults :
    ¬ ∀ (bucketOf : PerfMonitorConfig → ℤ → ℕ) (calls : List Call),
      ∃ m, Run (next bucketOf) (fun _ _ => True) {} calls m := by
  intro h
  obtain ⟨m, hrun⟩ := h (fun _ _ => 0) ([.startCycle 0] ++ [.endCycle 1000])
  obtain ⟨m₁, hstr, -, hend⟩ := hrun.snoc_inv
  have hfir : Run (next fun _ _ => 0) (fun _ _ => True) {} [.startCycle 0] {} :=
    .single trivial rfl
  cases hstr.deterministic hfir
  cases hend

end
end PerfMonitor
end Mxrc.Rt
