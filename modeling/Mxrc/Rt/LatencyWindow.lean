import Mxrc.Lib.Ring
import Mxrc.Rt.PerfMonitor

/-!
# What the latency statistics describe

A monitor that was configured once keeps the newest latencies in a ring that is
overwritten from its oldest entry on. The statistics read that ring, the extremes
and the histogram.
-/

namespace Mxrc.Rt
open Mxrc.Lib List

/-- Among the elements of `l` in increasing order, `r` has the rank `⌊p * (n - 1)⌋`. -/
def IsPercentile (p : ℚ) (l : List ℤ) (r : ℤ) : Prop :=
  ∃ sorted : List ℤ, sorted.Perm l ∧ sorted.Pairwise (· ≤ ·) ∧
    sorted[⌊p * ((l.length : ℚ) - 1)⌋₊]? = some r

lemma IsPercentile.mono {p q : ℚ} {l : List ℤ} {r s : ℤ} (hr : IsPercentile p l r)
    (hs : IsPercentile q l s) (hpq : p ≤ q) : r ≤ s := by
  obtain ⟨sorted, hperm, hsrt, hrank⟩ := hr
  obtain ⟨sorted', hperm', hsrt', hrank'⟩ := hs
  have hsame : sorted' = sorted :=
    (hperm'.trans hperm.symm).eq_of_sortedLE hsrt'.sortedLE hsrt.sortedLE
  rw [hsame] at hrank'
  obtain ⟨hi, rfl⟩ := List.getElem?_eq_some_iff.mp hrank
  obtain ⟨hj, rfl⟩ := List.getElem?_eq_some_iff.mp hrank'
  have hlen : (1 : ℚ) ≤ l.length := by
    rw [← hperm.length_eq]
    exact_mod_cast Nat.one_le_of_lt hi
  have hle : ⌊p * ((l.length : ℚ) - 1)⌋₊ ≤ ⌊q * ((l.length : ℚ) - 1)⌋₊ := by
    apply Nat.floor_le_floor
    exact mul_le_mul_of_nonneg_right hpq (by linarith)
  exact hsrt.sortedLE.monotone_get (a := ⟨_, hi⟩) (b := ⟨_, hj⟩) hle

lemma IsPercentile.congr {p : ℚ} {l l' : List ℤ} {r : ℤ} (h : IsPercentile p l r)
    (hperm : l.Perm l') : IsPercentile p l' r := by
  obtain ⟨sorted, hsrt, hpair, hrank⟩ := h
  rw [hperm.length_eq] at hrank
  exact ⟨sorted, hsrt.trans hperm, hpair, hrank⟩

namespace PerfMonitor
variable (bucketOf : PerfMonitorConfig → ℤ → ℕ)

def recordAll (m : PerfMonitor) (latencies : List ℤ) : Except PerfFault PerfMonitor :=
  latencies.foldlM (fun m latency => m.record bucketOf latency) m

def cyclesOf (latencies : List ℤ) : List Call :=
  latencies.flatMap fun latency => [.startCycle 0, .endCycle (1000 * latency)]

structure Summarises (c : PerfMonitorConfig) (latencies : List ℤ) (m : PerfMonitor) : Prop where
  config : m.config = c
  cycleStart : m.cycleStart = 0
  samples : Ring.Newest c.sampleBufferSize latencies m.latencySamples m.sampleIndex
  cycles : m.totalCycles = latencies.length
  least : m.minLatency = latencies.min?
  greatest : m.maxLatency = latencies.foldl max 0
  buckets : m.histogram.length = c.histogramBuckets
  counts : m.histogram.sum = latencies.length

variable {bucketOf} {config : PerfMonitorConfig} {latencies : List ℤ} {latency : ℤ}
  {m m' : PerfMonitor}

lemma min?_concat (latencies : List ℤ) (latency : ℤ) :
    (latencies ++ [latency]).min? = some (latencies.min?.elim latency (min · latency)) := by
  cases latencies with
  | nil => rfl
  | cons first rest =>
    rw [cons_append, min?_cons', min?_cons', foldl_append]
    rfl

lemma max?_eq_foldl (hne : latencies ≠ []) (hnonneg : ∀ latency ∈ latencies, 0 ≤ latency) :
    latencies.max? = some (latencies.foldl max 0) := by
  cases latencies with
  | nil => exact absurd rfl hne
  | cons first rest =>
    rw [max?_cons', foldl_cons, max_eq_right (hnonneg first mem_cons_self)]

lemma Summarises.configure (henabled : config.enableHistogram = true) :
    Summarises config [] (({} : PerfMonitor).configure config) := by
  have hhis : (({} : PerfMonitor).configure config).histogram =
      List.replicate config.histogramBuckets 0 := by
    rw [PerfMonitor.configure, if_pos henabled]
    exact resize_nil config.histogramBuckets
  constructor
  · rfl
  · rfl
  · exact Ring.Newest.empty (length_resize ..)
  · rfl
  · rfl
  · rfl
  · rw [hhis, length_replicate]
  · rw [hhis, sum_replicate]
    rfl

lemma Summarises.recorded (h : Summarises config latencies m)
    (hsize : 0 < config.sampleBufferSize) (henabled : config.enableHistogram = true)
    (hm : Recorded m latency m') : Summarises config (latencies ++ [latency]) m' := by
  obtain ⟨hcon, hstr, hsam, hcyc, hlst, hgreat, hbuckets, hcoun⟩ := h
  have hlen : (latencies ++ [latency]).length = latencies.length + 1 := by simp
  constructor
  · rw [hm.config, hcon]
  · rw [hm.cycleStart, hstr]
  · rw [hm.latencySamples, hm.sampleIndex, hsam.length]
    exact hsam.overwrite hsize latency
  · rw [hm.totalCycles, hcyc, hlen]
  · rw [hm.minLatency, hlst, min?_concat]
  · rw [hm.maxLatency, hgreat, foldl_append]
    rfl
  · rw [hm.length_histogram, hbuckets]
  · rw [hm.sum_histogram (hcon ▸ henabled), hcoun, hlen]

lemma recordAll_concat {m₀ : PerfMonitor} (h : recordAll bucketOf m₀ latencies = .ok m) :
    recordAll bucketOf m₀ (latencies ++ [latency]) = m.record bucketOf latency := by
  rw [recordAll, foldlM_append, ← recordAll, h]
  exact bind_pure (m.record bucketOf latency)

lemma Summarises.record (bucketOf : PerfMonitorConfig → ℤ → ℕ)
    (h : Summarises config latencies m) (hsize : 0 < config.sampleBufferSize)
    (henabled : config.enableHistogram = true) (hbuckets : 0 < config.histogramBuckets)
    (latency : ℤ) : ∃ m', m.record bucketOf latency = .ok m' ∧
      Summarises config (latencies ++ [latency]) m' := by
  have hind : m.sampleIndex < m.latencySamples.length := by
    rw [h.samples.length, h.samples.slot]
    exact Nat.mod_lt _ hsize
  have hhis : m.histogram ≠ [] := ne_nil_of_length_pos (h.buckets ▸ hbuckets)
  obtain ⟨m', hrcd, hm'⟩ := record_eq bucketOf latency hind fun _ => hhis
  exact ⟨m', hrcd, h.recorded hsize henabled hm'⟩

lemma Summarises.run_cycle (h : Summarises config latencies m)
    (h' : Summarises config (latencies ++ [latency]) m')
    (hrcd : m.record bucketOf latency = .ok m')
    (hquiet : config.enableTracing = false ∨ latencies.length + 1 < 10000) :
    Run (next bucketOf) (fun _ _ => True) m [.startCycle 0, .endCycle (1000 * latency)] m' := by
  have hstr : next bucketOf m (.startCycle 0) = some m := by
    have hsame : m.startCycle 0 = m := by
      rw [PerfMonitor.startCycle, ← h.cycleStart]
    rw [next, call, hsame]
    rfl
  have hlat : (1000 * latency - m.cycleStart).tdiv 1000 = latency := by
    rw [h.cycleStart, sub_zero]
    exact Int.mul_tdiv_cancel_left _ (by norm_num)
  have hend : next bucketOf m (.endCycle (1000 * latency)) = some m' := by
    rw [next, call, endCycle_of_record (hlat.symm ▸ hrcd), h'.config, h'.cycles, if_neg]
    · rfl
    · rw [length_append, length_singleton, Bool.and_eq_true, decide_eq_true_eq]
      rintro ⟨htrac, hper⟩
      rcases hquiet with hoff | hfew
      · rw [hoff] at htrac
        cases htrac
      · omega
  exact .cons trivial hstr (.single trivial hend)

lemma exists_recordAll (bucketOf : PerfMonitorConfig → ℤ → ℕ)
    (hsize : 0 < config.sampleBufferSize) (henabled : config.enableHistogram = true)
    (hbuckets : 0 < config.histogramBuckets) (latencies : List ℤ) :
    ∃ m, recordAll bucketOf (({} : PerfMonitor).configure config) latencies = .ok m ∧
      Summarises config latencies m ∧
      (config.enableTracing = false ∨ latencies.length < 10000 →
        Run (next bucketOf) (fun _ _ => True) {} (.configure config :: cyclesOf latencies) m) := by
  induction latencies using List.reverseRecOn with
  | nil => exact ⟨_, rfl, .configure henabled, fun _ => .single trivial rfl⟩
  | append_singleton latencies latency ih =>
    obtain ⟨m, hall, hm, hrun⟩ := ih
    obtain ⟨m', hrcd, hm'⟩ := hm.record bucketOf hsize henabled hbuckets latency
    refine ⟨m', (recordAll_concat hall).trans hrcd, hm', fun hquiet => ?_⟩
    rw [length_append, length_singleton] at hquiet
    have hcyc : cyclesOf (latencies ++ [latency]) =
        cyclesOf latencies ++ [.startCycle 0, .endCycle (1000 * latency)] := by
      rw [cyclesOf, flatMap_append, flatMap_singleton, ← cyclesOf]
    rw [hcyc, ← cons_append]
    have hear := hrun (hquiet.imp_right fun hfew => by omega)
    exact hear.append (hm.run_cycle hm' hrcd hquiet)

lemma isPercentile_of_calculatePercentile {p : ℚ} {r : ℤ} (hp : p ≤ 1)
    (hc : 0 < m.totalCycles) (hs : m.latencySamples ≠ [])
    (h : m.calculatePercentile p = .ok r) : IsPercentile p m.window r := by
  obtain ⟨_, hcalc, hrank⟩ := calculatePercentile_eq hp hc hs
  rw [h] at hcalc
  cases hcalc
  have hpos : 1 ≤ m.window.length := by
    have hlen := length_pos_of_ne_nil hs
    rw [length_window]
    omega
  rw [Nat.cast_sub hpos, Nat.cast_one] at hrank
  exact ⟨_, perm_insertionSort .., pairwise_insertionSort .., hrank⟩

/-- After `n ≥ 1` latencies the window holds the last `min n c` of them, the percentiles are its
ranks, and the extremes and the histogram are those of all. -/
theorem latency_statistics (bucketOf : PerfMonitorConfig → ℤ → ℕ) (config : PerfMonitorConfig)
    (hsize : 1 ≤ config.sampleBufferSize)
    (henabled : config.enableHistogram = true) (hbuckets : 2 ≤ config.histogramBuckets)
    (latencies : List ℤ) (hne : latencies ≠ []) (hnonneg : ∀ latency ∈ latencies, 0 ≤ latency) :
    ∃ m stats, recordAll bucketOf (({} : PerfMonitor).configure config) latencies = .ok m ∧
      (config.enableTracing = false ∨ latencies.length < 10000 →
        Run (next bucketOf) (fun _ _ => True) {} (.configure config :: cyclesOf latencies) m) ∧
      m.getStats false = .ok stats ∧
      m.window.Perm (latencies.rtake config.sampleBufferSize) ∧
      IsPercentile (50 / 100) (latencies.rtake config.sampleBufferSize) stats.p50Latency ∧
      IsPercentile (95 / 100) (latencies.rtake config.sampleBufferSize) stats.p95Latency ∧
      IsPercentile (99 / 100) (latencies.rtake config.sampleBufferSize) stats.p99Latency ∧
      stats.p50Latency ≤ stats.p95Latency ∧ stats.p95Latency ≤ stats.p99Latency ∧
      stats.minLatency = latencies.min? ∧ some stats.maxLatency = latencies.max? ∧
      m.histogram.sum = latencies.length := by
  obtain ⟨m, hall, hm, hrun⟩ := exists_recordAll bucketOf hsize henabled (by omega) latencies
  have hcyc : 0 < m.totalCycles := by
    rw [hm.cycles]
    exact length_pos_of_ne_nil hne
  have hsam : m.latencySamples ≠ [] := by
    apply ne_nil_of_length_pos
    rw [hm.samples.length]
    exact hsize
  have hwin : m.window.Perm (latencies.rtake config.sampleBufferSize) := by
    rw [window, hm.cycles]
    exact hm.samples.perm
  obtain ⟨stats, hstt, h₅₀, h₉₅, h₉₉, hmin, hmax⟩ := getStats_eq hcyc hsam
  have hp₅₀ :=
    (isPercentile_of_calculatePercentile (by norm_num) hcyc hsam h₅₀).congr hwin
  have hp₉₅ :=
    (isPercentile_of_calculatePercentile (by norm_num) hcyc hsam h₉₅).congr hwin
  have hp₉₉ :=
    (isPercentile_of_calculatePercentile (by norm_num) hcyc hsam h₉₉).congr hwin
  refine ⟨m, stats, hall, hrun, hstt, hwin, hp₅₀, hp₉₅, hp₉₉, hp₅₀.mono hp₉₅ (by norm_num),
    hp₉₅.mono hp₉₉ (by norm_num), hmin.trans hm.least, ?_, hm.counts⟩
  rw [hmax, hm.greatest, max?_eq_foldl hne hnonneg]

theorem latency_statistics_two_of_three :
    ∃ m stats, recordAll (fun _ _ => 0)
        (({} : PerfMonitor).configure { sampleBufferSize := 2 }) [7, 3, 5] = .ok m ∧
      m.getStats false = .ok stats ∧ m.window.Perm [3, 5] ∧
      stats.minLatency = some 3 ∧ some stats.maxLatency = some 7 ∧ m.histogram.sum = 3 := by
  obtain ⟨m, stats, hall, -, hstt, hwin, -, -, -, -, -, hmin, hmax, hcoun⟩ :=
    latency_statistics (fun _ _ => 0) { sampleBufferSize := 2 } (by decide) rfl (by decide)
      [7, 3, 5] (by decide) (by decide)
  exact ⟨m, stats, hall, hstt, hwin, hmin, hmax, hcoun⟩

end PerfMonitor
end Mxrc.Rt
