import Mxrc.Lib.Runs

/-!
# Exporting a histogram

`observe` and the three reads of an export take the mutex one by one. Every
exported sum is the number of observed values up to its bound when the counts
were read, while `_count` is read later. Values are rationals; labels are left
out.
-/

namespace Mxrc.Monitoring
open Mxrc.Lib List

structure Histogram where
  buckets : List ℚ
  bucketCounts : List ℕ
  sum : ℚ := 0
  count : ℕ := 0

namespace Histogram

def make (buckets : List ℚ) : Histogram where
  buckets := buckets.insertionSort (· ≤ ·)
  bucketCounts := .replicate (buckets.length + 1) 0

def bucketIndex (h : Histogram) (value : ℚ) : ℕ :=
  if h.buckets.getLast?.any (· < value) then h.buckets.length
  else (h.buckets.findIdx? (value ≤ ·)).getD 0

def observe (h : Histogram) (value : ℚ) : Histogram :=
  { h with
    sum := h.sum + value
    count := h.count + 1
    bucketCounts := h.bucketCounts.modify (h.bucketIndex value) (· + 1) }

end Histogram

def accumulate (cumulative : ℕ) : List ℚ → List ℕ → List (ℚ × ℕ) × ℕ
  | b :: buckets, c :: counts =>
    ((b, cumulative + c) :: (accumulate (cumulative + c) buckets counts).1,
      (accumulate (cumulative + c) buckets counts).2)
  | _, counts => ([], cumulative + counts.getLast?.getD 0)

structure Exported where
  buckets : List (ℚ × ℕ)
  infinite : ℕ
  sum : ℚ
  count : ℕ
deriving DecidableEq

inductive ExportPhase
  | started
  | counted (counts : List ℕ)
  | summed (counts : List ℕ) (sum : ℚ)
  | returned (exported : Exported)
deriving DecidableEq

/-- `seen` are the values that were observed before the counts were read, and `since` those between
that and the end of the export. -/
structure Exporting where
  histogram : Histogram
  phase : ExportPhase := .started
  seen : List ℚ := []
  since : List ℚ := []

inductive Label
  | observe (value : ℚ)
  | proceed

namespace Exporting
variable (s : Exporting)

def observe (value : ℚ) : Exporting :=
  let s := { s with histogram := s.histogram.observe value }
  match s.phase with
  | .started => { s with seen := s.seen ++ [value] }
  | .returned _ => s
  | _ => { s with since := s.since ++ [value] }

def proceed : Option Exporting :=
  match s.phase with
  | .started => some { s with phase := .counted s.histogram.bucketCounts }
  | .counted counts => some { s with phase := .summed counts s.histogram.sum }
  | .summed counts sum =>
    let lines := accumulate 0 s.histogram.buckets counts
    some { s with phase := .returned ⟨lines.1, lines.2, sum, s.histogram.count⟩ }
  | .returned _ => none

def next : Label → Option Exporting
  | .observe value => some (s.observe value)
  | .proceed => s.proceed

end Exporting

/-- The line of each bound has the number of observed values up to it, the counts do not decrease,
and the last one is `_count`. -/
def Coherent (buckets observed : List ℚ) (e : Exported) : Prop :=
  e.buckets.map Prod.fst = buckets.insertionSort (· ≤ ·) ∧
    (∀ line ∈ e.buckets, line.2 = observed.countP (· ≤ line.1)) ∧
    (e.buckets.map Prod.snd).Pairwise (· ≤ ·) ∧ e.infinite = e.count

section
variable {buckets : List ℚ} {counts : List ℕ} {value : ℚ}

lemma accumulate_succ (cumulative : ℕ) (buckets : List ℚ) (counts : List ℕ) :
    accumulate (cumulative + 1) buckets counts =
      ((accumulate cumulative buckets counts).1.map fun line => (line.1, line.2 + 1),
        (accumulate cumulative buckets counts).2 + 1) := by
  induction buckets generalizing cumulative counts with
  | nil => simp [accumulate, Nat.add_right_comm]
  | cons b buckets ih =>
    cases counts with
    | nil => simp [accumulate]
    | cons c counts =>
      have hc : cumulative + 1 + c = cumulative + c + 1 := Nat.add_right_comm ..
      simp only [accumulate, hc, ih, map_cons]

lemma fst_mem_accumulate {cumulative : ℕ} {line : ℚ × ℕ}
    (h : line ∈ (accumulate cumulative buckets counts).1) : line.1 ∈ buckets := by
  induction buckets generalizing cumulative counts with
  | nil => simp [accumulate] at h
  | cons b buckets ih =>
    cases counts with
    | nil => simp [accumulate] at h
    | cons c counts =>
      simp only [accumulate, mem_cons] at h
      rcases h with rfl | h
      · exact mem_cons_self
      · exact mem_cons_of_mem _ (ih h)

lemma accumulate_modify (hsrt : buckets.Pairwise (· ≤ ·))
    (hlen : counts.length = buckets.length + 1) (cumulative : ℕ) :
    accumulate cumulative buckets
        (counts.modify (buckets.findIdx (value ≤ ·)) (· + 1)) =
      ((accumulate cumulative buckets counts).1.map fun line =>
          (line.1, line.2 + if value ≤ line.1 then 1 else 0),
        (accumulate cumulative buckets counts).2 + 1) := by
  induction buckets generalizing cumulative counts with
  | nil =>
    obtain ⟨c, rfl⟩ := length_eq_one_iff.mp hlen
    simp [accumulate, Nat.add_assoc]
  | cons b buckets ih =>
    obtain ⟨c, counts, rfl⟩ := exists_cons_of_length_eq_add_one hlen
    rw [pairwise_cons] at hsrt
    have hlen' : counts.length = buckets.length + 1 := by simpa using hlen
    by_cases hb : value ≤ b
    · -- the count of the first bucket grows, and with it all the sums from there on
      have hall : ∀ line ∈ (accumulate (cumulative + c) buckets counts).1, value ≤ line.1 :=
        fun line hline => hb.trans (hsrt.1 _ (fst_mem_accumulate hline))
      have hmap : ((accumulate (cumulative + c) buckets counts).1.map fun line =>
          (line.1, line.2 + if value ≤ line.1 then 1 else 0)) =
          (accumulate (cumulative + c) buckets counts).1.map fun line => (line.1, line.2 + 1) :=
        map_congr_left fun line hline => by rw [if_pos (hall line hline)]
      have hidx : (b :: buckets).findIdx (value ≤ ·) = 0 := by simp [findIdx_cons, hb]
      rw [hidx]
      simp only [modify_zero_cons, accumulate, map_cons, if_pos hb, hmap]
      rw [← Nat.add_assoc, accumulate_succ]
    · have hidx : (b :: buckets).findIdx (value ≤ ·) = buckets.findIdx (value ≤ ·) + 1 := by
        simp [findIdx_cons, hb]
      rw [hidx]
      simp only [modify_succ_cons, accumulate, map_cons, if_neg hb, Nat.add_zero, ih hsrt.2 hlen']

end

structure Counts (buckets observed : List ℚ) (h : Histogram) : Prop where
  buckets : h.buckets = buckets.insertionSort (· ≤ ·)
  length : h.bucketCounts.length = h.buckets.length + 1
  lines : accumulate 0 h.buckets h.bucketCounts =
    (h.buckets.map fun b => (b, observed.countP (· ≤ b)), observed.length)
  count : h.count = observed.length

section
variable {buckets observed : List ℚ} {h : Histogram} {value : ℚ}

lemma bucketIndex_eq (hsrt : h.buckets.Pairwise (· ≤ ·)) (hne : h.buckets ≠ []) :
    h.bucketIndex value = h.buckets.findIdx (value ≤ ·) := by
  rw [Histogram.bucketIndex, getLast?_eq_some_getLast hne, Option.any_some]
  split_ifs with hlast
  · rw [decide_eq_true_eq] at hlast
    refine (findIdx_eq_length_of_false fun b hb => ?_).symm
    have hle : b ≤ h.buckets.getLast hne := hsrt.rel_getLast_of_rel_getLast_getLast hb le_rfl
    simpa using hle.trans_lt hlast
  · rw [decide_eq_true_eq, not_lt] at hlast
    have hlt : h.buckets.findIdx (value ≤ ·) < h.buckets.length :=
      findIdx_lt_length_of_exists ⟨_, getLast_mem hne, by simpa using hlast⟩
    rw [findIdx?_eq_guard_findIdx_lt]
    simp [Option.guard, hlt]

lemma accumulate_replicate (buckets : List ℚ) :
    accumulate 0 buckets (.replicate (buckets.length + 1) 0) = (buckets.map (·, 0), 0) := by
  induction buckets with
  | nil => rfl
  | cons b buckets ih =>
    rw [length_cons, replicate_succ, accumulate, Nat.add_zero, ih]
    rfl

lemma counts_make (buckets : List ℚ) : Counts buckets [] (.make buckets) := by
  refine ⟨rfl, by simp [Histogram.make], ?_, rfl⟩
  have hlin := accumulate_replicate (buckets.insertionSort (· ≤ ·))
  rw [length_insertionSort] at hlin
  exact hlin

lemma Counts.observe (hc : Counts buckets observed h) (hne : buckets ≠ []) (value : ℚ) :
    Counts buckets (observed ++ [value]) (h.observe value) := by
  have hsrt : h.buckets.Pairwise (· ≤ ·) := hc.buckets ▸ buckets.pairwise_insertionSort (· ≤ ·)
  have hne' : h.buckets ≠ [] := by
    rw [hc.buckets, ← length_pos_iff, length_insertionSort, length_pos_iff]
    exact hne
  refine ⟨hc.buckets, ?_, ?_, ?_⟩
  · rw [Histogram.observe, length_modify, hc.length]
  · rw [Histogram.observe, bucketIndex_eq hsrt hne', accumulate_modify hsrt hc.length,
      hc.lines, map_map, length_append, length_singleton]
    refine congrArg (·, _) (map_congr_left fun b _ => ?_)
    simp [countP_append, countP_singleton]
  · rw [Histogram.observe, hc.count, length_append, length_singleton]

end

namespace Exporting
variable {buckets : List ℚ} {s s' : Exporting} {l : Label} {e : Exported}

def ReadsSeen (buckets : List ℚ) (s : Exporting) : Prop :=
  match s.phase with
  | .started => Counts buckets s.seen s.histogram ∧ s.since = []
  | .counted counts | .summed counts _ =>
    Counts buckets (s.seen ++ s.since) s.histogram ∧
      accumulate 0 s.histogram.buckets counts =
        (s.histogram.buckets.map fun b => (b, s.seen.countP (· ≤ b)), s.seen.length)
  | .returned e =>
    e.buckets = ((buckets.insertionSort (· ≤ ·)).map fun b => (b, s.seen.countP (· ≤ b))) ∧
      e.infinite = s.seen.length ∧ e.count = s.seen.length + s.since.length

lemma readsSeen_next (hne : buckets ≠ []) (h : ReadsSeen buckets s) (hn : s.next l = some s') :
    ReadsSeen buckets s' := by
  rw [ReadsSeen] at h
  cases l with
  | observe value =>
    cases hn
    cases hph : s.phase with
    | started =>
      rw [hph] at h
      simp only [observe, hph, ReadsSeen]
      exact ⟨h.1.observe hne value, h.2⟩
    | counted counts
    | summed counts sum =>
      rw [hph] at h
      simp only [observe, hph, ReadsSeen, ← append_assoc]
      exact ⟨h.1.observe hne value, h.2⟩
    | returned e =>
      rw [hph] at h
      simpa only [observe, hph, ReadsSeen] using h
  | proceed =>
    rw [next, proceed] at hn
    cases hph : s.phase with
    | started =>
      rw [hph] at hn h
      cases hn
      simp only [ReadsSeen, h.2, append_nil]
      exact ⟨h.1, h.1.lines⟩
    | counted counts =>
      rw [hph] at hn h
      cases hn
      exact h
    | summed counts sum =>
      rw [hph] at hn h
      cases hn
      simp only [ReadsSeen, h.2, h.1.count, length_append, and_true]
      rw [h.1.buckets]
    | returned e =>
      rw [hph] at hn
      cases hn

theorem exported_coherent_iff (hne : buckets ≠ []) {ls : List Label}
    (hrun : Run next (fun _ _ => True) ⟨.make buckets, .started, [], []⟩ ls s)
    (hreturned : s.phase = .returned e) : Coherent buckets s.seen e ↔ s.since = [] := by
  have h : ReadsSeen buckets s := by
    refine hrun.invariant _ ?_ fun _ _ _ h _ hn => readsSeen_next hne h hn
    exact ⟨counts_make buckets, rfl⟩
  rw [ReadsSeen, hreturned] at h
  obtain ⟨hlin, hinf, hcnt⟩ := h
  have hlast : e.infinite = e.count ↔ s.since = [] := by
    rw [hinf, hcnt, ← length_eq_zero_iff]
    omega
  rw [← hlast, Coherent, hlin]
  refine ⟨fun h => h.2.2.2, fun h => ⟨by simp [Function.comp_def], ?_, ?_, h⟩⟩
  · intro line hline
    obtain ⟨b, -, rfl⟩ := mem_map.mp hline
    rfl
  · rw [map_map, pairwise_map]
    refine (buckets.pairwise_insertionSort (· ≤ ·)).imp fun {b b'} hle => ?_
    exact countP_mono_left fun v _ hv => by simpa using (by simpa using hv : v ≤ b).trans hle

theorem exported_coherent_two_values :
    ∃ s e, phase s = .returned e ∧ s.seen = [3, 1] ∧ Coherent [2, 1] s.seen e := by
  have hexec : (exec next (fun _ _ => true) ⟨.make [2, 1], .started, [], []⟩
      [.observe 3, .observe 1, .proceed, .proceed, .proceed]).map
        (fun s => (s.seen, s.since, s.phase)) =
      some ([3, 1], [], .returned ⟨[(1, 1), (2, 1)], 2, 4, 2⟩) := by decide +kernel
  obtain ⟨s, hrun, hs⟩ := exists_run_of_exec (G := fun _ _ => True) (fun _ _ _ => trivial) hexec
  simp only [Prod.mk.injEq] at hs
  exact ⟨s, _, hs.2.2, hs.1, (exported_coherent_iff (by simp) hrun hs.2.2).mpr hs.2.1⟩

/-- A value is observed after the counts were read. -/
theorem not_exported_coherent : ¬ ∀ (buckets : List ℚ) (ls : List Label) (s : Exporting)
    (e : Exported), buckets ≠ [] →
      Run next (fun _ _ => True) ⟨.make buckets, .started, [], []⟩ ls s →
      s.phase = .returned e → Coherent buckets s.seen e := by
  intro h
  have hexec : (exec next (fun _ _ => true) ⟨.make [1], .started, [], []⟩
      [.proceed, .observe 0, .proceed, .proceed]).map phase =
      some (.returned ⟨[(1, 0)], 0, 0, 1⟩) := by decide +kernel
  obtain ⟨s, hrun, hs⟩ := exists_run_of_exec (G := fun _ _ => True) (fun _ _ _ => trivial) hexec
  exact absurd (h [1] _ s _ (by simp) hrun hs).2.2.2 (by decide)

end Exporting
end Mxrc.Monitoring
