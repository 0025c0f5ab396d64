import Mxrc.Lib.Decimal
import Mxrc.Lib.Maps
import Mxrc.Lib.Text

/-!
# The series of exported metrics

`exportPrometheus` writes a line for each counter and each gauge. Label values
are written as they are, so a quotation mark may end a value and a line break
the line. The maps are lists in the order of iteration; histograms are left out.
-/

namespace Mxrc.Monitoring
open Mxrc.Lib List

abbrev Labels := SortedMap (List Char) (List Char)

def appendLabels (first : Bool) : List (List Char × List Char) → List Char
  | [] => []
  | (key, value) :: rest =>
    (if first then [] else [',']) ++ (key ++ '=' :: '\x22' :: (value ++ '\x22' ::
      appendLabels false rest))

def labelsToString (labels : Labels) : List Char :=
  if labels.entries = [] then []
  else '\x7b' :: (appendLabels true labels.entries ++ ['\x7d'])

structure MetricsCollector where
  counters : List (List Char × List (Labels × ℕ))
  gauges : List (List Char × List (Labels × ℚ))
  helpTexts : List Char → Option (List Char)

namespace MetricsCollector

def sample (name : List Char) (labels : Labels) (value : List Char) : List Char :=
  name ++ labelsToString labels ++ ' ' :: (value ++ ['\n'])

variable (c : MetricsCollector)

def heading (kind name : List Char) : List Char :=
  (match c.helpTexts name with
    | some help => "# HELP ".toList ++ name ++ ' ' :: (help ++ ['\n'])
    | none => []) ++ "# TYPE ".toList ++ name ++ ' ' :: (kind ++ ['\n'])

def family {α : Type} (kind : List Char) (text : α → List Char)
    (metrics : List Char × List (Labels × α)) : List Char :=
  c.heading kind metrics.1 ++ metrics.2.flatMap fun m => sample metrics.1 m.1 (text m.2)

def exportPrometheus : List Char :=
  c.counters.flatMap (c.family "counter".toList (Nat.toDigits 10)) ++
    c.gauges.flatMap (c.family "gauge".toList (Decimal.fixed 6))

def series : List (List Char × Labels) :=
  (c.counters.flatMap fun f => f.2.map fun m => (f.1, m.1)) ++
    c.gauges.flatMap fun f => f.2.map fun m => (f.1, m.1)

def headingLines : ℕ :=
  ((c.counters.map fun f => (c.heading "counter".toList f.1).count '\n').sum) +
    (c.gauges.map fun f => (c.heading "gauge".toList f.1).count '\n').sum

/-- Different series have different texts, and besides the headings the text has one line for each
metric. -/
def Unambiguous : Prop :=
  (∀ m ∈ c.series, ∀ m' ∈ c.series,
      m.1 ++ labelsToString m.2 = m'.1 ++ labelsToString m'.2 → m = m') ∧
    c.exportPrometheus.count '\n' = c.headingLines + c.series.length

end MetricsCollector

def LegalLabelName (s : List Char) : Prop :=
  s.head?.any (!·.isDigit) ∧ ∀ a ∈ s, a.isAlphanum ∨ a = '_'

def LegalMetricName (s : List Char) : Prop :=
  s.head?.any (!·.isDigit) ∧ ∀ a ∈ s, a.isAlphanum ∨ a = '_' ∨ a = ':'

def Legal (m : List Char × Labels) : Prop :=
  LegalMetricName m.1 ∧ ∀ l ∈ m.2.entries, LegalLabelName l.1

def Plain (m : List Char × Labels) : Prop :=
  ∀ l ∈ m.2.entries, '\x22' ∉ l.2 ∧ '\n' ∉ l.2

section
variable {entries entries' : List (List Char × List Char)} {m m' : List Char × Labels}

lemma LegalLabelName.notMem {s : List Char} (h : LegalLabelName s) {a : Char}
    (ha : ¬(a.isAlphanum ∨ a = '_')) : a ∉ s :=
  fun hmem => ha (h.2 a hmem)

lemma LegalMetricName.notMem {s : List Char} (h : LegalMetricName s) {a : Char}
    (ha : ¬(a.isAlphanum ∨ a = '_' ∨ a = ':')) : a ∉ s :=
  fun hmem => ha (h.2 a hmem)

lemma appendLabels_inj {first : Bool} (hlegal : ∀ l ∈ entries, LegalLabelName l.1)
    (hlegal' : ∀ l ∈ entries', LegalLabelName l.1) (hplain : ∀ l ∈ entries, '\x22' ∉ l.2)
    (hplain' : ∀ l ∈ entries', '\x22' ∉ l.2) (hfir : first → entries ≠ [] ∧ entries' ≠ [])
    (h : appendLabels first entries ++ ['\x7d'] = appendLabels first entries' ++ ['\x7d']) :
    entries = entries' := by
  induction entries generalizing first entries' with
  | nil =>
    cases entries' with
    | nil => rfl
    | cons l' entries' =>
      have hrest : first = false := by simpa using hfir
      simp [appendLabels, hrest] at h
  | cons l entries ih =>
    cases entries' with
    | nil =>
      have hrest : first = false := by simpa using hfir
      simp [appendLabels, hrest] at h
    | cons l' entries' =>
      rw [forall_mem_cons] at hlegal hlegal' hplain hplain'
      simp only [appendLabels, append_assoc, cons_append] at h
      obtain ⟨hkey, h⟩ := append_cons_inj (hlegal.1.notMem (by decide))
        (hlegal'.1.notMem (by decide)) (append_cancel_left h)
      obtain ⟨hvl, h⟩ := append_cons_inj hplain.1 hplain'.1 (List.cons.inj h).2
      rw [Prod.ext hkey hvl, ih hlegal.2 hlegal'.2 hplain.2 hplain'.2 (by simp) h]

lemma series_inj (hlegal : Legal m) (hlegal' : Legal m') (hplain : Plain m) (hplain' : Plain m')
    (h : m.1 ++ labelsToString m.2 = m'.1 ++ labelsToString m'.2) : m = m' := by
  obtain ⟨name, entries, hsrt⟩ := m
  obtain ⟨name', entries', hsrt'⟩ := m'
  have hbrc : '\x7b' ∉ name := hlegal.1.notMem (by decide)
  have hbrc' : '\x7b' ∉ name' := hlegal'.1.notMem (by decide)
  suffices hsuff : name = name' ∧ entries = entries' by simp [hsuff]
  simp only [labelsToString] at h
  split_ifs at h with hnil hnil' hnil'
  · simpa [hnil, hnil'] using h
  · rw [append_nil] at h
    exact absurd (by simp [h]) hbrc
  · rw [append_nil] at h
    exact absurd (by simp [← h]) hbrc'
  · obtain ⟨hname, h⟩ := append_cons_inj hbrc hbrc' h
    exact ⟨hname, appendLabels_inj hlegal.2 hlegal'.2 (fun l hl => (hplain l hl).1)
      (fun l hl => (hplain' l hl).1) (fun _ => ⟨hnil, hnil'⟩) h⟩

lemma notMem_appendLabels {first : Bool} (hlegal : ∀ l ∈ entries, LegalLabelName l.1)
    (hplain : ∀ l ∈ entries, '\n' ∉ l.2) : '\n' ∉ appendLabels first entries := by
  induction entries generalizing first with
  | nil => simp [appendLabels]
  | cons l entries ih =>
    rw [forall_mem_cons] at hlegal hplain
    have hkey : '\n' ∉ l.1 := hlegal.1.notMem (by decide)
    have hrest : '\n' ∉ appendLabels false entries := ih hlegal.2 hplain.2
    cases first <;> simp [appendLabels, hkey, hplain.1, hrest]

lemma notMem_series (hlegal : Legal m) (hplain : Plain m) :
    '\n' ∉ m.1 ++ labelsToString m.2 := by
  have hname : '\n' ∉ m.1 := hlegal.1.notMem (by decide)
  have hlab : '\n' ∉ appendLabels true m.2.entries :=
    notMem_appendLabels hlegal.2 fun l hl => (hplain l hl).2
  rw [labelsToString]
  split_ifs <;> simp [hname, hlab]

end

namespace MetricsCollector
variable {c : MetricsCollector} {α : Type} {kind : List Char} {text : α → List Char}

lemma count_sample {name value : List Char} {labels : Labels} (hlegal : Legal (name, labels))
    (hplain : Plain (name, labels)) (hvl : '\n' ∉ value) :
    (sample name labels value).count '\n' = 1 := by
  rw [sample, count_append, count_eq_zero_of_not_mem (notMem_series hlegal hplain)]
  simp [count_eq_zero_of_not_mem hvl]

lemma count_families (htext : ∀ v, '\n' ∉ text v)
    {families : List (List Char × List (Labels × α))}
    (h : ∀ m ∈ families.flatMap fun f => f.2.map fun m => (f.1, m.1), Legal m ∧ Plain m) :
    (families.flatMap (c.family kind text)).count '\n' =
      (families.map fun f => (c.heading kind f.1).count '\n').sum +
        (families.flatMap fun f => f.2.map fun m => (f.1, m.1)).length := by
  induction families with
  | nil => rfl
  | cons f families ih =>
    rw [flatMap_cons, forall_mem_append] at h
    have hsam : ∀ ms ⊆ f.2,
        (ms.flatMap fun m => sample f.1 m.1 (text m.2)).count '\n' = ms.length := by
      intro ms hms
      induction ms with
      | nil => rfl
      | cons m ms ih =>
        obtain ⟨hm, hms⟩ := cons_subset.mp hms
        obtain ⟨hlegal, hplain⟩ := h.1 (f.1, m.1) (mem_map_of_mem hm)
        rw [flatMap_cons, count_append, count_sample hlegal hplain (htext m.2), ih hms,
          length_cons, Nat.add_comm]
    rw [flatMap_cons, count_append, ih h.2, family, count_append,
      hsam f.2 (List.Subset.refl _), map_cons, sum_cons, flatMap_cons,
      length_append, length_map]
    omega

lemma notMem_fixed (q : ℚ) : '\n' ∉ Decimal.fixed 6 q := fun hmem => by
  have hread := Decimal.number?_fixed (by decide : 0 < 6) q
  exact absurd (Decimal.isNumeric_of_number? (by rw [hread]; rfl) hmem) (by decide)

lemma notMem_toDigits (n : ℕ) : '\n' ∉ Nat.toDigits 10 n := fun hmem =>
  absurd (Decimal.isDigit_toDigits n _ hmem) (by decide)

def requests : MetricsCollector where
  counters := [(['n'], [(⟨[(['a'], [',', 'b', '='])], by simp⟩, 7)])]
  gauges := []
  helpTexts := fun _ => none

/-- The value of the only label of the second counter reads like the labels of the first one. -/
def forged : MetricsCollector where
  counters := [(['m'], [(⟨[(['a'], ['x']), (['b'], ['y'])], by decide⟩, 1),
    (⟨[(['a'], ['x', '\x22', ',', 'b', '=', '\x22', 'y'])], by simp⟩, 2)])]
  gauges := []
  helpTexts := fun _ => none

end MetricsCollector
end Mxrc.Monitoring
