import Mathlib

/-!
# Which files retention deletes

`listFiles` writes a dot for each star of a pattern and `.*` in front, so
`*.bag` becomes `.*..bag`: at least two characters of one line and then `bag`.
`removable` says which calls of `fs::remove` succeed.
-/

namespace Mxrc.Logging
open List

structure File where
  name : List UInt8
  regular : Bool := true
  mtime : ℤ
  size : UInt64 := 0
deriving DecidableEq

inductive Atom
  | any
  | literal (c : UInt8)

/-- A dot does not match a line break. -/
def Atom.accepts : Atom → UInt8 → Bool
  | .any, c => c ≠ 10 ∧ c ≠ 13
  | .literal d, c => c = d

def Atom.ofChar (c : UInt8) : Atom := if c = 46 then .any else .literal c

def parseRegex : List UInt8 → List (Atom × Bool)
  | c :: 42 :: rest => (.ofChar c, true) :: parseRegex rest
  | c :: rest => (.ofChar c, false) :: parseRegex rest
  | [] => []

def matchRegex : List (Atom × Bool) → List UInt8 → Bool
  | [], s => s = []
  | (_, false) :: _, [] => false
  | (a, false) :: regex, c :: s => a.accepts c && matchRegex regex s
  | (a, true) :: regex, s =>
    (List.range (s.length + 1)).any fun n =>
      (s.take n).all a.accepts && matchRegex regex (s.drop n)

def listFiles (dir : List File) (pattern : List UInt8) : List File :=
  let regex := parseRegex (46 :: 42 :: pattern.map fun c => if c = 42 then 46 else c)
  (dir.filter fun f => f.regular && (pattern = [42] || matchRegex regex f.name)).insertionSort
    (·.mtime ≤ ·.mtime)

inductive RetentionType
  | time
  | count

structure RetentionPolicy where
  type : RetentionType := .time
  maxAgeDays : UInt32 := 7
  maxFileCount : UInt32 := 100

def RetentionPolicy.shouldDelete (policy : RetentionPolicy) (now fileTime : ℤ)
    (totalFileCount fileIndex : ℕ) : Bool :=
  match policy.type with
  | .time => (now - fileTime).tdiv 3600000000000 ≥ (policy.maxAgeDays * 24).toNat
  | .count => totalFileCount > policy.maxFileCount.toNat ∧
      fileIndex < totalFileCount - policy.maxFileCount.toNat

namespace RetentionManager

def listBagFiles (dir : List File) : List File := listFiles dir [42, 46, 98, 97, 103]

variable (policy : RetentionPolicy) (now : ℤ) (removable : File → Bool) (dir : List File)

def deleteOldFiles : List File :=
  let files := listBagFiles dir
  (files.zipIdx.filter fun (f, i) =>
    -- the time of a file is in seconds
    policy.shouldDelete now (f.mtime.tdiv 1000000000 * 1000000000) files.length i &&
      removable f).map Prod.fst

def emergencyLoop (requiredBytes : UInt64) : UInt64 → List File → List File
  | _, [] => []
  | freedSpace, f :: files =>
    if removable f then
      let freedSpace := freedSpace + f.size
      f :: if freedSpace ≥ requiredBytes then [] else emergencyLoop requiredBytes freedSpace files
    else emergencyLoop requiredBytes freedSpace files

def emergencyDeleteOldest (requiredBytes : UInt64) : List File :=
  emergencyLoop removable requiredBytes 0 (listBagFiles dir)

end RetentionManager

open RetentionManager

def File.IsBag (f : File) : Prop := f.regular ∧ [46, 98, 97, 103] <:+ f.name

/-- The listing has the bag files, oldest first, and only bag files are deleted. -/
structure RetentionExact (dir : List File) : Prop where
  listed : ∀ f, f ∈ listBagFiles dir ↔ f ∈ dir ∧ f.IsBag
  sorted : (listBagFiles dir).Pairwise (·.mtime ≤ ·.mtime)
  deleteOld : ∀ policy now removable, ∀ f ∈ deleteOldFiles policy now removable dir, f.IsBag
  emergency : ∀ removable required,
    ∀ f ∈ emergencyDeleteOldest removable dir required, f.IsBag

/-- What is before `bag` ends in a dot exactly if it has two characters and no line break. -/
def Clear (name : List UInt8) : Prop :=
  ∀ front, name = front ++ [98, 97, 103] →
    (2 ≤ front.length ∧ front.all Atom.any.accepts ↔ front.getLast? = some 46)

section
variable {name s : List UInt8} {f : File} {dir : List File}

lemma matchRegex_tail_iff :
    matchRegex [(.any, false), (.any, false), (.literal 98, false), (.literal 97, false),
        (.literal 103, false)] s ↔
      ∃ x y, s = [x, y, 98, 97, 103] ∧ Atom.any.accepts x ∧ Atom.any.accepts y := by
  constructor
  · intro h
    obtain _ | ⟨x, _ | ⟨y, _ | ⟨b, _ | ⟨a, _ | ⟨g, _ | ⟨c, s⟩⟩⟩⟩⟩⟩ := s <;>
      simp_all [matchRegex, Atom.accepts]
  · rintro ⟨x, y, rfl, hx, hy⟩
    simp [matchRegex, Atom.accepts] at hx hy ⊢
    exact ⟨hx, hy⟩

lemma matchRegex_star_iff {a : Atom} {regex : List (Atom × Bool)} :
    matchRegex ((a, true) :: regex) s ↔
      ∃ front rest, s = front ++ rest ∧ front.all a.accepts ∧ matchRegex regex rest := by
  rw [matchRegex, any_eq_true]
  simp only [mem_range, Bool.and_eq_true]
  constructor
  · rintro ⟨n, -, hall, hrest⟩
    exact ⟨s.take n, s.drop n, (take_append_drop n s).symm, hall, hrest⟩
  · rintro ⟨front, rest, rfl, hall, hrest⟩
    exact ⟨front.length, by simp, by simpa using hall, by simpa using hrest⟩

lemma matchRegex_bag_iff :
    matchRegex (parseRegex [46, 42, 46, 46, 98, 97, 103]) name ↔
      ∃ front, name = front ++ [98, 97, 103] ∧ 2 ≤ front.length ∧
        front.all Atom.any.accepts := by
  rw [show parseRegex [46, 42, 46, 46, 98, 97, 103] = (.any, true) :: [(.any, false), (.any, false),
    (.literal 98, false), (.literal 97, false), (.literal 103, false)] from rfl,
    matchRegex_star_iff]
  simp only [matchRegex_tail_iff]
  constructor
  · rintro ⟨front, -, rfl, hall, x, y, rfl, hx, hy⟩
    exact ⟨front ++ [x, y], by simp, by simp, by simpa [hx, hy] using hall⟩
  · rintro ⟨front, rfl, hlen, hall⟩
    rw [← take_append_drop (front.length - 2) front, all_append, Bool.and_eq_true] at hall
    obtain ⟨x, y, hxy⟩ := length_eq_two.mp
      (show (front.drop (front.length - 2)).length = 2 by rw [length_drop]; omega)
    rw [hxy] at hall
    refine ⟨front.take (front.length - 2), [x, y, 98, 97, 103], ?_, hall.1, x, y, rfl, ?_⟩
    · conv_lhs => rw [← take_append_drop (front.length - 2) front, hxy]
      simp
    · simpa using hall.2

lemma suffix_bag_iff : [46, 98, 97, 103] <:+ name ↔
    ∃ front, name = front ++ [98, 97, 103] ∧ front.getLast? = some 46 := by
  constructor
  · rintro ⟨front, rfl⟩
    exact ⟨front ++ [46], by simp, by simp⟩
  · rintro ⟨front, rfl, hlast⟩
    obtain ⟨front, rfl⟩ := getLast?_eq_some_iff.mp hlast
    exact ⟨front, by simp⟩

lemma clear_iff : Clear name ↔
    (matchRegex (parseRegex [46, 42, 46, 46, 98, 97, 103]) name ↔
      [46, 98, 97, 103] <:+ name) := by
  rw [matchRegex_bag_iff, suffix_bag_iff]
  constructor
  · exact fun h => exists_congr fun front => and_congr_right fun hname => h front hname
  · rintro h front rfl
    simpa using h

lemma mem_listBagFiles : f ∈ listBagFiles dir ↔
    f ∈ dir ∧ f.regular ∧ matchRegex (parseRegex [46, 42, 46, 46, 98, 97, 103]) f.name := by
  rw [listBagFiles, listFiles, mem_insertionSort, mem_filter]
  simp

lemma mem_of_mem_deleteOldFiles {policy : RetentionPolicy} {now : ℤ} {removable : File → Bool}
    (h : f ∈ deleteOldFiles policy now removable dir) : f ∈ listBagFiles dir := by
  obtain ⟨⟨g, i⟩, hmem, rfl⟩ := mem_map.mp h
  exact fst_mem_of_mem_zipIdx (mem_filter.mp hmem).1

lemma mem_of_mem_emergencyLoop {removable : File → Bool} {required freed : UInt64}
    {files : List File} (h : f ∈ emergencyLoop removable required freed files) : f ∈ files := by
  induction files generalizing freed with
  | nil => exact h
  | cons g files ih =>
    rw [emergencyLoop] at h
    split_ifs at h with hg
    · rcases mem_cons.mp h with rfl | h
      · exact mem_cons_self
      · split_ifs at h
        · simp at h
        · exact mem_cons_of_mem _ (ih h)
    · exact mem_cons_of_mem _ (ih h)

end

theorem retention_exact_iff (dir : List File) :
    RetentionExact dir ↔ ∀ f ∈ dir, f.regular → Clear f.name := by
  constructor
  · intro h f hf hreg
    rw [clear_iff]
    have hlis := h.listed f
    rw [mem_listBagFiles, File.IsBag] at hlis
    simpa [hf, hreg] using hlis
  · intro h
    have hlis : ∀ f, f ∈ listBagFiles dir ↔ f ∈ dir ∧ f.IsBag := by
      intro f
      rw [mem_listBagFiles, File.IsBag]
      exact and_congr_right fun hf => and_congr_right fun hreg => clear_iff.mp (h f hf hreg)
    refine ⟨hlis, pairwise_insertionSort _ _, ?_, ?_⟩
    · intro policy now removable f hf
      exact ((hlis f).mp (mem_of_mem_deleteOldFiles hf)).2
    · intro removable required f hf
      exact ((hlis f).mp (mem_of_mem_emergencyLoop hf)).2

/-- A file with the name `airbag` is listed. -/
theorem not_retention_exact : ¬ ∀ dir : List File, RetentionExact dir := by
  intro h
  let airbag : File := ⟨[97, 105, 114, 98, 97, 103], true, 0, 0⟩
  have hlis : airbag ∈ listBagFiles [airbag] :=
    mem_listBagFiles.mpr ⟨mem_singleton_self _, rfl, by decide⟩
  exact absurd (((h [airbag]).listed airbag).mp hlis).2.2 (by decide)

end Mxrc.Logging
