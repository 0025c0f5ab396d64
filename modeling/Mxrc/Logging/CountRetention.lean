import Mxrc.Lib.Runs
import Mxrc.Logging.RetentionManager

/-!
# Rotations under a `COUNT` policy

A rotation deletes the oldest files down to `maxFileCount` and then creates the
next file. Names are `Clear`, so the files listed are those with the extension
`.bag`; deletions succeed. A `write` is what messages do to the open file.
-/

namespace Mxrc.Logging
open Mxrc.Lib RetentionManager List

structure Named (files : List File) : Prop where
  nodup : (files.map File.name).Nodup
  clear : ∀ f ∈ files, f.regular → Clear f.name

structure BagName where
  text : List UInt8
  clear : Clear text
  bag : [46, 98, 97, 103] <:+ text

structure Recorder where
  files : List File
  isOpen : Bool := false
  current : Option (List UInt8) := none

namespace Recorder

inductive Label
  | openFile (name : Option { name : List UInt8 // Clear name }) (mtime : ℤ) (opened : Bool)
  | write (mtime : ℤ) (size : UInt64)
  | rotate (name : BagName) (mtime : ℤ) (opened : Bool)

def canOpen (files : List File) (name : List UInt8) : Bool :=
  files.all fun f => f.name ≠ name || f.regular

def create (files : List File) (name : List UInt8) (mtime : ℤ) : List File :=
  if files.any (·.name = name) then files else files ++ [⟨name, true, mtime, 0⟩]

variable (maxFileCount : UInt32) (s : Recorder)

def openFile (name : Option (List UInt8)) (mtime : ℤ) (opened : Bool) : Recorder :=
  if s.isOpen || !opened then s
  else
    match name with
    | none => { s with isOpen := true, current := none }
    | some name =>
      if canOpen s.files name then
        { files := create s.files name mtime, isOpen := true, current := some name }
      else s

def write (mtime : ℤ) (size : UInt64) : Recorder :=
  { s with files := s.files.map fun f => if s.current = some f.name then { f with mtime, size }
      else f }

def kept : List File :=
  s.files.filter (· ∉ deleteOldFiles { type := .count, maxFileCount } 0 (fun _ => true) s.files)

def Rotates (name : BagName) (opened : Bool) : Prop :=
  s.isOpen ∧ opened ∧ canOpen (s.kept maxFileCount) name.text

instance (name : BagName) (opened : Bool) : Decidable (s.Rotates maxFileCount name opened) :=
  inferInstanceAs (Decidable (_ ∧ _))

def rotate (name : BagName) (mtime : ℤ) (opened : Bool) : Recorder :=
  if s.Rotates maxFileCount name opened then
    { files := create (s.kept maxFileCount) name.text mtime, isOpen := true,
      current := some name.text }
  else if s.isOpen then { files := s.kept maxFileCount }
  else s

def next : Label → Option Recorder
  | .openFile name mtime opened => some (s.openFile (name.map Subtype.val) mtime opened)
  | .write mtime size => if s.isOpen then some (s.write mtime size) else none
  | .rotate name mtime opened => some (s.rotate maxFileCount name mtime opened)

end Recorder

instance (f : File) : Decidable f.IsBag := inferInstanceAs (Decidable (_ ∧ _))

def bagFiles (files : List File) : List File := files.filter (·.IsBag)

namespace Recorder
variable (maxFileCount : UInt32)

/-- There are at most `maxFileCount` files, those that are gone are not newer, and the current file
is among them. -/
structure Bounded (s s' : Recorder) : Prop where
  length : (bagFiles s'.files).length ≤ maxFileCount.toNat
  recent : ∀ f ∈ bagFiles s.files, f ∉ s'.files → ∀ g ∈ bagFiles s'.files, f.mtime ≤ g.mtime
  current : ∃ g ∈ bagFiles s'.files, s'.current = some g.name

def RotationBounded (s : Recorder) : Label → Prop
  | .rotate name mtime opened => s.Rotates maxFileCount name opened →
      Bounded maxFileCount s (s.rotate maxFileCount name mtime opened)
  | _ => True

def HasRoom (s : Recorder) : Label → Prop
  | .rotate name _ opened => s.Rotates maxFileCount name opened →
      (bagFiles s.files).length < maxFileCount.toNat ∨
        ∃ f ∈ s.kept maxFileCount, f.name = name.text
  | _ => True

end Recorder

section
variable {files : List File} {name : List UInt8} {mtime : ℤ}

lemma Named.filter (h : Named files) (p : File → Bool) : Named (files.filter p) :=
  ⟨h.nodup.sublist (filter_sublist.map _),
    fun f hf => h.clear f (mem_of_mem_filter hf)⟩

lemma Named.create (h : Named files) (hname : Clear name) :
    Named (Recorder.create files name mtime) := by
  rw [Recorder.create]
  split_ifs with hany
  · exact h
  · simp only [any_eq_true, decide_eq_true_eq, not_exists, not_and] at hany
    refine ⟨?_, ?_⟩
    · rw [map_append, map_singleton, nodup_append]
      refine ⟨h.nodup, nodup_singleton _, ?_⟩
      rintro a ha b hb rfl
      obtain ⟨f, hf, rfl⟩ := mem_map.mp ha
      exact hany f hf (mem_singleton.mp hb)
    · intro f hf hreg
      rcases mem_append.mp hf with hf | hf
      · exact h.clear f hf hreg
      · rw [mem_singleton.mp hf]
        exact hname

lemma Named.listBagFiles_perm (h : Named files) :
    (listBagFiles files).Perm (bagFiles files) := by
  refine (perm_insertionSort _ _).trans (.of_eq (filter_congr fun f hf => ?_))
  rw [Bool.eq_iff_iff, decide_eq_true_eq, Bool.and_eq_true]
  exact and_congr_right fun hreg => by simpa using clear_iff.mp (h.clear f hf hreg)

lemma Named.nodup_listBagFiles (h : Named files) : (listBagFiles files).Nodup :=
  h.listBagFiles_perm.nodup_iff.mpr (h.nodup.of_map.filter _)

end

section
variable {α : Type*}

lemma map_fst_filter_zipIdx (l : List α) (n k : ℕ) :
    ((l.zipIdx k).filter (·.2 < n)).map Prod.fst = l.take (n - k) := by
  induction l generalizing k with
  | nil => simp
  | cons a l ih =>
    by_cases hk : k < n
    · obtain ⟨m, hm⟩ : ∃ m, n - k = m + 1 := ⟨n - k - 1, by omega⟩
      simp [zipIdx_cons, hk, ih, hm, show n - (k + 1) = m by omega]
    · simp [zipIdx_cons, hk, ih, show n - (k + 1) = 0 by omega, show n - k = 0 by omega]

lemma filter_notMem_take [DecidableEq α] {l : List α} (h : l.Nodup) (n : ℕ) :
    l.filter (· ∉ l.take n) = l.drop n := by
  have hdis := disjoint_take_drop h (le_refl n)
  conv_lhs =>
    arg 2
    rw [← take_append_drop n l]
  rw [filter_append, filter_eq_nil_iff.mpr (by simp), nil_append,
    filter_eq_self.mpr fun a ha => by simpa using fun hmem => hdis hmem ha]

end

namespace Recorder
variable {maxFileCount : UInt32} {s : Recorder} {name : BagName} {mtime : ℤ} {opened : Bool}

lemma deleteOldFiles_count (maxFileCount : UInt32) (files : List File) :
    deleteOldFiles { type := .count, maxFileCount } 0 (fun _ => true) files =
      (listBagFiles files).take ((listBagFiles files).length - maxFileCount.toNat) := by
  rw [← Nat.sub_zero (_ - _), ← map_fst_filter_zipIdx, deleteOldFiles]
  refine congrArg (List.map Prod.fst) (filter_congr ?_)
  rintro ⟨f, i⟩ -
  simp only [RetentionPolicy.shouldDelete, Bool.and_true, decide_eq_decide]
  omega

lemma bagFiles_kept_perm (h : Named s.files) :
    (bagFiles (s.kept maxFileCount)).Perm ((listBagFiles s.files).drop
      ((listBagFiles s.files).length - maxFileCount.toNat)) := by
  rw [← filter_notMem_take h.nodup_listBagFiles, ← deleteOldFiles_count, kept, bagFiles,
    filter_comm]
  exact (h.listBagFiles_perm.filter _).symm

lemma length_kept (h : Named s.files) : (bagFiles (s.kept maxFileCount)).length =
    min (bagFiles s.files).length maxFileCount.toNat := by
  rw [(bagFiles_kept_perm h).length_eq, length_drop, h.listBagFiles_perm.length_eq]
  omega

lemma mem_kept {f : File} : f ∈ s.kept maxFileCount ↔ f ∈ s.files ∧
    f ∉ deleteOldFiles { type := .count, maxFileCount } 0 (fun _ => true) s.files := by
  simp [kept]

lemma kept_recent (h : Named s.files) {f g : File} (hf : f ∈ bagFiles s.files)
    (hgone : f ∉ s.kept maxFileCount) (hg : g ∈ bagFiles (s.kept maxFileCount)) :
    f.mtime ≤ g.mtime := by
  have hsrt : (listBagFiles s.files).Pairwise (·.mtime ≤ ·.mtime) :=
    pairwise_insertionSort _ _
  rw [← take_append_drop ((listBagFiles s.files).length - maxFileCount.toNat)
    (listBagFiles s.files), List.pairwise_append] at hsrt
  refine hsrt.2.2 f ?_ g ((bagFiles_kept_perm h).mem_iff.mp hg)
  rw [mem_kept, deleteOldFiles_count, not_and_not_right] at hgone
  exact hgone (mem_of_mem_filter hf)

lemma kept_eq (h : Named s.files)
    (hroom : (bagFiles s.files).length ≤ maxFileCount.toNat) : s.kept maxFileCount = s.files := by
  refine filter_eq_self.mpr fun f _ => ?_
  rw [deleteOldFiles_count, h.listBagFiles_perm.length_eq, Nat.sub_eq_zero_of_le hroom]
  simp

lemma rotate_bounded_iff (h : Named s.files) (hrot : s.Rotates maxFileCount name opened) :
    Bounded maxFileCount s (s.rotate maxFileCount name mtime opened) ↔
      (bagFiles s.files).length < maxFileCount.toNat ∨
        ∃ f ∈ s.kept maxFileCount, f.name = name.text := by
  have hlen : (bagFiles (s.kept maxFileCount)).length =
      min (bagFiles s.files).length maxFileCount.toNat := length_kept h
  rw [rotate, if_pos hrot]
  by_cases hname : ∃ f ∈ s.kept maxFileCount, f.name = name.text
  · have hcrt : create (s.kept maxFileCount) name.text mtime = s.kept maxFileCount :=
      if_pos (by simpa using hname)
    refine iff_of_true ⟨?_, ?_, ?_⟩ (.inr hname)
    · simp only [hcrt, hlen]
      exact min_le_right _ _
    · simp only [hcrt]
      exact fun f hf hgone g hg => kept_recent h hf hgone hg
    · obtain ⟨f, hf, hfnm⟩ := hname
      have hreg : f.regular := by
        simpa [hfnm] using all_eq_true.mp hrot.2.2 f hf
      simp only [hcrt]
      exact ⟨f, mem_filter.mpr ⟨hf, by simp [File.IsBag, hreg, hfnm, name.bag]⟩,
        by rw [hfnm]⟩
  · have hcrt : create (s.kept maxFileCount) name.text mtime =
        s.kept maxFileCount ++ [⟨name.text, true, mtime, 0⟩] := if_neg (by simpa using hname)
    have hbag : bagFiles (create (s.kept maxFileCount) name.text mtime) =
        bagFiles (s.kept maxFileCount) ++ [⟨name.text, true, mtime, 0⟩] := by
      rw [hcrt, bagFiles, filter_append]
      simp [File.IsBag, name.bag, bagFiles]
    constructor
    · intro hboun
      have hle := hboun.length
      simp only [hbag, length_append, hlen, length_singleton] at hle
      exact .inl (by omega)
    · rintro (hroom | hkept)
      · refine ⟨?_, ?_, ?_⟩
        · simp only [hbag, length_append, hlen, length_singleton]
          omega
        · intro f hf hgone
          have hmem : f ∈ create (s.kept maxFileCount) name.text mtime := by
            rw [hcrt, kept_eq h hroom.le]
            exact mem_append_left _ (mem_of_mem_filter hf)
          exact absurd hmem hgone
        · exact ⟨_, hbag ▸ mem_append_right _ (mem_singleton_self _), rfl⟩
      · exact absurd hkept hname

lemma named_next {l : Label} {s' : Recorder} (h : Named s.files)
    (hn : s.next maxFileCount l = some s') : Named s'.files := by
  cases l with
  | openFile name mtime opened =>
    cases hn
    cases name with
    | none =>
      simp only [openFile, Option.map_none]
      split_ifs <;> exact h
    | some name =>
      simp only [openFile, Option.map_some]
      split_ifs
      · exact h
      · exact h.create name.2
      · exact h
  | write mtime size =>
    rw [next] at hn
    split_ifs at hn
    cases hn
    refine ⟨?_, ?_⟩
    · have hnam : (s.write mtime size).files.map File.name = s.files.map File.name := by
        rw [write, map_map]
        refine map_congr_left fun f _ => ?_
        simp only [Function.comp_apply]
        split_ifs <;> rfl
      rw [hnam]
      exact h.nodup
    · intro f hf
      obtain ⟨g, hg, rfl⟩ := mem_map.mp hf
      split_ifs <;> exact h.clear g hg
  | rotate name mtime opened =>
    cases hn
    rw [rotate]
    split_ifs
    · exact (h.filter _).create name.clear
    · exact h.filter _
    · exact h

theorem rotation_bounded_iff (maxFileCount : UInt32) (dir : { files : List File // Named files })
    (ls : List Label) :
    EveryStep (next maxFileCount) (RotationBounded maxFileCount) { files := dir.1 } ls ↔
      EveryStep (next maxFileCount) (HasRoom maxFileCount) { files := dir.1 } ls := by
  refine everyStep_congr (I := fun s => Named s.files) dir.2 fun s l s' h hn => ?_
  refine ⟨?_, fun _ => named_next h hn⟩
  cases l with
  | openFile => exact Iff.rfl
  | write => exact Iff.rfl
  | rotate name mtime opened => exact forall_congr' fun hrot => rotate_bounded_iff h hrot

def letterBag (c : UInt8) (hc : c = 97 ∨ c = 98) : BagName where
  text := [c, 46, 98, 97, 103]
  clear := clear_iff.mpr (by rcases hc with rfl | rfl <;> decide)
  bag := ⟨[c], rfl⟩

/-- With one file allowed, the first rotation leaves two. -/
theorem not_rotation_bounded : ¬ ∀ (maxFileCount : UInt32) (_ : 1 ≤ maxFileCount)
    (dir : { files : List File // Named files }) (ls : List Label),
    EveryStep (next maxFileCount) (RotationBounded maxFileCount) { files := dir.1 } ls := by
  intro h
  let a := letterBag 97 (.inl rfl)
  let b := letterBag 98 (.inr rfl)
  let opened : Recorder := ⟨[⟨a.text, true, 1, 0⟩], true, some a.text⟩
  have hrun : Run (next 1) (fun _ _ => True) { files := [] }
      [.openFile (some ⟨a.text, a.clear⟩) 1 true] opened := .single trivial rfl
  have hboun := h 1 (by decide) ⟨[], by simp, by simp⟩
    [.openFile (some ⟨a.text, a.clear⟩) 1 true, .rotate b 2 true] _ _ [] opened _ rfl hrun rfl
  exact absurd (hboun (by decide +kernel)).length (by decide +kernel)

end Recorder
end Mxrc.Logging
