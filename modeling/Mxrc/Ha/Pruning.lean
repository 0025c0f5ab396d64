import Mxrc.Lib.Runs
import Mxrc.Ha.StateCheckpoint

/-!
# Pruning a checkpoint directory that several processes share

A manager that saves a checkpoint deletes the oldest files of the directory,
whoever wrote them. A save that fails after the file was opened leaves the file
empty, which destroys a checkpoint of the same id.
-/

namespace Mxrc.Ha
open Mxrc.Lib StateCheckpointManager Option Function AList

/-- The ids in the order in which they were last `written` and last `saved`, the `content` saved,
and whether a failed save has `spoiled` it. -/
structure SharedDir where
  directory : CheckpointDir
  clock : ℤ
  written : List String
  saved : List String
  content : String → List UInt8
  spoiled : String → Bool

structure Save (J : Type) where
  process : String
  checkpoint : StateCheckpoint J
  opens : Bool
  now : ℤ

def Save.id {J : Type} (l : Save J) : String := l.checkpoint.filePath

namespace SharedDir

def init (clock : ℤ) : SharedDir := ⟨∅, clock, [], [], fun _ => [], fun _ => false⟩

section
variable {J : Type} (lib : CheckpointLib J) (managers : String → StateCheckpointManager)

def result (s : SharedDir) (l : Save J) : Bool × CheckpointDir :=
  (managers l.process).saveCheckpoint lib s.directory l.checkpoint l.opens l.now

def save (s : SharedDir) (l : Save J) : SharedDir :=
  let s' := { s with directory := (result lib managers s l).2, clock := l.now }
  if !l.opens then s'
  else
    match lib.dump (l.checkpoint.document lib) with
    | .error _ =>
      { s' with
        written := touch l.id s.written
        spoiled := Function.update s.spoiled l.id true }
    | .ok text =>
      { s' with
        written := touch l.id s.written
        saved := touch l.id s.saved
        content := Function.update s.content l.id text
        spoiled := Function.update s.spoiled l.id false }

variable (owner : String → String)

/-- Ids are generated at random, so each belongs to one process. The times increase. -/
def next (s : SharedDir) (l : Save J) : Option SharedDir :=
  if s.clock < l.now ∧ owner l.id = l.process then some (save lib managers s l) else none

def newest (saved : List String) (process : String) : List String :=
  (saved.filter fun id => owner id = process).rtake (managers process).maxCheckpoints

def Keeps (s : SharedDir) : Prop :=
  ∀ process, ∀ id ∈ newest managers owner s.saved process,
    (s.directory.lookup id).map (·.text) = some (s.content id)

def KeepsAfter (s : SharedDir) (l : Save J) : Prop :=
  (result lib managers s l).1 = true → Keeps managers owner (save lib managers s l)

/-- When a process saves, the newest checkpoints of all processes are among the files written last
that it keeps, and none is spoiled. -/
def Spares (s : SharedDir) (l : Save J) : Prop :=
  (result lib managers s l).1 = true →
    ∀ process, ∀ id ∈ newest managers owner (touch l.id s.saved) process,
      id ∈ (touch l.id s.written).rtake (managers l.process).maxCheckpoints ∧
        (id = l.id ∨ s.spoiled id = false)

end

section
variable {J : Type} {lib : CheckpointLib J} {managers : String → StateCheckpointManager}
variable {owner : String → String} {s : SharedDir} {l : Save J}

lemma newest_touch {saved : List String} {a id process : String}
    (h : id ∈ newest managers owner (touch a saved) process) :
    id = a ∨ id ∈ newest managers owner saved process := by
  rw [newest, filter_touch] at h
  split_ifs at h
  · exact mem_rtake_touch h
  · exact Or.inr h

lemma mem_saved_of_newest {saved : List String} {id process : String}
    (h : id ∈ newest managers owner saved process) : id ∈ saved :=
  (List.mem_filter.mp (mem_of_mem_rtake h)).1

structure Inv (managers : String → StateCheckpointManager) (owner : String → String)
    (s : SharedDir) : Prop where
  ordered : Ordered s.directory s.clock
  suffix : listCheckpoints s.directory <:+ s.written
  nodup : s.written.Nodup
  present : ∀ process, ∀ id ∈ newest managers owner s.saved process, id ∈ s.directory
  text : ∀ id file, s.directory.lookup id = some file →
    file.text = if s.spoiled id then [] else s.content id
  content : ∀ id ∈ s.saved, s.content id ≠ []

lemma inv_init (clock : ℤ) : Inv managers owner (init clock) where
  ordered := ⟨List.Pairwise.nil, fun a ha => absurd ha (AList.notMem_empty a)⟩
  suffix := List.suffix_rfl
  nodup := List.nodup_nil
  present _ id hid := absurd (mem_saved_of_newest hid) List.not_mem_nil
  text _ _ h := by cases h
  content _ h := absurd h List.not_mem_nil

lemma Inv.of_not_opens (h : Inv managers owner s) (hpns : l.opens = false)
    (hnow : s.clock < l.now) :
    (result lib managers s l).1 = false ∧ Inv managers owner (save lib managers s l) := by
  have hres : result lib managers s l = (false, s.directory) := by
    simp [result, saveCheckpoint, hpns]
  have hsave : save lib managers s l = { s with clock := l.now } := by
    simp [save, hres, hpns]
  rw [hres, hsave]
  exact ⟨rfl, { h with ordered := ⟨h.ordered.increasing, fun a ha =>
    (h.ordered.past a ha).trans hnow.le⟩ }⟩

lemma Inv.of_error {what : String} (h : Inv managers owner s) (hpns : l.opens = true)
    (hdump : lib.dump (l.checkpoint.document lib) = .error what) (hnow : s.clock < l.now) :
    (result lib managers s l).1 = false ∧ Inv managers owner (save lib managers s l) := by
  let file : CheckpointFile := ⟨l.now, [], true⟩
  have hfile : s.clock < file.time := hnow
  have hres : result lib managers s l = (false, s.directory.insert l.id file) := by
    simp [result, saveCheckpoint, hpns, hdump, Save.id, file]
  have hsave : save lib managers s l = { s with
      directory := s.directory.insert l.id file
      clock := l.now
      written := touch l.id s.written
      spoiled := Function.update s.spoiled l.id true } := by
    simp [save, hres, hpns, hdump]
  obtain ⟨hlist, hord⟩ := h.ordered.insert l.id hfile
  rw [hres, hsave]
  refine ⟨rfl, { h with
    ordered := hord
    suffix := ?_
    nodup := nodup_touch h.nodup
    present := ?_
    text := ?_ }⟩
  · rw [hlist]
    exact suffix_touch h.nodup h.suffix
  · intro process id hid
    rw [mem_insert]
    exact Or.inr (h.present process id hid)
  · intro id file' hlk
    rcases lookup_insert_cases hlk with ⟨rfl, rfl⟩ | ⟨hid, hlk⟩
    · simp [file]
    · simp only [update_of_ne hid]
      exact h.text id file' hlk

structure Saved (managers : String → StateCheckpointManager) (s : SharedDir) (l : Save J)
    (s' : SharedDir) : Prop where
  ordered : Ordered s'.directory l.now
  listing : listCheckpoints s'.directory =
    (touch l.id (listCheckpoints s.directory)).rtake (managers l.process).maxCheckpoints
  lookup : ∀ id, id ∈ s'.directory → id ≠ l.id → s'.directory.lookup id = s.directory.lookup id
  text : ∀ file, s'.directory.lookup l.id = some file → file.text = s'.content l.id
  content_ne_nil : s'.content l.id ≠ []
  clock : s'.clock = l.now
  written : s'.written = touch l.id s.written
  saved : s'.saved = touch l.id s.saved
  content : ∀ id, id ≠ l.id → s'.content id = s.content id
  spoiled : s'.spoiled = Function.update s.spoiled l.id false

lemma Inv.saved_of_ok {text : List UInt8} (h : Inv managers owner s) (hpns : l.opens = true)
    (hdump : lib.dump (l.checkpoint.document lib) = .ok text) (hnow : s.clock < l.now) :
    (result lib managers s l).1 = true ∧ Saved managers s l (save lib managers s l) := by
  let file : CheckpointFile := ⟨l.now, text, true⟩
  have hfile : s.clock < file.time := hnow
  let m := managers l.process
  have hres : result lib managers s l = (true, m.cleanUp (s.directory.insert l.id file)) := by
    simp [result, saveCheckpoint, hpns, hdump, Save.id, file, m]
  have hsave : save lib managers s l = {
      directory := m.cleanUp (s.directory.insert l.id file)
      clock := l.now
      written := touch l.id s.written
      saved := touch l.id s.saved
      content := Function.update s.content l.id text
      spoiled := Function.update s.spoiled l.id false } := by
    simp [save, hres, hpns, hdump]
  obtain ⟨hins, hord⟩ := h.ordered.insert l.id hfile
  obtain ⟨hlist, hord⟩ := hord.cleanUp m
  rw [hins] at hlist
  have hlk : ∀ id file', (m.cleanUp (s.directory.insert l.id file)).lookup id = some file' →
      (s.directory.insert l.id file).lookup id = some file' := by
    intro id file' hid
    rw [lookup_cleanUp] at hid
    split_ifs at hid
    exact hid
  rw [hres, hsave]
  refine ⟨rfl, hord, hlist, ?_, ?_, ?_, rfl, rfl, rfl, ?_, rfl⟩
  · intro id hid hne
    obtain ⟨file', hfile⟩ := isSome_iff_exists.mp (lookup_isSome.mpr hid)
    rw [hfile, ← lookup_insert_ne hne, hlk id file' hfile]
  · intro file' hfile
    have hnew := hlk l.id file' hfile
    rw [lookup_insert] at hnew
    cases hnew
    exact (update_self l.id text s.content).symm
  · simp only [update_self]
    exact lib.dump_ne_nil hdump
  · intro id hne
    exact update_of_ne hne text s.content

namespace Saved
variable {s' : SharedDir} {process id : String}

section
variable (hs : Saved managers s l s') (h : Inv managers owner s)
include hs h

lemma mem_iff (hid : id ∈ newest managers owner (touch l.id s.saved) process) :
    id ∈ s'.directory ↔
      id ∈ (touch l.id s.written).rtake (managers l.process).maxCheckpoints := by
  have hfile : id ∈ touch l.id (listCheckpoints s.directory) := by
    rw [mem_touch, mem_listCheckpoints]
    exact (newest_touch hid).imp_right (h.present process id)
  rw [← mem_listCheckpoints, hs.listing]
  exact mem_rtake_iff_of_suffix (suffix_touch h.nodup h.suffix) hfile _

lemma text_of_ne {file : CheckpointFile} (hne : id ≠ l.id)
    (hfile : s'.directory.lookup id = some file) :
    file.text = if s.spoiled id then [] else s'.content id := by
  have hmem : id ∈ s'.directory := lookup_isSome.mp (by rw [hfile]; rfl)
  rw [hs.lookup id hmem hne] at hfile
  rw [hs.content id hne]
  exact h.text id file hfile

lemma lookup_text_iff (hid : id ∈ newest managers owner (touch l.id s.saved) process) :
    (s'.directory.lookup id).map (·.text) = some (s'.content id) ↔
      id ∈ (touch l.id s.written).rtake (managers l.process).maxCheckpoints ∧
        (id = l.id ∨ s.spoiled id = false) := by
  rw [← hs.mem_iff h hid, ← lookup_isSome]
  cases hfile : s'.directory.lookup id with
  | none => simp
  | some file =>
    simp only [map_some, Option.some.injEq, isSome_some, true_and]
    by_cases hne : id = l.id
    · subst hne
      exact iff_of_true (hs.text file hfile) (Or.inl rfl)
    · have hcon : s'.content id ≠ [] := by
        rw [hs.content id hne]
        exact h.content id ((newest_touch hid).resolve_left hne |> mem_saved_of_newest)
      rw [hs.text_of_ne h hne hfile]
      cases s.spoiled id with
      | false => simp
      | true => simpa [hne] using hcon.symm

lemma inv (hkps : Keeps managers owner s') : Inv managers owner s' where
  ordered := hs.clock ▸ hs.ordered
  suffix := by
    rw [hs.listing, hs.written]
    exact (rtake_suffix _ _).trans (suffix_touch h.nodup h.suffix)
  nodup := hs.written ▸ nodup_touch h.nodup
  present process id hid := by
    have hfile := hkps process id hid
    obtain ⟨file, hfile, -⟩ := map_eq_some_iff.mp hfile
    exact lookup_isSome.mp (by rw [hfile]; rfl)
  text id file hfile := by
    rw [hs.spoiled]
    by_cases hne : id = l.id
    · subst hne
      rw [update_self]
      exact hs.text file hfile
    · rw [update_of_ne hne]
      exact hs.text_of_ne h hne hfile
  content id hid := by
    by_cases hne : id = l.id
    · exact hne ▸ hs.content_ne_nil
    · rw [hs.saved, mem_touch] at hid
      rw [hs.content id hne]
      exact h.content id (hid.resolve_left hne)

end
end Saved

lemma keepsAfter_step (h : Inv managers owner s) (hnow : s.clock < l.now) :
    (KeepsAfter lib managers owner s l ↔ Spares lib managers owner s l) ∧
      (KeepsAfter lib managers owner s l → Inv managers owner (save lib managers s l)) := by
  have hfls : (result lib managers s l).1 = false ∧ Inv managers owner (save lib managers s l) →
      (KeepsAfter lib managers owner s l ↔ Spares lib managers owner s l) ∧
        (KeepsAfter lib managers owner s l → Inv managers owner (save lib managers s l)) := by
    rintro ⟨hfal, hinv⟩
    exact ⟨by simp [KeepsAfter, Spares, hfal], fun _ => hinv⟩
  cases hpns : l.opens with
  | false => exact hfls (h.of_not_opens hpns hnow)
  | true =>
    cases hdump : lib.dump (l.checkpoint.document lib) with
    | error what => exact hfls (h.of_error hpns hdump hnow)
    | ok text =>
      obtain ⟨htrue, hs⟩ := h.saved_of_ok hpns hdump hnow
      constructor
      · simp only [KeepsAfter, Spares, htrue, forall_const, Keeps, hs.saved]
        exact forall_congr' fun process => forall₂_congr fun id hid => hs.lookup_text_iff h hid
      · intro hkps
        exact hs.inv h (hkps htrue)

end

section
variable {J : Type} (lib : CheckpointLib J) (managers : String → StateCheckpointManager)
variable (owner : String → String)

theorem keepsNewest_iff_spares (clock : ℤ) (ls : List (Save J)) :
    EveryStep (next lib managers owner) (KeepsAfter lib managers owner) (init clock) ls ↔
      EveryStep (next lib managers owner) (Spares lib managers owner) (init clock) ls := by
  refine everyStep_congr (I := Inv managers owner) (inv_init clock) fun s l s' h hn => ?_
  rw [next] at hn
  split_ifs at hn with hnow
  cases hn
  exact keepsAfter_step h hnow.1

/-- Two processes with limit 1 save one after the other. -/
theorem not_keepsAfter : ¬ ∀ (J : Type) (lib : CheckpointLib J)
    (managers : String → StateCheckpointManager) (owner : String → String) (clock : ℤ)
    (ls : List (Save J)), (∀ process, 1 ≤ (managers process).maxCheckpoints) →
      EveryStep (next lib managers owner) (KeepsAfter lib managers owner) (init clock) ls := by
  intro hall
  let lib := sampleLib (fun _ => .error (.parseError "")) [0] (List.cons_ne_nil 0 [])
  let managers : String → StateCheckpointManager := fun process =>
    { processName := process, maxCheckpoints := 1 }
  let owner : String → String := fun id => if id = "a" then "mxrc-rt" else "mxrc-nonrt"
  let save (process id : String) (now : ℤ) : Save JsonValue :=
    ⟨process, createCheckpoint lib (managers process) id now, true, now⟩
  let first := save "mxrc-rt" "a" 1
  let second := save "mxrc-nonrt" "b" 2
  have hrun : ∃ s, exec (next lib managers owner) (fun _ _ => true) (init 0) [first] = some s ∧
      (next lib managers owner s second).isSome = true ∧
        (result lib managers s second).1 = true ∧
          (newest managers owner (SharedDir.save lib managers s second).saved "mxrc-rt" = ["a"]) ∧
            (SharedDir.save lib managers s second).directory.lookup "a" = none :=
    ⟨_, rfl, by decide +kernel, by decide +kernel, by decide +kernel, by decide +kernel⟩
  obtain ⟨s, hs, hnext, htrue, hnws, hgone⟩ := hrun
  obtain ⟨s', hs'⟩ := isSome_iff_exists.mp hnext
  have hkps := hall JsonValue lib managers owner 0 [first, second] (fun _ => le_rfl)
    [first] second [] s s' rfl (Run.of_exec (fun _ _ _ => trivial) hs) hs' htrue
  have hkept := hkps "mxrc-rt" "a" (by rw [hnws]; exact List.mem_singleton_self "a")
  rw [hgone] at hkept
  cases hkept

end
end SharedDir
end Mxrc.Ha
