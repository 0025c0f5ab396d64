import Mxrc.Lib.Runs

/-!
# Optimistic reads of versioned data

A `VersionedData<T>` whose `T` has `n` fields, with one writer and one reader.
`update` assigns the fields and then advances the version; `tryOptimisticRead`
copies them between two loads of the version. `disturbed` says that a field was
assigned since the read began or that the fields were partly assigned then.
-/

namespace Mxrc.Datastore
open Mxrc.Lib List

inductive UpdatePhase (n : ℕ) (α : Type)
  | idle
  | writing (newValue : Fin n → α) (i : ℕ)
  | stamping

inductive ReadPhase
  | idle
  | reading (v₁ : UInt64) (i : ℕ)
deriving DecidableEq

/-- `stored` has the initial value and what `update` has put in place, and `snapshots` what was read
with success. -/
structure OptimisticRead (n : ℕ) (α : Type) where
  value : Fin n → α
  version : UInt64
  timestampNs : UInt64
  writer : UpdatePhase n α := .idle
  reader : ReadPhase := .idle
  out : Fin n → α
  stored : List (Fin n → α)
  snapshots : List (Fin n → α) := []
  disturbed : Bool := false

namespace OptimisticRead
variable {n : ℕ} {α : Type}

def start (value out : Fin n → α) (version timestampNs : UInt64) : OptimisticRead n α where
  value := value
  version := version
  timestampNs := timestampNs
  out := out
  stored := [value]

inductive Op (n : ℕ) (α : Type)
  | update (newValue : Fin n → α)
  | write (now : UInt64)
  | tryOptimisticRead
  | read

def halfWritten (s : OptimisticRead n α) : Bool :=
  match s.writer with
  | .writing _ i => 0 < i && i < n
  | _ => false

def writeStep (s : OptimisticRead n α) (now : UInt64) : Option (OptimisticRead n α) :=
  match s.writer with
  | .idle => none
  | .writing newValue i =>
    if h : i < n then some { s with
      value := Function.update s.value ⟨i, h⟩ (newValue ⟨i, h⟩)
      writer := .writing newValue (i + 1)
      stored := if i + 1 = n then s.stored ++ [newValue] else s.stored
      disturbed := true }
    else some { s with version := s.version + 1, writer := .stamping }
  | .stamping => some { s with timestampNs := now, writer := .idle }

def readStep (s : OptimisticRead n α) : Option (OptimisticRead n α) :=
  match s.reader with
  | .idle => none
  | .reading v₁ i =>
    if h : i < n then some { s with
      out := Function.update s.out ⟨i, h⟩ (s.value ⟨i, h⟩), reader := .reading v₁ (i + 1) }
    else some { s with
      reader := .idle
      snapshots := if v₁ = s.version then s.snapshots ++ [s.out] else s.snapshots }

def next (s : OptimisticRead n α) : Op n α → Option (OptimisticRead n α)
  | .update newValue =>
    match s.writer with
    | .idle => some { s with writer := .writing newValue 0 }
    | _ => none
  | .write now => s.writeStep now
  | .tryOptimisticRead =>
    match s.reader with
    | .idle => some { s with reader := .reading s.version 0, disturbed := s.halfWritten }
    | _ => none
  | .read => s.readStep

/-- When the version is loaded for the second time in a disturbed read, it has changed. -/
def Detected (s : OptimisticRead n α) : Op n α → Prop
  | .read => ∀ v₁, s.reader = .reading v₁ n → s.disturbed = true → v₁ ≠ s.version
  | _ => True

def SnapshotsStored (n : ℕ) (α : Type) (G : OptimisticRead n α → Op n α → Prop) : Prop :=
  ∀ value out version timestampNs ops s,
    Run next G (start value out version timestampNs) ops s → ∀ x ∈ s.snapshots, x ∈ s.stored

structure Consistent (s : OptimisticRead n α) : Prop where
  written : ∀ newValue i, s.writer = .writing newValue i →
    i ≤ n ∧ ∀ f : Fin n, f < i → s.value f = newValue f
  whole : s.halfWritten = false → s.value ∈ s.stored
  copied : ∀ v₁ i, s.reader = .reading v₁ i → i ≤ n ∧
    (s.disturbed = false → s.halfWritten = false ∧ ∀ f : Fin n, f < i → s.out f = s.value f)
  snapshots : ∀ x ∈ s.snapshots, x ∈ s.stored

lemma consistent_start (value out : Fin n → α) (version timestampNs : UInt64) :
    Consistent (start value out version timestampNs) where
  written newValue i h := by cases h
  whole _ := mem_singleton_self value
  copied v₁ i h := by cases h
  snapshots x h := by cases h

lemma update_eq_of_lt {source target : Fin n → α} {i : ℕ} (hi : i < n)
    (h : ∀ f : Fin n, f < i → target f = source f) (f : Fin n) (hf : f < i + 1) :
    Function.update target ⟨i, hi⟩ (source ⟨i, hi⟩) f = source f := by
  by_cases hfi : f = ⟨i, hi⟩
  · rw [hfi, Function.update_self]
  · have hne : (f : ℕ) ≠ i := fun heq => hfi (Fin.ext heq)
    rw [Function.update_of_ne hfi]
    exact h f (by omega)

variable {s s' : OptimisticRead n α}

section
variable (h : Consistent s)
include h

lemma Consistent.setWriter {writer : UpdatePhase n α} {version timestampNs : UInt64}
    (hwhl : s.halfWritten = false)
    (hwrit : ∀ newValue i, writer = .writing newValue i → i = 0) :
    Consistent { s with writer, version, timestampNs } := by
  refine ⟨fun newValue i hi => ?_, fun _ => h.whole hwhl, fun v₁ i hi => ?_, h.snapshots⟩
  · rw [hwrit newValue i hi]
    exact ⟨Nat.zero_le n, fun f hf => absurd hf (Nat.not_lt_zero _)⟩
  · obtain ⟨hle, hcop⟩ := h.copied v₁ i hi
    refine ⟨hle, fun hquiet => ⟨?_, (hcop hquiet).2⟩⟩
    cases writer with
    | writing newValue j => simp [halfWritten, hwrit newValue j rfl]
    | _ => rfl

lemma Consistent.update (newValue : Fin n → α) (hidle : s.writer = .idle) :
    Consistent { s with writer := .writing newValue 0 } := by
  refine h.setWriter (by rw [halfWritten, hidle]) fun _ i hi => ?_
  cases hi
  rfl

lemma Consistent.writeField {newValue : Fin n → α} {i : ℕ} (hi : i < n)
    (hwrit : s.writer = .writing newValue i) :
    Consistent { s with
      value := Function.update s.value ⟨i, hi⟩ (newValue ⟨i, hi⟩)
      writer := .writing newValue (i + 1)
      stored := if i + 1 = n then s.stored ++ [newValue] else s.stored
      disturbed := true } := by
  have hass := update_eq_of_lt hi (h.written newValue i hwrit).2
  refine ⟨fun _ j hj => ?_, fun hwhl => ?_, fun v₁ j hj => ?_, fun x hx => ?_⟩
  · cases hj
    exact ⟨hi, hass⟩
  · -- the fields are no longer partly assigned, so this was the last one
    have hlast : i + 1 = n := by
      simp only [halfWritten, Bool.and_eq_false_iff, decide_eq_false_iff_not] at hwhl
      omega
    have hvl : Function.update s.value ⟨i, hi⟩ (newValue ⟨i, hi⟩) = newValue :=
      funext fun f => hass f (hlast ▸ f.isLt)
    dsimp only
    rw [hvl, if_pos hlast]
    exact mem_append_right _ (mem_singleton_self _)
  · exact ⟨(h.copied v₁ j hj).1, fun hquiet => by cases hquiet⟩
  · dsimp only
    split_ifs
    · exact mem_append_left _ (h.snapshots x hx)
    · exact h.snapshots x hx

lemma Consistent.write {now : UInt64} (hn : s.writeStep now = some s') : Consistent s' := by
  rw [writeStep] at hn
  split at hn
  · cases hn
  · rename_i newValue i hwrit
    by_cases hi : i < n
    · rw [dif_pos hi] at hn
      cases hn
      exact h.writeField hi hwrit
    · rw [dif_neg hi] at hn
      cases hn
      have hwhl : s.halfWritten = false := by
        rw [halfWritten, hwrit]
        simp [hi]
      exact h.setWriter hwhl nofun
  · rename_i hwrit
    cases hn
    exact h.setWriter (by rw [halfWritten, hwrit]) nofun

lemma Consistent.begin :
    Consistent { s with reader := .reading s.version 0, disturbed := s.halfWritten } := by
  refine ⟨h.written, h.whole, fun v₁ i hi => ?_, h.snapshots⟩
  cases hi
  exact ⟨Nat.zero_le n, fun hquiet => ⟨hquiet, fun f hf => absurd hf (Nat.not_lt_zero _)⟩⟩

lemma Consistent.readField {v₁ : UInt64} {i : ℕ} (hi : i < n)
    (hread : s.reader = .reading v₁ i) :
    Consistent { s with
      out := Function.update s.out ⟨i, hi⟩ (s.value ⟨i, hi⟩), reader := .reading v₁ (i + 1) } := by
  refine ⟨h.written, h.whole, fun v j hj => ?_, h.snapshots⟩
  cases hj
  refine ⟨hi, fun hquiet => ?_⟩
  obtain ⟨hwhl, hcop⟩ := (h.copied v₁ i hread).2 hquiet
  exact ⟨hwhl, update_eq_of_lt hi hcop⟩

lemma Consistent.check {v₁ : UInt64} (hread : s.reader = .reading v₁ n)
    (hop : s.Detected .read) :
    Consistent { s with
      reader := .idle
      snapshots := if v₁ = s.version then s.snapshots ++ [s.out] else s.snapshots } := by
  refine ⟨h.written, h.whole, fun v j hj => ?_, fun x hx => ?_⟩
  · cases hj
  · dsimp only at hx
    split_ifs at hx with hsame
    · rcases mem_append.mp hx with hold | hnew
      · exact h.snapshots x hold
      · have hquiet : s.disturbed = false := by
          by_contra hdis
          exact hop v₁ hread (by simpa using hdis) hsame
        obtain ⟨hwhl, hcop⟩ := (h.copied v₁ n hread).2 hquiet
        have hout : s.out = s.value := funext fun f => hcop f f.isLt
        rw [mem_singleton.mp hnew, hout]
        exact h.whole hwhl
    · exact h.snapshots x hx

lemma Consistent.next {op : Op n α} (hop : s.Detected op) (hn : s.next op = some s') :
    Consistent s' := by
  cases op with
  | update newValue =>
    rw [OptimisticRead.next] at hn
    split at hn
    · rename_i hidle
      cases hn
      exact h.update newValue hidle
    · cases hn
  | write now => exact h.write hn
  | tryOptimisticRead =>
    rw [OptimisticRead.next] at hn
    split at hn
    · cases hn
      exact h.begin
    · cases hn
  | read =>
    rw [OptimisticRead.next, readStep] at hn
    split at hn
    · cases hn
    · rename_i v₁ i hread
      by_cases hi : i < n
      · rw [dif_pos hi] at hn
        cases hn
        exact h.readField hi hread
      · rw [dif_neg hi] at hn
        cases hn
        have hend : i = n := le_antisymm (h.copied v₁ i hread).1 (not_lt.mp hi)
        subst hend
        exact h.check hread hop

end

end OptimisticRead
end Mxrc.Datastore
