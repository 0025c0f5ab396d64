import Mxrc.Lib.Fifo
import Mxrc.Event.MPSCLockFreeQueue

/-!
# The single-producer queue

One producer moves `writePos` after it has written its element, one consumer
moves `readPos` after it has read one; every load, buffer access and store is a
step. `calls` lists the finished calls with their answers. A call takes effect
at its last step.
-/

namespace Mxrc.Event
open Mxrc.Lib List

inductive SingleProducerPhase (α : Type)
  | idle
  | loadWrite (item : α)
  | loadRead (item : α) (currentWrite : ℕ)
  | write (item : α) (currentWrite : ℕ)
  | store (item : α) (currentWrite : ℕ)
deriving DecidableEq

structure SPSCLockFreeQueue (α : Type) where
  capacity : ℕ
  buffer : ℕ → α
  writePos : ℕ
  readPos : ℕ
  producer : SingleProducerPhase α
  consumer : ConsumerPhase α
  calls : List (Fifo.Call α)

namespace SPSCLockFreeQueue
variable {α : Type}

def make (capacity : ℕ) (default : α) : SPSCLockFreeQueue α where
  capacity := capacity
  buffer := fun _ => default
  writePos := 0
  readPos := 0
  producer := .idle
  consumer := .idle
  calls := []

def tryPush (s : SPSCLockFreeQueue α) (item : α) : Option (SPSCLockFreeQueue α) :=
  match s.producer with
  | .idle => some { s with producer := .loadWrite item }
  | _ => none

def produce (s : SPSCLockFreeQueue α) : Option (SPSCLockFreeQueue α) :=
  match s.producer with
  | .idle => none
  | .loadWrite item => some { s with producer := .loadRead item s.writePos }
  | .loadRead item currentWrite =>
    if (currentWrite + 1) % s.capacity = s.readPos then
      some { s with producer := .idle, calls := s.calls ++ [.push item false] }
    else some { s with producer := .write item currentWrite }
  | .write item currentWrite =>
    some { s with
      buffer := Function.update s.buffer currentWrite item
      producer := .store item currentWrite }
  | .store item currentWrite =>
    some { s with
      writePos := (currentWrite + 1) % s.capacity
      producer := .idle
      calls := s.calls ++ [.push item true] }

def tryPop (s : SPSCLockFreeQueue α) : Option (SPSCLockFreeQueue α) :=
  match s.consumer with
  | .idle => some { s with consumer := .loadRead }
  | _ => none

def consume (s : SPSCLockFreeQueue α) : Option (SPSCLockFreeQueue α) :=
  match s.consumer with
  | .idle => none
  | .loadRead => some { s with consumer := .loadWrite s.readPos }
  | .loadWrite currentRead =>
    if currentRead = s.writePos then
      some { s with consumer := .idle, calls := s.calls ++ [.pop none] }
    else some { s with consumer := .read currentRead }
  | .read currentRead => some { s with consumer := .store currentRead (s.buffer currentRead) }
  | .store currentRead item =>
    some { s with
      readPos := (currentRead + 1) % s.capacity
      consumer := .idle
      calls := s.calls ++ [.pop (some item)] }

inductive Op (α : Type)
  | tryPush (item : α)
  | produce
  | tryPop
  | consume

def next (s : SPSCLockFreeQueue α) : Op α → Option (SPSCLockFreeQueue α)
  | .tryPush item => s.tryPush item
  | .produce => s.produce
  | .tryPop => s.tryPop
  | .consume => s.consume

def queued (s : SPSCLockFreeQueue α) : List α := Fifo.queued s.calls

/-- The calls are those of a queue of `capacity - 1` elements, and the two threads never use the
same slot. -/
def RefinesFifo (α : Type) : Prop :=
  ∀ (default : α) (capacity : ℕ), 1 ≤ capacity →
    ∀ ops s, Run next (fun _ _ => True) (make capacity default) ops s →
      Fifo.History (capacity - 1) s.calls ∧
      Fifo.popped s.calls <+: Fifo.pushed s.calls ∧
      (∀ op s' item, next s op = some s' → s'.calls = s.calls ++ [.push item false] →
        s.queued.length = capacity - 1) ∧
      (∀ op s', next s op = some s' → s'.calls = s.calls ++ [.pop none] → s.queued = []) ∧
      ∀ item currentWrite currentRead, s.producer = .write item currentWrite →
        s.consumer = .read currentRead → currentWrite ≠ currentRead

def taken (s : SPSCLockFreeQueue α) : ℕ := (Fifo.popped s.calls).length

structure Sound (capacity : ℕ) (s : SPSCLockFreeQueue α) : Prop where
  sized : s.capacity = capacity
  positive : 1 ≤ s.capacity
  history : Fifo.History (s.capacity - 1) s.calls
  writePos : s.writePos = (s.taken + s.queued.length) % s.capacity
  readPos : s.readPos = s.taken % s.capacity
  stored : ∀ k item, s.queued[k]? = some item → s.buffer ((s.taken + k) % s.capacity) = item
  loadRead : ∀ item currentWrite, s.producer = .loadRead item currentWrite →
    currentWrite = s.writePos
  write : ∀ item currentWrite, s.producer = .write item currentWrite →
    currentWrite = s.writePos ∧ s.queued.length < s.capacity - 1
  storeWrite : ∀ item currentWrite, s.producer = .store item currentWrite →
    currentWrite = s.writePos ∧ s.queued.length < s.capacity - 1 ∧ s.buffer currentWrite = item
  loadWrite : ∀ currentRead, s.consumer = .loadWrite currentRead → currentRead = s.readPos
  read : ∀ currentRead, s.consumer = .read currentRead →
    currentRead = s.readPos ∧ s.queued ≠ []
  storeRead : ∀ currentRead item, s.consumer = .store currentRead item →
    currentRead = s.readPos ∧ s.queued.head? = some item

lemma sound_make {capacity : ℕ} (hcap : 1 ≤ capacity) (default : α) :
    Sound capacity (make capacity default) := by
  constructor
  case sized => rfl
  case positive => exact hcap
  case history => exact .nil
  all_goals simp [make, queued, taken, Fifo.queued, Fifo.pushed, Fifo.popped]

section
variable {capacity : ℕ} {s s' : SPSCLockFreeQueue α}

section
variable (h : Sound capacity s)
include h

lemma Sound.window : Ring.Window s.capacity s.taken (s.taken + s.queued.length) := by
  have hle : s.queued.length ≤ s.capacity - 1 := h.history.length_le
  have hpos := h.positive
  exact ⟨by omega, by omega⟩

lemma Sound.full_iff :
    (s.writePos + 1) % s.capacity = s.readPos ↔ s.queued.length = s.capacity - 1 := by
  rw [h.writePos, h.readPos, h.window.full_iff]
  have hpos := h.positive
  omega

lemma Sound.empty_iff : s.readPos = s.writePos ↔ s.queued = [] := by
  rw [h.readPos, h.writePos]
  constructor
  · intro hslot
    have heq := Ring.slot_inj le_rfl h.window.le (by have := h.positive; omega) h.window.lt hslot
    exact length_eq_zero_iff.mp (by omega)
  · intro hemp
    simp [hemp]

lemma Sound.slot_ne {k : ℕ} (hk : k < s.queued.length) :
    (s.taken + k) % s.capacity ≠ s.writePos := by
  intro hslot
  have hlt := h.window.lt
  have heq := Ring.slot_inj (Nat.le_add_right _ k) h.window.le (by omega) hlt
    (hslot.trans h.writePos)
  omega

lemma Sound.setProducer {phase : SingleProducerPhase α}
    (hloadRead : ∀ item currentWrite, phase = .loadRead item currentWrite →
      currentWrite = s.writePos)
    (hwr : ∀ item currentWrite, phase = .write item currentWrite →
      currentWrite = s.writePos ∧ s.queued.length < s.capacity - 1)
    (hstr : ∀ item currentWrite, phase ≠ .store item currentWrite) :
    Sound capacity { s with producer := phase } :=
  ⟨h.sized, h.positive, h.history, h.writePos, h.readPos, h.stored, hloadRead, hwr,
    fun item currentWrite heq => absurd heq (hstr item currentWrite), h.loadWrite, h.read,
    h.storeRead⟩

lemma Sound.setConsumer {phase : ConsumerPhase α}
    (hloadWrite : ∀ currentRead, phase = .loadWrite currentRead → currentRead = s.readPos)
    (hread : ∀ currentRead, phase = .read currentRead → currentRead = s.readPos ∧ s.queued ≠ [])
    (hstr : ∀ currentRead item, phase = .store currentRead item →
      currentRead = s.readPos ∧ s.queued.head? = some item) :
    Sound capacity { s with consumer := phase } :=
  ⟨h.sized, h.positive, h.history, h.writePos, h.readPos, h.stored, h.loadRead, h.write,
    h.storeWrite,
    hloadWrite, hread, hstr⟩

end

section
variable {call : Fifo.Call α} (hcal : s'.calls = s.calls ++ [call])
include hcal

lemma Sound.queued_call (h : Sound capacity s)
    (hadm : Fifo.Admits (s.capacity - 1) s.queued call) :
    s'.queued = Fifo.apply s.queued call := by
  rw [queued, hcal, h.history.queued_snoc hadm, queued]

lemma taken_call : s'.taken = s.taken + call.popped.toList.length := by
  rw [taken, hcal, Fifo.popped_append, length_append, taken]

end

section
variable (h : Sound capacity s)
include h

lemma Sound.fail {call : Fifo.Call α} (hadm : Fifo.Admits (s.capacity - 1) s.queued call)
    (happ : Fifo.apply s.queued call = s.queued) (hpop : call.popped = none) :
    Sound capacity { s with calls := s.calls ++ [call] } := by
  have hqueued : ∀ s' : SPSCLockFreeQueue α, s'.calls = s.calls ++ [call] →
      s'.queued = s.queued := by
    intro s' hcal
    rw [h.queued_call hcal hadm, happ]
  have htak : ∀ s' : SPSCLockFreeQueue α, s'.calls = s.calls ++ [call] →
      s'.taken = s.taken := by
    intro s' hcal
    rw [taken_call hcal, hpop]
    rfl
  constructor
  case history => exact h.history.snoc hadm
  all_goals simp only [hqueued, htak]
  case sized => exact h.sized
  case positive => exact h.positive
  case writePos => exact h.writePos
  case readPos => exact h.readPos
  case stored => exact h.stored
  case loadRead => exact h.loadRead
  case write => exact h.write
  case storeWrite => exact h.storeWrite
  case loadWrite => exact h.loadWrite
  case read => exact h.read
  case storeRead => exact h.storeRead

lemma Sound.write_step {item : α} {currentWrite : ℕ}
    (hph : s.producer = .write item currentWrite) :
    Sound capacity { s with
      buffer := Function.update s.buffer currentWrite item
      producer := .store item currentWrite } := by
  obtain ⟨hpos, hroom⟩ := h.write item currentWrite hph
  constructor
  case sized => exact h.sized
  case positive => exact h.positive
  case history => exact h.history
  case writePos => exact h.writePos
  case readPos => exact h.readPos
  case stored =>
    intro k item' hitem
    have hne := h.slot_ne (List.getElem?_eq_some_iff.mp hitem).1
    rw [← hpos] at hne
    exact (Function.update_of_ne hne _ _).trans (h.stored k item' hitem)
  case storeWrite =>
    intro item' currentWrite' heq
    cases heq
    exact ⟨hpos, hroom, Function.update_self _ _ _⟩
  case loadWrite => exact h.loadWrite
  case read => exact h.read
  case storeRead => exact h.storeRead
  all_goals simp

lemma Sound.push {item : α} {currentWrite : ℕ} (hph : s.producer = .store item currentWrite) :
    Sound capacity { s with
      writePos := (currentWrite + 1) % s.capacity
      producer := .idle
      calls := s.calls ++ [.push item true] } := by
  obtain ⟨hpos, hroom, hbuf⟩ := h.storeWrite item currentWrite hph
  have hadm : Fifo.Admits (s.capacity - 1) s.queued (.push item true) := hroom
  have hqueued : ∀ s' : SPSCLockFreeQueue α, s'.calls = s.calls ++ [.push item true] →
      s'.queued = s.queued ++ [item] :=
    fun s' hcal => h.queued_call hcal hadm
  have htak : ∀ s' : SPSCLockFreeQueue α, s'.calls = s.calls ++ [.push item true] →
      s'.taken = s.taken :=
    fun s' hcal => taken_call hcal
  constructor
  case sized => exact h.sized
  case positive => exact h.positive
  case history => exact h.history.snoc hadm
  all_goals simp only [hqueued, htak]
  case writePos =>
    rw [hpos, h.writePos, Ring.next_slot, length_append, length_singleton, add_assoc]
  case readPos => exact h.readPos
  case stored =>
    intro k item' hitem
    rcases lt_trichotomy k s.queued.length with hlt | rfl | hgt
    · rw [getElem?_append_left hlt] at hitem
      exact h.stored k item' hitem
    · rw [getElem?_concat_length] at hitem
      cases hitem
      rw [← h.writePos, ← hpos, hbuf]
    · rw [getElem?_eq_none (by simpa using hgt)] at hitem
      cases hitem
  case loadWrite => exact h.loadWrite
  case read =>
    intro currentRead heq
    exact ⟨(h.read currentRead heq).1, by simp⟩
  case storeRead =>
    intro currentRead item' heq
    obtain ⟨hread, hhead⟩ := h.storeRead currentRead item' heq
    obtain ⟨rest, hrest⟩ := head?_eq_some_iff.mp hhead
    exact ⟨hread, by rw [hrest]; rfl⟩
  all_goals simp

lemma Sound.pop {item : α} {currentRead : ℕ} (hph : s.consumer = .store currentRead item) :
    Sound capacity { s with
      readPos := (currentRead + 1) % s.capacity
      consumer := .idle
      calls := s.calls ++ [.pop (some item)] } := by
  obtain ⟨hpos, hhead⟩ := h.storeRead currentRead item hph
  have hadm : Fifo.Admits (s.capacity - 1) s.queued (.pop (some item)) := hhead
  obtain ⟨rest, hrest⟩ := head?_eq_some_iff.mp hhead
  have hqueued : ∀ s' : SPSCLockFreeQueue α, s'.calls = s.calls ++ [.pop (some item)] →
      s'.queued = rest := by
    intro s' hcal
    rw [h.queued_call hcal hadm, Fifo.apply, hrest, tail_cons]
  have htak : ∀ s' : SPSCLockFreeQueue α, s'.calls = s.calls ++ [.pop (some item)] →
      s'.taken = s.taken + 1 :=
    fun s' hcal => taken_call hcal
  have hlen : s.queued.length = rest.length + 1 := by rw [hrest, length_cons]
  constructor
  case sized => exact h.sized
  case positive => exact h.positive
  case history => exact h.history.snoc hadm
  all_goals simp only [hqueued, htak]
  case writePos => rw [h.writePos, hlen, add_assoc, add_comm 1]
  case readPos => rw [hpos, h.readPos, Ring.next_slot]
  case stored =>
    intro k item' hitem
    rw [add_assoc, add_comm 1]
    refine h.stored (k + 1) item' ?_
    rwa [hrest, getElem?_cons_succ]
  case loadRead => exact h.loadRead
  case write =>
    intro item' currentWrite heq
    obtain ⟨hwr, hroom⟩ := h.write item' currentWrite heq
    exact ⟨hwr, by omega⟩
  case storeWrite =>
    intro item' currentWrite heq
    obtain ⟨hwr, hroom, hbuf⟩ := h.storeWrite item' currentWrite heq
    exact ⟨hwr, by omega, hbuf⟩
  all_goals simp

lemma Sound.produce (hn : s.produce = some s') : Sound capacity s' := by
  unfold SPSCLockFreeQueue.produce at hn
  split at hn
  · cases hn
  · cases hn
    refine h.setProducer (fun item currentWrite heq => ?_) (by simp) (by simp)
    cases heq
    rfl
  · rename_i item currentWrite hph
    have hpos := h.loadRead item currentWrite hph
    rw [hpos] at hn
    split_ifs at hn with hfull
    all_goals rw [h.full_iff] at hfull
    · cases hn
      have hfail : Sound capacity { s with calls := s.calls ++ [.push item false] } :=
        h.fail hfull rfl rfl
      exact hfail.setProducer (by simp) (by simp) (by simp)
    · cases hn
      refine h.setProducer (by simp) (fun item' currentWrite' heq => ?_) (by simp)
      cases heq
      exact ⟨rfl, lt_of_le_of_ne h.history.length_le hfull⟩
  · rename_i item currentWrite hph
    cases hn
    exact h.write_step hph
  · rename_i item currentWrite hph
    cases hn
    exact h.push hph

lemma Sound.consume (hn : s.consume = some s') : Sound capacity s' := by
  unfold SPSCLockFreeQueue.consume at hn
  split at hn
  · cases hn
  · cases hn
    refine h.setConsumer (fun currentRead heq => ?_) (by simp) (by simp)
    cases heq
    rfl
  · rename_i currentRead hph
    have hpos := h.loadWrite currentRead hph
    rw [hpos] at hn
    split_ifs at hn with hemp
    all_goals rw [h.empty_iff] at hemp
    · cases hn
      have hfail : Sound capacity { s with calls := s.calls ++ [.pop none] } :=
        h.fail hemp rfl rfl
      exact hfail.setConsumer (by simp) (by simp) (by simp)
    · cases hn
      refine h.setConsumer (by simp) (fun currentRead' heq => ?_) (by simp)
      cases heq
      exact ⟨rfl, hemp⟩
  · rename_i currentRead hph
    obtain ⟨hpos, hne⟩ := h.read currentRead hph
    cases hn
    refine h.setConsumer (by simp) (by simp) (fun currentRead' item heq => ?_)
    cases heq
    refine ⟨hpos, ?_⟩
    obtain ⟨first, rest, hrest⟩ := exists_cons_of_ne_nil hne
    have hsto := h.stored 0 first (by rw [hrest]; rfl)
    rw [add_zero, ← h.readPos, ← hpos] at hsto
    rw [hsto, hrest]
    rfl
  · rename_i currentRead item hph
    cases hn
    exact h.pop hph

lemma sound_next {op : Op α} (hn : next s op = some s') : Sound capacity s' := by
  cases op with
  | tryPush item =>
    change s.tryPush item = some s' at hn
    unfold tryPush at hn
    split at hn
    · cases hn
      exact h.setProducer (by simp) (by simp) (by simp)
    · cases hn
  | produce => exact h.produce hn
  | tryPop =>
    change s.tryPop = some s' at hn
    unfold tryPop at hn
    split at hn
    · cases hn
      exact h.setConsumer (by simp) (by simp) (by simp)
    · cases hn
  | consume => exact h.consume hn

end
end

theorem refinesFifo (α : Type) : RefinesFifo α := by
  intro default capacity hcap ops s hrun
  have hsnd : Sound capacity s := hrun.invariant (Sound capacity)
    (sound_make hcap default) fun s op s' hs _ hn => sound_next hs hn
  -- the history after a step that ends a call says what the queue was like before it
  have hadm : ∀ op s' call, next s op = some s' → s'.calls = s.calls ++ [call] →
      Fifo.Admits (capacity - 1) s.queued call := by
    intro op s' call hn hcal
    have hsnd' := sound_next hsnd hn
    have hhis := hsnd'.history
    rw [hcal, hsnd'.sized] at hhis
    exact hhis.admits
  refine ⟨hsnd.sized ▸ hsnd.history, hsnd.history.order, ?_, ?_, ?_⟩
  · intro op s' item hn hcal
    exact hadm op s' _ hn hcal
  · intro op s' hn hcal
    exact hadm op s' _ hn hcal
  · intro item currentWrite currentRead hwr hread heq
    obtain ⟨hwritePos, -⟩ := hsnd.write item currentWrite hwr
    obtain ⟨hreadPos, hne⟩ := hsnd.read currentRead hread
    exact hne (hsnd.empty_iff.mp (by rw [← hreadPos, ← heq, hwritePos]))

end SPSCLockFreeQueue
end Mxrc.Event
