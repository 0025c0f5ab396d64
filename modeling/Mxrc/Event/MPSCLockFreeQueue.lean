import Mxrc.Lib.Maps
import Mxrc.Lib.Ring
import Mxrc.Lib.Runs

/-!
# The multi-producer queue

A producer takes a position by a compare-and-swap on `writePos` and writes its
element afterwards; the consumer reads at `readPos` when the positions differ.
Every load, compare-and-swap, buffer access and store is a step. `reserved`
lists the elements in the order of their positions, `popped` those returned. The
consumer can read too early, and a compare-and-swap can succeed a whole turn of
the ring late; `Timely` excludes both.
-/

namespace Mxrc.Event
open Mxrc.Lib List

inductive ProducerPhase (α : Type)
  | idle
  | loadWrite (item : α)
  | loadRead (item : α) (currentWrite : ℕ)
  | exchange (item : α) (currentWrite : ℕ)
  | write (item : α) (currentWrite : ℕ)
deriving DecidableEq

def ProducerPhase.writes {α : Type} (slot : ℕ) : ProducerPhase α → Bool
  | .write _ currentWrite => currentWrite = slot
  | _ => false

lemma ProducerPhase.writes_eq_false {α : Type} {slot : ℕ} {phase : ProducerPhase α} :
    phase.writes slot = false ↔ ∀ item, phase ≠ .write item slot := by
  cases phase <;> simp [writes]

inductive ConsumerPhase (α : Type)
  | idle
  | loadRead
  | loadWrite (currentRead : ℕ)
  | read (currentRead : ℕ)
  | store (currentRead : ℕ) (item : α)
deriving DecidableEq

structure MPSCLockFreeQueue (ι α : Type) where
  capacity : ℕ
  buffer : ℕ → α
  writePos : ℕ
  readPos : ℕ
  producers : ι → ProducerPhase α
  consumer : ConsumerPhase α
  reserved : List α
  popped : List α

namespace MPSCLockFreeQueue
variable {ι α : Type}

def make (ι : Type) (capacity : ℕ) (default : α) : MPSCLockFreeQueue ι α where
  capacity := capacity
  buffer := fun _ => default
  writePos := 0
  readPos := 0
  producers := fun _ => .idle
  consumer := .idle
  reserved := []
  popped := []

section
variable [DecidableEq ι]

def setProducer (s : MPSCLockFreeQueue ι α) (p : ι) (phase : ProducerPhase α) :
    MPSCLockFreeQueue ι α :=
  { s with producers := Function.update s.producers p phase }

def tryPush (s : MPSCLockFreeQueue ι α) (p : ι) (item : α) : Option (MPSCLockFreeQueue ι α) :=
  match s.producers p with
  | .idle => some (s.setProducer p (.loadWrite item))
  | _ => none

def produce (s : MPSCLockFreeQueue ι α) (p : ι) : Option (MPSCLockFreeQueue ι α) :=
  match s.producers p with
  | .idle => none
  | .loadWrite item => some (s.setProducer p (.loadRead item s.writePos))
  | .loadRead item currentWrite =>
    if (currentWrite + 1) % s.capacity = s.readPos then some (s.setProducer p .idle)
    else some (s.setProducer p (.exchange item currentWrite))
  | .exchange item currentWrite =>
    if s.writePos = currentWrite then
      some { s.setProducer p (.write item currentWrite) with
        writePos := (currentWrite + 1) % s.capacity
        reserved := s.reserved ++ [item] }
    else some (s.setProducer p (.loadWrite item))
  | .write item currentWrite =>
    some { s.setProducer p .idle with buffer := Function.update s.buffer currentWrite item }

def tryPop (s : MPSCLockFreeQueue ι α) : Option (MPSCLockFreeQueue ι α) :=
  match s.consumer with
  | .idle => some { s with consumer := .loadRead }
  | _ => none

def consume (s : MPSCLockFreeQueue ι α) : Option (MPSCLockFreeQueue ι α) :=
  match s.consumer with
  | .idle => none
  | .loadRead => some { s with consumer := .loadWrite s.readPos }
  | .loadWrite currentRead =>
    if currentRead = s.writePos then some { s with consumer := .idle }
    else some { s with consumer := .read currentRead }
  | .read currentRead => some { s with consumer := .store currentRead (s.buffer currentRead) }
  | .store currentRead item =>
    some { s with
      readPos := (currentRead + 1) % s.capacity
      consumer := .idle
      popped := s.popped ++ [item] }

inductive Op (ι α : Type)
  | tryPush (p : ι) (item : α)
  | produce (p : ι)
  | tryPop
  | consume

def next (s : MPSCLockFreeQueue ι α) : Op ι α → Option (MPSCLockFreeQueue ι α)
  | .tryPush p item => s.tryPush p item
  | .produce p => s.produce p
  | .tryPop => s.tryPop
  | .consume => s.consume

end

def NotFull (s : MPSCLockFreeQueue ι α) : Op ι α → Prop
  | .produce p => ∀ item, s.producers p = .exchange item s.writePos →
      (s.writePos + 1) % s.capacity ≠ s.readPos
  | _ => True

/-- The consumer does not read a slot whose producer is still to write it. -/
def Written (s : MPSCLockFreeQueue ι α) : Op ι α → Prop
  | .consume => ∀ currentRead, s.consumer = .read currentRead →
      ∀ p item, s.producers p ≠ .write item currentRead
  | _ => True

instance [Fintype ι] (s : MPSCLockFreeQueue ι α) (op : Op ι α) : Decidable (Written s op) :=
  match op with
  | .consume =>
    match h : s.consumer with
    | .read currentRead => decidable_of_iff (∀ p, (s.producers p).writes currentRead = false) (by
        simp [Written, h, ProducerPhase.writes_eq_false])
    | .idle | .loadRead | .loadWrite _ | .store _ _ => .isTrue (by simp [Written, h])
  | .tryPush _ _ | .produce _ | .tryPop => .isTrue trivial

def Timely (s : MPSCLockFreeQueue ι α) (op : Op ι α) : Prop := NotFull s op ∧ Written s op

/-- The elements come out in the order of their reservations, and each of the others is in its
slot or still with its producer. -/
def IsQueue (ι α : Type) [DecidableEq ι] (G : MPSCLockFreeQueue ι α → Op ι α → Prop) : Prop :=
  ∀ (default : α) (capacity : ℕ), 2 ≤ capacity →
    ∀ ops s, Run next G (make ι capacity default) ops s →
      s.popped <+: s.reserved ∧
      ∀ k item, s.popped.length ≤ k → s.reserved[k]? = some item →
        s.buffer (k % s.capacity) = item ∨ ∃ p, s.producers p = .write item (k % s.capacity)

structure Sound (s : MPSCLockFreeQueue ι α) : Prop where
  window : Ring.Window s.capacity s.popped.length s.reserved.length
  writePos : s.writePos = s.reserved.length % s.capacity
  readPos : s.readPos = s.popped.length % s.capacity
  order : s.popped <+: s.reserved
  writing : ∀ p item slot, s.producers p = .write item slot →
    ∃ k, s.popped.length ≤ k ∧ k % s.capacity = slot ∧ s.reserved[k]? = some item
  exclusive : ∀ p q item item' slot, s.producers p = .write item slot →
    s.producers q = .write item' slot → p = q
  stored : ∀ k item, s.popped.length ≤ k → s.reserved[k]? = some item →
    (∀ p item', s.producers p ≠ .write item' (k % s.capacity)) → s.buffer (k % s.capacity) = item
  loadWrite : ∀ currentRead, s.consumer = .loadWrite currentRead → currentRead = s.readPos
  read : ∀ currentRead, s.consumer = .read currentRead →
    currentRead = s.readPos ∧ s.popped.length < s.reserved.length
  store : ∀ currentRead item, s.consumer = .store currentRead item →
    currentRead = s.readPos ∧ s.reserved[s.popped.length]? = some item ∧
      ∀ p item', s.producers p ≠ .write item' currentRead

lemma sound_make (ι : Type) {capacity : ℕ} (hcap : 2 ≤ capacity) (default : α) :
    Sound (make ι capacity default) := by
  constructor
  case window => exact ⟨le_rfl, by simp [make]; omega⟩
  all_goals simp [make]

lemma Sound.slot_ne {s : MPSCLockFreeQueue ι α} (h : Sound s) {k : ℕ}
    (hk : s.popped.length ≤ k) (hlt : k < s.reserved.length) : k % s.capacity ≠ s.writePos := by
  intro hslot
  obtain ⟨hle, hwin⟩ := h.window
  have := Ring.slot_inj hk hle (by omega) hwin (hslot.trans h.writePos)
  omega

lemma lt_of_getElem?_eq_some {l : List α} {k : ℕ} {a : α} (h : l[k]? = some a) : k < l.length :=
  (List.getElem?_eq_some_iff.mp h).1

section
variable [DecidableEq ι] {s s' : MPSCLockFreeQueue ι α} {p : ι}

lemma Sound.setProducer (h : Sound s) {phase : ProducerPhase α}
    (hbef : ∀ item slot, s.producers p ≠ .write item slot)
    (haft : ∀ item slot, phase ≠ .write item slot) : Sound (s.setProducer p phase) := by
  have hwr : ∀ q item slot, (s.setProducer p phase).producers q = .write item slot ↔
      s.producers q = .write item slot :=
    fun q item slot => update_eq_iff (hbef item slot) (haft item slot) q
  constructor
  case window => exact h.window
  case writePos => exact h.writePos
  case readPos => exact h.readPos
  case order => exact h.order
  case loadWrite => exact h.loadWrite
  case read => exact h.read
  all_goals simp only [hwr, ne_eq]
  case writing => exact h.writing
  case exclusive => exact h.exclusive
  case stored => exact h.stored
  case store => exact h.store

lemma Sound.exchange (h : Sound s) {item : α}
    (hph : s.producers p = .exchange item s.writePos)
    (hfull : (s.writePos + 1) % s.capacity ≠ s.readPos) :
    Sound { s.setProducer p (.write item s.writePos) with
      writePos := (s.writePos + 1) % s.capacity, reserved := s.reserved ++ [item] } := by
  have hwr : ∀ q item' slot, Function.update s.producers p (.write item s.writePos) q =
      .write item' slot ↔ q = p ∧ item = item' ∧ s.writePos = slot ∨
        s.producers q = .write item' slot := by
    intro q item' slot
    by_cases hq : q = p
    · subst hq
      simp [hph]
    · simp [hq]
  have hold : ∀ q item' slot, s.producers q = .write item' slot → slot ≠ s.writePos := by
    intro q item' slot hq
    obtain ⟨k, hk, rfl, hitem⟩ := h.writing q item' slot hq
    exact h.slot_ne hk (lt_of_getElem?_eq_some hitem)
  have hkept : ∀ (k : ℕ) item', s.reserved[k]? = some item' →
      (s.reserved ++ [item])[k]? = some item' := by
    intro k item' hitem
    rwa [getElem?_append_left (lt_of_getElem?_eq_some hitem)]
  constructor
  case window =>
    rw [length_append]
    refine h.window.enter ?_
    rwa [← h.writePos, ← h.readPos]
  case writePos =>
    change (s.writePos + 1) % s.capacity = _
    rw [h.writePos, Ring.next_slot, length_append]
    rfl
  case readPos => exact h.readPos
  case order => exact h.order.trans (prefix_append _ _)
  case writing =>
    intro q item' slot hq
    rcases (hwr q item' slot).mp hq with ⟨-, rfl, rfl⟩ | hq
    · exact ⟨s.reserved.length, h.window.le, h.writePos.symm, by simp⟩
    · obtain ⟨k, hk, hslot, hitem⟩ := h.writing q item' slot hq
      exact ⟨k, hk, hslot, hkept k item' hitem⟩
  case exclusive =>
    intro q q' item₁ item₂ slot hq hq'
    rcases (hwr q item₁ slot).mp hq with ⟨hqp, -, hslot⟩ | hbef
    · rcases (hwr q' item₂ slot).mp hq' with ⟨hqp', -, -⟩ | hbef'
      · rw [hqp, hqp']
      · exact absurd hslot.symm (hold q' item₂ slot hbef')
    · rcases (hwr q' item₂ slot).mp hq' with ⟨-, -, hslot⟩ | hbef'
      · exact absurd hslot.symm (hold q item₁ slot hbef)
      · exact h.exclusive q q' item₁ item₂ slot hbef hbef'
  case stored =>
    intro k item' hk hitem hnone
    by_cases hlt : k < s.reserved.length
    · rw [getElem?_append_left hlt] at hitem
      refine h.stored k item' hk hitem fun q item'' hq => ?_
      exact hnone q item'' ((hwr q item'' _).mpr (Or.inr hq))
    · have heq : k = s.reserved.length := by
        have := lt_of_getElem?_eq_some hitem
        simp only [length_append, length_singleton] at this
        omega
      exact absurd ((hwr p item _).mpr (Or.inl ⟨rfl, rfl, heq ▸ h.writePos⟩)) (hnone p item)
  case loadWrite => exact h.loadWrite
  case read =>
    intro currentRead hread
    obtain ⟨hpos, hlt⟩ := h.read currentRead hread
    exact ⟨hpos, hlt.trans_le (by simp)⟩
  case store =>
    intro currentRead item' hstr
    obtain ⟨hpos, hitem, hnone⟩ := h.store currentRead item' hstr
    refine ⟨hpos, hkept _ _ hitem, fun q item'' hq => ?_⟩
    rcases (hwr q item'' currentRead).mp hq with ⟨-, -, hslot⟩ | hq
    · refine h.slot_ne le_rfl (lt_of_getElem?_eq_some hitem) ?_
      rw [← h.readPos, ← hpos, hslot]
    · exact hnone q item'' hq

lemma Sound.write (h : Sound s) {item : α} {slot : ℕ}
    (hph : s.producers p = .write item slot) :
    Sound { s.setProducer p .idle with buffer := Function.update s.buffer slot item } := by
  have hwr : ∀ q item' slot', Function.update s.producers p .idle q = .write item' slot' ↔
      q ≠ p ∧ s.producers q = .write item' slot' := by
    intro q item' slot'
    by_cases hq : q = p
    · simp [hq]
    · simp [hq]
  constructor
  case window => exact h.window
  case writePos => exact h.writePos
  case readPos => exact h.readPos
  case order => exact h.order
  case writing =>
    exact fun q item' slot' hq => h.writing q item' slot' ((hwr q item' slot').mp hq).2
  case exclusive =>
    intro q q' item₁ item₂ slot' hq hq'
    exact h.exclusive q q' item₁ item₂ slot' ((hwr q item₁ slot').mp hq).2
      ((hwr q' item₂ slot').mp hq').2
  case stored =>
    intro k item' hk hitem hnone
    change Function.update s.buffer slot item (k % s.capacity) = item'
    by_cases hslot : k % s.capacity = slot
    · obtain ⟨k', hk', hslot', hitem'⟩ := h.writing p item slot hph
      have hwin := h.window.lt
      have hlt := lt_of_getElem?_eq_some hitem
      have hlt' := lt_of_getElem?_eq_some hitem'
      have heq : k = k' :=
        Ring.slot_inj hk hk' (hlt.trans hwin) (hlt'.trans hwin) (hslot.trans hslot'.symm)
      subst heq
      rw [hslot, Function.update_self]
      exact Option.some.inj (hitem'.symm.trans hitem)
    · rw [Function.update_of_ne hslot]
      refine h.stored k item' hk hitem fun q item'' hq => ?_
      have hne : q ≠ p := by
        intro heq
        rw [heq, hph] at hq
        cases hq
        exact hslot rfl
      exact hnone q item'' ((hwr q item'' _).mpr ⟨hne, hq⟩)
  case loadWrite => exact h.loadWrite
  case read => exact h.read
  case store =>
    intro currentRead item' hstr
    obtain ⟨hpos, hitem, hnone⟩ := h.store currentRead item' hstr
    exact ⟨hpos, hitem, fun q item'' hq => hnone q item'' ((hwr q item'' currentRead).mp hq).2⟩

lemma Sound.produce (h : Sound s) (hop : NotFull s (.produce p)) (hn : s.produce p = some s') :
    Sound s' := by
  unfold MPSCLockFreeQueue.produce at hn
  split at hn
  · cases hn
  · rename_i item hph
    cases hn
    exact h.setProducer (by simp [hph]) (by simp)
  · rename_i item currentWrite hph
    split_ifs at hn
    · cases hn
      exact h.setProducer (by simp [hph]) (by simp)
    · cases hn
      exact h.setProducer (by simp [hph]) (by simp)
  · rename_i item currentWrite hph
    split_ifs at hn with hpos
    · subst hpos
      cases hn
      exact h.exchange hph (hop item hph)
    · cases hn
      exact h.setProducer (by simp [hph]) (by simp)
  · rename_i item currentWrite hph
    cases hn
    exact h.write hph

end

section
variable {s s' : MPSCLockFreeQueue ι α}

lemma Sound.setConsumer (h : Sound s) {phase : ConsumerPhase α}
    (hloadWrite : ∀ currentRead, phase = .loadWrite currentRead → currentRead = s.readPos)
    (hread : ∀ currentRead, phase = .read currentRead →
      currentRead = s.readPos ∧ s.popped.length < s.reserved.length)
    (hstr : ∀ currentRead item, phase = .store currentRead item →
      currentRead = s.readPos ∧ s.reserved[s.popped.length]? = some item ∧
        ∀ p item', s.producers p ≠ .write item' currentRead) :
    Sound { s with consumer := phase } :=
  ⟨h.window, h.writePos, h.readPos, h.order, h.writing, h.exclusive, h.stored, hloadWrite, hread,
    hstr⟩

lemma Sound.store_step (h : Sound s) {currentRead : ℕ} {item : α}
    (hph : s.consumer = .store currentRead item) :
    Sound { s with
      readPos := (currentRead + 1) % s.capacity
      consumer := .idle
      popped := s.popped ++ [item] } := by
  obtain ⟨hpos, hitem, hnone⟩ := h.store currentRead item hph
  have hlt := lt_of_getElem?_eq_some hitem
  have hlen : (s.popped ++ [item]).length = s.popped.length + 1 := by simp
  constructor
  case window =>
    rw [hlen]
    exact h.window.leave hlt.ne
  case writePos => exact h.writePos
  case readPos =>
    change (currentRead + 1) % s.capacity = _
    rw [hlen, hpos, h.readPos, Ring.next_slot]
  case order => exact Ring.prefix_concat h.order hitem
  case writing =>
    intro q item' slot hq
    obtain ⟨k, hk, hslot, hitem'⟩ := h.writing q item' slot hq
    have hne : k ≠ s.popped.length := by
      intro heq
      refine hnone q item' ?_
      rw [hq, ← hslot, heq, hpos, h.readPos]
    exact ⟨k, by rw [hlen]; omega, hslot, hitem'⟩
  case exclusive => exact h.exclusive
  case stored =>
    intro k item' hk
    rw [hlen] at hk
    exact h.stored k item' (by omega)
  all_goals simp

lemma Sound.consume (h : Sound s) (hop : Written s .consume) (hn : s.consume = some s') :
    Sound s' := by
  unfold MPSCLockFreeQueue.consume at hn
  split at hn
  · cases hn
  · cases hn
    exact h.setConsumer (by simp) (by simp) (by simp)
  · rename_i currentRead hph
    have hpos := h.loadWrite currentRead hph
    split_ifs at hn with hemp
    · cases hn
      exact h.setConsumer (by simp) (by simp) (by simp)
    · cases hn
      refine h.setConsumer (by simp) (fun r hr => ?_) (by simp)
      cases hr
      refine ⟨hpos, lt_of_le_of_ne h.window.le fun heq => hemp ?_⟩
      rw [hpos, h.readPos, h.writePos, heq]
  · rename_i currentRead hph
    obtain ⟨hpos, hlt⟩ := h.read currentRead hph
    have hnone := hop currentRead hph
    cases hn
    refine h.setConsumer (by simp) (by simp) (fun r item hr => ?_)
    cases hr
    refine ⟨hpos, ?_, hnone⟩
    have hitem := getElem?_eq_getElem hlt
    rw [hpos, h.readPos] at hnone ⊢
    rw [h.stored _ _ le_rfl hitem hnone, hitem]
  · rename_i currentRead item hph
    cases hn
    exact h.store_step hph

end

lemma sound_next [DecidableEq ι] {s s' : MPSCLockFreeQueue ι α} {op : Op ι α} (h : Sound s)
    (hop : Timely s op) (hn : next s op = some s') : Sound s' := by
  cases op with
  | tryPush p item =>
    change s.tryPush p item = some s' at hn
    unfold tryPush at hn
    split at hn
    · rename_i hph
      cases hn
      exact h.setProducer (by simp [hph]) (by simp)
    · cases hn
  | produce p => exact h.produce hop.1 hn
  | tryPop =>
    change s.tryPop = some s' at hn
    unfold tryPop at hn
    split at hn
    · cases hn
      exact h.setConsumer (by simp) (by simp) (by simp)
    · cases hn
  | consume => exact h.consume hop.2 hn

theorem isQueue_of_timely (ι α : Type) [DecidableEq ι] : IsQueue ι α Timely := by
  intro default capacity hcap ops s hrun
  have hsnd : Sound s := hrun.invariant Sound (sound_make ι hcap default)
    fun s op s' hs hop hn => sound_next hs hop hn
  refine ⟨hsnd.order, fun k item hk hitem => ?_⟩
  by_cases hwrit : ∃ p item', s.producers p = .write item' (k % s.capacity)
  · obtain ⟨p, item', hp⟩ := hwrit
    obtain ⟨k', hk', hslot, hitem'⟩ := hsnd.writing p item' _ hp
    have hwin := hsnd.window.lt
    have hlt := lt_of_getElem?_eq_some hitem
    have hlt' := lt_of_getElem?_eq_some hitem'
    have heq : k' = k := Ring.slot_inj hk' hk (hlt'.trans hwin) (hlt.trans hwin) hslot
    subst heq
    cases Option.some.inj (hitem.symm.trans hitem')
    exact Or.inr ⟨p, hp⟩
  · push Not at hwrit
    exact Or.inl (hsnd.stored k item hk hitem hwrit)

/-- The consumer comes between the exchange and the write, and returns the default value. -/
theorem not_isQueue : ¬ ∀ (ι α : Type) [DecidableEq ι], IsQueue ι α fun _ _ => True := by
  intro h
  have hexec : (exec next (fun _ _ => true) (make Unit 2 0)
      [.tryPush () 7, .produce (), .produce (), .produce (), .tryPop, .consume, .consume, .consume,
        .consume]).map (fun s => (s.popped, s.reserved)) = some ([0], [7]) := by decide
  obtain ⟨s, hrun, hlog⟩ := exists_run_of_exec (fun _ _ _ => trivial) hexec
  simp only [Prod.mk.injEq] at hlog
  obtain ⟨hord, -⟩ := h Unit ℕ 0 2 le_rfl _ s hrun
  rw [hlog.1, hlog.2] at hord
  exact absurd hord (by decide)

/-- Producer `false` tests the queue, sleeps for a turn of the ring and takes the last slot; the
full queue then looks empty. -/
lemma not_isQueue_of_written : ¬ ∀ (ι α : Type) [DecidableEq ι], IsQueue ι α Written := by
  intro h
  have hexec : (exec next (fun s op => Written s op) (make Bool 2 0)
      [.tryPush false 7, .produce false, .produce false, .tryPush true 8, .produce true,
        .produce true, .produce true, .produce true, .tryPop, .consume, .consume, .consume,
        .consume, .tryPush true 9, .produce true, .produce true, .produce true, .produce true,
        .produce false, .produce false, .tryPush true 10, .produce true, .produce true,
        .produce true, .produce true]).map
      (fun s => (s.capacity, s.popped, s.reserved, s.buffer 1,
        (s.producers true).writes 1, (s.producers false).writes 1)) =
      some (2, [8], [8, 9, 7, 10], 10, false, false) := by decide
  obtain ⟨s, hrun, hlog⟩ := exists_run_of_exec (fun _ _ => of_decide_eq_true) hexec
  simp only [Prod.mk.injEq] at hlog
  obtain ⟨hcap, hpop, hres, hbuf, htrue, hfal⟩ := hlog
  obtain ⟨-, hkept⟩ := h Bool ℕ 0 2 le_rfl _ s hrun
  rcases hkept 1 9 (by simp [hpop]) (by simp [hres]) with hslot | ⟨p, hp⟩
  · simp [hcap, hbuf] at hslot
  · rw [hcap] at hp
    cases p with
    | true => exact ProducerPhase.writes_eq_false.mp htrue 9 hp
    | false => exact ProducerPhase.writes_eq_false.mp hfal 9 hp

end MPSCLockFreeQueue
end Mxrc.Event
