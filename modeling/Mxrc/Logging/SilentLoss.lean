import Mxrc.Logging.BagMessage
import Mxrc.Logging.Flush

/-!
# What becomes of a pushed message

`tryPush` counts its message as dropped or queues it; the thread takes a queued
message in hand and counts it as written. The exception handlers count nothing.
`Ledger` keeps a list of the messages that could not be serialised and the
number of calls.
-/

namespace Mxrc.Logging
open Mxrc.Lib List Option

def WriterPhase.inFlight {M : Type} : WriterPhase M → ℕ
  | .popped _ _ | .put _ _ => 1
  | _ => 0

lemma WriterPhase.inFlight_le_one {M : Type} (phase : WriterPhase M) : phase.inFlight ≤ 1 := by
  cases phase <;> simp [inFlight]

lemma WriterPhase.Idle.inFlight {M : Type} {phase : WriterPhase M} (h : phase.Idle) :
    phase.inFlight = 0 := by
  cases phase with
  | popped draining msg => cases h.1
  | put draining line => cases h.2
  | _ => rfl

namespace AsyncWriter
variable {M : Type} (toJsonLine : M → Except String (List UInt8)) (w : AsyncWriter M)

def abandoned : List M :=
  match w.phase with
  | .popped _ msg => if (toJsonLine msg).isOk then [] else [msg]
  | _ => []

/-- Of `calls` calls of `tryPush`, `lost` are in no counter and nowhere on their way. -/
def Accounted (calls lost : ℕ) : Prop :=
  ∃ written dropped, w.writtenCount = UInt64.ofNat written ∧ w.droppedCount = UInt64.ofNat dropped ∧
    calls = written + dropped + w.messageQueue.length + w.phase.inFlight + lost

variable {toJsonLine} {w} {w' : AsyncWriter M} {calls lost : ℕ}

lemma Accounted.tryPush (h : w.Accounted calls lost) {msg : M} {result : Bool}
    (hn : w.tryPush msg = some (result, w')) : w'.Accounted (calls + 1) lost := by
  obtain ⟨written, dropped, hwrit, hdrop, hcalls⟩ := h
  rcases tryPush_cases hn with ⟨-, rfl⟩ | ⟨-, rfl⟩
  · refine ⟨written, dropped + 1, hwrit, ?_, by simp only; omega⟩
    rw [UInt64.ofNat_add, ← hdrop]
    rfl
  · refine ⟨written, dropped, hwrit, hdrop, ?_⟩
    simp only [length_append, length_singleton]
    omega

lemma Accounted.sync (h : w.Accounted calls lost) : w.sync.Accounted calls lost := by
  obtain ⟨n, hsync⟩ := sync_eq w
  rw [hsync]
  exact h

lemma abandoned_of_inHand (h : w.phase.inHand = []) : w.abandoned toJsonLine = [] := by
  unfold abandoned
  split
  · rename_i hph
    rw [hph] at h
    cases h
  · rfl

lemma Accounted.work (h : w.Accounted calls lost) (hn : w.work toJsonLine = some w') :
    w'.Accounted calls (lost + (w.abandoned toJsonLine).length) := by
  obtain ⟨written, dropped, hwrit, hdrop, hcalls⟩ := h
  cases work_cases hn with
  | move hidle hidle' =>
    refine ⟨written, dropped, hwrit, hdrop, ?_⟩
    rw [hidle.inFlight] at hcalls
    simp only [hidle'.inFlight, abandoned_of_inHand hidle.1, length_nil]
    omega
  | take hidle hqu =>
    refine ⟨written, dropped, hwrit, hdrop, ?_⟩
    rw [hidle.inFlight, hqu, length_cons] at hcalls
    simp only [WriterPhase.inFlight, abandoned_of_inHand hidle.1, length_nil]
    omega
  | finish hph =>
    have hidle : w.phase.Idle := hph ▸ ⟨rfl, rfl⟩
    obtain ⟨n, hsync⟩ := sync_eq w
    rw [hsync, abandoned_of_inHand hidle.1]
    refine ⟨written, dropped, hwrit, hdrop, ?_⟩
    rw [hidle.inFlight] at hcalls
    exact hcalls
  | @skip draining msg what hph herr =>
    have hgone : w.abandoned toJsonLine = [msg] := by
      simp [abandoned, hph, herr, Except.isOk, Except.toBool]
    refine ⟨written, dropped, hwrit, hdrop, ?_⟩
    rw [hph] at hcalls
    simp only [WriterPhase.inFlight] at hcalls
    simp only [(idle_resume draining).inFlight, hgone, length_singleton]
    omega
  | @put draining msg line hph hline =>
    have hkept : w.abandoned toJsonLine = [] := by
      simp [abandoned, hph, hline, Except.isOk, Except.toBool]
    refine ⟨written, dropped, hwrit, hdrop, ?_⟩
    rw [hph] at hcalls
    simpa [hkept, WriterPhase.inFlight] using hcalls
  | count hph =>
    refine ⟨written + 1, dropped, ?_, hdrop, ?_⟩
    · rw [UInt64.ofNat_add, ← hwrit]
      rfl
    · have hkept : w.abandoned toJsonLine = [] := abandoned_of_inHand (by rw [hph]; rfl)
      rw [hph] at hcalls
      simp only [WriterPhase.inFlight] at hcalls
      simp only [WriterPhase.inFlight, hkept, length_nil]
      omega
  | @counted draining line hph =>
    have hkept : w.abandoned toJsonLine = [] := abandoned_of_inHand (by rw [hph]; rfl)
    refine ⟨written, dropped, hwrit, hdrop, ?_⟩
    rw [hph] at hcalls
    simp only [(idle_resume draining).inFlight, hkept, length_nil]
    exact hcalls

end AsyncWriter

structure Ledger (ι M : Type) where
  clients : FlushClients ι M
  calls : ℕ := 0
  lost : List M := []

namespace Ledger
variable {ι M : Type}

def pushes : FlushClients.Op ι M → ℕ
  | .tryPush _ => 1
  | _ => 0

def make (ι M : Type) (queueCapacity : ℕ) : Ledger ι M := { clients := .make ι M queueCapacity }

section
variable [DecidableEq ι] (toJsonLine : M → Except String (List UInt8)) (s : Ledger ι M)

def givenUp : FlushClients.Op ι M → List M
  | .work => s.clients.writer.abandoned toJsonLine
  | _ => []

def next (op : FlushClients.Op ι M) : Option (Ledger ι M) :=
  (s.clients.next toJsonLine op).map fun clients =>
    ⟨clients, s.calls + pushes op, s.lost ++ s.givenUp toJsonLine op⟩

end

/-- Every call is counted as written or dropped, or its message is queued or the one in flight. -/
def Conserved (s : Ledger ι M) : Prop :=
  s.calls = s.clients.writer.writtenCount.toNat + s.clients.writer.droppedCount.toNat +
      s.clients.writer.messageQueue.length + s.clients.writer.phase.inFlight ∧
    s.clients.writer.phase.inFlight ≤ 1

section
variable {toJsonLine : M → Except String (List UInt8)} {s s' : Ledger ι M}

def Accounted (s : Ledger ι M) : Prop := s.clients.writer.Accounted s.calls s.lost.length

lemma accounted_make (queueCapacity : ℕ) : (make ι M queueCapacity).Accounted :=
  ⟨0, 0, rfl, rfl, rfl⟩

lemma Accounted.next [DecidableEq ι] (h : s.Accounted) {op : FlushClients.Op ι M}
    (hn : s.next toJsonLine op = some s') : s'.Accounted := by
  obtain ⟨clients, hcli, rfl⟩ := map_eq_some_iff.mp hn
  rw [Accounted, length_append]
  cases op with
  | tryPush msg =>
    obtain ⟨⟨result, w⟩, hpush, rfl⟩ := map_eq_some_iff.mp hcli
    exact AsyncWriter.Accounted.tryPush h hpush
  | flush c timeoutMs =>
    have hwrt : clients.writer = s.clients.writer := by
      simp only [FlushClients.next] at hcli
      split at hcli <;> cases hcli <;> rfl
    rw [hwrt]
    exact h
  | flushStep c elapsedMs =>
    simp only [FlushClients.next] at hcli
    cases hph : s.clients.calls c with
    | none => simp [hph] at hcli
    | some phase =>
      rw [hph] at hcli
      obtain ⟨⟨phase', w⟩, hstep, rfl⟩ := map_eq_some_iff.mp hcli
      rcases (AsyncWriter.flushStep_spec hstep).1 with rfl | rfl
      · exact h
      · exact AsyncWriter.Accounted.sync h
  | work =>
    obtain ⟨w, hwork, rfl⟩ := map_eq_some_iff.mp hcli
    exact AsyncWriter.Accounted.work h hwork
  | stop =>
    cases hcli
    exact h
  | join =>
    obtain ⟨w, hjoin, rfl⟩ := map_eq_some_iff.mp hcli
    obtain ⟨-, rfl⟩ := AsyncWriter.join_eq_some hjoin
    exact AsyncWriter.Accounted.sync h

end

theorem conserved_iff_lost_eq_nil [DecidableEq ι] (toJsonLine : M → Except String (List UInt8))
    (queueCapacity : ℕ) (ops : List (FlushClients.Op ι M)) (s : Ledger ι M)
    (hrun : Run (next toJsonLine) (fun _ _ => True) (make ι M queueCapacity) ops s)
    (hcalls : s.calls < 2 ^ 64) : s.Conserved ↔ s.lost = [] := by
  have hacc : s.Accounted := hrun.invariant Accounted (accounted_make queueCapacity)
    fun _ _ _ hs _ hn => hs.next hn
  obtain ⟨written, dropped, hwrit, hdrop, hsum⟩ := hacc
  have hw : s.clients.writer.writtenCount.toNat = written := by
    rw [hwrit, UInt64.toNat_ofNat_of_lt' (by simp [UInt64.size]; omega)]
  have hd : s.clients.writer.droppedCount.toNat = dropped := by
    rw [hdrop, UInt64.toNat_ofNat_of_lt' (by simp [UInt64.size]; omega)]
  rw [Conserved, hw, hd, and_iff_left (WriterPhase.inFlight_le_one _), ← length_eq_zero_iff]
  omega

theorem conserved_iff_lost_eq_nil_one : ∃ s : Ledger Unit UInt8,
    exec (next fun n : UInt8 => .ok [n, 10]) (fun _ _ => true) (make Unit UInt8 10)
      [.tryPush 55, .work, .work, .work, .work] = some s ∧ s.calls < 2 ^ 64 ∧
      (s.Conserved ↔ s.lost = []) := by
  have hexec : (exec (next fun n : UInt8 => .ok [n, 10]) (fun _ _ => true) (make Unit UInt8 10)
      [.tryPush 55, .work, .work, .work, .work]).map (·.calls) = some 1 := by decide
  obtain ⟨s, hs, hcalls⟩ := map_eq_some_iff.mp hexec
  have hsml : s.calls < 2 ^ 64 := by omega
  exact ⟨s, hs, hsml,
    conserved_iff_lost_eq_nil _ 10 _ s (Run.of_exec (fun _ _ _ => trivial) hs) hsml⟩

end Ledger

/-! ### Messages from the data store -/

structure DataStoreValueChangedEvent where
  key : String
  newValue : List UInt8
  valueType : String
  timestampNs : Int64

def BagMessage.isValid (msg : BagMessage) : Bool :=
  0 < msg.timestampNs && msg.topic != "" && msg.topic.utf8ByteSize ≤ 256 &&
    msg.serializedValue != []

def convertToBagMessage (event : DataStoreValueChangedEvent) : BagMessage where
  timestampNs := event.timestampNs
  topic := event.key
  dataType :=
    if event.valueType = "MissionState" then .missionState
    else if event.valueType = "TaskState" then .taskState
    else if event.valueType = "Alarm" then .alarm
    else if event.valueType = "Event" then .event
    else if event.valueType = "InterfaceData" then .interfaceData
    else .event
  serializedValue := event.newValue

def onDataStoreEvent (event : DataStoreValueChangedEvent) : Option BagMessage :=
  let bagMsg := convertToBagMessage event
  if bagMsg.isValid then some bagMsg else none

namespace Ledger

/-- An action result is stored as plain text. Its message fails to serialise and is in no counter.
-/
def plainText : DataStoreValueChangedEvent :=
  ⟨"action/a1", ascii "completed:12ms", "TaskState", 5⟩

example : onDataStoreEvent plainText = some (convertToBagMessage plainText) := by decide

lemma plainText_lost :
    (exec (next (BagMessage.toJsonLine sampleCodec)) (fun _ _ => true)
      (make Unit BagMessage 10)
      [.tryPush (convertToBagMessage plainText), .work, .work, .work]).map
      (fun s => (s.calls, s.clients.writer.writtenCount, s.clients.writer.droppedCount,
        s.clients.writer.messageQueue.length, s.clients.writer.phase.inFlight)) =
      some (1, 0, 0, 0, 0) := by
  decide +kernel

theorem not_conserved : ¬∀ (ι J : Type) (_ : DecidableEq ι) (codec : JsonCodec J)
    (queueCapacity : ℕ) (ops : List (FlushClients.Op ι BagMessage)) (s : Ledger ι BagMessage),
    Run (next (BagMessage.toJsonLine codec)) (fun _ _ => True) (make ι BagMessage queueCapacity)
      ops s → s.Conserved := by
  intro h
  obtain ⟨s, hrun, hend⟩ := exists_run_of_exec (fun _ _ _ => trivial) plainText_lost
  have hcon := h Unit JsonValue inferInstance sampleCodec 10 _ s hrun
  simp only [Prod.mk.injEq] at hend
  obtain ⟨hcalls, hwrit, hdrop, hqu, hflig⟩ := hend
  rw [Conserved, hcalls, hwrit, hdrop, hqu, hflig] at hcon
  exact absurd hcon.1 (by decide)

end Ledger
end Mxrc.Logging
