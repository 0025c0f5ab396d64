import Mxrc.Logging.AsyncWriter
import Mxrc.Logging.BagMessage
import Mxrc.Logging.Indexer

/-!
# The bag writer

Calls hold the mutex and follow one another, while the thread of the
asynchronous writer moves between any two steps. Clock readings, file names and
whether a file can be opened are parts of the label, `Environment`. `accepted`
has the messages whose `append` returned true while the current file was open,
and `finished` the files that were closed, stopped or rotated. Retention is left
out.
-/

namespace Mxrc.Logging
open Mxrc.Lib Option

inductive RotationType
  | size
  | time
deriving DecidableEq

structure RotationPolicy where
  type : RotationType := .size
  maxSizeBytes : UInt64 := 1024 * 1024 * 1024
  maxDurationSeconds : UInt64 := 3600

def RotationPolicy.shouldRotate (policy : RotationPolicy)
    (currentSizeBytes elapsedSeconds : UInt64) : Bool :=
  match policy.type with
  | .size => policy.maxSizeBytes ≤ currentSizeBytes
  | .time => policy.maxDurationSeconds ≤ elapsedSeconds

inductive AfterFlush
  | append (msg : BagMessage) (currentOffset : UInt64)
  | flush
  | rotate
  | close
  | stop
deriving DecidableEq

inductive AfterStop
  | rotate
  | close (dataSize : UInt64)
  | stop
deriving DecidableEq

inductive CallPhase
  | idle
  | pushing (msg : BagMessage) (currentOffset : UInt64)
  | flushing (flush : FlushPhase) (after : AfterFlush)
  | joining (after : AfterStop)
deriving DecidableEq

structure FinishedFile where
  contents : List UInt8
  accepted : List BagMessage

structure Environment where
  elapsedMs : ℕ := 0
  elapsedSeconds : UInt64 := 0
  newFilePath : String := ""
  opened : Bool := true

structure SimpleBagWriter where
  queueCapacity : ℕ
  rotationPolicy : RotationPolicy
  files : AList (fun _ : String => List UInt8) := ∅
  currentFilePath : String := ""
  asyncWriter : Option (AsyncWriter BagMessage) := none
  indexer : List IndexEntry := []
  rotationCount : UInt64 := 0
  totalMessagesWritten : UInt64 := 0
  totalMessagesDropped : UInt64 := 0
  totalBytesWritten : UInt64 := 0
  isOpen : Bool := false
  phase : CallPhase := .idle
  accepted : List BagMessage := []
  finished : List FinishedFile := []

namespace SimpleBagWriter
variable {J : Type} (codec : JsonCodec J) (s : SimpleBagWriter)

def fileContents : List UInt8 := (s.files.lookup s.currentFilePath).getD []

def startWriter (path : String) : SimpleBagWriter :=
  { s with
    files := s.files.insert path ((s.files.lookup path).getD [])
    currentFilePath := path
    asyncWriter := some { queueCapacity := s.queueCapacity }
    isOpen := true
    accepted := [] }

def openFile (path : String) (opened : Bool) : SimpleBagWriter :=
  if s.isOpen then s
  else
    let s := { s with currentFilePath := path, indexer := [] }
    if opened then s.startWriter path else { s with asyncWriter := none }

def start (path : String) (opened : Bool) : SimpleBagWriter :=
  if s.isOpen then s
  else
    let s := { s with currentFilePath := path }
    if opened then s.startWriter path else { s with asyncWriter := none }

def writer? : Option (AsyncWriter BagMessage) := if s.isOpen then s.asyncWriter else none

def beginFlush (timeoutMs : UInt32) (after : AfterFlush) : SimpleBagWriter :=
  match s.writer? with
  | none => s
  | some w => { s with phase := .flushing (w.flush timeoutMs) after }

def append (msg : BagMessage) : SimpleBagWriter :=
  match s.writer? with
  | none => s
  | some w => { s with phase := .pushing msg w.bytesWritten }

def appendAsync (msg : BagMessage) : Option SimpleBagWriter :=
  match s.writer? with
  | none => some s
  | some w => (w.tryPush msg).map fun (_, w) => { s with asyncWriter := some w }

def flush (timeoutMs : UInt32) : SimpleBagWriter := s.beginFlush timeoutMs .flush

def rotate : SimpleBagWriter := s.beginFlush 5000 .rotate

def close : SimpleBagWriter := s.beginFlush 5000 .close

def stop : SimpleBagWriter := s.beginFlush 5000 .stop

def checkAndRotate (w : AsyncWriter BagMessage) (env : Environment) : SimpleBagWriter :=
  let s := { s with phase := .idle }
  if s.rotationPolicy.shouldRotate w.bytesWritten env.elapsedSeconds then s.rotate else s

def flushed (w : AsyncWriter BagMessage) (result : Bool) (env : Environment) :
    AfterFlush → SimpleBagWriter
  | .append msg currentOffset =>
    let s := if result then { s with
        indexer := s.indexer ++ [⟨msg.timestampNs.toUInt64, currentOffset⟩]
        accepted := s.accepted ++ [msg] } else s
    s.checkAndRotate w env
  | .flush => s.checkAndRotate w env
  | .rotate => { s with
      totalMessagesWritten := s.totalMessagesWritten + w.writtenCount
      totalMessagesDropped := s.totalMessagesDropped + w.droppedCount
      totalBytesWritten := s.totalBytesWritten + w.bytesWritten
      asyncWriter := some w.stop
      phase := .joining .rotate }
  | .close => { s with asyncWriter := some w.stop, phase := .joining (.close w.bytesWritten) }
  | .stop => { s with asyncWriter := some w.stop, phase := .joining .stop }

def finish (contents : List UInt8) : SimpleBagWriter :=
  { s with
    files := s.files.insert s.currentFilePath contents
    asyncWriter := none
    phase := .idle
    finished := s.finished ++ [⟨contents, s.accepted⟩] }

def joined (w : AsyncWriter BagMessage) (env : Environment) : AfterStop → SimpleBagWriter
  | .rotate =>
    let s := s.finish (s.fileContents ++ w.lines.flatten)
    if env.opened then
      { s.startWriter env.newFilePath with rotationCount := s.rotationCount + 1 }
    else
      -- the writer exists, but its thread was never started
      { s with
        asyncWriter := some { queueCapacity := s.queueCapacity, running := false,
                              phase := .finished, isOpen := false }
        isOpen := false }
  | .close dataSize =>
    let data := s.fileContents ++ w.lines.flatten
    let index := if env.opened then Indexer.writeToFile s.indexer data.length dataSize else []
    { s.finish (data ++ index) with isOpen := false }
  | .stop => { s.finish (s.fileContents ++ w.lines.flatten) with isOpen := false }

def proceed (env : Environment) : Option SimpleBagWriter :=
  match s.asyncWriter with
  | none => none
  | some w =>
    match s.phase with
    | .idle => none
    | .pushing msg currentOffset =>
      (w.tryPush msg).map fun (result, w) =>
        { s with
          asyncWriter := some w
          phase := if result then .flushing (w.flush 1000) (.append msg currentOffset) else .idle }
    | .flushing (.returned result _) after => some (s.flushed w result env after)
    | .flushing flush after =>
      (w.flushStep env.elapsedMs flush).map fun (flush, w) =>
        { s with asyncWriter := some w, phase := .flushing flush after }
    | .joining after => w.join.map fun w => s.joined w env after

def work : Option SimpleBagWriter :=
  match s.asyncWriter with
  | none => none
  | some w => (w.work (BagMessage.toJsonLine codec)).map fun w => { s with asyncWriter := some w }

inductive Call
  | openFile (path : String) (opened : Bool)
  | start (path : String) (opened : Bool)
  | append (msg : BagMessage)
  | appendAsync (msg : BagMessage)
  | flush (timeoutMs : UInt32)
  | rotate
  | close
  | stop

def begin : Call → Option SimpleBagWriter
  | .openFile path opened => some (s.openFile path opened)
  | .start path opened => some (s.start path opened)
  | .append msg => some (s.append msg)
  | .appendAsync msg => s.appendAsync msg
  | .flush timeoutMs => some (s.flush timeoutMs)
  | .rotate => some s.rotate
  | .close => some s.close
  | .stop => some s.stop

inductive Op
  | begin (call : Call)
  | proceed (env : Environment)
  | work

/-- A call begins when the one before it has returned. -/
def next : Op → Option SimpleBagWriter
  | .begin call => if s.phase = .idle then s.begin call else none
  | .proceed env => s.proceed env
  | .work => s.work codec

inductive Stepped : Op → SimpleBagWriter → Prop
  | rest {call : Call}
      (hcall : ∀ path opened, call = .openFile path opened → s.isOpen = true) :
      Stepped (.begin call) s
  | opened {call : Call} {path : String} {entries : List IndexEntry} (hidle : s.phase = .idle)
      (hclosed : s.isOpen = false)
      (hcall : call = .openFile path true ∧ entries = [] ∨
        call = .start path true ∧ entries = s.indexer) :
      Stepped (.begin call)
        ({ s with currentFilePath := path, indexer := entries }.startWriter path)
  | notOpened {call : Call} {path : String} {entries : List IndexEntry}
      (hidle : s.phase = .idle) (hclosed : s.isOpen = false)
      (hcall : call = .openFile path false ∧ entries = [] ∨
        call = .start path false ∧ entries = s.indexer) :
      Stepped (.begin call)
        { s with currentFilePath := path, indexer := entries, asyncWriter := none }
  | sampled {msg : BagMessage} {w : AsyncWriter BagMessage} (hidle : s.phase = .idle)
      (hw : s.writer? = some w) :
      Stepped (.begin (.append msg)) { s with phase := .pushing msg w.bytesWritten }
  | queued {msg : BagMessage} {w w' : AsyncWriter BagMessage} {result : Bool}
      (hidle : s.phase = .idle) (hw : s.writer? = some w)
      (hpush : w.tryPush msg = some (result, w')) :
      Stepped (.begin (.appendAsync msg)) { s with asyncWriter := some w' }
  | flushBegun {call : Call} {w : AsyncWriter BagMessage} {timeoutMs : UInt32} {after : AfterFlush}
      (hidle : s.phase = .idle) (hw : s.writer? = some w)
      (hafter : ∀ msg currentOffset, after ≠ .append msg currentOffset)
      (hrotate : after = .rotate → call = .rotate) (hstop : after = .stop → call = .stop) :
      Stepped (.begin call) { s with phase := .flushing (w.flush timeoutMs) after }
  | pushed {env : Environment} {msg : BagMessage} {currentOffset : UInt64}
      {w w' : AsyncWriter BagMessage} (hphase : s.phase = .pushing msg currentOffset)
      (hw : s.asyncWriter = some w) (hpush : w.tryPush msg = some (true, w')) :
      Stepped (.proceed env) { s with
        asyncWriter := some w', phase := .flushing (w'.flush 1000) (.append msg currentOffset) }
  | dropped {env : Environment} {msg : BagMessage} {currentOffset : UInt64}
      {w w' : AsyncWriter BagMessage} (hphase : s.phase = .pushing msg currentOffset)
      (hw : s.asyncWriter = some w) (hpush : w.tryPush msg = some (false, w')) :
      Stepped (.proceed env) { s with asyncWriter := some w', phase := .idle }
  | flushStepped {env : Environment} {flush flush' : FlushPhase} {after : AfterFlush}
      {w w' : AsyncWriter BagMessage} (hphase : s.phase = .flushing flush after)
      (hw : s.asyncWriter = some w)
      (hstep : w.flushStep env.elapsedMs flush = some (flush', w')) :
      Stepped (.proceed env) { s with asyncWriter := some w', phase := .flushing flush' after }
  | accepted {env : Environment} {before : ℕ} {msg : BagMessage} {currentOffset : UInt64}
      {w : AsyncWriter BagMessage}
      (hphase : s.phase = .flushing (.returned true before) (.append msg currentOffset))
      (hw : s.asyncWriter = some w) :
      Stepped (.proceed env) (checkAndRotate { s with
        indexer := s.indexer ++ [⟨msg.timestampNs.toUInt64, currentOffset⟩]
        accepted := s.accepted ++ [msg] } w env)
  | checked {env : Environment} {result : Bool} {before : ℕ} {after : AfterFlush}
      {w : AsyncWriter BagMessage} (hphase : s.phase = .flushing (.returned result before) after)
      (hafter : after = .flush ∨ result = false ∧ ∃ msg currentOffset,
        after = .append msg currentOffset) (hw : s.asyncWriter = some w) :
      Stepped (.proceed env) (s.checkAndRotate w env)
  | stopped {env : Environment} {result : Bool} {before : ℕ} {after : AfterFlush}
      {after' : AfterStop} {w : AsyncWriter BagMessage} (written dropped bytes : UInt64)
      (hphase : s.phase = .flushing (.returned result before) after)
      (hafter : ∀ msg currentOffset, after ≠ .append msg currentOffset)
      (hrotate : after' = .rotate → after = .rotate) (hw : s.asyncWriter = some w)
      (hstop : after' = .stop → after = .stop) :
      Stepped (.proceed env) { s with
        totalMessagesWritten := written, totalMessagesDropped := dropped, totalBytesWritten := bytes
        asyncWriter := some w.stop, phase := .joining after' }
  | joined {env : Environment} {after : AfterStop} {w w' : AsyncWriter BagMessage}
      (hphase : s.phase = .joining after) (hw : s.asyncWriter = some w)
      (hjoin : w.join = some w') : Stepped (.proceed env) (s.joined w' env after)
  | worked {w w' : AsyncWriter BagMessage} (hw : s.asyncWriter = some w)
      (hwork : w.work (BagMessage.toJsonLine codec) = some w') :
      Stepped .work { s with asyncWriter := some w' }

section
variable {codec} {s} {s' : SimpleBagWriter} {after : AfterFlush} {env : Environment}
  {w : AsyncWriter BagMessage}

lemma stepped_beginFlush {call : Call} {timeoutMs : UInt32} (hidle : s.phase = .idle)
    (hcall : ∀ path opened, call ≠ .openFile path opened)
    (haft : ∀ msg currentOffset, after ≠ .append msg currentOffset)
    (hrot : after = .rotate → call = .rotate) (hstop : after = .stop → call = .stop) :
    Stepped codec s (.begin call) (s.beginFlush timeoutMs after) := by
  unfold beginFlush
  split
  · exact .rest fun path opened h => absurd h (hcall path opened)
  · rename_i w hw
    exact .flushBegun hidle hw haft hrot hstop

lemma stepped_begin {call : Call} (hidle : s.phase = .idle) (hn : s.begin call = some s') :
    Stepped codec s (.begin call) s' := by
  cases call with
  | openFile path opened =>
    cases hn
    unfold openFile
    split_ifs with hopen hpnd
    · exact .rest fun _ _ _ => hopen
    · exact .opened hidle (by simpa using hopen) (.inl ⟨by rw [hpnd], rfl⟩)
    · exact .notOpened hidle (by simpa using hopen) (.inl ⟨by simpa using hpnd, rfl⟩)
  | start path opened =>
    cases hn
    unfold start
    split_ifs with hopen hpnd
    · exact .rest fun _ _ _ => hopen
    · exact .opened hidle (by simpa using hopen) (.inr ⟨by rw [hpnd], rfl⟩)
    · exact .notOpened hidle (by simpa using hopen) (.inr ⟨by simpa using hpnd, rfl⟩)
  | append msg =>
    cases hn
    unfold append
    split
    · exact .rest (by simp)
    · rename_i w hw
      exact .sampled hidle hw
  | appendAsync msg =>
    rw [begin, appendAsync] at hn
    split at hn
    · cases hn
      exact .rest (by simp)
    · rename_i w hw
      obtain ⟨⟨result, w'⟩, hpush, rfl⟩ := map_eq_some_iff.mp hn
      exact .queued hidle hw hpush
  | flush timeoutMs
  | rotate
  | close
  | stop =>
    cases hn
    exact stepped_beginFlush hidle (by simp) (by simp) (by simp) (by simp)

lemma stepped_flushed {result : Bool} {before : ℕ}
    (hph : s.phase = .flushing (.returned result before) after) (hw : s.asyncWriter = some w) :
    Stepped codec s (.proceed env) (s.flushed w result env after) := by
  cases after with
  | append msg currentOffset =>
    cases result with
    | true => exact .accepted hph hw
    | false => exact .checked hph (.inr ⟨rfl, msg, currentOffset, rfl⟩) hw
  | flush => exact .checked hph (.inl rfl) hw
  | rotate
  | close
  | stop => exact .stopped _ _ _ hph (by simp) (by simp) hw (by simp)

lemma stepped_proceed (hn : s.proceed env = some s') : Stepped codec s (.proceed env) s' := by
  unfold proceed at hn
  split at hn
  · cases hn
  · rename_i w hw
    split at hn
    · cases hn
    · rename_i msg currentOffset hph
      obtain ⟨⟨result, w'⟩, hpush, rfl⟩ := map_eq_some_iff.mp hn
      cases result with
      | true => exact .pushed hph hw hpush
      | false => exact .dropped hph hw hpush
    · rename_i result before after hph
      cases hn
      exact stepped_flushed hph hw
    · rename_i flush after hret hph
      obtain ⟨⟨flush', w'⟩, hstep, rfl⟩ := map_eq_some_iff.mp hn
      exact .flushStepped hph hw hstep
    · rename_i after hph
      obtain ⟨w', hjoin, rfl⟩ := map_eq_some_iff.mp hn
      exact .joined hph hw hjoin

lemma stepped_of_next {op : Op} (hn : s.next codec op = some s') : Stepped codec s op s' := by
  cases op with
  | begin call =>
    rw [next] at hn
    split_ifs at hn with hidle
    exact stepped_begin hidle hn
  | proceed env => exact stepped_proceed hn
  | work =>
    rw [next, work] at hn
    split at hn
    · cases hn
    · rename_i w hw
      obtain ⟨w', hwork, rfl⟩ := map_eq_some_iff.mp hn
      exact .worked hw hwork

lemma writer?_eq_some (h : s.writer? = some w) : s.isOpen = true ∧ s.asyncWriter = some w := by
  unfold writer? at h
  split_ifs at h with hopen
  exact ⟨hopen, h⟩

lemma checkAndRotate_eq
    (hpol : s.rotationPolicy.shouldRotate w.bytesWritten env.elapsedSeconds = false) :
    s.checkAndRotate w env = { s with phase := .idle } := by
  simp [checkAndRotate, hpol]

lemma checkAndRotate_cases (hopen : s.isOpen = true) (hw : s.asyncWriter = some w)
    (env : Environment) : s.checkAndRotate w env = { s with phase := .idle } ∨
      s.rotationPolicy.shouldRotate w.bytesWritten env.elapsedSeconds = true ∧
        s.checkAndRotate w env = { s with phase := .flushing (w.flush 5000) .rotate } := by
  unfold checkAndRotate
  simp only
  split_ifs with hrot
  · refine .inr ⟨hrot, ?_⟩
    simp [rotate, beginFlush, writer?, hopen, hw]
  · exact .inl rfl

end
end SimpleBagWriter
end Mxrc.Logging
