import Mxrc.Logging.BagReader
import Mxrc.Logging.IndexOffsets

/-!
# Bag files can be read back

A finished file is `Readable` if a new reader opens it and gets the accepted
messages, with the same number of index entries. Only `close` writes the index
and the footer, the index is cleared by `openFile` only, and files are opened
for appending.
-/

namespace Mxrc.Logging
open Mxrc.Lib List

namespace SimpleBagWriter
variable {J : Type} (codec : JsonCodec J) (s : SimpleBagWriter)

def Readable (file : FinishedFile) : Prop :=
  ∃ r msgs, BagReader.openFile {} (some file.contents) = .ok (true, r) ∧
    file.accepted.map (BagMessage.normalise codec) = msgs.map .ok ∧
    r.readAll codec = msgs ∧ r.getMessageCount = file.accepted.length

def inTime (env : Environment) : Bool :=
  match s.phase with
  | .flushing (.sleeping timeoutMs _) (.append _ _) =>
    !(0 < timeoutMs && timeoutMs.toNat ≤ env.elapsedMs)
  | _ => true

def finalSize (w : AsyncWriter BagMessage) : ℕ :=
  (s.fileContents ++ w.lines.flatten).length + 16 * s.indexer.length + 64

/-- Messages have a topic, are written through `append` and can be printed; files can be opened and
addressed, and no `append` times out. -/
def Succeeds : Op → Prop
  | .begin (.openFile _ opened) | .begin (.start _ opened) => opened = true
  | .begin (.append msg) => msg.topic ≠ "" ∧ (msg.toJsonLine codec).isOk = true
  | .begin (.appendAsync _) => False
  | .proceed env => env.opened = true ∧ s.inTime env = true ∧
      ∀ w ∈ s.asyncWriter, s.finalSize w < 2 ^ 63
  | _ => True

instance : DecidablePred (Succeeds codec s)
  | .begin (.openFile ..) | .begin (.start ..) => inferInstanceAs (Decidable (_ = true))
  | .begin (.append _) => inferInstanceAs (Decidable (_ ∧ _))
  | .begin (.appendAsync _) => inferInstanceAs (Decidable False)
  | .proceed _ =>
    have : Decidable (∀ w ∈ s.asyncWriter, s.finalSize w < 2 ^ 63) :=
      Option.decidableForallMem s.asyncWriter
    inferInstanceAs (Decidable (_ ∧ _ ∧ _))
  | .begin (.flush _) | .begin .rotate | .begin .close | .begin .stop | .work =>
    inferInstanceAs (Decidable True)

def checksRotation : AfterFlush → Bool
  | .append _ _ | .flush => true
  | _ => false

/-- Files are empty when they are opened, `start` finds no index entries, and files are finished by
`close` only. -/
def Finalised : Op → Prop
  | .begin (.openFile path _) => s.isOpen = false → (s.files.lookup path).getD [] = []
  | .begin (.start path _) =>
      s.isOpen = false → (s.files.lookup path).getD [] = [] ∧ s.indexer = []
  | .begin .rotate | .begin .stop => s.isOpen = false
  | .proceed env => ∀ result before after w, s.phase = .flushing (.returned result before) after →
      checksRotation after = true → s.asyncWriter = some w →
      s.rotationPolicy.shouldRotate w.bytesWritten env.elapsedSeconds = false
  | _ => True

def ReadsBack (G : SimpleBagWriter → Op → Prop) : Prop :=
  ∀ queueCapacity rotationPolicy ops s,
    Run (next codec) G { queueCapacity, rotationPolicy } ops s → ∀ f ∈ s.finished, Readable codec f

variable {codec} {accepted : List BagMessage} {lines : List (List UInt8)}

lemma exists_texts (h : accepted.map (BagMessage.toJsonLine codec) = lines.map .ok) :
    ∃ (texts : List (List UInt8)) (msgs : List BagMessage), lines = texts.map (· ++ [10]) ∧
      (∀ text ∈ texts, text ≠ [] ∧ 10 ∉ text) ∧
      texts.map (BagMessage.fromJsonLine codec) = msgs.map .ok ∧
      accepted.map (BagMessage.normalise codec) = msgs.map .ok := by
  induction accepted generalizing lines with
  | nil =>
    have hlin : lines = [] := by simpa [eq_comm] using h
    exact ⟨[], [], hlin, by simp, rfl, rfl⟩
  | cons msg accepted ih =>
    cases lines with
    | nil => simp at h
    | cons line lines =>
      simp only [map_cons, List.cons.injEq] at h
      obtain ⟨texts, msgs, hlin, htex, hread, hnor⟩ := ih h.2
      obtain ⟨text, normal, hline, hne, hprin, hfrom, hmsg⟩ := BagMessage.toJsonLine_eq_ok h.1
      have hnew : 10 ∉ text := fun hmem => absurd (hprin 10 hmem) (by decide)
      refine ⟨text :: texts, normal :: msgs, ?_, ?_, by simp [hfrom, hread],
        by simp [hmsg, hnor]⟩
      · rw [map_cons, ← hlin, hline]
      · intro text' hmem
        rcases mem_cons.mp hmem with rfl | hmem
        · exact ⟨hne, hnew⟩
        · exact htex text' hmem

lemma readable_close {entries : List IndexEntry} {dataSize : UInt64} {data : List UInt8}
    (h : accepted.map (BagMessage.toJsonLine codec) = lines.map .ok)
    (hdata : data = lines.flatten) (hind : entries.length = accepted.length)
    (hsize : data.length + 16 * entries.length + 64 < 2 ^ 63) :
    Readable codec ⟨data ++ Indexer.writeToFile entries data.length dataSize, accepted⟩ := by
  obtain ⟨texts, msgs, hlin, htex, hread, hnor⟩ := exists_texts h
  have hlen : (data ++ Indexer.writeToFile entries data.length dataSize).length < 2 ^ 63 := by
    rw [Indexer.writeToFile, length_append, length_append, Indexer.length_indexBlock,
      Indexer.sized_footer.length_toBytes]
    omega
  obtain ⟨r, hopen, hall, hcnt⟩ :=
    BagReader.openFile_finished htex hread (by rw [hdata, hlin]; rfl) hlen
  exact ⟨r, msgs, hopen, hnor, hall, hcnt.trans hind⟩

def pendingAppend : CallPhase → List BagMessage
  | .flushing _ (.append msg _) => [msg]
  | _ => []

def Allowed (codec : JsonCodec J) : CallPhase → Prop
  | .pushing msg _ => (msg.toJsonLine codec).isOk = true
  | .flushing flush (.append _ _) => ∀ before, flush ≠ .returned false before
  | .flushing _ .rotate | .flushing _ .stop | .joining .rotate | .joining .stop => False
  | _ => True

structure Current (codec : JsonCodec J) (s : SimpleBagWriter) (w : AsyncWriter BagMessage) :
    Prop where
  serialisable : ∀ msg ∈ w.accepted, (msg.toJsonLine codec).isOk = true
  empty : s.fileContents = []
  index : s.indexer.length = s.accepted.length
  accepted : w.accepted = s.accepted ++ pendingAppend s.phase
  allowed : Allowed codec s.phase

structure Sound (codec : JsonCodec J) (s : SimpleBagWriter) : Prop where
  finished : ∀ f ∈ s.finished, Readable codec f
  current : ∀ w, s.asyncWriter = some w → Current codec s w

section
variable {s s' : SimpleBagWriter} {w w' : AsyncWriter BagMessage} {env : Environment}
  {after : AfterFlush} {msg : BagMessage} {currentOffset : UInt64}

lemma sound_startWriter {path : String} (hfinis : ∀ f ∈ s.finished, Readable codec f)
    (hph : s.phase = .idle) (hemp : (s.files.lookup path).getD [] = [])
    (hind : s.indexer = []) : Sound codec (s.startWriter path) := by
  refine ⟨hfinis, fun w hw => ?_⟩
  cases hw
  refine ⟨by simp, ?_, ?_, ?_, ?_⟩
  · simp [fileContents, startWriter, hemp]
  · simp [startWriter, hind]
  · simp [startWriter, hph, pendingAppend]
  · simp [startWriter, hph, Allowed]

section
variable {phase : CallPhase} {written dropped bytes : UInt64} (h : Sound codec s)
  (hw : s.asyncWriter = some w)
include h hw

lemma Sound.setPhase (hser : ∀ msg ∈ w'.accepted, (msg.toJsonLine codec).isOk = true)
    (hacc : w'.accepted = s.accepted ++ pendingAppend phase)
    (halw : Allowed codec phase) :
    Sound codec { s with
      totalMessagesWritten := written, totalMessagesDropped := dropped, totalBytesWritten := bytes
      asyncWriter := some w', phase } := by
  have hcur := h.current w hw
  refine ⟨h.finished, fun w'' hw'' => ?_⟩
  cases hw''
  exact ⟨hser, hcur.empty, hcur.index, hacc, halw⟩

lemma Sound.callPhase (hpend : pendingAppend s.phase = pendingAppend phase)
    (halw : Allowed codec phase) : Sound codec { s with phase } := by
  have hcur := h.current w hw
  refine ⟨h.finished, fun w' hw' => ?_⟩
  cases hw.symm.trans hw'
  exact ⟨hcur.serialisable, hcur.empty, hcur.index, hpend ▸ hcur.accepted, halw⟩

end

section
variable (h : Sound codec s)
include h

lemma Sound.beginFlush {call : Call} {timeoutMs : UInt32}
    (hfin : Finalised s (.begin call)) (hidle : s.phase = .idle) (hw : s.writer? = some w)
    (haft : ∀ msg currentOffset, after ≠ .append msg currentOffset)
    (hrot : after = .rotate → call = .rotate) (hstop : after = .stop → call = .stop) :
    Sound codec { s with phase := .flushing (w.flush timeoutMs) after } := by
  obtain ⟨hopen, hw⟩ := writer?_eq_some hw
  cases after with
  | append msg currentOffset => exact absurd rfl (haft msg currentOffset)
  | flush
  | close => exact h.callPhase hw (by rw [hidle]; rfl) trivial
  | rotate =>
    cases hrot rfl
    cases hopen.symm.trans hfin
  | stop =>
    cases hstop rfl
    cases hopen.symm.trans hfin

lemma Sound.push (hw : s.asyncWriter = some w) (hph : s.phase = .pushing msg currentOffset)
    {result : Bool} (hpush : w.tryPush msg = some (result, w')) :
    Sound codec { s with
      asyncWriter := some w'
      phase :=
        if result then .flushing (w'.flush 1000) (.append msg currentOffset) else .idle } := by
  have hcur := h.current w hw
  have halw := hcur.allowed
  have hacc := hcur.accepted
  rw [hph] at halw hacc
  have hpus := AsyncWriter.accepted_tryPush hpush
  have hser : ∀ msg ∈ w'.accepted, (msg.toJsonLine codec).isOk = true := by
    intro msg' hmem
    rw [hpus] at hmem
    rcases mem_append.mp hmem with hmem | hmem
    · exact hcur.serialisable msg' hmem
    · cases result with
      | true => rwa [mem_singleton.mp hmem]
      | false => cases hmem
  rw [hacc, show pendingAppend (.pushing msg currentOffset) = [] from rfl, append_nil] at hpus
  refine h.setPhase hw hser ?_ ?_
  · cases result with
    | true => exact hpus
    | false => exact hpus
  · cases result with
    | true => simp [AsyncWriter.flush, Allowed]
    | false => trivial

lemma Sound.flushStep (hw : s.asyncWriter = some w) {flush flush' : FlushPhase}
    (hph : s.phase = .flushing flush after) (hint : s.inTime env = true)
    (hstep : w.flushStep env.elapsedMs flush = some (flush', w')) :
    Sound codec { s with asyncWriter := some w', phase := .flushing flush' after } := by
  have hcur := h.current w hw
  have halw := hcur.allowed
  have hacc := hcur.accepted
  rw [hph] at halw hacc
  obtain ⟨-, hsame⟩ := AsyncWriter.flushStep_frame hstep
  refine h.setPhase hw (hsame ▸ hcur.serialisable) ?_ ?_
  · rw [hsame, hacc]
    cases after <;> rfl
  · cases after with
    | append msg currentOffset =>
      rintro before rfl
      obtain ⟨timeoutMs, rfl, hpos, hle⟩ := AsyncWriter.timeout_of_returned_false hstep
      simp [inTime, hph, hpos, hle] at hint
    | flush
    | close => trivial
    | rotate
    | stop => exact halw

lemma Sound.accept (hw : s.asyncWriter = some w) {before : ℕ}
    (hph : s.phase = .flushing (.returned true before) (.append msg currentOffset)) :
    Sound codec { s with
      indexer := s.indexer ++ [⟨msg.timestampNs.toUInt64, currentOffset⟩]
      accepted := s.accepted ++ [msg]
      phase := .idle } := by
  have hcur := h.current w hw
  have hacc := hcur.accepted
  rw [hph] at hacc
  refine ⟨h.finished, fun w' hw' => ?_⟩
  cases hw.symm.trans hw'
  exact ⟨hcur.serialisable, hcur.empty, by simp [hcur.index],
    by simpa [pendingAppend] using hacc, trivial⟩

lemma Sound.stopped {result : Bool} {before : ℕ} {after' : AfterStop}
    {written dropped bytes : UInt64}
    (hph : s.phase = .flushing (.returned result before) after)
    (haft : ∀ msg currentOffset, after ≠ .append msg currentOffset)
    (hrot : after' = .rotate → after = .rotate) (hw : s.asyncWriter = some w)
    (hstop : after' = .stop → after = .stop) :
    Sound codec { s with
      totalMessagesWritten := written, totalMessagesDropped := dropped, totalBytesWritten := bytes
      asyncWriter := some w.stop, phase := .joining after' } := by
  have hcur := h.current w hw
  have halw := hcur.allowed
  have hacc := hcur.accepted
  rw [hph] at halw hacc
  have hpend : pendingAppend (.flushing (.returned result before) after) = [] := by
    cases after with
    | append msg currentOffset => exact absurd rfl (haft msg currentOffset)
    | _ => rfl
  rw [hpend] at hacc
  cases after' with
  | rotate =>
    cases hrot rfl
    exact halw.elim
  | close dataSize => exact h.setPhase hw hcur.serialisable hacc trivial
  | stop =>
    cases hstop rfl
    exact halw.elim

lemma Sound.close (hlive : Live codec s) (hw : s.asyncWriter = some w) {dataSize : UInt64}
    (hph : s.phase = .joining (.close dataSize)) (hpnd : env.opened = true)
    (hsize : s.finalSize w < 2 ^ 63) (hjoin : w.join = some w') :
    Sound codec (s.joined w' env (.close dataSize)) := by
  have hcur := h.current w hw
  have hacc := hcur.accepted
  rw [hph, show pendingAppend (.joining (.close dataSize)) = [] from rfl, append_nil] at hacc
  obtain ⟨hlog, hdrn, -⟩ := hlive.writer w hw
  obtain ⟨hsame, hlin⟩ := hdrn.join hlog hcur.serialisable hjoin
  rw [hacc] at hlin
  refine ⟨fun f hf => ?_, fun w'' hw'' => by cases hw''⟩
  rcases mem_append.mp hf with hf | hf
  · exact h.finished f hf
  · rw [mem_singleton.mp hf, if_pos hpnd]
    refine readable_close hlin ?_ hcur.index ?_
    · rw [hcur.empty, hsame, nil_append]
    · rw [hsame]
      exact hsize

lemma Sound.next (hlive : Live codec s) {op : Op} (hsuc : Succeeds codec s op)
    (hfin : Finalised s op) (hn : next codec s op = some s') : Sound codec s' := by
  cases stepped_of_next hn with
  | rest => exact h
  | opened hidle hclos hcall =>
    rcases hcall with ⟨rfl, rfl⟩ | ⟨rfl, rfl⟩
    · exact sound_startWriter h.finished hidle (hfin hclos) rfl
    · exact sound_startWriter h.finished hidle (hfin hclos).1 (hfin hclos).2
  | notOpened _ _ hcall => rcases hcall with ⟨rfl, -⟩ | ⟨rfl, -⟩ <;> cases hsuc
  | sampled hidle hw =>
    exact h.callPhase (writer?_eq_some hw).2 (by rw [hidle]; rfl) hsuc.2
  | queued => exact hsuc.elim
  | flushBegun hidle hw haft hrot hstop =>
    exact h.beginFlush hfin hidle hw haft hrot hstop
  | pushed hph hw hpush
  | dropped hph hw hpush => exact h.push hw hph hpush
  | flushStepped hph hw hstep => exact h.flushStep hw hph hsuc.2.1 hstep
  | accepted hph hw =>
    rw [checkAndRotate_eq]
    · exact h.accept hw hph
    · exact hfin _ _ _ _ hph rfl hw
  | checked hph haft hw =>
    rcases haft with rfl | ⟨rfl, msg, currentOffset, rfl⟩
    · rw [checkAndRotate_eq (hfin _ _ _ _ hph rfl hw)]
      exact h.callPhase hw (by rw [hph]; rfl) trivial
    · have halw := (h.current _ hw).allowed
      rw [hph] at halw
      exact absurd rfl (halw _)
  | stopped written dropped bytes hph haft hrot hw hstop =>
    exact h.stopped hph haft hrot hw hstop
  | @joined env after w w' hph hw hjoin =>
    have halw := (h.current w hw).allowed
    rw [hph] at halw
    cases after with
    | rotate
    | stop => exact halw.elim
    | close => exact h.close hlive hw hph hsuc.1 (hsuc.2.2 w hw) hjoin
  | worked hw hwork =>
    have hcur := h.current _ hw
    obtain ⟨-, hacc⟩ := AsyncWriter.work_frame hwork
    exact h.setPhase hw (hacc ▸ hcur.serialisable) (hacc.trans hcur.accepted) hcur.allowed

end
end

theorem readsBack_of_finalised (codec : JsonCodec J) :
    ReadsBack codec fun s op => Succeeds codec s op ∧ Finalised s op := by
  intro queueCapacity rotationPolicy ops s hrun
  have hsnd : Live codec s ∧ Sound codec s := by
    refine hrun.invariant (fun s => Live codec s ∧ Sound codec s)
      ⟨live_initial _ _ _, by simp, fun w hw => by cases hw⟩ ?_
    intro s op s' hs hop hn
    exact ⟨hs.1.stepped (stepped_of_next hn), hs.2.next hs.1 hop.1 hop.2 hn⟩
  exact hsnd.2.finished

/-- One message is appended and the writer is stopped: the file has its line and no footer. -/
theorem not_readsBack : ¬ ∀ (J : Type) (codec : JsonCodec J), ReadsBack codec (Succeeds codec) := by
  intro hrds
  have hexec : (exec (next sampleCodec) (fun s op => decide (Succeeds sampleCodec s op))
      { queueCapacity := 10, rotationPolicy := {} }
      [.begin (.openFile "a.bag" true), .begin (.append sampleMessage), .proceed {}, .work, .work,
        .work, .work, .work, .proceed {}, .proceed {}, .proceed {}, .begin .stop, .proceed {},
        .proceed {}, .proceed {}, .work, .work, .work, .work, .proceed {}]).map
      (fun s => s.finished.map fun f => (f.contents, f.accepted)) =
      some [(sampleText ++ [10], [sampleMessage])] := by decide +kernel
  obtain ⟨s, hs, hend⟩ := Option.map_eq_some_iff.mp hexec
  have hrun : Run (next sampleCodec) (Succeeds sampleCodec) _ _ s :=
    Run.of_exec (fun _ _ => of_decide_eq_true) hs
  obtain ⟨f, hf, hpair⟩ : ∃ f ∈ s.finished, (f.contents, f.accepted) =
      (sampleText ++ [10], [sampleMessage]) := by
    rw [← mem_map, hend]
    exact mem_singleton_self _
  obtain ⟨r, msgs, hopen, -⟩ := hrds JsonValue sampleCodec 10 {} _ s hrun f hf
  have hfls : (BagReader.openFile {} (some (sampleText ++ [10]))).map (·.1) = .ok false := rfl
  rw [← (Prod.mk.inj hpair).1, hopen] at hfls
  cases hfls

end SimpleBagWriter
end Mxrc.Logging
