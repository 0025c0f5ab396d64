import Mxrc.Lib.Runs
import Mxrc.Logging.SimpleBagWriter

/-!
# Offsets in the index

An index entry gets the number of bytes that the asynchronous writer had counted
when its `append` began. An offset is right if the file was empty when it was
opened and the thread had written and counted all that was accepted before.
-/

namespace Mxrc.Logging
open Mxrc.Lib AsyncWriter List Option

namespace SimpleBagWriter
variable {J : Type} (codec : JsonCodec J)

/-! ## The writer of the current file -/

structure Live (s : SimpleBagWriter) : Prop where
  writer : ∀ w, s.asyncWriter = some w → w.Logged (BagMessage.toJsonLine codec) ∧ w.Drains ∧
    (s.isOpen = true → (∀ after, s.phase ≠ .joining after) → w.running = true)
  busy : s.phase ≠ .idle → s.isOpen = true

section
variable {codec} {s s' : SimpleBagWriter} {w w' : AsyncWriter BagMessage} {op : Op}
  {env : Environment}

lemma live_of_writer (hw : s'.asyncWriter = some w')
    (hlog : w'.Logged (BagMessage.toJsonLine codec)) (hdrn : w'.Drains)
    (hrng : (∀ after, s'.phase ≠ .joining after) → w'.running = true)
    (hopen : s'.isOpen = true) : Live codec s' := by
  refine ⟨fun w hw' => ?_, fun _ => hopen⟩
  cases hw.symm.trans hw'
  exact ⟨hlog, hdrn, fun _ => hrng⟩

lemma live_none (hw : s'.asyncWriter = none) (hbusy : s'.phase ≠ .idle → s'.isOpen = true) :
    Live codec s' := by
  refine ⟨fun w hw' => ?_, hbusy⟩
  cases hw.symm.trans hw'

lemma Live.phase (h : Live codec s) (hw : s.asyncWriter = some w) (hrng : w.running = true)
    (hw' : s'.asyncWriter = some w) (hopen' : s'.isOpen = true) :
    Live codec s' :=
  live_of_writer hw' (h.writer w hw).1 (h.writer w hw).2.1 (fun _ => hrng) hopen'

lemma live_new (queueCapacity : ℕ) (hw : s'.asyncWriter = some { queueCapacity })
    (hopen : s'.isOpen = true) : Live codec s' :=
  live_of_writer hw (logged_new _) ⟨fun _ => rfl, by simp⟩ (fun _ => rfl) hopen

lemma Live.checkAndRotate (h : Live codec s) (hw : s.asyncWriter = some w)
    (hrng : w.running = true) (hw' : s'.asyncWriter = some w) (hopen' : s'.isOpen = true) :
    Live codec (s'.checkAndRotate w env) := by
  rcases checkAndRotate_cases hopen' hw' env with heq | ⟨-, heq⟩
  · rw [heq]
    exact h.phase hw hrng hw' hopen'
  · rw [heq]
    exact h.phase hw hrng hw' hopen'

lemma live_joined {after : AfterStop} : Live codec (s.joined w env after) := by
  cases after with
  | rotate =>
    unfold SimpleBagWriter.joined
    simp only
    split_ifs with hpnd
    · exact live_new _ rfl rfl
    · refine ⟨fun w' hw' => ?_, fun hph => absurd rfl hph⟩
      cases hw'
      exact ⟨⟨⟨[], rfl, rfl⟩, [], rfl, rfl⟩, ⟨nofun, fun _ => rfl⟩, nofun⟩
  | close dataSize => exact live_none rfl fun hph => absurd rfl hph
  | stop => exact live_none rfl fun hph => absurd rfl hph

lemma Live.stepped (h : Live codec s) (hstep : Stepped codec s op s') : Live codec s' := by
  cases hstep with
  | rest => exact h
  | opened hidle hclos hcall => exact live_new _ rfl rfl
  | notOpened hidle hclos hcall => exact live_none rfl h.busy
  | sampled hidle hw =>
    obtain ⟨hopen, hw⟩ := writer?_eq_some hw
    exact h.phase hw ((h.writer _ hw).2.2 hopen (by simp [hidle])) hw hopen
  | queued hidle hw hpush =>
    obtain ⟨hopen, hw⟩ := writer?_eq_some hw
    obtain ⟨hdrn, hrng⟩ :=
      (h.writer _ hw).2.1.tryPush ((h.writer _ hw).2.2 hopen (by simp [hidle])) hpush
    exact live_of_writer rfl ((h.writer _ hw).1.tryPush hpush) hdrn (fun _ => hrng) hopen
  | flushBegun hidle hw haft hrot =>
    obtain ⟨hopen, hw⟩ := writer?_eq_some hw
    exact h.phase hw ((h.writer _ hw).2.2 hopen (by simp [hidle])) hw hopen
  | pushed hph hw hpush
  | dropped hph hw hpush =>
    have hopen := h.busy (by simp [hph])
    obtain ⟨hdrn, hrng⟩ :=
      (h.writer _ hw).2.1.tryPush ((h.writer _ hw).2.2 hopen (by simp [hph])) hpush
    exact live_of_writer rfl ((h.writer _ hw).1.tryPush hpush) hdrn (fun _ => hrng) hopen
  | @flushStepped _ _ _ _ w w' hph hw hstep =>
    have hopen := h.busy (by simp [hph])
    have hrng := (h.writer _ hw).2.2 hopen (by simp [hph])
    have hrng' := (flushStep_frame hstep).1.trans hrng
    obtain ⟨rfl | rfl, -⟩ := flushStep_spec hstep
    · exact h.phase hw hrng rfl hopen
    · exact live_of_writer rfl (h.writer _ hw).1.sync (h.writer _ hw).2.1.sync (fun _ => hrng')
        hopen
  | accepted hph hw
  | checked hph haft hw =>
    have hopen := h.busy (by simp [hph])
    exact h.checkAndRotate hw ((h.writer _ hw).2.2 hopen (by simp [hph])) hw hopen
  | stopped written dropped bytes hph haft hrot hw =>
    exact live_of_writer rfl (h.writer _ hw).1.stop (h.writer _ hw).2.1.stop
      (fun hne => absurd rfl (hne _)) (h.busy (by simp [hph]))
  | joined hph hw hjoin => exact live_joined
  | @worked w w' hw hwork =>
    refine ⟨fun w'' hw'' => ?_, h.busy⟩
    cases hw''
    obtain ⟨hlog, hdrn, hrng⟩ := h.writer w hw
    exact ⟨hlog.work hwork, hdrn.work hwork,
      fun hopen hph => (work_frame hwork).1.trans (hrng hopen hph)⟩

lemma live_initial (queueCapacity : ℕ) (rotationPolicy : RotationPolicy)
    (files : AList (fun _ : String => List UInt8)) :
    Live codec { queueCapacity, rotationPolicy, files } :=
  live_none rfl fun hph => absurd rfl hph

end
end SimpleBagWriter

/-! ## Entries and the messages that created them -/

/-- For each index entry, the numbers of the file and of the message in it whose `append` created
the entry. -/
structure Indexed where
  writer : SimpleBagWriter
  creators : List (ℕ × ℕ) := []

namespace Indexed
open SimpleBagWriter
variable {J : Type} (codec : JsonCodec J)

def record (g : Indexed) (op : Op) : List (ℕ × ℕ) :=
  match op, g.writer.phase with
  | .begin (.openFile _ _), _ => if g.writer.isOpen then g.creators else []
  | .proceed _, .flushing (.returned true before) (.append _ _) =>
    g.creators ++ [(g.writer.finished.length, before - 1)]
  | _, _ => g.creators

def next (g : Indexed) (op : Op) : Option Indexed :=
  (g.writer.next codec op).map fun writer => ⟨writer, g.record op⟩

def lineStart (initial : List UInt8) (accepted : List BagMessage) (n : ℕ) : List UInt8 :=
  initial ++ (linesOf (BagMessage.toJsonLine codec) (accepted.take n)).flatten

def Points (initial : List UInt8) (file : ℕ) (w : AsyncWriter BagMessage) (entry : IndexEntry)
    (creator : ℕ × ℕ) : Prop :=
  creator.1 = file ∧ ∃ msg line rest, w.accepted[creator.2]? = some msg ∧
    msg.toJsonLine codec = .ok line ∧ entry.timestampNs = msg.timestampNs.toUInt64 ∧
    initial ++ w.lines.flatten = lineStart codec initial w.accepted creator.2 ++ line ++ rest ∧
    entry.fileOffset.toNat = (lineStart codec initial w.accepted creator.2).length

/-- When `close` has joined the thread and is about to write the index, every entry points at its
message. -/
def IndexPoints (G : Indexed → Op → Prop) (ops : List Op) : Prop :=
  ∀ queueCapacity rotationPolicy files g,
    Run (next codec) G ⟨{ queueCapacity, rotationPolicy, files }, []⟩ ops g →
    ∀ dataSize w w', g.writer.phase = .joining (.close dataSize) →
      g.writer.asyncWriter = some w → w.join = some w' →
      List.Forall₂ (Points codec g.writer.fileContents g.writer.finished.length w')
        g.writer.indexer g.creators

/-- An `append` finds a file that was empty and a thread that has counted everything; the index is
empty when a file is opened; nothing is rotated. -/
def Settled (g : Indexed) : Op → Prop
  | .begin (.append msg) => ∀ w, g.writer.asyncWriter = some w →
      (msg.toJsonLine codec).isOk = true ∧ g.writer.fileContents = [] ∧ w.pending = [] ∧
        w.phase.uncounted = [] ∧ w.lines.flatten.length < 2 ^ 64
  | .begin (.start _ _) => g.writer.isOpen = false → g.writer.indexer = []
  | .begin .rotate => g.writer.isOpen = false
  | .proceed env => ∀ result before after w,
      g.writer.phase = .flushing (.returned result before) after →
      (after = .flush ∨ ∃ msg currentOffset, after = .append msg currentOffset) →
      g.writer.asyncWriter = some w →
      g.writer.rotationPolicy.shouldRotate w.bytesWritten env.elapsedSeconds = false
  | _ => True

def EntryOk (initial : List UInt8) (file : ℕ) (accepted : List BagMessage) (entry : IndexEntry)
    (creator : ℕ × ℕ) : Prop :=
  creator.1 = file ∧ ∃ msg, accepted[creator.2]? = some msg ∧
    (msg.toJsonLine codec).isOk = true ∧ entry.timestampNs = msg.timestampNs.toUInt64 ∧
    entry.fileOffset.toNat = (lineStart codec initial accepted creator.2).length

def PhaseOk (initial : List UInt8) (accepted : List BagMessage) : CallPhase → Prop
  | .pushing msg currentOffset => (msg.toJsonLine codec).isOk = true ∧
      currentOffset.toNat = (lineStart codec initial accepted accepted.length).length
  | .flushing inner (.append msg currentOffset) => accepted[inner.before - 1]? = some msg ∧
      (msg.toJsonLine codec).isOk = true ∧
      currentOffset.toNat = (lineStart codec initial accepted (inner.before - 1)).length
  | .flushing _ .rotate | .joining .rotate => False
  | _ => True

structure Pointing (g : Indexed) : Prop where
  live : Live codec g.writer
  length : g.creators.length = g.writer.indexer.length
  entries : ∀ w, g.writer.asyncWriter = some w →
    List.Forall₂ (EntryOk codec g.writer.fileContents g.writer.finished.length w.accepted)
      g.writer.indexer g.creators
  phase : ∀ w, g.writer.asyncWriter = some w →
    PhaseOk codec g.writer.fileContents w.accepted g.writer.phase

section
variable {codec} {g : Indexed} {s' : SimpleBagWriter} {w w' : AsyncWriter BagMessage} {op : Op}
  {initial : List UInt8} {accepted : List BagMessage} {entry : IndexEntry} {creator : ℕ × ℕ}
  {creators : List (ℕ × ℕ)} {msg : BagMessage} {currentOffset : UInt64} {after : AfterFlush}
  {env : Environment}

lemma lineStart_append (msgs : List BagMessage) {n : ℕ} (hn : n ≤ accepted.length) :
    lineStart codec initial (accepted ++ msgs) n = lineStart codec initial accepted n := by
  rw [lineStart, lineStart, take_append_of_le_length hn]

lemma EntryOk.append {file : ℕ} (h : EntryOk codec initial file accepted entry creator)
    (msgs : List BagMessage) : EntryOk codec initial file (accepted ++ msgs) entry creator := by
  obtain ⟨hfile, msg, hmsg, hok, htime, hoff⟩ := h
  have hlt := (List.getElem?_eq_some_iff.mp hmsg).1
  refine ⟨hfile, msg, ?_, hok, htime, ?_⟩
  · rw [getElem?_append_left hlt, hmsg]
  · rw [lineStart_append msgs hlt.le, hoff]

lemma EntryOk.points {file : ℕ} (h : EntryOk codec initial file w.accepted entry creator)
    (hlin : w.lines = linesOf (BagMessage.toJsonLine codec) w.accepted) :
    Points codec initial file w entry creator := by
  obtain ⟨hfile, msg, hmsg, hok, htime, hoff⟩ := h
  obtain ⟨line, hline⟩ : ∃ line, msg.toJsonLine codec = .ok line := by
    cases hline : msg.toJsonLine codec with
    | error what => simp [hline, Except.isOk, Except.toBool] at hok
    | ok line => exact ⟨line, rfl⟩
  obtain ⟨hlt, hget⟩ := List.getElem?_eq_some_iff.mp hmsg
  have hspl : w.accepted =
      w.accepted.take creator.2 ++ [msg] ++ w.accepted.drop (creator.2 + 1) := by
    rw [← hget, take_concat_get' w.accepted _ hlt, take_append_drop]
  refine ⟨hfile, msg, line, (linesOf (BagMessage.toJsonLine codec)
    (w.accepted.drop (creator.2 + 1))).flatten, hmsg, hline, htime, ?_, hoff⟩
  rw [hlin]
  nth_rewrite 1 [hspl]
  rw [linesOf_append, linesOf_append, linesOf_singleton hline, lineStart]
  simp only [flatten_append, flatten_singleton, append_assoc]

lemma Pointing.move (h : Pointing codec g) (hw : g.writer.asyncWriter = some w)
    (hlive : Live codec s') (hidx : s'.indexer = g.writer.indexer)
    (hcon : s'.fileContents = g.writer.fileContents)
    (hfin : s'.finished = g.writer.finished) (hw' : s'.asyncWriter = some w')
    (hacc : ∃ msgs, w'.accepted = w.accepted ++ msgs)
    (hph : PhaseOk codec g.writer.fileContents w'.accepted s'.phase)
    (hcreat : creators = g.creators) : Pointing codec ⟨s', creators⟩ := by
  obtain ⟨msgs, hacc⟩ := hacc
  refine ⟨hlive, by rw [hcreat, hidx]; exact h.length, ?_, ?_⟩
  · intro w'' hw''
    cases hw'.symm.trans hw''
    rw [hidx, hcon, hfin, hacc, hcreat]
    exact (h.entries w hw).imp fun _ _ hent => hent.append msgs
  · intro w'' hw''
    cases hw'.symm.trans hw''
    rw [hcon]
    exact hph

lemma Pointing.none (hlive : Live codec s') (hlen : creators.length = s'.indexer.length)
    (hw' : s'.asyncWriter = none) : Pointing codec ⟨s', creators⟩ := by
  refine ⟨hlive, hlen, ?_, ?_⟩
  · intro w hw
    cases hw'.symm.trans hw
  · intro w hw
    cases hw'.symm.trans hw

lemma Pointing.opened (hlive : Live codec s') (hidx : s'.indexer = [])
    (hcreat : creators = []) (hidle : s'.phase = .idle) : Pointing codec ⟨s', creators⟩ := by
  refine ⟨hlive, by rw [hcreat, hidx]; rfl, ?_, ?_⟩
  · intro w _
    rw [hidx, hcreat]
    exact .nil
  · intro w _
    rw [hidle]
    trivial

lemma Pointing.sampled (h : Pointing codec g) (hw : g.writer.asyncWriter = some w)
    (hset : Settled codec g (.begin (.append msg))) :
    PhaseOk codec g.writer.fileContents w.accepted (.pushing msg w.bytesWritten) := by
  obtain ⟨hok, hemp, hpend, hunc, hsml⟩ := hset w hw
  have hlog := (h.live.writer w hw).1
  refine ⟨hok, ?_⟩
  rw [hlog.counted_of_idle hunc,
    UInt64.toNat_ofNat_of_lt' (by simpa [UInt64.size] using hsml), lineStart, hemp,
    take_length, hlog.lines_eq hpend, nil_append]

lemma PhaseOk.pushed {timeoutMs : UInt32}
    (h : PhaseOk codec initial w.accepted (.pushing msg currentOffset))
    (hacc : w'.accepted = w.accepted ++ [msg]) :
    PhaseOk codec initial w'.accepted
      (.flushing (w'.flush timeoutMs) (.append msg currentOffset)) := by
  have hbef : (w'.flush timeoutMs).before - 1 = w.accepted.length := by
    simp [AsyncWriter.flush, FlushPhase.before, hacc]
  refine ⟨?_, h.1, ?_⟩
  · rw [hbef, hacc, getElem?_concat_length]
  · rw [hbef, hacc, lineStart_append _ le_rfl]
    exact h.2

lemma Pointing.flushStepped {phase phase' : FlushPhase} {elapsedMs : ℕ}
    (h : PhaseOk codec initial w.accepted (.flushing phase after))
    (hstep : w.flushStep elapsedMs phase = some (phase', w')) :
    w'.accepted = w.accepted ∧ PhaseOk codec initial w'.accepted (.flushing phase' after) := by
  have hacc := (flushStep_frame hstep).2
  refine ⟨hacc, ?_⟩
  rw [hacc]
  cases after with
  | append msg currentOffset =>
    rw [PhaseOk, (flushStep_spec hstep).2]
    exact h
  | rotate => exact h
  | _ => trivial

lemma Pointing.entered {before : ℕ} {messages : List BagMessage} (h : Pointing codec g)
    (hw : g.writer.asyncWriter = some w)
    (hph : g.writer.phase = .flushing (.returned true before) (.append msg currentOffset)) :
    Pointing codec ⟨{ g.writer with
        indexer := g.writer.indexer ++ [⟨msg.timestampNs.toUInt64, currentOffset⟩]
        accepted := messages
        phase := .idle },
      g.creators ++ [(g.writer.finished.length, before - 1)]⟩ := by
  have hopen := h.live.busy (by simp [hph])
  have hrng := (h.live.writer w hw).2.2 hopen (by simp [hph])
  have hknw := h.phase w hw
  rw [hph] at hknw
  obtain ⟨hmsg, hok, hoff⟩ := hknw
  refine ⟨h.live.phase hw hrng hw hopen, by simp [h.length], ?_, fun _ _ => trivial⟩
  intro w' hw'
  cases hw.symm.trans hw'
  exact rel_append (h.entries w hw) (.cons ⟨rfl, msg, hmsg, hok, rfl, hoff⟩ .nil)

lemma record_begin {call : Call}
    (hcall : ∀ path opened, call = .openFile path opened → g.writer.isOpen = true) :
    g.record (.begin call) = g.creators := by
  cases call with
  | openFile path opened => rw [record, hcall path opened rfl, if_pos rfl]
  | _ => rfl

lemma record_flushing {result : Bool} {before : ℕ}
    (hph : g.writer.phase = .flushing (.returned result before) after)
    (haft : result = false ∨ ∀ msg currentOffset, after ≠ .append msg currentOffset) :
    g.record (.proceed env) = g.creators := by
  unfold record
  rw [hph]
  rcases haft with rfl | haft
  · rfl
  · cases after with
    | append msg currentOffset => exact absurd rfl (haft msg currentOffset)
    | _ => cases result <;> rfl

lemma record_flushStep {inner inner' : FlushPhase}
    (hph : g.writer.phase = .flushing inner after)
    (hstep : w.flushStep env.elapsedMs inner = some (inner', w')) :
    g.record (.proceed env) = g.creators := by
  unfold record
  rw [hph]
  cases inner with
  | returned result before => cases hstep
  | _ => rfl

lemma Pointing.stepped (h : Pointing codec g) (hg : Settled codec g op)
    (hstep : Stepped codec g.writer op s') : Pointing codec ⟨s', g.record op⟩ := by
  have hlive := h.live.stepped hstep
  cases hstep with
  | @rest call hcall =>
    rw [record_begin hcall]
    exact ⟨h.live, h.length, h.entries, h.phase⟩
  | opened hidle hclos hcall =>
    rcases hcall with ⟨rfl, rfl⟩ | ⟨rfl, rfl⟩
    · exact Pointing.opened hlive rfl (by rw [record, hclos]; rfl) hidle
    · have hidx : g.writer.indexer = [] := hg hclos
      refine Pointing.opened hlive hidx (eq_nil_of_length_eq_zero ?_) hidle
      exact h.length.trans (by rw [hidx]; rfl)
  | notOpened hidle hclos hcall =>
    rcases hcall with ⟨rfl, rfl⟩ | ⟨rfl, rfl⟩
    · exact Pointing.none hlive (by rw [record, hclos]; rfl) rfl
    · exact Pointing.none hlive h.length rfl
  | sampled hidle hw =>
    obtain ⟨-, hw⟩ := writer?_eq_some hw
    exact h.move hw hlive rfl rfl rfl hw ⟨[], (append_nil _).symm⟩ (h.sampled hw hg) rfl
  | queued hidle hw hpush =>
    obtain ⟨-, hw⟩ := writer?_eq_some hw
    refine h.move hw hlive rfl rfl rfl rfl ⟨_, accepted_tryPush hpush⟩ ?_ rfl
    rw [show _ = CallPhase.idle from hidle]
    trivial
  | @flushBegun call w timeoutMs after hidle hw haft hrot =>
    obtain ⟨hopen, hw⟩ := writer?_eq_some hw
    refine h.move hw hlive rfl rfl rfl hw ⟨[], (append_nil _).symm⟩ ?_
      (record_begin fun _ _ _ => hopen)
    cases after with
    | append msg currentOffset => exact absurd rfl (haft msg currentOffset)
    | rotate =>
      -- a rotation would keep the entries of the finished file in the index
      cases hrot rfl
      exact absurd (hopen.symm.trans hg) (by decide)
    | _ => trivial
  | pushed hph hw hpush =>
    have hknw := h.phase _ hw
    rw [hph] at hknw
    have hacc := accepted_tryPush hpush
    exact h.move hw hlive rfl rfl rfl rfl ⟨_, hacc⟩ (hknw.pushed hacc) (by simp only [record, hph])
  | dropped hph hw hpush =>
    exact h.move hw hlive rfl rfl rfl rfl ⟨_, accepted_tryPush hpush⟩ trivial
      (by simp only [record, hph])
  | @flushStepped env inner inner' after w w' hph hw hstep =>
    have hknw := h.phase _ hw
    rw [hph] at hknw
    obtain ⟨hacc, hknw'⟩ := Pointing.flushStepped hknw hstep
    refine h.move hw hlive rfl rfl rfl rfl ⟨[], ?_⟩ hknw' (record_flushStep hph hstep)
    rw [hacc, append_nil]
  | accepted hph hw =>
    rw [checkAndRotate_eq]
    · simp only [record, hph]
      exact h.entered hw hph
    · exact hg _ _ _ _ hph (.inr ⟨_, _, rfl⟩) hw
  | checked hph haft hw =>
    have hpol := hg _ _ _ _ hph (haft.imp_right And.right) hw
    rw [checkAndRotate_eq hpol] at hlive ⊢
    refine h.move hw hlive rfl rfl rfl hw ⟨[], (append_nil _).symm⟩ trivial (record_flushing hph ?_)
    rcases haft with rfl | ⟨hres, -⟩
    · exact .inr fun _ _ => by simp
    · exact .inl hres
  | @stopped env result before after after' w written dropped bytes hph haft hrot hw =>
    refine h.move hw hlive rfl rfl rfl rfl ⟨[], (append_nil _).symm⟩ ?_
      (record_flushing hph (.inr haft))
    cases after' with
    | rotate =>
      have hknw := h.phase _ hw
      rw [hph, hrot rfl] at hknw
      exact hknw
    | _ => trivial
  | @joined env after w w' hph hw hjoin =>
    have hrcd : g.record (.proceed env) = g.creators := by simp only [record, hph]
    rw [hrcd]
    cases after with
    | rotate =>
      have hknw := h.phase _ hw
      rw [hph] at hknw
      exact hknw.elim
    | close dataSize => exact Pointing.none hlive h.length rfl
    | stop => exact Pointing.none hlive h.length rfl
  | @worked w w' hw hwork =>
    have hacc := (work_frame hwork).2
    refine h.move hw hlive rfl rfl rfl rfl ⟨[], ?_⟩ ?_ rfl
    · rw [hacc, append_nil]
    · rw [hacc]
      exact h.phase _ hw

lemma Pointing.next {g' : Indexed} (h : Pointing codec g) (hg : Settled codec g op)
    (hn : g.next codec op = some g') : Pointing codec g' := by
  obtain ⟨s, hs, rfl⟩ := map_eq_some_iff.mp hn
  exact h.stepped hg (stepped_of_next hs)

lemma pointing_initial (queueCapacity : ℕ) (rotationPolicy : RotationPolicy)
    (files : AList (fun _ : String => List UInt8)) :
    Pointing codec ⟨{ queueCapacity, rotationPolicy, files }, []⟩ :=
  Pointing.none (live_initial _ _ _) rfl rfl

lemma Pointing.points (h : Pointing codec g) (hw : g.writer.asyncWriter = some w)
    (hjoin : w.join = some w') :
    List.Forall₂ (Points codec g.writer.fileContents g.writer.finished.length w')
      g.writer.indexer g.creators := by
  obtain ⟨hacc, hlin⟩ := (h.live.writer w hw).1.join (h.live.writer w hw).2.1 hjoin
  refine (h.entries w hw).imp fun entry creator hent => ?_
  rw [← hacc] at hent hlin
  exact hent.points hlin

theorem indexPoints_of_settled (codec : JsonCodec J) (ops : List Op) :
    IndexPoints codec (Settled codec) ops := by
  intro queueCapacity rotationPolicy files g hrun dataSize w w' hph hw hjoin
  have hpoint : Pointing codec g :=
    hrun.invariant (Pointing codec) (pointing_initial _ _ _) fun _ _ _ hg hop hn => hg.next hop hn
  exact hpoint.points hw hjoin

end

/-- One message is queued by `appendAsync`, the next one is appended, and the bag is closed. -/
def queuedThenAppended : List Op :=
  [.begin (.openFile "a.bag" true), .begin (.appendAsync sampleMessage),
    .begin (.append sampleMessage), .proceed {}, .work, .work, .work, .work, .work, .work, .work,
    .work, .work, .work, .work, .proceed {}, .proceed {}, .proceed {}, .begin .close, .proceed {},
    .proceed {}, .proceed {}, .work, .work, .work, .work]

/-- The entry has the offset 0, where the line of the queued message stands. -/
theorem not_indexPoints : ¬ ∀ (J : Type) (codec : JsonCodec J) (ops : List Op),
    IndexPoints codec (fun _ _ => True) ops := by
  intro hall
  have hexec : (exec (next sampleCodec) (fun _ _ => true)
      ⟨{ queueCapacity := 10, rotationPolicy := {} }, []⟩ queuedThenAppended).map
      (fun g => (g.writer.phase, g.writer.indexer, g.creators)) =
      some (.joining (.close 112), [⟨5, 0⟩], [(0, 1)]) := by
    decide +kernel
  have hjnd : ((exec (next sampleCodec) (fun _ _ => true)
      ⟨{ queueCapacity := 10, rotationPolicy := {} }, []⟩ queuedThenAppended).bind fun g =>
      g.writer.asyncWriter.bind fun w => w.join.map fun w' =>
        (lineStart sampleCodec g.writer.fileContents w'.accepted 1).length) = some 56 := by
    decide +kernel
  obtain ⟨g, hg, heq⟩ := map_eq_some_iff.mp hexec
  simp only [Prod.mk.injEq] at heq
  obtain ⟨hph, hidx, hcreat⟩ := heq
  rw [hg, bind_some] at hjnd
  obtain ⟨w, hw, hjnd⟩ := bind_eq_some_iff.mp hjnd
  obtain ⟨w', hjoin, hstr⟩ := map_eq_some_iff.mp hjnd
  have hpoin := hall JsonValue sampleCodec _ 10 {} ∅ g (Run.of_exec (fun _ _ _ => trivial) hg)
    112 w w' hph hw hjoin
  rw [hidx, hcreat] at hpoin
  obtain ⟨-, msg, line, rest, -, -, -, -, hoff⟩ := (forall₂_cons.mp hpoin).1
  rw [hstr] at hoff
  exact absurd hoff (by decide)

end Indexed
end Mxrc.Logging
