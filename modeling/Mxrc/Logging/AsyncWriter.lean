import Mathlib

/-!
# The asynchronous writer

The writer thread takes queued messages out, serialises each outside of the lock
and writes its line. The message type `M` and `toJsonLine`, which may throw, are
parameters. Each critical section, write and update of a counter is one step.
The first `synced` of the `lines` have certainly reached the file.
-/

namespace Mxrc.Logging
open List

/-- Where the writer thread is. In the last section, `draining`, it holds the lock. -/
inductive WriterPhase (M : Type)
  | testing
  | waiting
  | relocking
  | leaving
  | draining
  | popped (draining : Bool) (msg : M)
  | put (draining : Bool) (line : List UInt8)
  | counted (draining : Bool) (line : List UInt8)
  | finished
deriving DecidableEq

def WriterPhase.inHand {M : Type} : WriterPhase M → List M
  | .popped _ msg => [msg]
  | _ => []

def WriterPhase.uncounted {M : Type} : WriterPhase M → List (List UInt8)
  | .put _ line | .counted _ line => [line]
  | _ => []

def WriterPhase.Idle {M : Type} (phase : WriterPhase M) : Prop :=
  phase.inHand = [] ∧ phase.uncounted = []

structure AsyncWriter (M : Type) where
  queueCapacity : ℕ
  messageQueue : List M := []
  running : Bool := true
  phase : WriterPhase M := .testing
  isOpen : Bool := true
  lines : List (List UInt8) := []
  synced : ℕ := 0
  droppedCount : UInt64 := 0
  writtenCount : UInt64 := 0
  bytesWritten : UInt64 := 0
  accepted : List M := []
deriving DecidableEq

/-- Where a call of `flush` is; `before` messages were accepted before it began. -/
inductive FlushPhase
  | checking (timeoutMs : UInt32) (before : ℕ)
  | sleeping (timeoutMs : UInt32) (before : ℕ)
  | emptied (before : ℕ)
  | returned (result : Bool) (before : ℕ)
deriving DecidableEq

def FlushPhase.before : FlushPhase → ℕ
  | .checking _ before | .sleeping _ before | .emptied before | .returned _ before => before

namespace AsyncWriter
variable {M : Type}

def locked (w : AsyncWriter M) : Bool :=
  match w.phase with
  | .draining => true
  | .popped draining _ | .put draining _ | .counted draining _ => draining
  | _ => false

def tryPush (w : AsyncWriter M) (msg : M) : Option (Bool × AsyncWriter M) :=
  if w.locked then none
  else if w.queueCapacity ≤ w.messageQueue.length then
    some (false, { w with droppedCount := w.droppedCount + 1 })
  else some (true,
    { w with messageQueue := w.messageQueue ++ [msg], accepted := w.accepted ++ [msg] })

def sync (w : AsyncWriter M) : AsyncWriter M :=
  if w.isOpen then { w with synced := w.lines.length } else w

def flush (w : AsyncWriter M) (timeoutMs : UInt32) : FlushPhase :=
  .checking timeoutMs w.accepted.length

def flushStep (w : AsyncWriter M) (elapsedMs : ℕ) :
    FlushPhase → Option (FlushPhase × AsyncWriter M)
  | .checking timeoutMs before =>
    if w.locked then none
    else if w.messageQueue = [] then some (.emptied before, w)
    else some (.sleeping timeoutMs before, w)
  | .sleeping timeoutMs before =>
    if 0 < timeoutMs ∧ timeoutMs.toNat ≤ elapsedMs then some (.returned false before, w)
    else some (.checking timeoutMs before, w)
  | .emptied before => some (.returned true before, w.sync)
  | .returned _ _ => none

def takeMessage (w : AsyncWriter M) (draining : Bool) (done : AsyncWriter M) : AsyncWriter M :=
  match w.messageQueue with
  | msg :: rest => { w with messageQueue := rest, phase := .popped draining msg }
  | [] => done

def resume (draining : Bool) : WriterPhase M := if draining then .draining else .relocking

section
variable (toJsonLine : M → Except String (List UInt8)) (w : AsyncWriter M)

def work : Option (AsyncWriter M) :=
  match w.phase with
  | .testing =>
    if w.running ∨ w.messageQueue ≠ [] then some { w with phase := .waiting }
    else some { w with phase := .leaving }
  | .waiting =>
    if w.messageQueue ≠ [] ∨ !w.running then
      some (w.takeMessage false { w with phase := .testing })
    else none
  | .relocking => some (w.takeMessage false { w with phase := .testing })
  | .leaving => some { w with phase := .draining }
  | .draining => some (w.takeMessage true { w.sync with phase := .finished })
  | .popped draining msg =>
    match toJsonLine msg with
    | .error _ => some { w with phase := resume draining }
    | .ok line => some { w with lines := w.lines ++ [line], phase := .put draining line }
  | .put draining line =>
    some { w with writtenCount := w.writtenCount + 1, phase := .counted draining line }
  | .counted draining line => some { w with
      bytesWritten := w.bytesWritten + UInt64.ofNat line.length, phase := resume draining }
  | .finished => none

def stop : AsyncWriter M := { w with running := false }

def join : Option (AsyncWriter M) :=
  match w.phase with
  | .finished => some { w.sync with isOpen := false }
  | _ => none

end

def ending (w : AsyncWriter M) : Bool :=
  match w.phase with
  | .leaving | .draining | .finished => true
  | .popped draining _ | .put draining _ | .counted draining _ => draining
  | _ => false

inductive Worked (toJsonLine : M → Except String (List UInt8)) (w : AsyncWriter M) :
    AsyncWriter M → Prop
  | move {phase : WriterPhase M} (hidle : w.phase.Idle) (hidle' : phase.Idle)
      (hne : phase ≠ .finished)
      (hending : w.running = true → w.ending = false → { w with phase }.ending = false) :
      Worked toJsonLine w { w with phase }
  | take {msg : M} {rest : List M} (hidle : w.phase.Idle) (hqueue : w.messageQueue = msg :: rest) :
      Worked toJsonLine w { w with messageQueue := rest, phase := .popped w.ending msg }
  | finish (hphase : w.phase = .draining) (hqueue : w.messageQueue = []) :
      Worked toJsonLine w { w.sync with phase := .finished }
  | skip {draining : Bool} {msg : M} {what : String} (hphase : w.phase = .popped draining msg)
      (herror : toJsonLine msg = .error what) :
      Worked toJsonLine w { w with phase := resume draining }
  | put {draining : Bool} {msg : M} {line : List UInt8} (hphase : w.phase = .popped draining msg)
      (hline : toJsonLine msg = .ok line) :
      Worked toJsonLine w { w with lines := w.lines ++ [line], phase := .put draining line }
  | count {draining : Bool} {line : List UInt8} (hphase : w.phase = .put draining line) :
      Worked toJsonLine w
        { w with writtenCount := w.writtenCount + 1, phase := .counted draining line }
  | counted {draining : Bool} {line : List UInt8} (hphase : w.phase = .counted draining line) :
      Worked toJsonLine w { w with
        bytesWritten := w.bytesWritten + UInt64.ofNat line.length, phase := resume draining }

section
variable {toJsonLine : M → Except String (List UInt8)} {w w' : AsyncWriter M} {msg : M}
  {flush : FlushPhase} {elapsedMs : ℕ} {draining : Bool}

lemma tryPush_cases {result : Bool} (hn : w.tryPush msg = some (result, w')) :
    result = false ∧ w' = { w with droppedCount := w.droppedCount + 1 } ∨
    result = true ∧
      w' = { w with messageQueue := w.messageQueue ++ [msg], accepted := w.accepted ++ [msg] } := by
  rw [tryPush] at hn
  split_ifs at hn
  · cases hn
    exact .inl ⟨rfl, rfl⟩
  · cases hn
    exact .inr ⟨rfl, rfl⟩

lemma accepted_tryPush {result : Bool} (hn : w.tryPush msg = some (result, w')) :
    w'.accepted = w.accepted ++ if result then [msg] else [] := by
  rcases tryPush_cases hn with ⟨rfl, rfl⟩ | ⟨rfl, rfl⟩ <;> simp

lemma sync_eq (w : AsyncWriter M) : ∃ n, w.sync = { w with synced := n } := by
  rw [sync]
  split_ifs
  · exact ⟨w.lines.length, rfl⟩
  · exact ⟨w.synced, rfl⟩

lemma join_eq_some (hn : w.join = some w') :
    w.phase = .finished ∧ w' = { w.sync with isOpen := false } := by
  unfold join at hn
  split at hn
  · rename_i hph
    cases hn
    exact ⟨hph, rfl⟩
  · cases hn

lemma flushStep_spec {flush' : FlushPhase}
    (hn : w.flushStep elapsedMs flush = some (flush', w')) :
    (w' = w ∨ w' = w.sync) ∧ flush'.before = flush.before := by
  cases flush with
  | checking
  | sleeping =>
    simp only [flushStep] at hn
    split_ifs at hn <;> cases hn <;> exact ⟨.inl rfl, rfl⟩
  | emptied =>
    cases hn
    exact ⟨.inr rfl, rfl⟩
  | returned => cases hn

lemma flushStep_frame {flush' : FlushPhase}
    (hn : w.flushStep elapsedMs flush = some (flush', w')) :
    w'.running = w.running ∧ w'.accepted = w.accepted := by
  rcases (flushStep_spec hn).1 with rfl | rfl
  · exact ⟨rfl, rfl⟩
  · obtain ⟨n, hsync⟩ := sync_eq w
    rw [hsync]
    exact ⟨rfl, rfl⟩

lemma timeout_of_returned_false {before : ℕ}
    (hn : w.flushStep elapsedMs flush = some (.returned false before, w')) :
    ∃ timeoutMs, flush = .sleeping timeoutMs before ∧ 0 < timeoutMs ∧
      timeoutMs.toNat ≤ elapsedMs := by
  cases flush with
  | checking =>
    simp only [flushStep] at hn
    split_ifs at hn <;> cases hn
  | sleeping timeoutMs before' =>
    simp only [flushStep] at hn
    split_ifs at hn with htmo
    · cases hn
      exact ⟨timeoutMs, rfl, htmo⟩
    · cases hn
  | emptied => cases hn
  | returned => cases hn

lemma idle_resume (draining : Bool) : (resume draining : WriterPhase M).Idle := by
  cases draining <;> exact ⟨rfl, rfl⟩

lemma ending_resume (w : AsyncWriter M) :
    { w with phase := resume draining }.ending = draining := by
  cases draining <;> rfl

lemma phase_resume_ne : (resume draining : WriterPhase M) ≠ .finished := by
  cases draining <;> simp [resume]

lemma worked_takeMessage (hidle : w.phase.Idle) (hend : w.ending = draining)
    {done : AsyncWriter M} (hdone : w.messageQueue = [] → Worked toJsonLine w done) :
    Worked toJsonLine w (w.takeMessage draining done) := by
  unfold takeMessage
  split
  · rename_i hqu
    rw [← hend]
    exact .take hidle hqu
  · rename_i hqu
    exact hdone hqu

lemma work_cases (hn : w.work toJsonLine = some w') : Worked toJsonLine w w' := by
  have hidle : ∀ phase : WriterPhase M, w.phase = phase → phase.Idle → w.phase.Idle :=
    fun phase hph h => hph ▸ h
  unfold work at hn
  split at hn
  · rename_i hph
    split_ifs at hn with hloop
    · cases hn
      exact .move (hidle _ hph ⟨rfl, rfl⟩) ⟨rfl, rfl⟩ (by simp) fun _ _ => rfl
    · cases hn
      exact .move (hidle _ hph ⟨rfl, rfl⟩) ⟨rfl, rfl⟩ (by simp) fun hrun => absurd (.inl hrun) hloop
  · rename_i hph
    split_ifs at hn
    cases hn
    exact worked_takeMessage (hidle _ hph ⟨rfl, rfl⟩) (by rw [ending, hph])
      fun _ => .move (hidle _ hph ⟨rfl, rfl⟩) ⟨rfl, rfl⟩ (by simp) fun _ _ => rfl
  · rename_i hph
    cases hn
    exact worked_takeMessage (hidle _ hph ⟨rfl, rfl⟩) (by rw [ending, hph])
      fun _ => .move (hidle _ hph ⟨rfl, rfl⟩) ⟨rfl, rfl⟩ (by simp) fun _ _ => rfl
  · rename_i hph
    cases hn
    refine .move (hidle _ hph ⟨rfl, rfl⟩) ⟨rfl, rfl⟩ (by simp) fun _ hend => ?_
    rw [ending, hph] at hend
    cases hend
  · rename_i hph
    cases hn
    exact worked_takeMessage (hidle _ hph ⟨rfl, rfl⟩) (by rw [ending, hph])
      fun hqu => .finish hph hqu
  · rename_i hph
    split at hn
    · rename_i herr
      cases hn
      exact .skip hph herr
    · rename_i hline
      cases hn
      exact .put hph hline
  · rename_i hph
    cases hn
    exact .count hph
  · rename_i hph
    cases hn
    exact .counted hph
  · cases hn

lemma work_frame (hn : w.work toJsonLine = some w') :
    w'.running = w.running ∧ w'.accepted = w.accepted := by
  cases work_cases hn with
  | finish =>
    obtain ⟨n, hsync⟩ := sync_eq w
    rw [hsync]
    exact ⟨rfl, rfl⟩
  | _ => exact ⟨rfl, rfl⟩

end

def pending (w : AsyncWriter M) : List M := w.phase.inHand ++ w.messageQueue

def linesOf (toJsonLine : M → Except String (List UInt8)) (msgs : List M) : List (List UInt8) :=
  msgs.filterMap fun msg => (toJsonLine msg).toOption

structure Logged (toJsonLine : M → Except String (List UInt8)) (w : AsyncWriter M) : Prop where
  lines : ∃ done, w.accepted = done ++ w.pending ∧ w.lines = linesOf toJsonLine done
  counted : ∃ counted, w.lines = counted ++ w.phase.uncounted ∧
    w.bytesWritten = UInt64.ofNat counted.flatten.length

section
variable {toJsonLine : M → Except String (List UInt8)} {w w' : AsyncWriter M} {msg : M}

lemma linesOf_append (msgs msgs' : List M) :
    linesOf toJsonLine (msgs ++ msgs') = linesOf toJsonLine msgs ++ linesOf toJsonLine msgs' :=
  filterMap_append

lemma linesOf_singleton {line : List UInt8} (hline : toJsonLine msg = .ok line) :
    linesOf toJsonLine [msg] = [line] := by
  simp [linesOf, hline, Except.toOption]

lemma linesOf_error {what : String} (herr : toJsonLine msg = .error what) :
    linesOf toJsonLine [msg] = [] := by
  simp [linesOf, herr, Except.toOption]

lemma map_filter_isOk (toJsonLine : M → Except String (List UInt8)) (msgs : List M) :
    (msgs.filter fun msg => (toJsonLine msg).isOk).map toJsonLine =
      (linesOf toJsonLine msgs).map .ok := by
  induction msgs with
  | nil => rfl
  | cons msg msgs ih =>
    cases hline : toJsonLine msg with
    | error what =>
      rw [filter_cons, if_neg (by simp [hline, Except.isOk, Except.toBool]), ih]
      simp [linesOf, hline, Except.toOption]
    | ok line =>
      rw [filter_cons, if_pos (by simp [hline, Except.isOk, Except.toBool]), map_cons, ih]
      simp [linesOf, hline, Except.toOption]

lemma map_linesOf {msgs : List M} (h : ∀ msg ∈ msgs, (toJsonLine msg).isOk = true) :
    msgs.map toJsonLine = (linesOf toJsonLine msgs).map .ok := by
  rw [← map_filter_isOk, filter_eq_self.mpr h]

lemma logged_new (queueCapacity : ℕ) : Logged toJsonLine { queueCapacity } :=
  ⟨⟨[], rfl, rfl⟩, [], rfl, rfl⟩

lemma Logged.sync (h : Logged toJsonLine w) : Logged toJsonLine w.sync := by
  obtain ⟨n, hsync⟩ := sync_eq w
  rw [hsync]
  exact ⟨h.lines, h.counted⟩

lemma Logged.stop (h : Logged toJsonLine w) : Logged toJsonLine w.stop := ⟨h.lines, h.counted⟩

lemma pending_push :
    { w with messageQueue := w.messageQueue ++ [msg], accepted := w.accepted ++ [msg] }.pending =
      w.pending ++ [msg] :=
  (append_assoc ..).symm

section
variable (h : Logged toJsonLine w)
include h

lemma Logged.tryPush {result : Bool} (hn : w.tryPush msg = some (result, w')) :
    Logged toJsonLine w' := by
  rcases tryPush_cases hn with ⟨-, rfl⟩ | ⟨-, rfl⟩
  · exact ⟨h.lines, h.counted⟩
  · obtain ⟨done, hacc, hlin⟩ := h.lines
    refine ⟨⟨done, ?_, hlin⟩, h.counted⟩
    rw [pending_push, hacc, append_assoc]

lemma Logged.give {draining : Bool} (hph : w.phase = .popped draining msg) :
    ∃ done, w.accepted = done ++ w.messageQueue ∧
      w.lines ++ linesOf toJsonLine [msg] = linesOf toJsonLine done := by
  obtain ⟨done, hacc, hlin⟩ := h.lines
  rw [pending, hph, WriterPhase.inHand, ← append_assoc] at hacc
  exact ⟨done ++ [msg], hacc, by rw [linesOf_append, hlin]⟩

lemma Logged.counted_of_idle (hunc : w.phase.uncounted = []) :
    w.bytesWritten = UInt64.ofNat w.lines.flatten.length := by
  obtain ⟨counted, hlin, hbs⟩ := h.counted
  rw [hunc, append_nil] at hlin
  rw [hbs, hlin]

lemma Logged.lines_eq (hpend : w.pending = []) : w.lines = linesOf toJsonLine w.accepted := by
  obtain ⟨done, hacc, hlin⟩ := h.lines
  rw [hacc, hpend, append_nil, hlin]

lemma Logged.work (hn : w.work toJsonLine = some w') : Logged toJsonLine w' := by
  cases work_cases hn with
  | move hidle hidle' =>
    obtain ⟨done, hacc, hlin⟩ := h.lines
    refine ⟨⟨done, ?_, hlin⟩, w.lines, ?_, h.counted_of_idle hidle.2⟩
    · rw [hacc, pending, pending, hidle.1, hidle'.1]
    · rw [hidle'.2, append_nil]
  | take hidle hqu =>
    obtain ⟨done, hacc, hlin⟩ := h.lines
    refine ⟨⟨done, ?_, hlin⟩, w.lines, ?_, h.counted_of_idle hidle.2⟩
    · rw [hacc, pending, hidle.1, hqu]
      rfl
    · exact (append_nil _).symm
  | finish hph =>
    obtain ⟨n, hsync⟩ := sync_eq w
    rw [hsync]
    obtain ⟨done, hacc, hlin⟩ := h.lines
    refine ⟨⟨done, ?_, hlin⟩, w.lines, (append_nil _).symm, h.counted_of_idle (by rw [hph]; rfl)⟩
    rw [hacc, pending, hph]
    rfl
  | @skip draining msg what hph herr =>
    obtain ⟨done, hacc, hlin⟩ := h.give hph
    rw [linesOf_error herr, append_nil] at hlin
    refine ⟨⟨done, ?_, hlin⟩, w.lines, ?_, h.counted_of_idle (by rw [hph]; rfl)⟩
    · rw [hacc, pending, (idle_resume draining).1, nil_append]
    · rw [(idle_resume draining).2, append_nil]
  | @put draining msg line hph hline =>
    obtain ⟨done, hacc, hlin⟩ := h.give hph
    rw [linesOf_singleton hline] at hlin
    exact ⟨⟨done, hacc, hlin⟩, w.lines, rfl, h.counted_of_idle (by rw [hph]; rfl)⟩
  | @count draining line hph =>
    obtain ⟨done, hacc, hlin⟩ := h.lines
    obtain ⟨counted, hcntd, hbs⟩ := h.counted
    rw [pending, hph] at hacc
    rw [hph] at hcntd
    exact ⟨⟨done, hacc, hlin⟩, counted, hcntd, hbs⟩
  | @counted draining line hph =>
    obtain ⟨done, hacc, hlin⟩ := h.lines
    obtain ⟨counted, hcntd, hbs⟩ := h.counted
    rw [pending, hph] at hacc
    rw [hph] at hcntd
    refine ⟨⟨done, ?_, hlin⟩, counted ++ [line], ?_, ?_⟩
    · rw [hacc, pending, (idle_resume draining).1]
      rfl
    · rw [(idle_resume draining).2, append_nil]
      exact hcntd
    · simp [hbs, UInt64.ofNat_add]

end
end

structure Written (toJsonLine : M → Except String (List UInt8)) (w : AsyncWriter M) (k : ℕ) :
    Prop where
  lines : (w.accepted.take k).map toJsonLine = (w.lines.take k).map .ok
  synced : k ≤ w.synced
  counted : ∃ n ≥ k, w.bytesWritten = UInt64.ofNat (w.lines.take n).flatten.length

def countedLines (w : AsyncWriter M) : ℕ := w.lines.length - w.phase.uncounted.length

structure Tracked (toJsonLine : M → Except String (List UInt8)) (w : AsyncWriter M) : Prop
    extends Logged toJsonLine w where
  synced : w.synced ≤ w.lines.length
  serialisable : ∀ msg ∈ w.accepted, (toJsonLine msg).isOk = true
  closed : w.isOpen = true ∨ w.phase = .finished ∧ w.synced = w.lines.length

structure Progress (w w' : AsyncWriter M) : Prop where
  accepted : w.accepted.length ≤ w'.accepted.length
  countedLines : w.countedLines ≤ w'.countedLines
  synced : w.synced ≤ w'.synced

section
variable {toJsonLine : M → Except String (List UInt8)} {w w' : AsyncWriter M} {msg : M}

lemma Progress.refl (w : AsyncWriter M) : Progress w w := ⟨le_rfl, le_rfl, le_rfl⟩

lemma Progress.trans {w'' : AsyncWriter M} (h : Progress w w') (h' : Progress w' w'') :
    Progress w w'' :=
  ⟨h.accepted.trans h'.accepted, h.countedLines.trans h'.countedLines, h.synced.trans h'.synced⟩

lemma phase_sync : w.sync.phase = w.phase := by
  obtain ⟨n, hsync⟩ := sync_eq w
  rw [hsync]

lemma lines_sync : w.sync.lines = w.lines := by
  obtain ⟨n, hsync⟩ := sync_eq w
  rw [hsync]

lemma isOpen_sync : w.sync.isOpen = w.isOpen := by
  obtain ⟨n, hsync⟩ := sync_eq w
  rw [hsync]

lemma tracked_new (queueCapacity : ℕ) : Tracked toJsonLine { queueCapacity } :=
  ⟨logged_new queueCapacity, le_rfl, by simp, .inl rfl⟩

section
variable (h : Tracked toJsonLine w)
include h

lemma Tracked.synced_sync : w.sync.synced = w.lines.length := by
  rw [sync]
  rcases h.closed with hopen | ⟨-, hsyn⟩
  · rw [if_pos hopen]
  · split_ifs
    · rfl
    · exact hsyn

lemma Tracked.map_accepted :
    w.accepted.map toJsonLine = w.lines.map .ok ++ w.pending.map toJsonLine := by
  obtain ⟨done, hacc, hlin⟩ := h.lines
  have hdone := map_linesOf fun msg hmsg =>
    h.serialisable msg (hacc ▸ mem_append_left _ hmsg)
  rw [hacc, map_append, hlin, hdone]

lemma Tracked.length_accepted : w.accepted.length = w.lines.length + w.pending.length := by
  simpa using congrArg List.length h.map_accepted

lemma Tracked.written {k : ℕ} (hcntd : k ≤ w.countedLines) (hsyn : k ≤ w.synced) :
    Written toJsonLine w k := by
  obtain ⟨counted, hlin, hbs⟩ := h.counted
  have hk : k ≤ counted.length := by simpa [countedLines, hlin] using hcntd
  refine ⟨?_, hsyn, counted.length, hk, by simp [hlin, hbs]⟩
  have hk' : k ≤ w.lines.length := by
    rw [hlin, length_append]
    omega
  rw [map_take, h.map_accepted, take_append_of_le_length (by simpa using hk'), map_take]

lemma tracked_sync : Tracked toJsonLine w.sync ∧ Progress w w.sync := by
  rw [sync]
  split_ifs with hopen
  · exact ⟨⟨⟨h.lines, h.counted⟩, le_rfl, h.serialisable, .inl hopen⟩, le_rfl, le_rfl, h.synced⟩
  · exact ⟨h, Progress.refl w⟩

lemma tracked_tryPush (hmsg : (toJsonLine msg).isOk = true) {result : Bool}
    (hn : w.tryPush msg = some (result, w')) : Tracked toJsonLine w' ∧ Progress w w' := by
  have hlog := h.toLogged.tryPush hn
  rcases tryPush_cases hn with ⟨-, rfl⟩ | ⟨-, rfl⟩
  · exact ⟨⟨hlog, h.synced, h.serialisable, h.closed⟩, le_rfl, le_rfl, le_rfl⟩
  · refine ⟨⟨hlog, h.synced, fun msg' hmem => ?_, h.closed⟩, by simp, le_rfl, le_rfl⟩
    rcases mem_append.mp hmem with hmem | hmem
    · exact h.serialisable msg' hmem
    · rwa [mem_singleton.mp hmem]

lemma tracked_work (hn : w.work toJsonLine = some w') :
    Tracked toJsonLine w' ∧ Progress w w' := by
  have hopen : w.isOpen = true := by
    rcases h.closed with hopen | ⟨hph, -⟩
    · exact hopen
    · simp [work, hph] at hn
  have hsyn := h.synced
  have hfrm : w'.isOpen = true ∧ w'.synced ≤ w'.lines.length ∧
      w.countedLines ≤ w'.countedLines ∧ w.synced ≤ w'.synced := by
    cases work_cases hn with
    | move hidle hidle' => simp [countedLines, hidle.2, hidle'.2, hopen, hsyn]
    | take hidle => simp [countedLines, WriterPhase.uncounted, hopen, hsyn]
    | finish hph =>
      simp [countedLines, WriterPhase.uncounted, lines_sync, isOpen_sync, h.synced_sync, hopen,
        hsyn]
    | put hph =>
      simp [countedLines, hph, WriterPhase.uncounted, hopen, Nat.le_succ_of_le hsyn]
    | count hph => simp [countedLines, hph, WriterPhase.uncounted, hopen, hsyn]
    | skip hph
    | counted hph => simp [countedLines, (idle_resume _).2, hopen, hsyn]
  obtain ⟨hopen', hsyn', hcntd, hprog⟩ := hfrm
  obtain ⟨-, hacc⟩ := work_frame hn
  refine ⟨⟨h.toLogged.work hn, hsyn', ?_, .inl hopen'⟩, by rw [hacc], hcntd, hprog⟩
  rw [hacc]
  exact h.serialisable

lemma tracked_stop : Tracked toJsonLine w.stop :=
  ⟨h.toLogged.stop, h.synced, h.serialisable, h.closed⟩

lemma tracked_join (hn : w.join = some w') : Tracked toJsonLine w' ∧ Progress w w' := by
  obtain ⟨hph, rfl⟩ := join_eq_some hn
  obtain ⟨hsync, hprog⟩ := tracked_sync h
  have hall : w.sync.synced = w.sync.lines.length := h.synced_sync.trans (by rw [lines_sync])
  exact ⟨⟨⟨hsync.lines, hsync.counted⟩, hsync.synced, hsync.serialisable,
    .inr ⟨phase_sync.trans hph, hall⟩⟩,
    hprog.accepted, hprog.countedLines, hprog.synced⟩

end
end

structure Drains (w : AsyncWriter M) : Prop where
  running : w.running = true → w.ending = false
  finished : w.phase = .finished → w.messageQueue = []

section
variable {toJsonLine : M → Except String (List UInt8)} {w w' : AsyncWriter M} {msg : M}

lemma Drains.sync (h : Drains w) : Drains w.sync := by
  obtain ⟨n, hsync⟩ := sync_eq w
  rw [hsync]
  exact ⟨h.running, h.finished⟩

lemma Drains.work (h : Drains w) (hn : w.work toJsonLine = some w') : Drains w' := by
  cases work_cases hn with
  | move hidle hidle' hne hend =>
    exact ⟨fun hrun => hend hrun (h.running hrun), fun hph => absurd hph hne⟩
  | take => exact ⟨h.running, by simp⟩
  | finish hph hqu =>
    obtain ⟨n, hsync⟩ := sync_eq w
    rw [hsync]
    refine ⟨fun hrun => ?_, fun _ => hqu⟩
    have hend := h.running hrun
    rw [ending, hph] at hend
    cases hend
  | skip hph =>
    refine ⟨fun hrun => (ending_resume w).trans ?_, fun h => absurd h phase_resume_ne⟩
    simpa [ending, hph] using h.running hrun
  | put hph => exact ⟨fun hrun => by simpa [ending, hph] using h.running hrun, by simp⟩
  | count hph => exact ⟨fun hrun => by simpa [ending, hph] using h.running hrun, by simp⟩
  | counted hph =>
    refine ⟨fun hrun => (ending_resume w).trans ?_, fun h => absurd h phase_resume_ne⟩
    simpa [ending, hph] using h.running hrun

lemma Drains.tryPush (h : Drains w) (hrun : w.running = true) {result : Bool}
    (hn : w.tryPush msg = some (result, w')) : Drains w' ∧ w'.running = true := by
  have hph : w.phase ≠ .finished := fun hph => by
    simpa [ending, hph] using h.running hrun
  rcases tryPush_cases hn with ⟨-, rfl⟩ | ⟨-, rfl⟩
  · exact ⟨⟨h.running, h.finished⟩, hrun⟩
  · exact ⟨⟨h.running, fun hfin => absurd hfin hph⟩, hrun⟩

lemma Drains.stop (h : Drains w) : Drains w.stop :=
  ⟨fun hrun => absurd hrun Bool.false_ne_true, h.finished⟩

lemma Drains.join (h : Drains w) (hlog : Logged toJsonLine w)
    (hser : ∀ msg ∈ w.accepted, (toJsonLine msg).isOk = true) (hn : w.join = some w') :
    w'.lines = w.lines ∧ w.accepted.map toJsonLine = w.lines.map .ok := by
  obtain ⟨hph, rfl⟩ := join_eq_some hn
  refine ⟨lines_sync, ?_⟩
  rw [map_linesOf hser, hlog.lines_eq]
  rw [pending, hph, h.finished hph]
  rfl

end

section
variable {toJsonLine : M → Except String (List UInt8)} {w w' : AsyncWriter M}

lemma Logged.join (h : Logged toJsonLine w) (hdrn : Drains w) (hn : w.join = some w') :
    w'.accepted = w.accepted ∧ w'.lines = linesOf toJsonLine w.accepted := by
  obtain ⟨hph, rfl⟩ := join_eq_some hn
  have hpend : w.pending = [] := by rw [pending, hph, hdrn.finished hph]; rfl
  obtain ⟨n, hsync⟩ := sync_eq w
  rw [hsync]
  exact ⟨rfl, h.lines_eq hpend⟩

end
end AsyncWriter
end Mxrc.Logging
