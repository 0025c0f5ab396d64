import Mxrc.Lib.Runs
import Mxrc.Logging.AsyncWriter

/-!
# Flushing as a barrier

`flush` waits until the queue is empty, but the thread may still hold a message
that it has taken out. `Settled` excludes that, and messages that cannot be
serialised. Any number of clients may call `flush`.
-/

namespace Mxrc.Logging
open Mxrc.Lib Option

namespace AsyncWriter
variable {M : Type} {toJsonLine : M → Except String (List UInt8)} {w w' : AsyncWriter M}

def Knows (w : AsyncWriter M) : FlushPhase → Prop
  | .checking _ before | .sleeping _ before => before ≤ w.accepted.length
  | .emptied before => before ≤ w.countedLines
  | .returned true before => before ≤ w.countedLines ∧ before ≤ w.synced
  | .returned false _ => True

lemma Knows.mono {phase : FlushPhase} (h : Knows w phase) (hprog : Progress w w') :
    Knows w' phase := by
  unfold Knows at h ⊢
  split
  · exact h.trans hprog.accepted
  · exact h.trans hprog.accepted
  · exact h.trans hprog.countedLines
  · exact ⟨h.1.trans hprog.countedLines, h.2.trans hprog.synced⟩
  · trivial

lemma knows_flushStep (h : Tracked toJsonLine w) {phase phase' : FlushPhase} {elapsedMs : ℕ}
    (hph : Knows w phase)
    (hset : ∀ timeoutMs before, phase = .checking timeoutMs before → w.messageQueue = [] →
      w.phase.inHand = [] ∧ w.phase.uncounted = [])
    (hn : w.flushStep elapsedMs phase = some (phase', w')) :
    Tracked toJsonLine w' ∧ Progress w w' ∧ Knows w' phase' := by
  cases phase with
  | checking timeoutMs before =>
    simp only [flushStep] at hn
    split_ifs at hn with _ hemp
    · -- with nothing queued and nothing in hand, every accepted message is a counted line
      cases hn
      obtain ⟨hinHand, hunc⟩ := hset timeoutMs before rfl hemp
      have hlen := h.length_accepted
      have hbef : before ≤ w.accepted.length := hph
      refine ⟨h, .refl w, ?_⟩
      simp only [pending, hinHand, hemp, List.append_nil, List.length_nil] at hlen
      simp only [Knows, countedLines, hunc, List.length_nil]
      omega
    · cases hn
      exact ⟨h, .refl w, hph⟩
  | sleeping timeoutMs before =>
    simp only [flushStep] at hn
    split_ifs at hn
    · cases hn
      exact ⟨h, .refl w, trivial⟩
    · cases hn
      exact ⟨h, .refl w, hph⟩
  | emptied before =>
    cases hn
    obtain ⟨hsync, hprog⟩ := tracked_sync h
    have hbef : before ≤ w.countedLines := hph
    refine ⟨hsync, hprog, hbef.trans hprog.countedLines, ?_⟩
    rw [h.synced_sync]
    exact hbef.trans (Nat.sub_le ..)
  | returned result before => cases hn

end AsyncWriter

structure FlushClients (ι M : Type) where
  writer : AsyncWriter M
  calls : ι → Option FlushPhase

namespace FlushClients
variable {ι M : Type}

inductive Op (ι M : Type)
  | tryPush (msg : M)
  | flush (c : ι) (timeoutMs : UInt32)
  | flushStep (c : ι) (elapsedMs : ℕ)
  | work
  | stop
  | join

def make (ι M : Type) (queueCapacity : ℕ) : FlushClients ι M := ⟨{ queueCapacity }, fun _ => none⟩

section
variable [DecidableEq ι] (toJsonLine : M → Except String (List UInt8)) (s : FlushClients ι M)

/-- A client may call `flush` again when its last call has returned. -/
def next : Op ι M → Option (FlushClients ι M)
  | .tryPush msg => (s.writer.tryPush msg).map fun (_, writer) => { s with writer }
  | .flush c timeoutMs =>
    match s.calls c with
    | none | some (.returned _ _) =>
      some { s with calls := Function.update s.calls c (some (s.writer.flush timeoutMs)) }
    | _ => none
  | .flushStep c elapsedMs =>
    match s.calls c with
    | none => none
    | some phase => (s.writer.flushStep elapsedMs phase).map fun (phase, writer) =>
      ⟨writer, Function.update s.calls c (some phase)⟩
  | .work => (s.writer.work toJsonLine).map fun writer => { s with writer }
  | .stop => some { s with writer := s.writer.stop }
  | .join => s.writer.join.map fun writer => { s with writer }

/-- Every pushed message can be serialised, and no `flush` finds the queue empty before the bytes of
the message in hand are counted. -/
def Settled : Op ι M → Prop
  | .tryPush msg => (toJsonLine msg).isOk = true
  | .flushStep c _ => ∀ timeoutMs before, s.calls c = some (.checking timeoutMs before) →
      s.writer.messageQueue = [] → s.writer.phase.inHand = [] ∧ s.writer.phase.uncounted = []
  | _ => True

end

/-- If a call of `flush` has returned true, what was accepted before it is written. -/
def IsBarrier (ι M : Type) [DecidableEq ι] (toJsonLine : M → Except String (List UInt8))
    (G : FlushClients ι M → Op ι M → Prop) : Prop :=
  ∀ queueCapacity ops s, Run (next toJsonLine) G (make ι M queueCapacity) ops s →
    ∀ c k, s.calls c = some (.returned true k) → s.writer.Written toJsonLine k

section
variable {toJsonLine : M → Except String (List UInt8)} {s s' : FlushClients ι M}

structure Informed (toJsonLine : M → Except String (List UInt8)) (s : FlushClients ι M) :
    Prop where
  tracked : s.writer.Tracked toJsonLine
  knows : ∀ c phase, s.calls c = some phase → s.writer.Knows phase

lemma informed_make (queueCapacity : ℕ) : Informed toJsonLine (make ι M queueCapacity) where
  tracked := AsyncWriter.tracked_new queueCapacity
  knows c phase hc := by simp [make] at hc

lemma Informed.writer (h : Informed toJsonLine s) {w : AsyncWriter M}
    (hw : w.Tracked toJsonLine ∧ s.writer.Progress w) :
    Informed toJsonLine { s with writer := w } :=
  ⟨hw.1, fun c phase hc => (h.knows c phase hc).mono hw.2⟩

lemma Informed.call [DecidableEq ι] (h : Informed toJsonLine s) {w : AsyncWriter M} {c : ι}
    {phase : FlushPhase} (hw : w.Tracked toJsonLine ∧ s.writer.Progress w ∧ w.Knows phase) :
    Informed toJsonLine ⟨w, Function.update s.calls c (some phase)⟩ := by
  obtain ⟨htr, hprog, hknw⟩ := hw
  refine ⟨htr, fun c' phase' hc' => ?_⟩
  replace hc' : Function.update s.calls c (some phase) c' = some phase' := hc'
  by_cases hc : c' = c
  · rw [hc, Function.update_self] at hc'
    cases hc'
    exact hknw
  · rw [Function.update_of_ne hc] at hc'
    exact (h.knows c' phase' hc').mono hprog

lemma Informed.next [DecidableEq ι] (h : Informed toJsonLine s) {op : Op ι M}
    (hop : Settled toJsonLine s op) (hn : next toJsonLine s op = some s') :
    Informed toJsonLine s' := by
  cases op with
  | tryPush msg =>
    obtain ⟨⟨result, w⟩, hpush, rfl⟩ := map_eq_some_iff.mp hn
    exact h.writer (AsyncWriter.tracked_tryPush h.tracked hop hpush)
  | flush c timeoutMs =>
    simp only [FlushClients.next] at hn
    split at hn
    · cases hn
      exact h.call ⟨h.tracked, .refl _, le_rfl⟩
    · cases hn
      exact h.call ⟨h.tracked, .refl _, le_rfl⟩
    · cases hn
  | flushStep c elapsedMs =>
    simp only [FlushClients.next] at hn
    cases hph : s.calls c with
    | none => simp [hph] at hn
    | some phase =>
      rw [hph] at hn
      obtain ⟨⟨phase', w⟩, hstep, rfl⟩ := map_eq_some_iff.mp hn
      refine h.call (AsyncWriter.knows_flushStep h.tracked (h.knows c phase hph) ?_ hstep)
      intro timeoutMs before hchec
      exact hop timeoutMs before (hchec ▸ hph)
  | work =>
    obtain ⟨w, hwork, rfl⟩ := map_eq_some_iff.mp hn
    exact h.writer (AsyncWriter.tracked_work h.tracked hwork)
  | stop =>
    cases hn
    exact h.writer ⟨AsyncWriter.tracked_stop h.tracked, le_rfl, le_rfl, le_rfl⟩
  | join =>
    obtain ⟨w, hjoin, rfl⟩ := map_eq_some_iff.mp hn
    exact h.writer (AsyncWriter.tracked_join h.tracked hjoin)

end

theorem isBarrier_of_settled (ι M : Type) [DecidableEq ι]
    (toJsonLine : M → Except String (List UInt8)) :
    IsBarrier ι M toJsonLine (Settled toJsonLine) := by
  intro queueCapacity ops s hrun c k hc
  have hinf : Informed toJsonLine s :=
    hrun.invariant (Informed toJsonLine) (informed_make queueCapacity)
      fun s op s' hs hop hn => hs.next hop hn
  obtain ⟨hcntd, hsyn⟩ := hinf.knows c _ hc
  exact hinf.tracked.written hcntd hsyn

/-- The thread has taken the message out of the queue and not written it when `flush` finds the
queue empty. -/
theorem not_isBarrier : ¬ ∀ (ι M : Type) (_ : DecidableEq ι)
    (toJsonLine : M → Except String (List UInt8)),
    IsBarrier ι M toJsonLine (fun _ _ => True) := by
  intro hbar
  have hexec : (exec (next fun n : UInt8 => .ok [n, 10]) (fun _ _ => true) (make Unit UInt8 10)
      [.tryPush 55, .work, .work, .flush () 1000, .flushStep () 0, .flushStep () 0]).map
      (fun s => (s.calls (), s.writer.synced)) = some (some (.returned true 1), 0) := by decide
  obtain ⟨s, hrun, hend⟩ := exists_run_of_exec (fun _ _ _ => trivial) hexec
  simp only [Prod.mk.injEq] at hend
  have hwrit := hbar Unit UInt8 inferInstance _ 10 _ s hrun () 1 hend.1
  have hsyn := hwrit.synced
  rw [hend.2] at hsyn
  cases hsyn

end FlushClients
end Mxrc.Logging
