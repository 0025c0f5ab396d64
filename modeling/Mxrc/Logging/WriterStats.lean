import Mxrc.Lib.Runs
import Mxrc.Logging.SimpleBagWriter

/-!
# The statistics of the bag writer

`getStats` adds the counters of the current asynchronous writer to the totals of
the files before it. A rotation adds them before the thread has ended, and
`close` and `stop` do not add them. `filed` has what all files have counted.
-/

namespace Mxrc.Logging
open Mxrc.Lib SimpleBagWriter Option

inductive Counter
  | messagesWritten
  | messagesDropped
  | bytesWritten

def Counter.all : List Counter := [.messagesWritten, .messagesDropped, .bytesWritten]

lemma Counter.mem_all (c : Counter) : c ∈ Counter.all := by
  cases c <;> simp [Counter.all]

def AsyncWriter.count (w : AsyncWriter BagMessage) : Counter → UInt64
  | .messagesWritten => w.writtenCount
  | .messagesDropped => w.droppedCount
  | .bytesWritten => w.bytesWritten

namespace SimpleBagWriter
variable (s : SimpleBagWriter)

def total : Counter → UInt64
  | .messagesWritten => s.totalMessagesWritten
  | .messagesDropped => s.totalMessagesDropped
  | .bytesWritten => s.totalBytesWritten

def live (c : Counter) : UInt64 := s.asyncWriter.elim 0 (·.count c)

def getStats (c : Counter) : UInt64 := s.total c + s.live c

/-- How far a step moves a counter of the current file: messages are dropped in `tryPush`, and the
thread counts what it has written. -/
def counted (s' : SimpleBagWriter) (c : Counter) : Op → ℕ
  | .begin (.appendAsync _) | .work => (s'.live c - s.live c).toNat
  | .begin _ => 0
  | .proceed _ =>
    match s.phase with
    | .pushing _ _ => (s'.live c - s.live c).toNat
    | _ => 0

end SimpleBagWriter

structure Audited where
  writer : SimpleBagWriter
  filed : Counter → ℕ := fun _ => 0
  last : Counter → ℕ := fun _ => 0

namespace Audited
variable {J : Type} (codec : JsonCodec J) (a : Audited)

inductive Label
  | op (op : Op)
  | getStats

def next : Label → Option Audited
  | .op op => (a.writer.next codec op).map fun s =>
      { a with writer := s, filed := fun c => a.filed c + a.writer.counted s c op }
  | .getStats =>
    if a.writer.phase = .idle then some { a with last := fun c => (a.writer.getStats c).toNat }
    else none

/-- No number is below the one of the call before, and those of a closed writer are complete. -/
def StatsKept : Label → Prop
  | .getStats => ∀ c, a.last c ≤ (a.writer.getStats c).toNat ∧
      (a.writer.isOpen = false → (a.writer.getStats c).toNat = a.filed c)
  | .op _ => True

/-- Nothing is counted while a rotation waits, `close` and `stop` find nothing counted, and no
counter overflows. -/
def harmless : Label → Bool
  | .getStats => true
  | .op op => (a.writer.next codec op).all fun s => Counter.all.all fun c =>
      a.filed c + a.writer.counted s c op < 2 ^ 64 &&
        match op, a.writer.phase with
        | .work, .joining .rotate => s.live c = a.writer.live c
        | .proceed _, .joining (.close _) | .proceed _, .joining .stop => a.writer.live c = 0
        | _, _ => true

structure Balanced : Prop where
  filed : ∀ c, a.writer.phase ≠ .joining .rotate →
    (a.writer.total c).toNat + (a.writer.live c).toNat = a.filed c
  rotating : ∀ c, a.writer.phase = .joining .rotate → (a.writer.total c).toNat = a.filed c
  last : ∀ c, a.last c ≤ a.filed c
  small : ∀ c, a.filed c < 2 ^ 64
  closed : a.writer.isOpen = false → a.writer.phase = .idle ∧
    ∀ w, a.writer.asyncWriter = some w → w.phase = .finished ∧ ∀ c, w.count c = 0

end Audited

section
variable {s s' : SimpleBagWriter} {c : Counter} {op : Op}

lemma AsyncWriter.count_sync (w : AsyncWriter BagMessage) (c : Counter) :
    w.sync.count c = w.count c := by
  obtain ⟨n, hn⟩ := AsyncWriter.sync_eq w
  rw [hn]
  cases c <;> rfl

lemma counted_eq_zero (h : s'.live c = s.live c) : s.counted s' c op = 0 := by
  unfold counted
  split
  · simp [h]
  · simp [h]
  · rfl
  · split
    · simp [h]
    · rfl

lemma toNat_eq_add_toNat_sub {x y : UInt64} (h : x.toNat + (y - x).toNat < 2 ^ 64) :
    y.toNat = x.toNat + (y - x).toNat := by
  have hsum : x + (y - x) = y := by rw [UInt64.add_comm, UInt64.sub_add_cancel]
  rw [← Nat.mod_eq_of_lt h, ← UInt64.toNat_add, hsum]

end

namespace Audited
variable {J : Type} {codec : JsonCodec J} {a a' : Audited} {op : Op} {s : SimpleBagWriter}
  {env : Environment} {after : AfterFlush} {w : AsyncWriter BagMessage}

lemma small_of_harmless (hg : a.harmless codec (.op op)) (hn : a.writer.next codec op = some s)
    (c : Counter) : a.filed c + a.writer.counted s c op < 2 ^ 64 := by
  simp only [harmless, hn, all_some, List.all_eq_true, Bool.and_eq_true, decide_eq_true_eq] at hg
  exact (hg c c.mem_all).1

section
variable (h : a.Balanced)
include h

lemma Balanced.isOpen (hph : a.writer.phase ≠ .idle) : a.writer.isOpen = true := by
  by_contra hclos
  exact hph (h.closed (by simpa using hclos)).1

lemma Balanced.count (hopen : s.isOpen = true)
    (hsml : ∀ c, a.filed c + a.writer.counted s c op < 2 ^ 64)
    (htot : ∀ c, s.total c = a.writer.total c)
    (hph : s.phase = .joining .rotate ↔ a.writer.phase = .joining .rotate)
    (hcntd : ∀ c, a.writer.counted s c op = (s.live c - a.writer.live c).toNat)
    (hrotat : a.writer.phase = .joining .rotate → ∀ c, s.live c = a.writer.live c) :
    Balanced { a with writer := s, filed := fun c => a.filed c + a.writer.counted s c op } where
  filed c hne := by
    have hfil := h.filed c (hph.not.mp hne)
    have hless := hsml c
    simp only [hcntd, htot] at hless ⊢
    rw [toNat_eq_add_toNat_sub (x := a.writer.live c) (y := s.live c) (by omega)]
    omega
  rotating c hrot := by
    have hrot' := hph.mp hrot
    simp only [htot, counted_eq_zero (hrotat hrot' c), Nat.add_zero]
    exact h.rotating c hrot'
  last c := (h.last c).trans (Nat.le_add_right _ _)
  small := hsml
  closed hclos := by simp [hopen] at hclos

lemma Balanced.keep (hopen : s.isOpen = true) (htot : ∀ c, s.total c = a.writer.total c)
    (hlive : ∀ c, s.live c = a.writer.live c)
    (hph : s.phase = .joining .rotate ↔ a.writer.phase = .joining .rotate) :
    Balanced { a with writer := s, filed := fun c => a.filed c + a.writer.counted s c op } :=
  h.count hopen (fun c => by rw [counted_eq_zero (hlive c)]; exact h.small c) htot hph
    (fun c => by rw [counted_eq_zero (hlive c), hlive, sub_self]; rfl) fun _ => hlive

lemma Balanced.renew (hcntd : ∀ c, a.writer.counted s c op = 0)
    (htot : ∀ c, s.total c = a.writer.total c) (hlive : ∀ c, s.live c = 0)
    (hph : s.phase = .idle)
    (hfil : ∀ c, a.writer.phase = .joining .rotate ∨
      a.writer.phase ≠ .joining .rotate ∧ a.writer.live c = 0)
    (hclos : s.isOpen = false → ∀ w, s.asyncWriter = some w →
      w.phase = .finished ∧ ∀ c, w.count c = 0) :
    Balanced { a with writer := s, filed := fun c => a.filed c + a.writer.counted s c op } where
  filed c _ := by
    simp only [htot, hlive, hcntd]
    rcases hfil c with hrot | ⟨hne, hzero⟩
    · simpa using h.rotating c hrot
    · simpa [hzero] using h.filed c hne
  rotating c hrot := by simp [hph] at hrot
  last c := (h.last c).trans (Nat.le_add_right _ _)
  small c := by
    simp only [hcntd, Nat.add_zero]
    exact h.small c
  closed hc := ⟨hph, hclos hc⟩

lemma Balanced.live_eq_zero (hclos : a.writer.isOpen = false) (c : Counter) :
    a.writer.live c = 0 := by
  rw [live]
  cases hw : a.writer.asyncWriter with
  | none => rfl
  | some w => exact ((h.closed hclos).2 w hw).2 c

lemma Balanced.check {flush : FlushPhase} {s₁ : SimpleBagWriter}
    (hph : a.writer.phase = .flushing flush after) (hw : s₁.asyncWriter = some w)
    (hopen : s₁.isOpen = a.writer.isOpen) (htot : ∀ c, s₁.total c = a.writer.total c)
    (hlive : ∀ c, s₁.live c = a.writer.live c) :
    Balanced { a with
      writer := s₁.checkAndRotate w env
      filed := fun c => a.filed c + a.writer.counted (s₁.checkAndRotate w env) c op } := by
  have hopen' : s₁.isOpen = true := by rw [hopen, h.isOpen (by simp [hph])]
  rcases checkAndRotate_cases hopen' hw env with heq | ⟨-, heq⟩ <;> rw [heq] <;>
    exact h.keep hopen' htot hlive (by simp [hph])

lemma Balanced.stopped {result : Bool} {before : ℕ}
    (hph : a.writer.phase = .flushing (.returned result before) after)
    (haft : ∀ msg currentOffset, after ≠ .append msg currentOffset)
    (hw : a.writer.asyncWriter = some w) (hn : a.writer.next codec (.proceed env) = some s) :
    Balanced { a with
      writer := s
      filed := fun c => a.filed c + a.writer.counted s c (.proceed env) } := by
  have hopen := h.isOpen (by simp [hph])
  have hlive : ∀ c, a.writer.live c = w.count c := fun c => by rw [live, hw]; rfl
  simp only [SimpleBagWriter.next, proceed, hw, hph, Option.some.injEq] at hn
  subst hn
  cases after with
  | append msg currentOffset => exact absurd rfl (haft msg currentOffset)
  | flush => exact h.check hph hw rfl (fun _ => rfl) fun _ => rfl
  | rotate =>
    have hcntd : ∀ s c, a.writer.counted s c (.proceed env) = 0 := fun s c => by
      simp only [counted, hph]
    refine ⟨fun c hne => absurd rfl hne, fun c _ => ?_, fun c => ?_, fun c => ?_, ?_⟩
    · have hfil := h.filed c (by simp [hph])
      have hsum : (a.writer.total c + w.count c).toNat = a.filed c := by
        rw [UInt64.toNat_add, ← hlive, hfil, Nat.mod_eq_of_lt (h.small c)]
      simp only [hcntd, Nat.add_zero]
      rw [← hsum]
      cases c <;> rfl
    · exact (h.last c).trans (Nat.le_add_right _ _)
    · simp only [hcntd, Nat.add_zero]
      exact h.small c
    · exact fun hclos => by simp [flushed, hopen] at hclos
  | close
  | stop =>
    refine h.keep hopen (fun _ => rfl) (fun c => ?_) (by simp [flushed, hph])
    rw [hlive]
    rfl

lemma Balanced.joined {after : AfterStop} (hph : a.writer.phase = .joining after)
    (hlost : after ≠ .rotate → ∀ c, a.writer.live c = 0) :
    Balanced { a with
      writer := a.writer.joined w env after
      filed := fun c => a.filed c +
        a.writer.counted (a.writer.joined w env after) c (.proceed env) } := by
  have hcntd : ∀ s c, a.writer.counted s c (.proceed env) = 0 := fun s c => by
    simp only [counted, hph]
  cases after with
  | rotate =>
    simp only [SimpleBagWriter.joined]
    split_ifs
    · exact h.renew (hcntd _) (fun _ => rfl) (fun c => by cases c <;> rfl) rfl
        (fun _ => .inl hph) (by simp [startWriter])
    · refine h.renew (hcntd _) (fun _ => rfl) (fun c => by cases c <;> rfl) rfl
        (fun _ => .inl hph) fun _ w hw => ?_
      cases hw
      exact ⟨rfl, fun c => by cases c <;> rfl⟩
  | close dataSize
  | stop =>
    refine h.renew (hcntd _) (fun _ => rfl) (fun c => rfl) rfl
      (fun c => .inr ⟨by simp [hph], hlost (by simp) c⟩) ?_
    simp [SimpleBagWriter.joined, finish]

lemma balanced_op (hg : a.harmless codec (.op op)) (hn : a.writer.next codec op = some s) :
    Balanced { a with writer := s, filed := fun c => a.filed c + a.writer.counted s c op } := by
  have hsml := small_of_harmless hg hn
  cases stepped_of_next hn with
  | @rest call hcall =>
    have hsame : (fun c => a.filed c + a.writer.counted a.writer c (.begin call)) = a.filed :=
      funext fun c => by rw [counted_eq_zero rfl, Nat.add_zero]
    rw [hsame]
    exact h
  | opened hidle hclos hcall =>
    refine h.renew ?_ (fun _ => rfl) (fun c => by cases c <;> rfl) hidle
      (fun c => .inr ⟨by simp [hidle], h.live_eq_zero hclos c⟩) (by simp [startWriter])
    rcases hcall with ⟨rfl, -⟩ | ⟨rfl, -⟩ <;> exact fun c => rfl
  | notOpened hidle hclos hcall =>
    refine h.renew ?_ (fun _ => rfl) (fun _ => rfl) hidle
      (fun c => .inr ⟨by simp [hidle], h.live_eq_zero hclos c⟩) (by simp)
    rcases hcall with ⟨rfl, -⟩ | ⟨rfl, -⟩ <;> exact fun c => rfl
  | sampled hidle hw
  | flushBegun hidle hw =>
    exact h.keep (writer?_eq_some hw).1 (fun _ => rfl) (fun _ => rfl) (by simp [hidle])
  | queued hidle hw hpush =>
    exact h.count (writer?_eq_some hw).1 hsml (fun _ => rfl) Iff.rfl (fun _ => rfl)
      (by simp [hidle])
  | pushed hph hw hpush
  | dropped hph hw hpush =>
    refine h.count (h.isOpen (by simp [hph])) hsml (fun _ => rfl) (by simp [hph])
      (fun c => ?_) (by simp [hph])
    simp only [counted, hph]
  | flushStepped hph hw hstep =>
    refine h.keep (h.isOpen (by simp [hph])) (fun _ => rfl) (fun c => ?_)
      (by simp [hph])
    rcases (AsyncWriter.flushStep_spec hstep).1 with rfl | rfl
    · simp [live, hw]
    · simp [live, hw, AsyncWriter.count_sync]
  | accepted hph hw =>
    exact h.check hph (by exact hw) rfl (fun _ => rfl) fun _ => rfl
  | checked hph haft hw => exact h.check hph hw rfl (fun _ => rfl) fun _ => rfl
  | stopped written dropped bytes hph haft hrtt hw => exact h.stopped hph haft hw hn
  | @joined env after w w' hph hw hjoin =>
    refine h.joined hph fun hne c => ?_
    simp only [harmless, hn, hph, all_some, List.all_eq_true, Bool.and_eq_true] at hg
    cases after with
    | rotate => exact absurd rfl hne
    | close
    | stop => simpa using (hg c c.mem_all).2
  | worked hw hwork =>
    refine h.count ?_ hsml (fun _ => rfl) Iff.rfl (fun c => rfl) fun hrot c => ?_
    swap
    · simp only [harmless, hn, hrot, all_some, List.all_eq_true, Bool.and_eq_true] at hg
      exact of_decide_eq_true (hg c c.mem_all).2
    by_contra hclos
    have hfin := ((h.closed (by simpa using hclos)).2 _ hw).1
    simp [AsyncWriter.work, hfin] at hwork

lemma Balanced.getStats_eq (hidle : a.writer.phase = .idle) (c : Counter) :
    (a.writer.getStats c).toNat = a.filed c := by
  rw [SimpleBagWriter.getStats, UInt64.toNat_add, h.filed c (by simp [hidle]),
    Nat.mod_eq_of_lt (h.small c)]

lemma balanced_next {l : Label} (hg : a.harmless codec l) (hn : a.next codec l = some a') :
    a'.Balanced := by
  cases l with
  | op op =>
    obtain ⟨s, hs, rfl⟩ := map_eq_some_iff.mp hn
    exact balanced_op h hg hs
  | getStats =>
    rw [next] at hn
    split_ifs at hn with hidle
    cases hn
    exact ⟨h.filed, h.rotating, fun c => (h.getStats_eq hidle c).le, h.small, h.closed⟩

lemma Balanced.statsKept {l : Label} (hn : a.next codec l = some a') : a.StatsKept l := by
  cases l with
  | op op => trivial
  | getStats =>
    rw [next] at hn
    split_ifs at hn with hidle
    intro c
    exact ⟨(h.last c).trans_eq (h.getStats_eq hidle c).symm, fun _ => h.getStats_eq hidle c⟩

end

def initial (queueCapacity : ℕ) (rotationPolicy : RotationPolicy) : Audited :=
  { writer := { queueCapacity, rotationPolicy } }

theorem stats_kept_of_harmless (codec : JsonCodec J) (queueCapacity : ℕ)
    (rotationPolicy : RotationPolicy) (ls : List Label)
    (h : EveryStep (next codec) (fun a l => a.harmless codec l)
      (initial queueCapacity rotationPolicy) ls) :
    EveryStep (next codec) StatsKept (initial queueCapacity rotationPolicy) ls := by
  rintro ls₁ l ls₂ a a' rfl hrun hn
  have hbal : a.Balanced := by
    refine (hrun.everyStep_iff.mp h.left).invariant _ ?_
      fun _ _ _ hb hg hn => balanced_next hb hg hn
    refine ⟨fun c _ => ?_, fun c hrot => ?_, fun c => le_rfl, fun c => by simp [initial], ?_⟩
    · cases c <;> rfl
    · simp [initial] at hrot
    · exact fun _ => ⟨rfl, by simp [initial]⟩
  exact hbal.statsKept hn

theorem stats_kept_rotation : EveryStep (next sampleCodec) StatsKept (initial 0 {})
    [.op (.begin (.openFile "a.bag" true)), .op (.begin (.appendAsync sampleMessage)), .getStats,
      .op (.begin .rotate), .op (.proceed {}), .op (.proceed {}), .op (.proceed {}), .op .work,
      .op .work, .op .work, .op (.proceed { newFilePath := "b.bag" }), .getStats] := by
  have hexec : (exec (next sampleCodec) (harmless sampleCodec) (initial 0 {})
      [.op (.begin (.openFile "a.bag" true)), .op (.begin (.appendAsync sampleMessage)),
        .getStats, .op (.begin .rotate), .op (.proceed {}), .op (.proceed {}), .op (.proceed {}),
        .op .work, .op .work, .op .work, .op (.proceed { newFilePath := "b.bag" }),
        .getStats]).map (fun a => a.last .messagesDropped) = some 1 := by decide +kernel
  obtain ⟨a, hrun, -⟩ := exists_run_of_exec (G := fun a l => a.harmless sampleCodec l)
    (fun _ _ h => h) hexec
  exact stats_kept_of_harmless sampleCodec 0 {} _
    ((hrun.weaken fun _ _ _ => trivial).everyStep_iff.mpr hrun)

theorem not_stats_kept : ¬ ∀ (J : Type) (codec : JsonCodec J) (queueCapacity : ℕ)
    (rotationPolicy : RotationPolicy) (ls : List Label),
    EveryStep (next codec) StatsKept (initial queueCapacity rotationPolicy) ls := by
  intro h
  let ls : List Label := [.op (.begin (.openFile "a.bag" true)),
    .op (.begin (.appendAsync sampleMessage)), .getStats, .op (.begin .stop), .op (.proceed {}),
    .op (.proceed {}), .op (.proceed {}), .op .work, .op .work, .op .work, .op (.proceed {})]
  have hexec : (exec (next sampleCodec) (fun _ _ => true) (initial 0 {}) ls).map (fun a =>
      (a.writer.phase, a.last .messagesDropped, (a.writer.getStats .messagesDropped).toNat)) =
      some (.idle, 1, 0) := by decide +kernel
  obtain ⟨a, hrun, ha⟩ := exists_run_of_exec (G := fun _ _ => True) (fun _ _ _ => trivial) hexec
  simp only [Prod.mk.injEq] at ha
  have hkept := h _ sampleCodec 0 {} (ls ++ [.getStats]) ls .getStats [] a _ rfl hrun
    (if_pos ha.1) .messagesDropped
  rw [ha.2.1, ha.2.2] at hkept
  exact absurd hkept.1 (by decide)

end Audited
end Mxrc.Logging
