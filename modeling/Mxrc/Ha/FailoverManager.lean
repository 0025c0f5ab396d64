import Mxrc.Lib.Bytes
import Mxrc.Lib.Runs
import Mxrc.Lib.Tumbling

/-!
# Restart limits of the failover manager

`handleProcessFailure` asks `canRestart` and then calls `triggerRestart`; each
reads the clock. Restarts are counted in a window that begins with its first
restart, or at the epoch for a process without an entry. The delay and the
checkpoint of a restart are left out.
-/

namespace Mxrc.Ha
open Mxrc.Lib

structure FailoverPolicy where
  processName : String := ""
  healthCheckIntervalMs : UInt32 := 1000
  healthCheckTimeoutMs : UInt32 := 500
  failureThreshold : UInt32 := 3
  maxRestartCount : UInt32 := 5
  restartWindowSec : UInt32 := 60
  enableStateRecovery : Bool := true
  checkpointIntervalSec : UInt32 := 60
deriving DecidableEq

namespace FailoverPolicy

def isValid (policy : FailoverPolicy) : Bool :=
  if policy.healthCheckTimeoutMs ≥ policy.healthCheckIntervalMs then false
  else if policy.failureThreshold < 1 then false
  else if policy.maxRestartCount = 0 then false
  else if policy.enableStateRecovery && policy.checkpointIntervalSec = 0 then false
  else true

def window (policy : FailoverPolicy) : ℤ := policy.restartWindowSec.toNat * 1000000000

lemma window_nonneg (policy : FailoverPolicy) : 0 ≤ policy.window := by
  rw [window]
  positivity

lemma maxRestartCount_pos {policy : FailoverPolicy} (h : policy.isValid = true) :
    0 < policy.maxRestartCount.toNat := by
  rw [isValid] at h
  split_ifs at h with _ _ hmax
  have hne : policy.maxRestartCount.toNat ≠ 0 := fun h0 => hmax (UInt32.toNat_inj.mp h0)
  omega

end FailoverPolicy

structure RestartInfo where
  count : UInt32 := 0
  windowStart : ℤ := 0
deriving DecidableEq

structure FailoverManager where
  policy : FailoverPolicy
  restartTracking : AList (fun _ : String => RestartInfo) := ∅
  running : Bool := false

inductive FailureHandling
  | ignored
  | refused
  | triggered (success : Bool)
deriving DecidableEq

namespace FailoverManager

def start (m : FailoverManager) : Bool × FailoverManager :=
  if m.running then (false, m) else (true, { m with running := true })

def stop (m : FailoverManager) : FailoverManager :=
  if !m.running then m else { m with running := false }

def canRestart (m : FailoverManager) (processName : String) (now : ℤ) : Bool :=
  match m.restartTracking.lookup processName with
  | none => true
  | some info =>
    if now - info.windowStart > m.policy.window then true
    else decide (info.count < m.policy.maxRestartCount)

def getRestartCount (m : FailoverManager) (processName : String) (now : ℤ) : UInt32 :=
  match m.restartTracking.lookup processName with
  | none => 0
  | some info => if now - info.windowStart > m.policy.window then 0 else info.count

def triggerRestart (m : FailoverManager) (processName : String) (now : ℤ) :
    Bool × FailoverManager :=
  if processName ≠ m.policy.processName then (false, m)
  else
    let info := (m.restartTracking.lookup processName).getD {}
    let info := if now - info.windowStart > m.policy.window then ⟨0, now⟩ else info
    (true, { m with
      restartTracking :=
        m.restartTracking.insert processName { info with count := info.count + 1 } })

def handleProcessFailure (m : FailoverManager) (processName : String) (checked counted : ℤ) :
    FailureHandling × FailoverManager :=
  if !m.running then (.ignored, m)
  else if processName ≠ m.policy.processName then (.ignored, m)
  else if !m.canRestart processName checked then (.refused, m)
  else
    let (success, m) := m.triggerRestart processName counted
    (.triggered success, m)

def info (m : FailoverManager) : RestartInfo :=
  (m.restartTracking.lookup m.policy.processName).getD {}

variable {m : FailoverManager} {processName : String} {now checked counted : ℤ}

lemma canRestart_iff (h : m.policy.isValid = true) :
    m.canRestart processName now = true ↔
      m.getRestartCount processName now < m.policy.maxRestartCount := by
  have hpos : 0 < m.policy.maxRestartCount :=
    UInt32.lt_iff_toNat_lt.mpr (FailoverPolicy.maxRestartCount_pos h)
  rw [canRestart, getRestartCount]
  split
  · simpa using hpos
  · split
    · simpa using hpos
    · rw [decide_eq_true_eq]

lemma getRestartCount_processName :
    m.getRestartCount m.policy.processName now =
      if now - m.info.windowStart > m.policy.window then 0 else m.info.count := by
  rw [getRestartCount, info]
  cases m.restartTracking.lookup m.policy.processName with
  | none => simp
  | some info => rfl

lemma info_triggerRestart (m : FailoverManager) (now : ℤ) :
    (m.triggerRestart m.policy.processName now).2.info =
      if now - m.info.windowStart > m.policy.window then ⟨1, now⟩
      else ⟨m.info.count + 1, m.info.windowStart⟩ := by
  rw [triggerRestart, if_neg (by simp)]
  simp only [info, AList.lookup_insert, Option.getD_some]
  split <;> simp [*]

lemma policy_triggerRestart : (m.triggerRestart processName now).2.policy = m.policy := by
  rw [triggerRestart]
  split <;> rfl

lemma handleProcessFailure_cases (m : FailoverManager) (processName : String)
    (checked counted : ℤ) :
    m.handleProcessFailure processName checked counted = (.ignored, m) ∨
    m.handleProcessFailure processName checked counted = (.refused, m) ∨
    m.canRestart m.policy.processName checked = true ∧
      m.handleProcessFailure processName checked counted =
        (.triggered true, (m.triggerRestart m.policy.processName counted).2) := by
  rw [handleProcessFailure]
  by_cases hrng : m.running = true
  · by_cases hname : processName = m.policy.processName
    · subst hname
      by_cases halw : m.canRestart m.policy.processName checked = true
      · exact .inr (.inr ⟨halw, by simp [hrng, halw, triggerRestart]⟩)
      · exact .inr (.inl (by simp [hrng, halw]))
    · exact .inl (by simp [hrng, hname])
  · exact .inl (by simp [hrng])

end FailoverManager

structure Restarts where
  manager : FailoverManager
  lastReading : ℤ
  restarts : List ℤ := []

namespace Restarts

inductive Op
  | start
  | stop
  | handleProcessFailure (processName : String) (checked counted : ℤ)
deriving DecidableEq

def next (s : Restarts) : Op → Option Restarts
  | .start => some { s with manager := s.manager.start.2 }
  | .stop => some { s with manager := s.manager.stop }
  | .handleProcessFailure processName checked counted =>
    match s.manager.handleProcessFailure processName checked counted with
    | (.ignored, manager) => some { s with manager }
    | (.refused, manager) => some { s with manager, lastReading := checked }
    | (.triggered _, manager) => some ⟨manager, counted, s.restarts ++ [counted]⟩

def NonDecreasing (s : Restarts) : Op → Prop
  | .handleProcessFailure _ checked counted => s.lastReading ≤ checked ∧ checked ≤ counted
  | _ => True

instance (s : Restarts) : ∀ op, Decidable (s.NonDecreasing op)
  | .handleProcessFailure _ checked counted =>
    inferInstanceAs (Decidable (s.lastReading ≤ checked ∧ checked ≤ counted))
  | .start | .stop => inferInstanceAs (Decidable True)

/-- The clock is further from its epoch than the window is long. -/
def PastEpoch (s : Restarts) : Op → Prop
  | .handleProcessFailure _ checked _ => s.manager.policy.window < checked
  | _ => True

/-- In every run whose steps meet `G`, at most `n` calls reach `triggerRestart` in any interval as
long as the window. -/
def Bounded (policy : FailoverPolicy) (n : ℕ) (G : Restarts → Op → Prop) : Prop :=
  ∀ began ops s, Run next G ⟨{ policy }, began, []⟩ ops s →
    ∀ a, within a policy.window s.restarts ≤ n

/-- The restarts of the current window, of the one before and of older ones; at most `b` of the one
before are in reach. -/
structure Counted (policy : FailoverPolicy) (b : ℕ) (s : Restarts) : Prop where
  policy_eq : s.manager.policy = policy
  windowStart_eq : s.manager.info.count = 0 → s.manager.info.windowStart = 0
  tumbling : ∃ old previous current, s.restarts = old ++ previous ++ current ∧
    current.length = s.manager.info.count.toNat ∧
    Tumbling policy.window policy.maxRestartCount.toNat b s.manager.info.windowStart s.lastReading
      old previous current

variable {policy : FailoverPolicy} {b : ℕ} {s s' : Restarts} {op : Op} {checked counted : ℤ}

lemma counted_start (policy : FailoverPolicy) (b : ℕ) (began : ℤ) :
    Counted policy b ⟨{ policy }, began, []⟩ :=
  ⟨rfl, fun _ => rfl, [], [], [], rfl, rfl, .empty 0 began⟩

lemma Counted.of_tracking_eq {manager : FailoverManager} (h : Counted policy b s)
    (hpol : manager.policy = s.manager.policy)
    (htrac : manager.restartTracking = s.manager.restartTracking) :
    Counted policy b { s with manager } := by
  have hinfo : manager.info = s.manager.info := by
    rw [FailoverManager.info, FailoverManager.info, hpol, htrac]
  refine ⟨hpol.trans h.policy_eq, ?_, ?_⟩
  · rw [hinfo]
    exact h.windowStart_eq
  · rw [hinfo]
    exact h.tumbling

lemma Counted.later {now : ℤ} (h : Counted policy b s) (hnow : s.lastReading ≤ now) :
    Counted policy b { s with lastReading := now } := by
  obtain ⟨old, previous, current, hres, hcnt, ht⟩ := h.tumbling
  exact ⟨h.policy_eq, h.windowStart_eq, old, previous, current, hres, hcnt, ht.later hnow⟩

lemma Counted.of_info {manager : FailoverManager} {count : UInt32} {windowStart now : ℤ}
    {restarts old previous current : List ℤ} (hpol : manager.policy = policy)
    (hinfo : manager.info = ⟨count, windowStart⟩) (hne : count ≠ 0)
    (hcnt : current.length = count.toNat)
    (ht : Tumbling policy.window policy.maxRestartCount.toNat b windowStart now
      old previous current)
    (hres : restarts = old ++ previous ++ current) :
    Counted policy b ⟨manager, now, restarts⟩ := by
  refine ⟨hpol, ?_, old, previous, current, hres, ?_, ?_⟩
  · rw [hinfo]
    exact fun h0 => absurd h0 hne
  · rwa [hinfo]
  · rwa [hinfo]

lemma Counted.triggerRestart (h : Counted policy b s) (hvalid : policy.isValid = true)
    (hb : b = policy.maxRestartCount.toNat ∨
      b + 1 = policy.maxRestartCount.toNat ∧ policy.window < counted)
    (halw : s.manager.canRestart s.manager.policy.processName checked = true)
    (hlast : s.lastReading ≤ checked) (hle : checked ≤ counted) :
    Counted policy b ⟨(s.manager.triggerRestart s.manager.policy.processName counted).2, counted,
      s.restarts ++ [counted]⟩ := by
  obtain ⟨old, previous, current, hres, hcnt, ht⟩ := h.tumbling
  have hpol := h.policy_eq
  have hinfo := FailoverManager.info_triggerRestart s.manager counted
  rw [FailoverManager.canRestart_iff (hpol ▸ hvalid),
    FailoverManager.getRestartCount_processName, hpol] at halw
  rw [hpol] at hinfo
  by_cases hexpd : counted - s.manager.info.windowStart > policy.window
  · -- the restart begins a window
    rw [if_pos hexpd] at hinfo
    have ht' := ht.restart (t := counted) policy.window_nonneg
      (FailoverPolicy.maxRestartCount_pos hvalid) (by omega) (by omega)
    exact .of_info (FailoverManager.policy_triggerRestart.trans hpol) (hpol ▸ hinfo)
      (by decide) rfl ht' (by rw [hres])
  · -- the window had not ended at the check either, so the count was below the limit
    rw [if_neg hexpd] at hinfo
    rw [if_neg (by omega)] at halw
    have hroom := UInt32.lt_iff_toNat_lt.mp halw
    have hsucc := toNat_add_one_of_lt halw
    have hanc : b = policy.maxRestartCount.toNat ∨ current ≠ [] := by
      refine hb.imp_right fun hpast hemp => ?_
      have h0 : s.manager.info.count = 0 := by
        apply UInt32.toNat_inj.mp
        rw [← hcnt, hemp]
        rfl
      rw [h.windowStart_eq h0] at hexpd
      omega
    have ht' := ht.extend (t := counted) (hlast.trans hle) (by omega) (by omega) hanc
    refine .of_info (FailoverManager.policy_triggerRestart.trans hpol) (hpol ▸ hinfo)
      ?_ ?_ ht' (by rw [hres, List.append_assoc])
    · intro h0
      rw [h0] at hsucc
      exact absurd hsucc (by simp)
    · rw [List.length_append, hcnt, hsucc]
      rfl

lemma counted_next (h : Counted policy b s) (hvalid : policy.isValid = true)
    (hop : s.NonDecreasing op)
    (hb : b = policy.maxRestartCount.toNat ∨
      b + 1 = policy.maxRestartCount.toNat ∧ s.PastEpoch op)
    (hn : s.next op = some s') : Counted policy b s' := by
  cases op with
  | start =>
    cases hn
    apply h.of_tracking_eq <;> rw [FailoverManager.start] <;> split <;> rfl
  | stop =>
    cases hn
    apply h.of_tracking_eq <;> rw [FailoverManager.stop] <;> split <;> rfl
  | handleProcessFailure processName checked counted =>
    obtain ⟨hlast, hle⟩ := hop
    rcases s.manager.handleProcessFailure_cases processName checked counted with
      heq | heq | ⟨halw, heq⟩
    · rw [next, heq] at hn
      cases hn
      exact h
    · rw [next, heq] at hn
      cases hn
      exact h.later hlast
    · rw [next, heq] at hn
      cases hn
      refine h.triggerRestart hvalid (hb.imp_right fun hpast => ⟨hpast.1, ?_⟩) halw hlast hle
      have hpch : s.manager.policy.window < checked := hpast.2
      rw [h.policy_eq] at hpch
      exact hpch.trans_le hle

lemma bounded_of_counted {G : Restarts → Op → Prop}
    (hstep : ∀ s op s', Counted policy b s → G s op → s.next op = some s' → Counted policy b s') :
    Bounded policy (policy.maxRestartCount.toNat + b) G := by
  intro began ops s hrun a
  have h := hrun.invariant (Counted policy b) (counted_start policy b began) hstep
  obtain ⟨old, previous, current, hres, -, ht⟩ := h.tumbling
  rw [hres]
  exact ht.bounded a

theorem bounded_restarts (policy : FailoverPolicy) (hvalid : policy.isValid = true) :
    Bounded policy (2 * policy.maxRestartCount.toNat) NonDecreasing ∧
      Bounded policy (2 * policy.maxRestartCount.toNat - 1)
        (fun s op => s.NonDecreasing op ∧ s.PastEpoch op) := by
  have hpos := FailoverPolicy.maxRestartCount_pos hvalid
  constructor
  · rw [two_mul]
    exact bounded_of_counted fun s op s' h hop hn => counted_next h hvalid hop (.inl rfl) hn
  · have hsum : 2 * policy.maxRestartCount.toNat - 1 =
        policy.maxRestartCount.toNat + (policy.maxRestartCount.toNat - 1) := by omega
    rw [hsum]
    exact bounded_of_counted fun s op s' h hop hn =>
      counted_next h hvalid hop.1 (.inr ⟨by omega, hop.2⟩) hn

theorem bounded_restarts_default :
    Bounded {} 10 NonDecreasing ∧
      Bounded {} 9 (fun s op => s.NonDecreasing op ∧ s.PastEpoch op) :=
  bounded_restarts {} (by decide)

/-- Three of four restarts, at the end of one window and in the next, lie in an interval as long as
the window. -/
theorem not_bounded_maxRestartCount :
    ¬ ∀ policy : FailoverPolicy, policy.isValid = true →
      Bounded policy policy.maxRestartCount.toNat NonDecreasing := by
  intro hboun
  let policy : FailoverPolicy := { processName := "rt_process", maxRestartCount := 2 }
  let failure (now : ℤ) : Op := .handleProcessFailure "rt_process" now now
  have hrun : (exec next (fun s op => decide (NonDecreasing s op)) ⟨{ policy }, 0, []⟩
      [.start, failure 100000000000, failure 160000000000, failure 160000000001,
        failure 160000000002]).map (·.restarts) =
      some [100000000000, 160000000000, 160000000001, 160000000002] := by decide +kernel
  obtain ⟨s, hs, hres⟩ := Option.map_eq_some_iff.mp hrun
  have hle := hboun policy (by decide) 0 _ s (Run.of_exec (fun _ _ => of_decide_eq_true) hs)
    160000000000
  rw [hres] at hle
  exact absurd hle (by decide)

end Restarts
end Mxrc.Ha
