import Mxrc.Control.Conservation

/-!
# Cancelling a behavior by its id

`cancelBehavior` does not look into the queue, so a pending behavior is reported
as not found and a later tick starts it all the same. Everything a tick starts
comes from the queue, and an id that is not pending stays away until it is
requested.
-/

namespace Mxrc.Control
open Mxrc.Lib

namespace BehaviorArbiter
variable {τ ω : Type} (api : TaskApi τ ω)

def Pending (s : BehaviorArbiter τ ω) (behaviorId : String) : Prop :=
  ∃ r ∈ s.pendingBehaviors.toList, r.behaviorId = behaviorId

def Suspended (s : BehaviorArbiter τ ω) (behaviorId : String) : Prop :=
  (s.suspendedBehaviors.lookup behaviorId).isSome = true

def Current (s : BehaviorArbiter τ ω) (behaviorId : String) : Prop :=
  ∃ b, s.currentBehavior = some b ∧ b.behaviorId = behaviorId

def Protected (s : BehaviorArbiter τ ω) (behaviorId : String) : Prop :=
  ∃ b, s.currentBehavior = some b ∧ b.behaviorId = behaviorId ∧ b.cancellable = false

def Known (s : BehaviorArbiter τ ω) (behaviorId : String) : Prop :=
  Pending s behaviorId ∨ Suspended s behaviorId ∨ Current s behaviorId

def Label.requests (behaviorId : String) : Label τ ω → Prop
  | .requestBehavior request => request.behaviorId = behaviorId
  | _ => False

/-- No behavior with the id is started in any run from `s` that does not request it. -/
def NeverStarts (behaviorId : String) (s : BehaviorArbiter τ ω) : Prop :=
  ∀ ls t l t', Run (next api) (fun _ l => ¬ l.requests behaviorId) s ls t →
    ¬ l.requests behaviorId → next api t l = some t' → ∀ b, Starts t t' b →
      b.behaviorId ≠ behaviorId

/-- A known id is cancelled for good unless it is protected, and only an unknown or a protected one
is refused. -/
def CancelEffective (C : BehaviorArbiter τ ω → String → Prop) : Prop :=
  ∀ w₀ ls s behaviorId, Run (next api) (fun _ _ => True) (make w₀) ls s → C s behaviorId →
    (Known s behaviorId → ¬ Protected s behaviorId →
      ∃ s', (cancelBehavior api behaviorId).run s = .ok true s' ∧ NeverStarts api behaviorId s') ∧
    ∀ s', (cancelBehavior api behaviorId).run s = .ok false s' →
      ¬ Known s behaviorId ∨ Protected s behaviorId

def Withdrawable (s : BehaviorArbiter τ ω) (behaviorId : String) : Prop :=
  ¬ Pending s behaviorId ∧ ∀ b, s.currentBehavior = some b → b.behaviorId = behaviorId →
    (api.stop b.task s.world).1 = none

section
variable {api} {s s' : BehaviorArbiter τ ω} {l : Label τ ω} {behaviorId : String} {b r : Accepted τ}

lemma mem_pending_next (hn : next api s l = some s') (hr : r ∈ s'.pendingBehaviors.toList) :
    r ∈ s.pendingBehaviors.toList ∨ l.requests r.behaviorId := by
  rcases pending_or_requested hn hr with hr | ⟨request, rfl, rfl⟩
  · exact .inl hr
  · exact .inr rfl

lemma mem_pending_of_starts (hn : next api s l = some s') (hb : Starts s s' b) :
    b ∈ s.pendingBehaviors.toList := by
  obtain ⟨q, hpop, -⟩ := pop_of_starts hn hb
  rw [BehaviorPriorityQueue.toList_pop hpop]
  exact List.mem_cons_self

lemma neverStarts_of_not_pending (h : ¬ Pending s behaviorId) : NeverStarts api behaviorId s := by
  intro ls t l t' hrun _ hn b hb hid
  have hnot : ¬ Pending t behaviorId :=
    hrun.invariant (fun t => ¬ Pending t behaviorId) h fun t l t' hnot hl hn hpend => by
      obtain ⟨r, hr, rfl⟩ := hpend
      rcases mem_pending_next hn hr with hr | hreq
      · exact hnot ⟨r, hr, rfl⟩
      · exact hl hreq
  exact hnot ⟨b, mem_pending_of_starts hn hb, hid⟩

lemma not_known (hpend : ¬ Pending s behaviorId)
    (hcur : ∀ b, s.currentBehavior = some b → b.behaviorId ≠ behaviorId)
    (hsus : s.suspendedBehaviors.lookup behaviorId = none) : ¬ Known s behaviorId := by
  rintro (h | h | ⟨b, hb, hid⟩)
  · exact hpend h
  · rw [Suspended, hsus] at h
    cases h
  · exact hcur b hb hid

lemma cancelBehavior_cases (h : Withdrawable api s behaviorId) :
    (∃ s', (cancelBehavior api behaviorId).run s = .ok true s' ∧ ¬ Pending s' behaviorId) ∨
      (cancelBehavior api behaviorId).run s = .ok false s ∧
        (Protected s behaviorId ∨ ¬ Known s behaviorId) := by
  by_cases hoth : ∀ b, s.currentBehavior = some b → b.behaviorId ≠ behaviorId
  · rw [cancelBehavior_run_other hoth]
    cases hlk : s.suspendedBehaviors.lookup behaviorId with
    | none =>
      exact .inr ⟨cancelSuspended_run_none hlk, .inr (not_known h.1 hoth hlk)⟩
    | some b => exact .inl ⟨_, cancelSuspended_run_some hlk, h.1⟩
  · push Not at hoth
    obtain ⟨b, hc, hid⟩ := hoth
    cases hcan : b.cancellable with
    | false =>
      exact .inr ⟨cancelBehavior_run_refused hc hid hcan, .inl ⟨b, hc, hid, hcan⟩⟩
    | true =>
      exact .inl ⟨_, cancelBehavior_run_ok hc hid hcan (h.2 b hc hid), h.1⟩

end

theorem cancelEffective_of_withdrawable : CancelEffective api (Withdrawable api) := by
  intro w₀ ls s behaviorId _ hw
  rcases cancelBehavior_cases hw with ⟨s', hrun, hpend⟩ | ⟨hrun, href⟩
  · refine ⟨fun _ _ => ⟨s', hrun, neverStarts_of_not_pending hpend⟩, fun t ht => ?_⟩
    rw [hrun] at ht
    cases ht
  · refine ⟨fun hknw hprot => ?_, fun _ _ => href.symm⟩
    exact absurd href (not_or.mpr ⟨hprot, not_not.mpr hknw⟩)

/-- A pending request is not found. -/
theorem not_cancelEffective : ¬ CancelEffective endlessTasks (fun _ _ => True) := by
  intro hall
  have hexec : ∃ s, exec (next endlessTasks) (fun _ _ => true) (make ())
      [.requestBehavior (normalRequest "transport")] = some s ∧
      s.pendingBehaviors.toList = [⟨normalRequest "transport", 0⟩] ∧ s.currentBehavior = none ∧
      ∃ t, (cancelBehavior endlessTasks "transport").run s = .ok false t :=
    ⟨_, rfl, rfl, rfl, _, rfl⟩
  obtain ⟨s, hs, hpend, hcur, t, hcanc⟩ := hexec
  have hknw : Known s "transport" := .inl ⟨_, by rw [hpend]; exact List.mem_cons_self, rfl⟩
  have hprot : ¬ Protected s "transport" := by
    rintro ⟨b, hb, -⟩
    rw [hcur] at hb
    cases hb
  obtain ⟨s', hok, -⟩ := (hall () _ s "transport" (Run.of_exec (fun _ _ _ => trivial) hs)
    trivial).1 hknw hprot
  rw [hcanc] at hok
  cases hok

end BehaviorArbiter
end Mxrc.Control
