import Mxrc.Lib.Runs

/-!
# Subscriptions of the IPC bridge

`subscribe` registers its callback when the server has answered; `unsubscribe`
removes callbacks at once and then tells the server which keys have none left.
`requests` are on their way on the current connection; the server has handled
the first `handled` of them, and forgets the subscriptions of a connection that
closes. Lost requests stay outstanding until their timers fire.
-/

namespace Mxrc.Webapi
open Mxrc.Lib List

inductive BridgeRequest (C : Type)
  | subscribe (keys : List String) (callback : C)
  | unsubscribe (keys : List String)

structure IPCBridge (C : Type) where
  subscriptions : String → Finset C := fun _ => ∅
  connected : Bool := true
  server : Finset String := ∅
  requests : List (BridgeRequest C) := []
  handled : ℕ := 0
  lost : ℕ := 0

inductive BridgeStep (C : Type)
  | subscribe (keys : List String) (callback : C)
  | unsubscribe (keys : List String) (callback : Option C)
  | serve
  | respond
  | close
  | reconnect
  | expire

variable {C : Type}

def serveRequest (server : Finset String) : BridgeRequest C → Finset String
  | .subscribe keys _ => server ∪ keys.toFinset
  | .unsubscribe keys => server \ keys.toFinset

namespace IPCBridge

def send (s : IPCBridge C) (request : BridgeRequest C) : IPCBridge C :=
  if s.connected then { s with requests := s.requests ++ [request] } else s

variable [DecidableEq C]

def remove (s : IPCBridge C) (keys : List String) (callback : Option C) : IPCBridge C :=
  { s with subscriptions := fun key =>
      if key ∈ keys then
        match callback with
        | some callback => (s.subscriptions key).erase callback
        | none => ∅
      else s.subscriptions key }

def unsubscribe (s : IPCBridge C) (keys : List String) (callback : Option C) : IPCBridge C :=
  let s := s.remove keys callback
  let keysToUnsubscribe := keys.filter fun key => s.subscriptions key = ∅
  if keysToUnsubscribe = [] then s else s.send (.unsubscribe keysToUnsubscribe)

def answered (s : IPCBridge C) : BridgeRequest C → IPCBridge C
  | .subscribe keys callback => { s with subscriptions := fun key =>
      if key ∈ keys then {callback} ∪ s.subscriptions key else s.subscriptions key }
  | .unsubscribe _ => s

def next (s : IPCBridge C) : BridgeStep C → Option (IPCBridge C)
  | .subscribe keys callback => some (s.send (.subscribe keys callback))
  | .unsubscribe keys callback => some (s.unsubscribe keys callback)
  | .serve =>
    match s.requests.drop s.handled with
    | [] => none
    | request :: _ =>
      some { s with server := serveRequest s.server request, handled := s.handled + 1 }
  | .respond =>
    match s.requests, s.handled with
    | request :: requests, handled + 1 => some ({ s with requests, handled }.answered request)
    | _, _ => none
  | .close =>
    if s.connected then
      some { s with
        connected := false, server := ∅, requests := [], handled := 0
        lost := s.lost + s.requests.length }
    else none
  | .reconnect => if s.connected then none else some { s with connected := true }
  | .expire => if 0 < s.lost then some { s with lost := s.lost - 1 } else none

def handleNotification (s : IPCBridge C) (key : String) : Multiset C := (s.subscriptions key).val

def AgreesWhen (G : IPCBridge C → BridgeStep C → Prop) : Prop :=
  ∀ ls s, Run next G {} ls s →
    (s.connected = true → s.requests = [] → s.lost = 0 →
      ∀ key, key ∈ s.server ↔ s.subscriptions key ≠ ∅) ∧
    ∀ key callback, callback ∈ s.subscriptions key →
      (s.handleNotification key).count callback = 1

def Subscribing (s : IPCBridge C) (key : String) : Prop :=
  ∃ keys callback, .subscribe keys callback ∈ s.requests ∧ key ∈ keys

/-- Nothing is subscribed or outstanding when a connection is lost, and no key is unsubscribed
while a request subscribes to it. -/
def Settled (s : IPCBridge C) : BridgeStep C → Prop
  | .close => s.requests = [] ∧ ∀ key, s.subscriptions key = ∅
  | .unsubscribe keys _ => ∀ key ∈ keys, ¬s.Subscribing key
  | _ => True

def promised (s : IPCBridge C) : Finset String :=
  (s.requests.drop s.handled).foldl serveRequest s.server

structure InStep (s : IPCBridge C) : Prop where
  handled_le : s.handled ≤ s.requests.length
  mem_iff : ∀ key, key ∈ s.promised ↔ s.subscriptions key ≠ ∅ ∨ s.Subscribing key
  closed : s.connected = false →
    s.requests = [] ∧ s.server = ∅ ∧ ∀ key, s.subscriptions key = ∅

variable {s s' : IPCBridge C} {l : BridgeStep C}

section
omit [DecidableEq C]

lemma InStep.of_connected (hcon : s.connected = true) (hle : s.handled ≤ s.requests.length)
    (hmem : ∀ key, key ∈ s.promised ↔ s.subscriptions key ≠ ∅ ∨ s.Subscribing key) : InStep s :=
  ⟨hle, hmem, fun hclo => absurd (hclo.symm.trans hcon) Bool.false_ne_true⟩

lemma InStep.connected_of_ne_nil (h : InStep s) (hne : s.requests ≠ []) : s.connected = true := by
  by_contra hcon
  rw [Bool.not_eq_true] at hcon
  exact hne (h.closed hcon).1

lemma promised_send (h : s.handled ≤ s.requests.length) (hcon : s.connected = true)
    (request : BridgeRequest C) : (s.send request).promised = serveRequest s.promised request := by
  rw [send, if_pos hcon, promised, drop_append_of_le_length h, foldl_append]
  rfl

lemma InStep.subscribe (h : InStep s) (keys : List String) (callback : C) :
    InStep (s.send (.subscribe keys callback)) := by
  by_cases hcon : s.connected = true
  · have hprom := promised_send h.handled_le hcon (.subscribe keys callback)
    rw [send, if_pos hcon] at hprom ⊢
    refine .of_connected hcon (h.handled_le.trans (by simp)) fun key => ?_
    rw [hprom, serveRequest, Finset.mem_union, h.mem_iff, mem_toFinset, or_assoc]
    simp only [Subscribing, mem_append, mem_singleton, or_and_right, exists_or,
      BridgeRequest.subscribe.injEq]
    simp
  · rwa [send, if_neg hcon]

end

lemma InStep.unsubscribe (h : InStep s) {keys : List String} (callback : Option C)
    (hkeys : ∀ key ∈ keys, ¬s.Subscribing key) : InStep (s.unsubscribe keys callback) := by
  set r := s.remove keys callback with hr
  have hsub : ∀ key, r.subscriptions key ⊆ s.subscriptions key := by
    intro key
    simp only [hr, remove]
    split_ifs
    · cases callback
      · exact Finset.empty_subset _
      · exact Finset.erase_subset _ _
    · exact subset_rfl
  have hoth : ∀ key ∉ keys, r.subscriptions key = s.subscriptions key := fun key hkey => if_neg hkey
  -- the keys that are left without a callback are those that the server is told about
  have hmem : ∀ key, key ∈ s.promised ∧ key ∉ keys.filter (r.subscriptions · = ∅) ↔
      r.subscriptions key ≠ ∅ ∨ s.Subscribing key := by
    intro key
    rw [h.mem_iff, mem_filter, decide_eq_true_eq, not_and]
    by_cases hkey : key ∈ keys
    · have hne : r.subscriptions key ≠ ∅ → s.subscriptions key ≠ ∅ := fun hr hs =>
        hr (Finset.subset_empty.mp (hs ▸ hsub key))
      simp only [hkeys key hkey, or_false, hkey, forall_const]
      exact ⟨And.right, fun hr => ⟨hne hr, hr⟩⟩
    · simp [hkey, hoth key hkey]
  have hclo : r.connected = false →
      r.requests = [] ∧ r.server = ∅ ∧ ∀ key, r.subscriptions key = ∅ := fun hcon =>
    ⟨(h.closed hcon).1, (h.closed hcon).2.1, fun key =>
      Finset.subset_empty.mp ((h.closed hcon).2.2 key ▸ hsub key)⟩
  rw [IPCBridge.unsubscribe]
  split_ifs with hnil
  · refine ⟨h.handled_le, fun key => ?_, hclo⟩
    have hkey := hmem key
    rwa [hnil, and_iff_left not_mem_nil] at hkey
  · by_cases hcon : r.connected = true
    · have hprom := promised_send (s := r) h.handled_le hcon
        (.unsubscribe (keys.filter (r.subscriptions · = ∅)))
      rw [send, if_pos hcon] at hprom ⊢
      refine .of_connected hcon (h.handled_le.trans (by simp [remove])) fun key => ?_
      rw [hprom, serveRequest, Finset.mem_sdiff, mem_toFinset]
      refine (hmem key).trans ?_
      simp [Subscribing, hr, remove]
    · rw [send, if_neg hcon]
      rw [Bool.not_eq_true] at hcon
      refine ⟨h.handled_le, fun key => ?_, hclo⟩
      refine (h.mem_iff key).trans (or_congr_left ?_)
      rw [(h.closed hcon).2.2 key, (hclo hcon).2.2 key]

lemma InStep.step (h : InStep s) (hG : s.Settled l) (hn : s.next l = some s') : InStep s' := by
  cases l with
  | subscribe keys callback =>
    cases hn
    exact h.subscribe keys callback
  | unsubscribe keys callback =>
    cases hn
    exact h.unsubscribe callback hG
  | serve =>
    rw [next] at hn
    split at hn
    · cases hn
    · rename_i request rest hdrop
      cases hn
      have hlt : s.handled < s.requests.length := by
        by_contra hge
        rw [drop_eq_nil_of_le (not_lt.mp hge)] at hdrop
        cases hdrop
      have hcon := h.connected_of_ne_nil (ne_nil_of_length_pos (Nat.zero_lt_of_lt hlt))
      refine .of_connected hcon hlt fun key => ?_
      have hrest : s.requests.drop (s.handled + 1) = rest := by
        rw [← tail_drop, hdrop, tail_cons]
      have hmem := h.mem_iff key
      rw [promised, hdrop] at hmem
      rw [promised, hrest]
      exact hmem
  | respond =>
    rw [next] at hn
    split at hn
    · rename_i request requests handled hreq hhan
      cases hn
      have hle := h.handled_le
      rw [hreq, hhan, length_cons] at hle
      have hmem := h.mem_iff
      simp only [promised, Subscribing, hreq, hhan, drop_succ_cons] at hmem
      have hcon := h.connected_of_ne_nil (by simp [hreq])
      cases request with
      | unsubscribe keys =>
        refine .of_connected hcon (Nat.le_of_succ_le_succ hle) fun key => (hmem key).trans ?_
        simp [answered, Subscribing]
      | subscribe keys callback =>
        refine .of_connected hcon (Nat.le_of_succ_le_succ hle) fun key => (hmem key).trans ?_
        by_cases hkey : key ∈ keys
        · refine iff_of_true (.inr ⟨keys, callback, mem_cons_self, hkey⟩) (.inl ?_)
          simp [answered, hkey]
        · simp only [answered, Subscribing, mem_cons, BridgeRequest.subscribe.injEq, if_neg hkey]
          refine or_congr_right (exists_congr fun ks => exists_congr fun c => ?_)
          refine and_congr_left fun hks => or_iff_right ?_
          rintro ⟨rfl, rfl⟩
          exact hkey hks
    · cases hn
  | close =>
    simp only [next, Option.ite_none_right_eq_some, Option.some.injEq] at hn
    obtain ⟨-, rfl⟩ := hn
    exact ⟨le_rfl, by simp [promised, Subscribing, hG.2], fun _ => ⟨rfl, rfl, hG.2⟩⟩
  | reconnect =>
    simp only [next, Option.ite_none_left_eq_some, Option.some.injEq] at hn
    obtain ⟨-, rfl⟩ := hn
    exact ⟨h.handled_le, h.mem_iff, by simp⟩
  | expire =>
    simp only [next, Option.ite_none_right_eq_some, Option.some.injEq] at hn
    obtain ⟨-, rfl⟩ := hn
    exact ⟨h.handled_le, h.mem_iff, h.closed⟩

end IPCBridge
end Mxrc.Webapi
