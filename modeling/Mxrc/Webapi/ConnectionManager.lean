import Mathlib

/-!
# The WebSocket connection manager

A connection id contains a counter, so connections are numbers. A `Set` is a
list in the order of insertion, and a loop over one deletes at most the element
it is at. What a socket does when a message is sent to it and which connections
are inactive, for the clock, are inputs.
-/

namespace Mxrc.Webapi
open List Option Function

structure ConnectionManager where
  connections : ℕ → Option (List String) := fun _ => none
  keySubscriptions : String → Option (List ℕ) := fun _ => none
  connectionIdCounter : ℕ := 0

inductive SocketState
  | opened
  | closed
  | throws
deriving DecidableEq

def setAdd {α : Type} [DecidableEq α] (x : α) (l : List α) : List α := if x ∈ l then l else l ++ [x]

namespace ConnectionManager

def addConnection (m : ConnectionManager) : ConnectionManager :=
  { m with
    connections := Function.update m.connections (m.connectionIdCounter + 1) (some [])
    connectionIdCounter := m.connectionIdCounter + 1 }

def subscribers (m : ConnectionManager) (key : String) : List ℕ :=
  (m.keySubscriptions key).getD []

def subscribe (m : ConnectionManager) (id : ℕ) (key : String) : ConnectionManager :=
  match m.connections id with
  | none => m
  | some keys => { m with
    connections := Function.update m.connections id (some (setAdd key keys))
    keySubscriptions :=
      Function.update m.keySubscriptions key (some (setAdd id (m.subscribers key))) }

def unsubscribe (m : ConnectionManager) (id : ℕ) (key : String) : ConnectionManager :=
  match m.connections id with
  | none => m
  | some keys => { m with
    connections := Function.update m.connections id (some (keys.erase key))
    keySubscriptions := Function.update m.keySubscriptions key
      ((m.keySubscriptions key).bind fun ids =>
        if ids.erase id = [] then none else some (ids.erase id)) }

def removeConnection (m : ConnectionManager) (id : ℕ) : ConnectionManager :=
  match m.connections id with
  | none => m
  | some keys =>
    let m := keys.foldl (fun m key => m.unsubscribe id key) m
    { m with connections := Function.update m.connections id none }

/-- The manager, `sentCount` and the connections to which the message was sent. -/
structure Fanout where
  manager : ConnectionManager
  sentCount : ℕ
  sent : List ℕ

def notifyOne (socket : ℕ → SocketState) (f : Fanout) (id : ℕ) : Fanout :=
  match f.manager.connections id with
  | none => f
  | some _ =>
    if socket id = .opened then
      { f with sentCount := f.sentCount + 1, sent := f.sent ++ [id] }
    else { f with manager := f.manager.removeConnection id }

def notifySubscribers (m : ConnectionManager) (socket : ℕ → SocketState) (key : String) : Fanout :=
  (m.subscribers key).foldl (notifyOne socket) ⟨m, 0, []⟩

def cleanupInactiveConnections (m : ConnectionManager) (inactive : ℕ → Bool) :
    ConnectionManager :=
  ((List.range m.connectionIdCounter).map (· + 1)).foldl
    (fun m id => if inactive id then m.removeConnection id else m) m

inductive Call
  | addConnection
  | subscribe (id : ℕ) (key : String)
  | unsubscribe (id : ℕ) (key : String)
  | removeConnection (id : ℕ)
  | cleanupInactiveConnections (inactive : ℕ → Bool)
  | notifySubscribers (socket : ℕ → SocketState) (key : String)

def call (m : ConnectionManager) : Call → ConnectionManager
  | .addConnection => m.addConnection
  | .subscribe id key => m.subscribe id key
  | .unsubscribe id key => m.unsubscribe id key
  | .removeConnection id => m.removeConnection id
  | .cleanupInactiveConnections inactive => m.cleanupInactiveConnections inactive
  | .notifySubscribers socket key => (m.notifySubscribers socket key).manager

def subscriptions (m : ConnectionManager) (id : ℕ) : List String := (m.connections id).getD []

structure Consistent (m : ConnectionManager) : Prop where
  mem_iff : ∀ key id, id ∈ m.subscribers key ↔ key ∈ m.subscriptions id
  occupied : ∀ key, m.keySubscriptions key ≠ some []
  nodup : ∀ key, (m.subscribers key).Nodup
  distinct : ∀ id, (m.subscriptions id).Nodup
  numbered : ∀ id keys, m.connections id = some keys → 1 ≤ id ∧ id ≤ m.connectionIdCounter

structure Edits (φ : Prop → Prop → Prop) {α : Type} (F : α → List α → List α) : Prop where
  mem_iff : ∀ {x y l}, l.Nodup → (y ∈ F x l ↔ φ (y = x) (y ∈ l))
  nodup : ∀ {x l}, l.Nodup → (F x l).Nodup

section
variable {α : Type} [DecidableEq α]

lemma mem_setAdd {x y : α} {l : List α} : y ∈ setAdd x l ↔ y ∈ l ∨ y = x := by
  rw [setAdd]
  split_ifs with hx
  · exact ⟨.inl, fun hy => hy.elim (fun h => h) fun h => h ▸ hx⟩
  · simp

lemma edits_setAdd : Edits (fun p q => q ∨ p) (setAdd : α → List α → List α) := by
  refine ⟨fun _ => mem_setAdd, fun {x l} hl => ?_⟩
  rw [setAdd]
  split_ifs with hx
  · exact hl
  · exact List.concat_eq_append ▸ hl.concat hx

lemma edits_erase : Edits (fun p q => ¬p ∧ q) fun (x : α) l => l.erase x :=
  ⟨fun hl => hl.mem_erase_iff, fun hl => hl.erase _⟩

lemma getD_update {β : Type} (f : α → Option (List β)) (a x : α) (v : Option (List β)) :
    (Function.update f a v x).getD [] = if x = a then v.getD [] else (f x).getD [] := by
  rw [update_apply]
  split_ifs <;> rfl

end

variable {m : ConnectionManager} {id : ℕ} {key : String} {keys : List String}

lemma exists_of_mem_subscriptions (h : key ∈ m.subscriptions id) :
    ∃ keys, m.connections id = some keys ∧ key ∈ keys := by
  rw [subscriptions] at h
  cases hid : m.connections id with
  | none => simp [hid] at h
  | some keys => exact ⟨keys, rfl, by simpa [hid] using h⟩

section
variable (h : Consistent m) (hid : m.connections id = some keys)
include h hid

lemma Consistent.numbered_update (c : Option (List String)) (i : ℕ) (ks : List String)
    (hi : Function.update m.connections id c i = some ks) :
    1 ≤ i ∧ i ≤ m.connectionIdCounter := by
  rw [update_apply] at hi
  split_ifs at hi with heq
  · exact heq ▸ h.numbered id keys hid
  · exact h.numbered i ks hi

lemma Consistent.edit {φ : Prop → Prop → Prop} {F : ℕ → List ℕ → List ℕ}
    {F' : String → List String → List String} {ids : Option (List ℕ)} (hF : Edits φ F)
    (hF' : Edits φ F') (hφ : ∀ p, φ False p ↔ p)
    (hids : ids.getD [] = F id (m.subscribers key)) (hocc : ids ≠ some []) :
    Consistent { m with
      connections := Function.update m.connections id (some (F' key keys))
      keySubscriptions := Function.update m.keySubscriptions key ids } := by
  have hkeys : m.subscriptions id = keys := by rw [subscriptions, hid, getD_some]
  have hdis : keys.Nodup := hkeys ▸ h.distinct id
  refine ⟨fun k i => ?_, fun k => ?_, fun k => ?_, fun i => ?_, h.numbered_update hid _⟩
  · rw [subscribers, subscriptions, getD_update, getD_update, hids, getD_some]
    split_ifs with hk hi hi
    · rw [hF.mem_iff (h.nodup key), hF'.mem_iff hdis, hi, hk, h.mem_iff, hkeys]
      simp
    · rw [hF.mem_iff (h.nodup key), hk, h.mem_iff, eq_false hi, hφ, subscriptions]
    · rw [hF'.mem_iff hdis, hi, ← hkeys, ← h.mem_iff, eq_false hk, hφ, subscribers]
    · exact h.mem_iff k i
  · simp only [update_apply]
    split_ifs
    · exact hocc
    · exact h.occupied k
  · rw [subscribers, getD_update, hids]
    split_ifs
    · exact hF.nodup (h.nodup key)
    · exact h.nodup k
  · rw [subscriptions, getD_update, getD_some]
    split_ifs
    · exact hF'.nodup hdis
    · exact h.distinct i

end

lemma Consistent.subscribe (h : Consistent m) : Consistent (m.subscribe id key) := by
  cases hid : m.connections id with
  | none => rwa [ConnectionManager.subscribe, hid]
  | some keys =>
    rw [ConnectionManager.subscribe, hid]
    refine h.edit hid edits_setAdd edits_setAdd (by simp) rfl fun hnil => ?_
    have hmem : id ∈ setAdd id (m.subscribers key) := mem_setAdd.mpr (.inr rfl)
    rw [Option.some.inj hnil] at hmem
    cases hmem

lemma Consistent.unsubscribe (h : Consistent m) : Consistent (m.unsubscribe id key) := by
  cases hid : m.connections id with
  | none => rwa [ConnectionManager.unsubscribe, hid]
  | some keys =>
    rw [ConnectionManager.unsubscribe, hid]
    refine h.edit hid edits_erase edits_erase (by simp) ?_ ?_ <;>
      cases hkey : m.keySubscriptions key <;> simp only [subscribers, hkey, Option.bind]
    · rfl
    · split_ifs with hnil
      · exact hnil.symm
      · rfl
    · simp
    · split_ifs with hnil
      · simp
      · simpa using hnil

lemma Consistent.congr (h : Consistent m) {f : ℕ → Option (List String)} {n : ℕ}
    (hf : ∀ i, (f i).getD [] = m.subscriptions i)
    (hnum : ∀ i keys, f i = some keys → 1 ≤ i ∧ i ≤ n) :
    Consistent { m with connections := f, connectionIdCounter := n } where
  mem_iff key id := by
    rw [subscriptions, hf]
    exact h.mem_iff key id
  occupied := h.occupied
  nodup := h.nodup
  distinct id := by
    rw [subscriptions, hf]
    exact h.distinct id
  numbered := hnum

lemma Consistent.connections_succ (h : Consistent m) :
    m.connections (m.connectionIdCounter + 1) = none := by
  cases hnew : m.connections (m.connectionIdCounter + 1) with
  | none => rfl
  | some keys => exact absurd (h.numbered _ keys hnew).2 (by omega)

lemma Consistent.addConnection (h : Consistent m) : Consistent m.addConnection := by
  refine h.congr (fun i => ?_) fun i keys hi => ?_
  · rw [getD_update]
    split_ifs with hi
    · rw [hi, subscriptions, h.connections_succ]
      rfl
    · rfl
  · rw [update_apply] at hi
    split_ifs at hi with heq
    · omega
    · exact ⟨(h.numbered i keys hi).1, (h.numbered i keys hi).2.trans (Nat.le_succ _)⟩

lemma Consistent.foldl_unsubscribe (h : Consistent m) (hid : m.connections id = some keys) :
    Consistent (keys.foldl (fun m key => m.unsubscribe id key) m) ∧
      (keys.foldl (fun m key => m.unsubscribe id key) m).connections =
        Function.update m.connections id (some []) := by
  induction keys generalizing m with
  | nil => exact ⟨h, by rw [← hid]; exact (update_eq_self id m.connections).symm⟩
  | cons key keys ih =>
    have hconn : (m.unsubscribe id key).connections =
        Function.update m.connections id (some keys) := by
      simp only [ConnectionManager.unsubscribe, hid, erase_cons_head]
    obtain ⟨hall, hconn'⟩ := ih h.unsubscribe (by rw [hconn, update_self])
    exact ⟨hall, by rw [foldl_cons, hconn', hconn, update_idem]⟩

lemma Consistent.removeConnection (h : Consistent m) (id : ℕ) :
    Consistent (m.removeConnection id) ∧
      (m.removeConnection id).connections = Function.update m.connections id none := by
  rw [ConnectionManager.removeConnection]
  split
  · rename_i hnone
    exact ⟨h, by rw [← hnone, update_eq_self]⟩
  · rename_i keys hid
    obtain ⟨hall, hconn⟩ := h.foldl_unsubscribe hid
    have hr := congrFun hconn id
    rw [update_self] at hr
    refine ⟨hall.congr (fun i => ?_) (hall.numbered_update hr none), ?_⟩
    · rw [getD_update]
      split_ifs with hi
      · rw [hi, subscriptions, hr, getD_none, getD_some]
      · rfl
    · simp only [hconn, update_idem]

lemma Consistent.foldl_notifyOne {f : Fanout} {ids : List ℕ} (h : Consistent f.manager)
    (socket : ℕ → SocketState) (hnd : ids.Nodup)
    (hlive : ∀ i ∈ ids, f.manager.connections i ≠ none) :
    Consistent (ids.foldl (notifyOne socket) f).manager ∧
      (ids.foldl (notifyOne socket) f).sent = f.sent ++ ids.filter (socket · = .opened) ∧
      (ids.foldl (notifyOne socket) f).sentCount =
        f.sentCount + (ids.filter (socket · = .opened)).length := by
  induction ids generalizing f with
  | nil => simp [h]
  | cons id ids ih =>
    obtain ⟨hnot, hnd⟩ := nodup_cons.mp hnd
    obtain ⟨keys, hid⟩ := ne_none_iff_exists'.mp (hlive id mem_cons_self)
    have hrest := fun i hi => hlive i (mem_cons_of_mem id hi)
    rw [foldl_cons, notifyOne, hid]
    split_ifs with hs
    · obtain ⟨hall, hsent, hcnt⟩ :=
        ih (f := ⟨f.manager, f.sentCount + 1, f.sent ++ [id]⟩) h hnd hrest
      refine ⟨hall, hsent.trans ?_, hcnt.trans ?_⟩
      · simp [hs]
      · simp only [filter_cons, hs, decide_true, if_true, length_cons]
        omega
    · obtain ⟨hrem, hconn⟩ := h.removeConnection id
      rw [filter_cons_of_neg (by simpa using hs)]
      refine ih hrem hnd fun i hi => ?_
      have hne : i ≠ id := fun heq => hnot (heq ▸ hi)
      rw [hconn, update_of_ne hne]
      exact hrest i hi

lemma Consistent.notifySubscribers (h : Consistent m) (socket : ℕ → SocketState) (key : String) :
    Consistent (m.notifySubscribers socket key).manager ∧
      (m.notifySubscribers socket key).sent = (m.subscribers key).filter (socket · = .opened) ∧
      (m.notifySubscribers socket key).sentCount =
        ((m.subscribers key).filter (socket · = .opened)).length := by
  have hlive : ∀ i ∈ m.subscribers key, m.connections i ≠ none := by
    intro i hi hnone
    obtain ⟨keys, hkeys, -⟩ := exists_of_mem_subscriptions ((h.mem_iff key i).mp hi)
    rw [hnone] at hkeys
    cases hkeys
  have hall := Consistent.foldl_notifyOne (f := ⟨m, 0, []⟩) h socket (h.nodup key) hlive
  rwa [nil_append, Nat.zero_add] at hall

lemma Consistent.call (h : Consistent m) (c : Call) : Consistent (m.call c) := by
  cases c with
  | addConnection => exact h.addConnection
  | subscribe id key => exact h.subscribe
  | unsubscribe id key => exact h.unsubscribe
  | removeConnection id => exact (h.removeConnection id).1
  | notifySubscribers socket key => exact (h.notifySubscribers socket key).1
  | cleanupInactiveConnections inactive =>
    refine List.foldlRecOn _ _ h fun m h id _ => ?_
    split_ifs
    · exact (h.removeConnection id).1
    · exact h

lemma consistent_default : Consistent {} :=
  ⟨by simp [subscribers, subscriptions], by simp, by simp [subscribers], by simp [subscriptions],
    by simp⟩

theorem notification_exact (calls : List Call) :
    let m := calls.foldl call {}
    (∀ key id, id ∈ m.subscribers key ↔ ∃ keys, m.connections id = some keys ∧ key ∈ keys) ∧
      (∀ key, m.keySubscriptions key ≠ some []) ∧
      ∀ socket key, let f := m.notifySubscribers socket key
        (∀ id ∈ m.subscribers key, socket id = .opened → f.sent.count id = 1) ∧
          (∀ id ∈ f.sent, id ∈ m.subscribers key ∧ socket id = .opened) ∧
          f.sentCount = f.sent.length := by
  intro m
  have h : Consistent m :=
    List.foldlRecOn calls call consistent_default fun m h c _ => h.call c
  refine ⟨fun key id => ?_, h.occupied, fun socket key => ?_⟩
  · rw [h.mem_iff]
    refine ⟨exists_of_mem_subscriptions, ?_⟩
    rintro ⟨keys, hid, hkey⟩
    rwa [subscriptions, hid]
  · obtain ⟨-, hsent, hcnt⟩ := h.notifySubscribers socket key
    refine ⟨fun id hsub hopen => ?_, fun id hid => ?_, by rw [hcnt, hsent]⟩
    · rw [hsent]
      exact count_eq_one_of_mem ((h.nodup key).filter _) (mem_filter.mpr ⟨hsub, by simp [hopen]⟩)
    · rw [hsent, mem_filter] at hid
      exact ⟨hid.1, by simpa using hid.2⟩

end ConnectionManager
end Mxrc.Webapi
