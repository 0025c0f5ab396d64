import Mxrc.Event.PriorityQueue
import Mxrc.Lib.Maps

/-!
# Coalescing of events

`coalesce` keeps one pending event for each type. Within the window a new event
replaces it; after the window it is emitted. Clock differences are unsigned, so
after a backward step the window counts as over. The order in which `flush` goes
through the hash map is an input.
-/

namespace Mxrc.Event
open Mxrc.Lib List Option

structure PendingEvent (π : Type) where
  event : PrioritizedEvent π
  timestampMs : UInt64
deriving DecidableEq

structure CoalescingPolicy (π : Type) where
  coalesceWindowMs : UInt64 := 100
  pendingEvents : AList (fun _ : String => PendingEvent π) := ∅

namespace CoalescingPolicy
variable {π : Type} (p : CoalescingPolicy π)

/-- The clock is a signed number of milliseconds, which `getCurrentTimeMs` converts. -/
def coalesce (event : PrioritizedEvent π) (clock : Int64) :
    Option (PrioritizedEvent π) × CoalescingPolicy π :=
  let now := clock.toUInt64
  match p.pendingEvents.lookup event.type with
  | some pending =>
    if now - pending.timestampMs ≥ p.coalesceWindowMs then
      (some pending.event,
        { p with pendingEvents := p.pendingEvents.insert event.type ⟨event, now⟩ })
    else
      (none, { p with
        pendingEvents := p.pendingEvents.insert event.type ⟨event, pending.timestampMs⟩ })
  | none => (none, { p with pendingEvents := p.pendingEvents.insert event.type ⟨event, now⟩ })

def pendingEvent (eventType : String) : Option (PrioritizedEvent π) :=
  (p.pendingEvents.lookup eventType).map (·.event)

/-- `order` has the keys of the map in the order in which it is traversed. -/
def flush (order : List String) : List (PrioritizedEvent π) × CoalescingPolicy π :=
  (order.filterMap p.pendingEvent, { p with pendingEvents := ∅ })

def flushEventType (eventType : String) : Option (PrioritizedEvent π) × CoalescingPolicy π :=
  match p.pendingEvents.lookup eventType with
  | some pending =>
    (some pending.event, { p with pendingEvents := p.pendingEvents.erase eventType })
  | none => (none, p)

def pending : List (PrioritizedEvent π) := p.pendingEvents.entries.map (·.2.event)

def Keyed : Prop := ∀ eventType event, p.pendingEvent eventType = some event →
  event.type = eventType

end CoalescingPolicy

section
variable {π : Type} {eventType : String}

def ofType (eventType : String) (events : List (PrioritizedEvent π)) :
    List (PrioritizedEvent π) :=
  events.filter fun event => event.type = eventType

@[simp] lemma ofType_append (events events' : List (PrioritizedEvent π)) :
    ofType eventType (events ++ events') = ofType eventType events ++ ofType eventType events' :=
  filter_append ..

lemma ofType_eq_self {events : List (PrioritizedEvent π)}
    (h : ∀ event ∈ events, event.type = eventType) : ofType eventType events = events :=
  filter_eq_self.mpr fun event hev => by simp [h event hev]

lemma ofType_eq_nil {events : List (PrioritizedEvent π)}
    (h : ∀ event ∈ events, event.type ≠ eventType) : ofType eventType events = [] :=
  filter_eq_nil_iff.mpr fun event hev => by simp [h event hev]

end

namespace CoalescingPolicy
variable {π : Type} {p : CoalescingPolicy π}

lemma pendingEvent_insert (window timestampMs : UInt64) (event : PrioritizedEvent π)
    (eventType : String) :
    pendingEvent ⟨window, p.pendingEvents.insert event.type ⟨event, timestampMs⟩⟩ eventType =
      if eventType = event.type then some event else p.pendingEvent eventType := by
  rw [pendingEvent, lookup_insert_ite]
  split_ifs
  · rfl
  · rfl

lemma pendingEvent_coalesce (p : CoalescingPolicy π) (event : PrioritizedEvent π)
    (clock : Int64) (eventType : String) :
    (p.coalesce event clock).2.pendingEvent eventType =
      if eventType = event.type then some event else p.pendingEvent eventType := by
  unfold coalesce
  cases p.pendingEvents.lookup event.type with
  | none => exact pendingEvent_insert ..
  | some pending =>
    dsimp only
    split
    · exact pendingEvent_insert ..
    · exact pendingEvent_insert ..

lemma result_coalesce (p : CoalescingPolicy π) (event : PrioritizedEvent π) (clock : Int64) :
    (p.coalesce event clock).1 = none ∨
      (p.coalesce event clock).1 = p.pendingEvent event.type := by
  unfold coalesce pendingEvent
  cases p.pendingEvents.lookup event.type with
  | none => exact .inl rfl
  | some pending =>
    dsimp only
    split
    · exact .inr rfl
    · exact .inl rfl

lemma pendingEvent_flush (order : List String) (eventType : String) :
    (p.flush order).2.pendingEvent eventType = none := rfl

lemma pendingEvent_flushEventType (p : CoalescingPolicy π) (flushed eventType : String) :
    (p.flushEventType flushed).2.pendingEvent eventType =
      if eventType = flushed then none else p.pendingEvent eventType := by
  unfold flushEventType
  by_cases htype : eventType = flushed
  · subst htype
    rw [if_pos rfl]
    cases hlk : p.pendingEvents.lookup eventType with
    | none => simp [pendingEvent, hlk]
    | some pending => simp [pendingEvent]
  · rw [if_neg htype]
    cases p.pendingEvents.lookup flushed with
    | none => rfl
    | some pending => simp [pendingEvent, AList.lookup_erase_ne htype]

lemma result_flushEventType (p : CoalescingPolicy π) (eventType : String) :
    (p.flushEventType eventType).1 = p.pendingEvent eventType := by
  unfold flushEventType pendingEvent
  cases p.pendingEvents.lookup eventType with
  | none => rfl
  | some pending => rfl

lemma Keyed.ofType_filterMap (h : p.Keyed) (eventType : String) {order : List String}
    (hnd : order.Nodup) : ofType eventType (order.filterMap p.pendingEvent) =
      if eventType ∈ order then (p.pendingEvent eventType).toList else [] := by
  induction order with
  | nil => rfl
  | cons key order ih =>
    obtain ⟨hkey, hnd⟩ := nodup_cons.mp hnd
    have hhead : (key :: order).filterMap p.pendingEvent =
        (p.pendingEvent key).toList ++ order.filterMap p.pendingEvent := by
      cases hpend : p.pendingEvent key <;> simp [hpend]
    have htype : ∀ event ∈ (p.pendingEvent key).toList, event.type = key := by
      intro event hev
      exact h key event (mem_toList.mp hev)
    rw [hhead, ofType_append, ih hnd]
    by_cases heq : eventType = key
    · subst heq
      rw [if_pos mem_cons_self, if_neg hkey, append_nil, ofType_eq_self htype]
    · have hoth : ofType eventType (p.pendingEvent key).toList = [] :=
        ofType_eq_nil fun event hev => by
          rw [htype event hev]
          exact Ne.symm heq
      simp [hoth, heq]

lemma Keyed.coalesce (h : p.Keyed) (event : PrioritizedEvent π) (clock : Int64) :
    (p.coalesce event clock).2.Keyed := by
  intro eventType pending hpend
  rw [pendingEvent_coalesce] at hpend
  split_ifs at hpend with htype
  · cases hpend
    exact htype.symm
  · exact h eventType pending hpend

lemma Keyed.type_of_coalesce (h : p.Keyed) {event emitted : PrioritizedEvent π} {clock : Int64}
    (hemit : emitted ∈ (p.coalesce event clock).1.toList) : emitted.type = event.type := by
  rw [mem_toList] at hemit
  rcases p.result_coalesce event clock with hnone | hpend
  · rw [hnone] at hemit
    cases hemit
  · exact h event.type emitted (hpend ▸ hemit)

lemma pendingEvent_eq_none_iff {eventType : String} :
    p.pendingEvent eventType = none ↔ eventType ∉ p.pendingEvents.keys := by
  rw [pendingEvent, map_eq_none_iff]
  exact AList.lookup_eq_none

lemma Keyed.ofType_flush (h : p.Keyed) {order : List String}
    (hord : order.Perm p.pendingEvents.keys) (eventType : String) :
    ofType eventType (p.flush order).1 = (p.pendingEvent eventType).toList := by
  have hnd : order.Nodup := hord.nodup_iff.mpr p.pendingEvents.keys_nodup
  rw [flush, h.ofType_filterMap eventType hnd]
  split_ifs with hmem
  · rfl
  · rw [hord.mem_iff, ← pendingEvent_eq_none_iff] at hmem
    rw [hmem]
    rfl

lemma Keyed.ofType_pending (h : p.Keyed) (eventType : String) :
    ofType eventType p.pending = (p.pendingEvent eventType).toList := by
  have hkeys : p.pendingEvents.entries.filter (fun e => e.2.event.type = eventType) =
      p.pendingEvents.entries.filter (fun e => e.1 = eventType) := by
    refine filter_congr fun e he => ?_
    have hlk : p.pendingEvents.lookup e.1 = some e.2 := AList.mem_lookup_iff.mpr he
    rw [h e.1 e.2.event (by rw [pendingEvent, hlk]; rfl)]
  have hent : ofType eventType p.pending =
      (p.pendingEvents.entries.filter fun e => e.2.event.type = eventType).map (·.2.event) :=
    List.filter_map ..
  rw [hent, hkeys, filter_entries, List.map_map, pendingEvent, toList_map]
  rfl

end CoalescingPolicy

/-- The events in `out` are some of those in `given`, in their order, and the last one is kept. -/
structure Coalesced {α : Type} (given out : List α) : Prop where
  sublist : out.Sublist given
  last : out.getLast? = given.getLast?

namespace Coalesced
variable {α : Type} {given out : List α} {a b : α}

lemma append (h : Coalesced given out) (a : α) : Coalesced (given ++ [a]) (out ++ [a]) where
  sublist := h.sublist.append (List.Sublist.refl [a])
  last := by simp

lemma replace (h : Coalesced given (out ++ [b])) (a : α) :
    Coalesced (given ++ [a]) (out ++ [a]) where
  sublist := by
    have hout : out.Sublist given := (sublist_append_left out [b]).trans h.sublist
    exact hout.append (List.Sublist.refl [a])
  last := by simp

end Coalesced

structure Coalescing (π : Type) where
  policy : CoalescingPolicy π
  given : List (PrioritizedEvent π) := []
  emitted : List (PrioritizedEvent π) := []

namespace Coalescing
variable {π : Type}

inductive Op (π : Type)
  | coalesce (event : PrioritizedEvent π) (clock : Int64)
  | flush (order : List String)
  | flushEventType (eventType : String)

def next (s : Coalescing π) : Op π → Option (Coalescing π)
  | .coalesce event clock =>
    let (result, policy) := s.policy.coalesce event clock
    some ⟨policy, s.given ++ [event], s.emitted ++ result.toList⟩
  | .flush order =>
    if order.Perm s.policy.pendingEvents.keys then
      let (result, policy) := s.policy.flush order
      some ⟨policy, s.given, s.emitted ++ result⟩
    else none
  | .flushEventType eventType =>
    let (result, policy) := s.policy.flushEventType eventType
    some ⟨policy, s.given, s.emitted ++ result.toList⟩

def output (s : Coalescing π) (eventType : String) : List (PrioritizedEvent π) :=
  ofType eventType s.emitted ++ ofType eventType s.policy.pending

/-- No event stands under another type, and of each type the last event given in has been emitted
or is pending. -/
structure Latest (s : Coalescing π) : Prop where
  keyed : s.policy.Keyed
  coalesced : ∀ eventType, Coalesced (ofType eventType s.given)
    (ofType eventType s.emitted ++ (s.policy.pendingEvent eventType).toList)

variable {s s' : Coalescing π}

lemma Latest.coalesce (h : Latest s) (event : PrioritizedEvent π) (clock : Int64) :
    Latest ⟨(s.policy.coalesce event clock).2, s.given ++ [event],
      s.emitted ++ (s.policy.coalesce event clock).1.toList⟩ where
  keyed := h.keyed.coalesce event clock
  coalesced eventType := by
    have hbef := h.coalesced eventType
    have hres : ∀ emitted ∈ (s.policy.coalesce event clock).1.toList,
        emitted.type = event.type := fun _ hemit => h.keyed.type_of_coalesce hemit
    dsimp only
    rw [CoalescingPolicy.pendingEvent_coalesce, ofType_append, ofType_append]
    by_cases htype : eventType = event.type
    · subst htype
      have hgiv : ofType event.type [event] = [event] := ofType_eq_self (by simp)
      rw [if_pos rfl, hgiv, ofType_eq_self hres]
      rcases s.policy.result_coalesce event clock with hnone | hpend
      · -- nothing is emitted, so an event that was pending is replaced
        rw [hnone, toList_none, append_nil]
        cases hp : s.policy.pendingEvent event.type with
        | none =>
          rw [hp, toList_none, append_nil] at hbef
          exact hbef.append event
        | some pending =>
          rw [hp] at hbef
          exact hbef.replace event
      · rw [hpend]
        exact hbef.append event
    · have hne : ∀ other : PrioritizedEvent π, other.type = event.type → other.type ≠ eventType :=
        fun other hoth heq => htype (heq.symm.trans hoth)
      have hgiv : ofType eventType [event] = [] := ofType_eq_nil (by simp [Ne.symm htype])
      have hemit := ofType_eq_nil fun emitted hmem => hne emitted (hres emitted hmem)
      rw [if_neg htype, hgiv, hemit, append_nil, append_nil]
      exact hbef

lemma Latest.flush (h : Latest s) {order : List String}
    (hord : order.Perm s.policy.pendingEvents.keys) :
    Latest ⟨(s.policy.flush order).2, s.given, s.emitted ++ (s.policy.flush order).1⟩ where
  keyed eventType event hev := by
    rw [CoalescingPolicy.pendingEvent_flush] at hev
    cases hev
  coalesced eventType := by
    dsimp only
    rw [ofType_append, h.keyed.ofType_flush hord, CoalescingPolicy.pendingEvent_flush,
      toList_none, append_nil]
    exact h.coalesced eventType

lemma Latest.flushEventType (h : Latest s) (flushed : String) :
    Latest ⟨(s.policy.flushEventType flushed).2, s.given,
      s.emitted ++ (s.policy.flushEventType flushed).1.toList⟩ where
  keyed eventType event hev := by
    rw [CoalescingPolicy.pendingEvent_flushEventType] at hev
    split_ifs at hev
    exact h.keyed eventType event hev
  coalesced eventType := by
    have htype : ∀ event ∈ (s.policy.pendingEvent flushed).toList, event.type = flushed :=
      fun event hev => h.keyed flushed event (mem_toList.mp hev)
    dsimp only
    rw [ofType_append, CoalescingPolicy.result_flushEventType,
      CoalescingPolicy.pendingEvent_flushEventType]
    by_cases heq : eventType = flushed
    · subst heq
      rw [if_pos rfl, ofType_eq_self htype, toList_none, append_nil]
      exact h.coalesced eventType
    · have hoth : ofType eventType (s.policy.pendingEvent flushed).toList = [] :=
        ofType_eq_nil fun event hev => by
          rw [htype event hev]
          exact Ne.symm heq
      rw [if_neg heq, hoth, append_nil]
      exact h.coalesced eventType

lemma Latest.next (h : Latest s) {op : Op π} (hn : s.next op = some s') : Latest s' := by
  cases op with
  | coalesce event clock =>
    cases hn
    exact h.coalesce event clock
  | flush order =>
    rw [Coalescing.next] at hn
    split_ifs at hn with hord
    cases hn
    exact h.flush hord
  | flushEventType eventType =>
    cases hn
    exact h.flushEventType eventType

lemma latest_of_run {window : UInt64} {ops : List (Op π)}
    (hrun : Run next (fun _ _ => True) ⟨⟨window, ∅⟩, [], []⟩ ops s) : Latest s := by
  have h0 : Latest (⟨⟨window, ∅⟩, [], []⟩ : Coalescing π) := by
    refine ⟨fun eventType event hev => ?_, fun eventType => ⟨?_, rfl⟩⟩
    · cases hev
    · exact List.Sublist.refl []
  exact hrun.invariant Latest h0 fun s op s' hs _ hn => hs.next hn

/-- What was emitted of a type followed by what is pending is a subsequence of what was given in and
ends with the same event; at most one is pending, and none after a flush. -/
def ForwardsLatest (π : Type) : Prop :=
  ∀ (window : UInt64) (ops : List (Op π)) (s : Coalescing π),
    Run next (fun _ _ => True) ⟨⟨window, ∅⟩, [], []⟩ ops s →
      (∀ eventType, (s.output eventType).Sublist (ofType eventType s.given) ∧
        (s.output eventType).getLast? = (ofType eventType s.given).getLast? ∧
        (ofType eventType s.policy.pending).length ≤ 1) ∧
      ∀ order s', s.next (.flush order) = some s' → s'.policy.pending = []

theorem forwardsLatest (π : Type) : ForwardsLatest π := by
  intro window ops s hrun
  have h := latest_of_run hrun
  refine ⟨fun eventType => ?_, fun order s' hn => ?_⟩
  · have hcoal := h.coalesced eventType
    have hpend := h.keyed.ofType_pending eventType
    rw [output, hpend]
    refine ⟨hcoal.sublist, hcoal.last, ?_⟩
    cases s.policy.pendingEvent eventType with
    | none => simp
    | some event => simp
  · rw [next] at hn
    split_ifs at hn
    cases hn
    rfl

end Coalescing
end Mxrc.Event
