import Mxrc.Datastore.MapNotifier
import Mxrc.Lib.Runs

/-!
# The adapter between the data store and the event bus

The adapter publishes an event for every change of an observed key. It also
writes the results of actions and sequences to the store, and marks the key
around such a write to suppress the echo, and with it what others write to the
key.

The handlers are indexed by `ι`; `mark`, `write`, `unmark` and an external write
with its notification are steps. Other observers are of type `ω`. The answer of
`publish` is an input, and the text of a floating-point number a parameter.
-/

namespace Mxrc.Event
open Mxrc.Lib Mxrc.Datastore Function

structure DataStoreValueChangedEvent where
  key : String
  oldValue : String
  newValue : String
  valueType : String
  source : String
deriving DecidableEq

/-- `fixed` prints a floating-point number with two digits after the point. -/
def valueToString (fixed : UInt64 → String) : AnyValue → String
  | .string value => value
  | .int value => toString value.toInt
  | .double bits => fixed bits
  | .bool value => if value then "true" else "false"
  | _ => "<unknown type>"

def dataTypeToString : DataType → String
  | .robotMode => "RobotMode"
  | .interfaceData => "InterfaceData"
  | .config => "Config"
  | .para => "Para"
  | .alarm => "Alarm"
  | .event => "Event"
  | .missionState => "MissionState"
  | .taskState => "TaskState"
  | .other _ => "Unknown"

def changedEvent (fixed : UInt64 → String) (changedData : SharedData) :
    DataStoreValueChangedEvent where
  key := changedData.id
  oldValue := ""
  newValue := valueToString fixed changedData.value
  valueType := dataTypeToString changedData.type
  source := "datastore"

inductive CompletedEvent
  | action (actionId : String) (durationMs : Int64)
  | sequence (sequenceId : String) (completedSteps totalSteps : Int32) (durationMs : Int64)
deriving DecidableEq

def CompletedEvent.id : CompletedEvent → String
  | .action actionId _ => actionId
  | .sequence sequenceId _ _ _ => sequenceId

def CompletedEvent.text : CompletedEvent → String
  | .action _ durationMs => "completed:" ++ toString durationMs.toInt ++ "ms"
  | .sequence _ completedSteps totalSteps durationMs =>
    "completed:" ++ toString completedSteps.toInt ++ "/" ++ toString totalSteps.toInt ++ " (" ++
      toString durationMs.toInt ++ "ms)"

inductive HandlerPhase
  | idle
  | marked (key text : String)
  | written (key : String)
deriving DecidableEq

def HandlerPhase.key : HandlerPhase → Option String
  | .idle => none
  | .marked key _ => some key
  | .written key => some key

/-- The adapter is the observer `none`; it is alive and does not throw. -/
def withAdapter {ω : Type} (others : Observers ω) : Observers (Option ω) where
  alive observer := observer.elim true others.alive
  onDataChanged observer changedData :=
    observer.elim (.ok ()) fun other => others.onDataChanged other changedData

structure AdapterSystem (ι ω : Type) where
  store : ObservedStore (Option ω)
  updatingKeys : Finset String := ∅
  handlers : ι → HandlerPhase := fun _ => .idle
  published : List DataStoreValueChangedEvent := []

namespace AdapterSystem
variable {ι ω : Type}

inductive Op (ι : Type)
  | external (w : StoreWrite) (accepts : Bool)
  | mark (c : ι) (keyPrefix : String) (event : CompletedEvent)
  | write (c : ι) (now : ℤ) (accepts : Bool)
  | unmark (c : ι)

section
variable [DecidableEq ι] [DecidableEq ω] (fixed : UInt64 → String) (others : Observers ω)
variable (s : AdapterSystem ι ω)

def onDataChanged (changedData : SharedData) (accepts : Bool) : List DataStoreValueChangedEvent :=
  if changedData.id ∈ s.updatingKeys then []
  else if accepts then [changedEvent fixed changedData] else []

/-- A write and the notification of the adapter, once for each of its subscriptions; a rejected
write changes nothing. -/
def performWrite (w : StoreWrite) (accepts : Bool) : AdapterSystem ι ω :=
  match s.store.write (withAdapter others) w with
  | .error _ => s
  | .ok (called, store) => { s with
      store
      published := s.published ++
        (List.replicate (called.count none) (s.onDataChanged fixed w.newData accepts)).flatten }

def resultWrite (key text : String) (now : ℤ) : StoreWrite :=
  .set key (.string text) .taskState ⟨.none, 0⟩ now

def next : Op ι → Option (AdapterSystem ι ω)
  | .external w accepts => some (s.performWrite fixed others w accepts)
  | .mark c keyPrefix event =>
    if s.handlers c = .idle then some { s with
      updatingKeys := insert (keyPrefix ++ event.id) s.updatingKeys
      handlers := Function.update s.handlers c (.marked (keyPrefix ++ event.id) event.text) }
    else none
  | .write c now accepts =>
    match s.handlers c with
    | .marked key text =>
      some { s.performWrite fixed others (resultWrite key text now) accepts with
        handlers := Function.update s.handlers c (.written key) }
    | _ => none
  | .unmark c =>
    match s.handlers c with
    | .written key => some { s with
        updatingKeys := s.updatingKeys.erase key
        handlers := Function.update s.handlers c .idle }
    | _ => none

def notifications (w : StoreWrite) : ℕ :=
  match s.store.write (withAdapter others) w with
  | .error _ => 0
  | .ok (called, _) => called.count none

def Watched (id : String) : Prop := none ∈ s.store.subscribers id

instance (id : String) : Decidable (s.Watched id) := inferInstanceAs (Decidable (_ ∈ _))

/-- An external write to a watched key publishes the one event for it, and no other step publishes
an event. -/
def Relays : Op ι → Prop
  | .external w accepts => s.Watched w.id → (s.store.write (withAdapter others) w).isOk = true →
      (s.performWrite fixed others w accepts).published =
        s.published ++ [changedEvent fixed w.newData]
  | op => ∀ s', s.next fixed others op = some s' → s'.published = s.published

/-- An external write to a watched key finds it unmarked, and a handler writes to a marked key,
unless the adapter is not called once or the bus refuses. -/
def Undisturbed : Op ι → Prop
  | .external w accepts => s.Watched w.id → (s.store.write (withAdapter others) w).isOk = true →
      w.id ∉ s.updatingKeys ∧ s.notifications others w = 1 ∧ accepts = true
  | .write c now accepts => ∀ key text, s.handlers c = .marked key text →
      0 < s.notifications others (resultWrite key text now) →
        key ∈ s.updatingKeys ∨ accepts = false
  | _ => True

def Apart (s : AdapterSystem ι ω) : Op ι → Prop
  | .mark _ keyPrefix event => ∀ c, (s.handlers c).key ≠ some (keyPrefix ++ event.id)
  | _ => True

def NoEcho : Op ι → Prop
  | .write c now accepts => ∀ s', s.next fixed others (.write c now accepts) = some s' →
      s'.published = s.published
  | _ => True

end

section
variable [DecidableEq ω] {fixed : UInt64 → String} {others : Observers ω}
variable {s s' : AdapterSystem ι ω} {w : StoreWrite} {accepts : Bool}

lemma published_performWrite (s : AdapterSystem ι ω) (w : StoreWrite) (accepts : Bool) :
    (s.performWrite fixed others w accepts).published =
      s.published ++ if w.id ∈ s.updatingKeys ∨ accepts = false then []
        else List.replicate (s.notifications others w) (changedEvent fixed w.newData) := by
  have hcall : s.onDataChanged fixed w.newData accepts =
      if w.id ∈ s.updatingKeys ∨ accepts = false then [] else [changedEvent fixed w.newData] := by
    rw [onDataChanged, StoreWrite.id]
    cases accepts with
    | false => simp
    | true => simp
  rw [performWrite, notifications]
  cases s.store.write (withAdapter others) w with
  | error what => simp
  | ok result =>
    obtain ⟨called, store⟩ := result
    dsimp only
    rw [hcall]
    split_ifs with hsil
    · simp
    · rw [List.flatten_replicate_singleton]

lemma handlers_performWrite (fixed : UInt64 → String) (others : Observers ω)
    (s : AdapterSystem ι ω) (w : StoreWrite) (accepts : Bool) :
    (s.performWrite fixed others w accepts).handlers = s.handlers ∧
      (s.performWrite fixed others w accepts).updatingKeys = s.updatingKeys := by
  rw [performWrite]
  split
  · exact ⟨rfl, rfl⟩
  · exact ⟨rfl, rfl⟩

lemma published_eq_self_iff :
    (s.performWrite fixed others w accepts).published = s.published ↔
      (0 < s.notifications others w → w.id ∈ s.updatingKeys ∨ accepts = false) := by
  rw [published_performWrite, List.append_right_eq_self]
  split_ifs with hsil
  · exact iff_of_true rfl fun _ => hsil
  · rw [List.replicate_eq_nil_iff]
    constructor
    · intro hnone hpos
      omega
    · intro hpos
      by_contra hne
      exact hsil (hpos (Nat.pos_of_ne_zero hne))

lemma published_eq_singleton_iff :
    (s.performWrite fixed others w accepts).published =
        s.published ++ [changedEvent fixed w.newData] ↔
      w.id ∉ s.updatingKeys ∧ s.notifications others w = 1 ∧ accepts = true := by
  rw [published_performWrite, List.append_cancel_left_eq]
  split_ifs with hsil
  · refine iff_of_false (by simp) ?_
    rintro ⟨hunm, -, hacc⟩
    rcases hsil with hmar | href
    · exact hunm hmar
    · rw [hacc] at href
      cases href
  · rw [not_or, Bool.not_eq_false] at hsil
    have hlen : List.replicate (s.notifications others w) (changedEvent fixed w.newData) =
        [changedEvent fixed w.newData] ↔ s.notifications others w = 1 := by
      constructor
      · intro hone
        simpa using congrArg List.length hone
      · intro hone
        rw [hone]
        rfl
    rw [hlen]
    simp [hsil]

end

section
variable [DecidableEq ι] [DecidableEq ω] {fixed : UInt64 → String} {others : Observers ω}
variable {s s' : AdapterSystem ι ω}

lemma relays_iff_undisturbed (s : AdapterSystem ι ω) (op : Op ι) :
    s.Relays fixed others op ↔ s.Undisturbed others op := by
  cases op with
  | external w accepts => exact forall₂_congr fun _ _ => published_eq_singleton_iff
  | mark c keyPrefix event =>
    refine iff_of_true (fun s' hn => ?_) trivial
    rw [next] at hn
    split_ifs at hn
    cases hn
    rfl
  | write c now accepts =>
    change (∀ s', s.next fixed others (.write c now accepts) = some s' → _) ↔ _
    rw [Undisturbed, next]
    cases hph : s.handlers c with
    | marked key text =>
      have hkey : ∀ s', some { s.performWrite fixed others (resultWrite key text now) accepts with
          handlers := Function.update s.handlers c (.written key) } = some s' →
          s'.published =
            (s.performWrite fixed others (resultWrite key text now) accepts).published := by
        rintro s' hn
        cases hn
        rfl
      constructor
      · rintro hrel key' text' heq
        cases heq
        have hsame := hrel _ rfl
        rw [hkey _ rfl, published_eq_self_iff] at hsame
        exact hsame
      · intro hmar s' hn
        rw [hkey s' hn, published_eq_self_iff]
        exact hmar key text rfl
    | idle => exact iff_of_true (by simp) (by simp)
    | written key => exact iff_of_true (by simp) (by simp)
  | unmark c =>
    refine iff_of_true (fun s' hn => ?_) trivial
    rw [next] at hn
    split at hn
    · cases hn
      rfl
    · cases hn

end

/-- Handlers that are at work have different keys, and the key of one that is about to write is
marked. -/
structure Marked (s : AdapterSystem ι ω) : Prop where
  apart : ∀ c c' key, (s.handlers c).key = some key → (s.handlers c').key = some key → c = c'
  mem : ∀ c key text, s.handlers c = .marked key text → key ∈ s.updatingKeys

lemma marked_start (store : ObservedStore (Option ω)) :
    Marked ({ store } : AdapterSystem ι ω) where
  apart c c' key hc := by cases hc
  mem c key text hc := by cases hc

lemma Marked.advance [DecidableEq ι] {s : AdapterSystem ι ω} (h : Marked s) {c : ι}
    {phase : HandlerPhase} {updatingKeys : Finset String}
    (hkey : ∀ key, phase.key = some key → (s.handlers c).key = some key)
    (hph : ∀ key text, phase ≠ .marked key text)
    (hkeys : ∀ c' key text, c' ≠ c → s.handlers c' = .marked key text → key ∈ updatingKeys) :
    Marked { s with updatingKeys, handlers := Function.update s.handlers c phase } := by
  have hbef : ∀ c' key, (Function.update s.handlers c phase c').key = some key →
      (s.handlers c').key = some key := by
    intro c' key hc'
    rw [update_apply] at hc'
    split_ifs at hc' with heq
    · rw [heq]
      exact hkey key hc'
    · exact hc'
  refine ⟨fun c₁ c₂ key h₁ h₂ => h.apart c₁ c₂ key (hbef c₁ key h₁) (hbef c₂ key h₂), ?_⟩
  intro c' key text hc'
  replace hc' : Function.update s.handlers c phase c' = .marked key text := hc'
  rw [update_apply] at hc'
  split_ifs at hc' with heq
  · exact absurd hc' (hph key text)
  · exact hkeys c' key text heq hc'

lemma Marked.mark [DecidableEq ι] {s : AdapterSystem ι ω} (h : Marked s) {c : ι}
    {key text : String} (hfree : ∀ c', (s.handlers c').key ≠ some key) :
    Marked { s with
      updatingKeys := insert key s.updatingKeys
      handlers := Function.update s.handlers c (.marked key text) } := by
  have hbef : ∀ c' key', (Function.update s.handlers c (.marked key text) c').key = some key' →
      c' = c ∧ key' = key ∨ c' ≠ c ∧ key' ≠ key ∧ (s.handlers c').key = some key' := by
    intro c' key' hc'
    rw [update_apply] at hc'
    split_ifs at hc' with heq
    · cases hc'
      exact .inl ⟨heq, rfl⟩
    · refine .inr ⟨heq, ?_, hc'⟩
      rintro rfl
      exact hfree c' hc'
  refine ⟨fun c₁ c₂ key' h₁ h₂ => ?_, fun c' key' text' hc' => ?_⟩
  · rcases hbef c₁ key' h₁ with ⟨rfl, rfl⟩ | ⟨-, hne, h₁⟩
    · rcases hbef c₂ key' h₂ with ⟨heq, -⟩ | ⟨-, hne, -⟩
      · exact heq.symm
      · exact absurd rfl hne
    · rcases hbef c₂ key' h₂ with ⟨-, heq⟩ | ⟨-, -, h₂⟩
      · exact absurd heq hne
      · exact h.apart c₁ c₂ key' h₁ h₂
  · replace hc' : Function.update s.handlers c (.marked key text) c' = .marked key' text' := hc'
    rw [update_apply] at hc'
    split_ifs at hc'
    · cases hc'
      exact Finset.mem_insert_self ..
    · exact Finset.mem_insert_of_mem (h.mem c' key' text' hc')

lemma Marked.performWrite [DecidableEq ω] {s : AdapterSystem ι ω} (h : Marked s)
    (fixed : UInt64 → String) (others : Observers ω) (w : StoreWrite) (accepts : Bool) :
    Marked (s.performWrite fixed others w accepts) := by
  obtain ⟨hhan, hkeys⟩ := s.handlers_performWrite fixed others w accepts
  refine ⟨?_, ?_⟩
  · rw [hhan]
    exact h.apart
  · rw [hhan, hkeys]
    exact h.mem

section
variable [DecidableEq ι] [DecidableEq ω] {fixed : UInt64 → String} {others : Observers ω}
variable {s s' : AdapterSystem ι ω}

lemma Marked.next (h : Marked s) {op : Op ι} (hop : s.Apart op)
    (hn : s.next fixed others op = some s') : Marked s' := by
  cases op with
  | external w accepts =>
    cases hn
    exact h.performWrite fixed others w accepts
  | mark c keyPrefix event =>
    rw [AdapterSystem.next] at hn
    split_ifs at hn
    cases hn
    exact h.mark hop
  | write c now accepts =>
    rw [AdapterSystem.next] at hn
    split at hn
    · rename_i key text hph
      cases hn
      have hwrit := h.performWrite fixed others (resultWrite key text now) accepts
      obtain ⟨hhan, -⟩ := s.handlers_performWrite fixed others (resultWrite key text now) accepts
      rw [← hhan]
      refine hwrit.advance (fun key' hkey' => ?_) (by simp) fun c' key' text' _ hc' => ?_
      · rw [hhan, hph]
        exact hkey'
      · exact hwrit.mem c' key' text' hc'
    · cases hn
  | unmark c =>
    rw [AdapterSystem.next] at hn
    split at hn
    · rename_i key hph
      cases hn
      refine h.advance (by simp [HandlerPhase.key]) (by simp) fun c' key' text hne hc' => ?_
      refine Finset.mem_erase.mpr ⟨?_, h.mem c' key' text hc'⟩
      rintro rfl
      exact hne (h.apart c' c key' (by rw [hc']; rfl) (by rw [hph]; rfl))
    · cases hn

lemma Marked.noEcho (h : Marked s) (op : Op ι) : s.NoEcho fixed others op := by
  cases op with
  | write c now accepts =>
    have hrel : s.Relays fixed others (.write c now accepts) :=
      (relays_iff_undisturbed s _).mpr fun key text hph _ => .inl (h.mem c key text hph)
    exact hrel
  | _ => trivial

theorem relays_iff (ι ω : Type) [DecidableEq ι] [DecidableEq ω] (fixed : UInt64 → String)
    (others : Observers ω) (store : ObservedStore (Option ω)) (ops : List (Op ι)) :
    (EveryStep (next fixed others) (Relays fixed others) { store } ops ↔
      EveryStep (next fixed others) (Undisturbed others) { store } ops) ∧
    (EveryStep (next fixed others) Apart { store } ops →
      EveryStep (next fixed others) (NoEcho fixed others) { store } ops) := by
  refine ⟨everyStep_congr (I := fun _ => True) trivial fun s op s' _ _ => ?_, fun hprt => ?_⟩
  · exact ⟨relays_iff_undisturbed s op, fun _ => trivial⟩
  · rintro ls₁ op ls₂ s s' rfl hrun hn
    have hmar : Marked s := (hrun.everyStep_iff.mp hprt.left).invariant Marked
      (marked_start store) fun s op s' hs hop hn => hs.next hop hn
    exact hmar.noEcho op

/-- Another thread writes the key of an action while the handler has it marked. -/
theorem not_relays : ¬ ∀ (ι ω : Type) (_ : DecidableEq ι) (_ : DecidableEq ω)
    (fixed : UInt64 → String) (others : Observers ω) (store : ObservedStore (Option ω))
    (ops : List (Op ι)),
    EveryStep (next fixed others) (Relays fixed others) { store } ops := by
  intro hall
  let key := "action.results.move"
  let store : ObservedStore (Option Empty) := { notifiers := AList.insert key [none] ∅ }
  let others : Observers Empty := ⟨fun _ => true, fun _ _ => .ok ()⟩
  let mark : Op Unit := .mark () "action.results." (.action "move" 5)
  let w : StoreWrite := .set key (.string "retry") .taskState ⟨.none, 0⟩ 0
  have hmark : next (fun _ => "") others ({ store } : AdapterSystem Unit Empty) mark = some _ := rfl
  have hrel := hall Unit Empty inferInstance inferInstance (fun _ => "") others store
    [mark, .external w true] [mark] (.external w true) [] _ _ rfl (.single trivial hmark) rfl
  have hpub := hrel (by decide +kernel) (by decide +kernel)
  exact absurd hpub (by decide +kernel)

end
end AdapterSystem
end Mxrc.Event
