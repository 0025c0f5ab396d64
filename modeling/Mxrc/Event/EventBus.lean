import Mxrc.Event.PriorityQueue

/-!
# The event bus

Publishers, whose calls come one after the other, the owner, who calls `start`
and `stop`, and the dispatch thread. A label says which thread moves and what it
reads: the clock, the order of the subscription table, the answer of a filter
and the end of a callback, any of which may throw. Statistics and observers are
left out. `published`, `accepted`, `lastReading` and `Dispatch` record the
history.
-/

namespace Mxrc.Event
open Mxrc.Lib

abbrev SubscriptionId := String

/-- `std::variant<int, double, std::string, std::shared_ptr<IEvent>>`; `ε` is what the pointers
point to. -/
inductive Payload (ε : Type)
  | int (value : Int32)
  | double (bits : UInt64)
  | string (text : String)
  | iEvent (event : Option ε)
deriving DecidableEq

def Payload.event? {ε : Type} : Payload ε → Option ε
  | .iEvent event => event
  | _ => none

inductive FilterResult
  | accepts
  | rejects
  | throws
deriving DecidableEq

inductive CallbackResult
  | returns
  | throws
deriving DecidableEq

structure Dispatch (ε : Type) where
  event : ε
  snapshot : List SubscriptionId
  visited : List (SubscriptionId × FilterResult) := []
  calls : List SubscriptionId := []
deriving DecidableEq

inductive PublishPhase (ε : Type)
  | idle
  | stamped (event : ε) (prioritized : PrioritizedEvent (Payload ε))
  | admitted (event : ε) (prioritized : PrioritizedEvent (Payload ε))
  | pushed (event : ε)

inductive OwnerPhase
  | idle
  | starting
  | stopping
deriving DecidableEq

inductive DispatchPhase (ε : Type)
  | loopTest
  | popping (draining : Bool)
  | dispatching (draining : Bool) (event : ε)
  | visiting (draining : Bool) (dispatch : Dispatch ε) (rest : List SubscriptionId)
  | calling (draining : Bool) (dispatch : Dispatch ε) (rest : List SubscriptionId)
  | ended

structure EventBus (ε : Type) where
  eventQueue : PriorityQueue (Payload ε)
  subscriptions : List SubscriptionId
  subscriptionCounter : ℕ
  running : Bool
  sequenceCounter : ℕ
  publisher : PublishPhase ε
  owner : OwnerPhase
  dispatchThread : Option (DispatchPhase ε)
  published : List ε
  accepted : List ε
  lastReading : Option Int64
  dispatches : List (Dispatch ε)

namespace EventBus
variable {ε : Type} (getTypeName : ε → String)

def make (capacity dropThreshold80 dropThreshold90 : ℕ) : EventBus ε where
  eventQueue := .make capacity dropThreshold80 dropThreshold90
  subscriptions := []
  subscriptionCounter := 0
  running := false
  sequenceCounter := 0
  publisher := .idle
  owner := .idle
  dispatchThread := none
  published := []
  accepted := []
  lastReading := none
  dispatches := []

def publish (s : EventBus ε) (event : Option ε) (nowNs : Int64) : Option (EventBus ε) :=
  match s.publisher, event with
  | .idle, none => some s
  | .idle, some event => some { s with
      publisher := .stamped event (.makePrioritizedEvent (getTypeName event) .normal
        (.iEvent (some event)) (UInt64.ofNat s.sequenceCounter) nowNs)
      sequenceCounter := s.sequenceCounter + 1
      lastReading := some nowNs }
  | _, _ => none

def publishStep (s : EventBus ε) : Option (EventBus ε) :=
  match s.publisher with
  | .idle => none
  | .stamped event prioritized =>
    if s.eventQueue.shouldDrop prioritized.priority then
      -- the call ends with `false`
      some { s with
        eventQueue := s.eventQueue.refuse prioritized.priority
        publisher := .idle }
    else some { s with publisher := .admitted event prioritized }
  | .admitted event prioritized =>
    some { s with
      eventQueue := s.eventQueue.enqueue prioritized
      publisher := .pushed event
      accepted := s.accepted ++ [event] }
  | .pushed event =>
    some { s with
      publisher := .idle
      published := s.published ++ [event] }

def hexDigit (d : Fin 16) : Char := Nat.digitChar d

def generateSubscriptionId (counter : ℕ) (digits : List (Fin 16)) : SubscriptionId :=
  "sub_" ++ toString counter ++ "_" ++ String.ofList (digits.map hexDigit)

def subscribe (s : EventBus ε) (hasCallback : Bool) (digits : List (Fin 16)) : EventBus ε :=
  if hasCallback then
    -- `emplace` keeps an entry that exists
    { s with
      subscriptions := s.subscriptions.insert (generateSubscriptionId s.subscriptionCounter digits)
      subscriptionCounter := s.subscriptionCounter + 1 }
  else s

def unsubscribe (s : EventBus ε) (subscriptionId : SubscriptionId) : EventBus ε :=
  { s with subscriptions := s.subscriptions.erase subscriptionId }

def start (s : EventBus ε) : Option (EventBus ε) :=
  match s.owner with
  | .idle => some (if s.running then s else { s with running := true, owner := .starting })
  | _ => none

def stop (s : EventBus ε) : Option (EventBus ε) :=
  match s.owner with
  | .idle => some (if s.running then { s with running := false, owner := .stopping } else s)
  | _ => none

def ownerStep (s : EventBus ε) : Option (EventBus ε) :=
  match s.owner, s.dispatchThread with
  | .starting, none => some { s with dispatchThread := some .loopTest, owner := .idle }
  | .stopping, none => some { s with owner := .idle }
  | .stopping, some .ended => some { s with dispatchThread := none, owner := .idle }
  | _, _ => none

def loopTest (s : EventBus ε) : Option (EventBus ε) :=
  match s.dispatchThread with
  | some .loopTest => some { s with dispatchThread := some (.popping (!s.running)) }
  | _ => none

def nextRound (draining : Bool) : DispatchPhase ε :=
  if draining then .popping true else .loopTest

def pop (s : EventBus ε) (now : ℕ → Int64) : Option (EventBus ε) :=
  match s.dispatchThread with
  | some (.popping draining) =>
    match s.eventQueue.pop now with
    | (none, eventQueue) => some { s with
        eventQueue, dispatchThread := some (if draining then .ended else .loopTest) }
    | (some prioritized, eventQueue) =>
      match prioritized.payload.event? with
      | some event => some { s with
          eventQueue, dispatchThread := some (.dispatching draining event) }
      | none => some { s with eventQueue, dispatchThread := some (nextRound draining) }
  | _ => none

def snapshot (s : EventBus ε) (order : List SubscriptionId) : Option (EventBus ε) :=
  match s.dispatchThread with
  | some (.dispatching draining event) =>
    if order.Perm s.subscriptions then
      some { s with
        dispatchThread := some (.visiting draining { event, snapshot := order } order) }
    else none
  | _ => none

def filter (s : EventBus ε) (result : FilterResult) : Option (EventBus ε) :=
  match s.dispatchThread with
  | some (.visiting draining d (sub :: rest)) =>
    let d := { d with visited := d.visited ++ [(sub, result)] }
    match result with
    | .accepts => some { s with
        dispatchThread := some (.calling draining { d with calls := d.calls ++ [sub] } rest) }
    | .rejects => some { s with dispatchThread := some (.visiting draining d rest) }
    | .throws => some { s with dispatchThread := some (.visiting draining d rest) }
  | _ => none

def callback (s : EventBus ε) (result : CallbackResult) : Option (EventBus ε) :=
  match s.dispatchThread with
  | some (.calling draining d rest) =>
    match result with
    | .returns => some { s with dispatchThread := some (.visiting draining d rest) }
    -- the exception is caught inside the loop
    | .throws => some { s with dispatchThread := some (.visiting draining d rest) }
  | _ => none

def dispatched (s : EventBus ε) : Option (EventBus ε) :=
  match s.dispatchThread with
  | some (.visiting draining d []) => some { s with
      dispatchThread := some (nextRound draining), dispatches := s.dispatches ++ [d] }
  | _ => none

inductive Op (ε : Type)
  | publish (event : Option ε) (nowNs : Int64)
  | publishStep
  | subscribe (hasCallback : Bool) (digits : List (Fin 16))
  | unsubscribe (subscriptionId : SubscriptionId)
  | start
  | stop
  | ownerStep
  | loopTest
  | pop (now : ℕ → Int64)
  | snapshot (order : List SubscriptionId)
  | filter (result : FilterResult)
  | callback (result : CallbackResult)
  | dispatched

def next (s : EventBus ε) : Op ε → Option (EventBus ε)
  | .publish event nowNs => s.publish getTypeName event nowNs
  | .publishStep => s.publishStep
  | .subscribe hasCallback digits => some (s.subscribe hasCallback digits)
  | .unsubscribe subscriptionId => some (s.unsubscribe subscriptionId)
  | .start => s.start
  | .stop => s.stop
  | .ownerStep => s.ownerStep
  | .loopTest => s.loopTest
  | .pop now => s.pop now
  | .snapshot order => s.snapshot order
  | .filter result => s.filter result
  | .callback result => s.callback result
  | .dispatched => s.dispatched

def inHand (s : EventBus ε) : List ε :=
  match s.dispatchThread with
  | some (.dispatching _ event) => [event]
  | some (.visiting _ d _) => [d.event]
  | some (.calling _ d _) => [d.event]
  | _ => []

def returning (s : EventBus ε) : List ε :=
  match s.publisher with
  | .pushed event => [event]
  | _ => []

end EventBus
end Mxrc.Event
