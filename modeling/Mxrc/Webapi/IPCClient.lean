import Mxrc.Lib.Runs

/-!
# The IPC client

A pending request is rejected when its timer fires or its write fails. Outcomes
and events are recorded in order. JSON values and their accessors are a
parameter; `undefined` is a value. Listeners do not throw.
-/

namespace Mxrc.Webapi
open Mxrc.Lib

/-- The accessors give the number in `request_id` and the text of a truthy `error`. -/
structure ResponseLib (J : Type) where
  parse : List UInt8 → Option J
  isObject : J → Bool
  requestId : J → Option ℕ
  error : J → Option String
  data : J → J
  isNotification : J → Bool
  parse_newlines : ∀ n, parse (List.replicate n 10) = none

inductive Outcome (J : Type)
  | resolved (data : J)
  | rejected (message : String)
deriving DecidableEq

structure IPCClient (J : Type) where
  pendingRequests : List ℕ
  requestIdCounter : ℕ
  settled : List (ℕ × Outcome J)
  notifications : List J
  parseErrors : ℕ

inductive IPCStep (α : Type)
  | send
  | data (chunk : α)
  | timeout (requestId : ℕ)
  | writeError (requestId : ℕ) (message : String)
deriving DecidableEq

def IPCStep.map {α β : Type} (f : α → β) : IPCStep α → IPCStep β
  | .send => .send
  | .data chunk => .data (f chunk)
  | .timeout requestId => .timeout requestId
  | .writeError requestId message => .writeError requestId message

variable {J : Type} (lib : ResponseLib J)

def ResponseLib.outcome (message : J) : Outcome J :=
  match lib.error message with
  | some error => .rejected error
  | none => .resolved (lib.data message)

namespace IPCClient

def init : IPCClient J := ⟨[], 0, [], [], 0⟩

def send (s : IPCClient J) : IPCClient J :=
  let requestId := s.requestIdCounter + 1
  { s with
    requestIdCounter := requestId
    pendingRequests := s.pendingRequests ++ [requestId] }

def settle (s : IPCClient J) (requestId : ℕ) (outcome : Outcome J) : IPCClient J :=
  if requestId ∈ s.pendingRequests then
    { s with
      pendingRequests := s.pendingRequests.erase requestId
      settled := s.settled ++ [(requestId, outcome)] }
  else s

def parseError (s : IPCClient J) : IPCClient J := { s with parseErrors := s.parseErrors + 1 }

def notify (s : IPCClient J) (message : J) : IPCClient J :=
  if lib.isNotification message then
    { s with notifications := s.notifications ++ [lib.data message] }
  else s

/-- The operator `in` throws on a value that is not an object. -/
def handleMessage (s : IPCClient J) (message : J) : IPCClient J :=
  if !lib.isObject message then s.parseError
  else
    let s' := match lib.requestId message with
      | some requestId => s.settle requestId (lib.outcome message)
      | none => s
    s'.notify lib message

def handleData (s : IPCClient J) (data : List UInt8) : IPCClient J :=
  match lib.parse data with
  | none => s.parseError
  | some message => s.handleMessage lib message

/-- The timer of a settled request is cleared, and a write error has no effect on its promise. -/
def nextWith {α : Type} (handle : IPCClient J → α → IPCClient J) (s : IPCClient J) :
    IPCStep α → Option (IPCClient J)
  | .send => some s.send
  | .data chunk => some (handle s chunk)
  | .timeout requestId =>
    if requestId ∈ s.pendingRequests then some (s.settle requestId (.rejected "Request timeout"))
    else none
  | .writeError requestId message =>
    if 1 ≤ requestId ∧ requestId ≤ s.requestIdCounter then
      some (s.settle requestId (.rejected message))
    else none

def next : IPCClient J → IPCStep (List UInt8) → Option (IPCClient J) := nextWith (handleData lib)

def settlements (s : IPCClient J) (requestId : ℕ) : List (Outcome J) :=
  (s.settled.filter fun e => e.1 = requestId).map Prod.snd

end IPCClient
end Mxrc.Webapi
