import Mxrc.Rt.ScheduleCalculator

/-!
# The cyclic executive

What a callback does to the state machine is the parameter `invoke`; the clock
and the heartbeat are inputs of each cycle. Registration is a loop whose step
may be zero or wrap, so it runs on fuel. A cycle has no result when the slot
index is outside the table.
-/

namespace Mxrc.Rt

inductive RTState
  | init
  | ready
  | running
  | paused
  | safeMode
  | error
  | shutdown
deriving DecidableEq

inductive RTEvent
  | start
  | pause
  | resume
  | stop
  | errorOccur
  | safeModeEnter
  | safeModeExit
  | reset
deriving DecidableEq

/-- The `switch` of `RTStateMachine::handleEvent`. An event without a transition keeps the state. -/
def RTState.next : RTState → RTEvent → RTState
  | init, .start => ready
  | init, .errorOccur => error
  | ready, .start => running
  | ready, .errorOccur => error
  | ready, .stop => shutdown
  | running, .pause => paused
  | running, .stop => shutdown
  | running, .errorOccur => error
  | running, .safeModeEnter => safeMode
  | paused, .resume => running
  | paused, .stop => shutdown
  | paused, .errorOccur => error
  | safeMode, .safeModeExit => running
  | safeMode, .stop => shutdown
  | safeMode, .errorOccur => error
  | error, .reset => init
  | error, .stop => shutdown
  | s, _ => s

inductive RTBusEvent
  | stateChanged (old new : RTState) (event : RTEvent)
  | safeModeEntered (timeoutMs : UInt64) (reason : String)
  | safeModeExited (downtimeMs : UInt64)
deriving DecidableEq

structure RTContext where
  currentSlot : UInt32
  cycleCount : UInt64
  timestampNs : UInt64
deriving DecidableEq

structure ActionSlot (κ : Type) where
  name : String
  periodMs : UInt32
  callback : Option κ
  guard : Option (RTState → Bool)
  nextSlot : UInt32

structure RTExecutive (κ : Type) where
  minorCycleMs : UInt32
  majorCycleMs : UInt32
  numSlots : UInt32
  running : Bool
  currentSlot : UInt32
  cycleCount : UInt64
  stateMachine : RTState
  schedule : List (List (ActionSlot κ))
  eventBus : Bool
  published : List RTBusEvent
  sharedMemory : Bool
  heartbeatMonitoringEnabled : Bool
  safeModeEnterTimeNs : UInt64
  rtHeartbeatNs : UInt64
  slots_eq : numSlots = majorCycleMs / minorCycleMs
  table_eq : schedule.length = numSlots.toNat

namespace RTExecutive
variable {κ : Type}

def publish (x : RTExecutive κ) (e : RTBusEvent) : RTExecutive κ :=
  if x.eventBus then { x with published := x.published ++ [e] } else x

def handleEvent (x : RTExecutive κ) (e : RTEvent) : Int × RTExecutive κ :=
  let new := x.stateMachine.next e
  if new = x.stateMachine then (-1, x)
  else (0, { x.publish (.stateChanged x.stateMachine new e) with
    stateMachine := new
    slots_eq := by unfold publish; split <;> exact x.slots_eq
    table_eq := by unfold publish; split <;> exact x.table_eq })

def make (minorCycleMs majorCycleMs : UInt32) (eventBus : Bool) : RTExecutive κ :=
  let x : RTExecutive κ :=
    { minorCycleMs, majorCycleMs
      numSlots := majorCycleMs / minorCycleMs
      running := false
      currentSlot := 0
      cycleCount := 0
      stateMachine := .init
      schedule := List.replicate (majorCycleMs / minorCycleMs).toNat []
      eventBus
      published := []
      sharedMemory := false
      heartbeatMonitoringEnabled := false
      safeModeEnterTimeNs := 0
      rtHeartbeatNs := 0
      slots_eq := rfl
      table_eq := by simp }
  (x.handleEvent .start).2

def createFromPeriods (periodsMs : List UInt32) (eventBus : Bool) : Option (RTExecutive κ) :=
  match ScheduleCalculator.calculate periodsMs with
  | .ok params => some (make params.minorCycleMs params.majorCycleMs eventBus)
  | .error _ => none

/-- The slot-filling loop, one unit of fuel for each test of its condition. -/
def fillSlots (numSlots slotInterval : UInt32) (action : ActionSlot κ) :
    ℕ → UInt32 → List (List (ActionSlot κ)) → Option (List (List (ActionSlot κ)))
  | 0, _, _ => none
  | fuel + 1, slot, schedule =>
    if slot < numSlots then
      fillSlots numSlots slotInterval action fuel (slot + slotInterval)
        (schedule.modify slot.toNat (· ++ [action]))
    else some schedule

lemma fillSlots_length {numSlots slotInterval : UInt32} {action : ActionSlot κ} {fuel : ℕ}
    {slot : UInt32} {schedule schedule' : List (List (ActionSlot κ))}
    (h : fillSlots numSlots slotInterval action fuel slot schedule = some schedule') :
    schedule'.length = schedule.length := by
  induction fuel generalizing slot schedule with
  | zero => simp [fillSlots] at h
  | succ fuel ih =>
    rw [fillSlots] at h
    split_ifs at h with hs
    · simpa using ih h
    · cases h
      rfl

structure Registration (κ : Type) where
  name : String
  periodMs : UInt32
  callback : Option κ
  guard : Option (RTState → Bool)

def registerAction (fuel : ℕ) (x : RTExecutive κ) (r : Registration κ) :
    Option (Int × RTExecutive κ) :=
  if r.periodMs % x.minorCycleMs ≠ 0 then some (-1, x)
  else
    let slotInterval := r.periodMs / x.minorCycleMs
    let action : ActionSlot κ := ⟨r.name, r.periodMs, r.callback, r.guard, slotInterval⟩
    match h : fillSlots x.numSlots slotInterval action fuel 0 x.schedule with
    | none => none
    | some schedule =>
      some (0, { x with schedule, table_eq := (fillSlots_length h).trans x.table_eq })

def executeSlot (invoke : κ → RTContext → RTState → RTState) (context : RTContext) :
    List (ActionSlot κ) → RTState → List κ × RTState
  | [], st => ([], st)
  | action :: actions, st =>
    if action.guard.any (fun guard => !guard st) then executeSlot invoke context actions st
    else
      match action.callback with
      | none => executeSlot invoke context actions st
      | some callback =>
        let r := executeSlot invoke context actions (invoke callback context st)
        (callback :: r.1, r.2)

structure CycleInput where
  nowNs : UInt64
  nonrtHeartbeatNs : UInt64

def heartbeatTimeoutNs : UInt64 := 500000000

def enterSafeMode (x : RTExecutive κ) (nowNs elapsedNs : UInt64) : RTExecutive κ :=
  let x := { x with safeModeEnterTimeNs := nowNs }
  ((x.publish (.safeModeEntered (elapsedNs / 1000000) "Non-RT heartbeat timeout")).handleEvent
    .safeModeEnter).2

def exitSafeMode (x : RTExecutive κ) (nowNs : UInt64) : RTExecutive κ :=
  let x' := if 0 < x.safeModeEnterTimeNs
    then x.publish (.safeModeExited ((nowNs - x.safeModeEnterTimeNs) / 1000000)) else x
  { (x'.handleEvent .safeModeExit).2 with safeModeEnterTimeNs := 0 }

def checkHeartbeat (x : RTExecutive κ) (inp : CycleInput) : RTExecutive κ :=
  if x.heartbeatMonitoringEnabled && x.sharedMemory then
    let timeSinceLastHb := inp.nowNs - inp.nonrtHeartbeatNs
    let x' :=
      if heartbeatTimeoutNs < timeSinceLastHb then
        if x.stateMachine = .running then x.enterSafeMode inp.nowNs timeSinceLastHb else x
      else if x.stateMachine = .safeMode then x.exitSafeMode inp.nowNs
      else x
    { x' with rtHeartbeatNs := inp.nowNs }
  else x

structure RunLoop (κ : Type) where
  executive : RTExecutive κ
  cycleStartNs : UInt64

def enterRun (x : RTExecutive κ) (nowNs : UInt64) : RunLoop κ :=
  let x := if x.stateMachine = .ready then (x.handleEvent .start).2 else x
  ⟨{ x with running := true, currentSlot := 0, cycleCount := 0 }, nowNs⟩

def nextSlot (x : RTExecutive κ) (st : RTState) (cycleStartNs : UInt64) : RunLoop κ :=
  ⟨{ x with
      stateMachine := st
      currentSlot := (x.currentSlot + 1) % x.numSlots
      cycleCount := x.cycleCount + 1 },
    cycleStartNs + x.minorCycleMs.toUInt64 * 1000000⟩

def cycle (invoke : κ → RTContext → RTState → RTState) (inp : CycleInput) (r : RunLoop κ) :
    Option (List κ × RunLoop κ) :=
  let context : RTContext := ⟨r.executive.currentSlot, r.executive.cycleCount, r.cycleStartNs⟩
  let x := r.executive.checkHeartbeat inp
  match x.schedule[x.currentSlot.toNat]? with
  | none => none
  | some actions =>
    let ran := executeSlot invoke context actions x.stateMachine
    some (ran.1, x.nextSlot ran.2 r.cycleStartNs)

def afterCycles (invoke : κ → RTContext → RTState → RTState) (inp : ℕ → CycleInput)
    (r : RunLoop κ) : ℕ → Option (RunLoop κ)
  | 0 => some r
  | n + 1 => (afterCycles invoke inp r n).bind fun r => (cycle invoke (inp n) r).map Prod.snd

def executedIn (invoke : κ → RTContext → RTState → RTState) (inp : ℕ → CycleInput)
    (r : RunLoop κ) (n : ℕ) : Option (List κ) :=
  (afterCycles invoke inp r n).bind fun r => (cycle invoke (inp n) r).map Prod.fst

end RTExecutive
end Mxrc.Rt
