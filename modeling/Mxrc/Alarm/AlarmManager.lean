import Mxrc.Lib.Maps
import Mxrc.Lib.Runs

/-!
# The alarm manager

Alarms are stored under an id made of their code and the millisecond of their
creation. Times are nanoseconds of the system clock, inputs of each call. The
published events are the list `events`; the copies in the data store are left
out.
-/

namespace Mxrc.Alarm
open Mxrc.Lib

inductive AlarmSeverity
  | critical
  | warning
  | info
deriving DecidableEq

instance : Fintype AlarmSeverity :=
  ⟨{.critical, .warning, .info}, fun severity => by cases severity <;> decide⟩

def AlarmSeverity.toNat : AlarmSeverity → ℕ
  | .critical => 0
  | .warning => 1
  | .info => 2

inductive AlarmState
  | active
  | acknowledged
  | resolved
deriving DecidableEq

structure AlarmDto where
  alarmId : String
  alarmCode : String
  alarmName : String
  severity : AlarmSeverity
  state : AlarmState
  timestamp : ℤ
  details : Option String
  source : String
  recurrenceCount : UInt32
  acknowledgedTime : Option ℤ
  acknowledgedBy : Option String
  resolvedTime : Option ℤ
deriving DecidableEq

def AlarmDto.idFor (code : String) (timestamp : ℤ) : String :=
  code ++ "_" ++ toString (timestamp.tdiv 1000000)

def AlarmDto.make (code name : String) (severity : AlarmSeverity) (source : String)
    (timestamp : ℤ) : AlarmDto :=
  ⟨idFor code timestamp, code, name, severity, .active, timestamp, none, source, 0, none, none,
    none⟩

def AlarmDto.isActive (a : AlarmDto) : Bool := a.state = .active

def AlarmDto.acknowledge (a : AlarmDto) (acknowledgedBy : String) (now : ℤ) : AlarmDto :=
  if a.state = .active then
    { a with
      state := .acknowledged, acknowledgedTime := some now, acknowledgedBy := some acknowledgedBy }
  else a

def AlarmDto.resolve (a : AlarmDto) (now : ℤ) : AlarmDto :=
  if a.state ≠ .resolved then { a with state := .resolved, resolvedTime := some now } else a

structure AlarmConfig where
  name : String
  severity : AlarmSeverity
  recurrenceWindow : ℤ
  recurrenceThreshold : UInt32
deriving DecidableEq

abbrev AlarmConfiguration := AList (fun _ : String => AlarmConfig)

def shouldEscalateSeverity (config : AlarmConfiguration) (code : String)
    (recurrenceCount : UInt32) : AlarmSeverity :=
  match config.lookup code with
  | none => .info
  | some c =>
    if c.recurrenceThreshold ≤ recurrenceCount then
      match c.severity with
      | .info => .warning
      | .warning => .critical
      | .critical => .critical
    else c.severity

structure AlarmStats where
  totalRaised : ℕ
  activeCount : ℕ
  resolvedCount : ℕ
  criticalCount : ℕ
  warningCount : ℕ
  infoCount : ℕ
deriving DecidableEq

def AlarmStats.update (st : AlarmStats) (severity : AlarmSeverity) (f : ℕ → ℕ) : AlarmStats :=
  match severity with
  | .critical => { st with criticalCount := f st.criticalCount }
  | .warning => { st with warningCount := f st.warningCount }
  | .info => { st with infoCount := f st.infoCount }

inductive AlarmEvent
  | raised (alarm : AlarmDto)
  | escalated (id code : String) (oldSeverity newSeverity : AlarmSeverity)
      (recurrenceCount : UInt32)
  | cleared (id code : String)
deriving DecidableEq

structure AlarmManager where
  alarms : AList (fun _ : String => AlarmDto)
  lastOccurrence : AList (fun _ : String => ℤ)
  recurrenceCount : AList (fun _ : String => UInt32)
  alarmHistory : List AlarmDto
  stats : AlarmStats
  events : List AlarmEvent

namespace AlarmManager

def maxHistorySize : ℕ := 1000

def init : AlarmManager := ⟨∅, ∅, ∅, [], ⟨0, 0, 0, 0, 0, 0⟩, []⟩

def addToHistory (s : AlarmManager) (alarm : AlarmDto) : AlarmManager :=
  let history := s.alarmHistory ++ [alarm]
  { s with alarmHistory := if maxHistorySize < history.length then history.tail else history }

def checkRecurrence (s : AlarmManager) (config : AlarmConfig) (code : String) (now : ℤ) :
    UInt32 × AlarmManager :=
  let count : UInt32 := match s.lastOccurrence.lookup code with
    | some last =>
      if (now - last).tdiv 1000000000 ≤ config.recurrenceWindow then
        ((s.recurrenceCount.lookup code).getD 0) + 1
      else 1
    | none => 1
  (count, { s with
    recurrenceCount := s.recurrenceCount.insert code count
    lastOccurrence := s.lastOccurrence.insert code now })

/-- The clock is read twice, for the recurrence and for the alarm itself. -/
def raiseAlarm (s : AlarmManager) (config : AlarmConfiguration) (code source : String)
    (details : Option String) (now created : ℤ) : Option AlarmDto × AlarmManager :=
  match config.lookup code with
  | none => (none, s)
  | some c =>
    let (recurrence, s) := s.checkRecurrence c code now
    let severity := shouldEscalateSeverity config code recurrence
    let alarm := { AlarmDto.make code c.name severity source created with
      details, recurrenceCount := recurrence }
    let stats := { s.stats with
      totalRaised := s.stats.totalRaised + 1, activeCount := s.stats.activeCount + 1 }
    let s := { s with
      alarms := s.alarms.insert alarm.alarmId alarm
      stats := stats.update severity (· + 1) }
    let event : AlarmEvent :=
      if c.severity.toNat < severity.toNat && 1 < recurrence then
        .escalated alarm.alarmId code c.severity severity recurrence
      else .raised alarm
    (some alarm, { s.addToHistory alarm with events := s.events ++ [event] })

def acknowledgeAlarm (s : AlarmManager) (id acknowledgedBy : String) (now : ℤ) :
    Bool × AlarmManager :=
  ((s.alarms.lookup id).isSome,
    { s with alarms := modify s.alarms id (·.acknowledge acknowledgedBy now) })

def resolveAlarm (s : AlarmManager) (id : String) (now : ℤ) : Bool × AlarmManager :=
  match s.alarms.lookup id with
  | none => (false, s)
  | some alarm =>
    if alarm.isActive then
      let stats := { s.stats with
        activeCount := s.stats.activeCount - 1, resolvedCount := s.stats.resolvedCount + 1 }
      let s := { s with
        alarms := s.alarms.insert id (alarm.resolve now)
        stats := stats.update alarm.severity (· - 1) }
      (true, { s.addToHistory (alarm.resolve now) with
        events := s.events ++ [.cleared id alarm.alarmCode] })
    else (false, s)

def resetAllAlarms (s : AlarmManager) (now : String → ℤ) : ℕ × AlarmManager :=
  let reset := count AlarmDto.isActive s.alarms
  (reset, { s with
    alarms := mapValues (fun id a => if a.isActive then a.resolve (now id) else a) s.alarms
    stats := { s.stats with
      activeCount := 0, criticalCount := 0, warningCount := 0, infoCount := 0
      resolvedCount := s.stats.resolvedCount + reset } })

def hasCriticalAlarm (s : AlarmManager) : Bool := 0 < s.stats.criticalCount

inductive Label
  | raiseAlarm (code source : String) (details : Option String) (now created : ℤ)
  | acknowledgeAlarm (id acknowledgedBy : String) (now : ℤ)
  | resolveAlarm (id : String) (now : ℤ)
  | resetAllAlarms (now : String → ℤ)

variable (config : AlarmConfiguration)

def after (s : AlarmManager) : Label → AlarmManager
  | .raiseAlarm code source details now created =>
    (s.raiseAlarm config code source details now created).2
  | .acknowledgeAlarm id acknowledgedBy now => (s.acknowledgeAlarm id acknowledgedBy now).2
  | .resolveAlarm id now => (s.resolveAlarm id now).2
  | .resetAllAlarms now => (s.resetAllAlarms now).2

def next (s : AlarmManager) (l : Label) : Option AlarmManager := some (s.after config l)

lemma exists_run (ls : List Label) :
    ∃ s, Run (next config) (fun _ _ => True) init ls s := by
  induction ls using List.reverseRecOn with
  | nil => exact ⟨init, .nil⟩
  | append_singleton ls l ih =>
    obtain ⟨s, hs⟩ := ih
    exact ⟨s.after config l, hs.snoc trivial rfl⟩

end AlarmManager
end Mxrc.Alarm
