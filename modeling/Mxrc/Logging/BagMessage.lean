import Mxrc.Lib.Json

/-!
# Messages of a bag file

A message is one line of the file, a JSON object. The value is kept as JSON text;
what is read back has the text in the form in which the library prints it.
-/

namespace Mxrc.Logging
open Mxrc.Lib

inductive DataType
  | robotMode
  | interfaceData
  | config
  | para
  | alarm
  | event
  | missionState
  | taskState
deriving DecidableEq

def dataTypeToString : DataType → String
  | .robotMode => "RobotMode"
  | .interfaceData => "InterfaceData"
  | .config => "Config"
  | .para => "Para"
  | .alarm => "Alarm"
  | .event => "Event"
  | .missionState => "MissionState"
  | .taskState => "TaskState"

def stringToDataType (str : String) : Except String DataType :=
  if str = "RobotMode" then .ok .robotMode
  else if str = "InterfaceData" then .ok .interfaceData
  else if str = "Config" then .ok .config
  else if str = "Para" then .ok .para
  else if str = "Alarm" then .ok .alarm
  else if str = "Event" then .ok .event
  else if str = "MissionState" then .ok .missionState
  else if str = "TaskState" then .ok .taskState
  else .error ("Unknown DataType: " ++ str)

lemma stringToDataType_dataTypeToString (type : DataType) :
    stringToDataType (dataTypeToString type) = .ok type := by
  cases type <;> rfl

structure BagMessage where
  timestampNs : Int64
  topic : String
  dataType : DataType
  serializedValue : List UInt8
deriving DecidableEq

namespace BagMessage
variable {J : Type} (codec : JsonCodec J)

def parseValue (text : List UInt8) : Except String J :=
  match codec.parse text with
  | .ok j => .ok j
  | .error (.parseError what) => .error what
  | .error (.other what) => .error what

def document (msg : BagMessage) (value : J) : J :=
  codec.object [("timestamp", codec.ofLong msg.timestampNs), ("topic", codec.ofString msg.topic),
    ("type", codec.ofString (dataTypeToString msg.dataType)), ("value", value)]

def toJson (msg : BagMessage) : Except String J := do
  let value ← parseValue codec msg.serializedValue
  return msg.document codec value

def fromJson (j : J) : Except String BagMessage := do
  let timestampNs ← codec.getLong (codec.field j "timestamp")
  let topic ← codec.getString (codec.field j "topic")
  let type ← codec.getString (codec.field j "type")
  let dataType ← stringToDataType type
  let serializedValue ← codec.dump (codec.field j "value")
  return { timestampNs, topic, dataType, serializedValue }

def toJsonLine (msg : BagMessage) : Except String (List UInt8) := do
  let text ← codec.dump (← msg.toJson codec)
  return text ++ [10]

def popBack (c : UInt8) (line : List UInt8) : List UInt8 :=
  if line.getLast? = some c then line.dropLast else line

def fromJsonLine (line : List UInt8) : Except String BagMessage := do
  let j ← parseValue codec (popBack 13 (popBack 10 line))
  fromJson codec j

def normalise (msg : BagMessage) : Except String BagMessage := do
  let value ← parseValue codec msg.serializedValue
  let serializedValue ← codec.dump value
  return { msg with serializedValue }

variable {codec} {msg : BagMessage} {line text : List UInt8}

lemma popBack_of_printable {c : UInt8} (hc : c < 32) (htext : ∀ b ∈ text, 32 ≤ b) :
    popBack c text = text := by
  rw [popBack, if_neg]
  intro hlast
  have hmem := htext c (List.mem_of_getLast? hlast)
  exact UInt8.lt_irrefl c (UInt8.lt_of_lt_of_le hc hmem)

lemma parseValue_eq_ok {j : J} : parseValue codec text = .ok j ↔ codec.parse text = .ok j := by
  unfold parseValue
  split <;> simp [*]

lemma fromJson_document {value : J} {normal : List UInt8}
    (hdump : codec.dump value = .ok normal) :
    fromJson codec (msg.document codec value) = .ok { msg with serializedValue := normal } := by
  simp only [fromJson, document]
  rw [codec.field_object rfl, codec.field_object rfl, codec.field_object rfl,
    codec.field_object rfl, codec.getLong_ofLong, codec.getString_ofString,
    codec.getString_ofString, hdump]
  simp only [bind, Except.bind, stringToDataType_dataTypeToString, pure, Except.pure]

lemma toJsonLine_eq_ok (h : msg.toJsonLine codec = .ok line) :
    ∃ text normal, line = text ++ [10] ∧ text ≠ [] ∧ (∀ b ∈ text, 32 ≤ b) ∧
      fromJsonLine codec text = .ok normal ∧ msg.normalise codec = .ok normal := by
  cases hvl : parseValue codec msg.serializedValue with
  | error what => simp [toJsonLine, toJson, hvl, bind, Except.bind] at h
  | ok value =>
    cases hdump : codec.dump (msg.document codec value) with
    | error what =>
      simp [toJsonLine, toJson, hvl, hdump, bind, Except.bind, pure, Except.pure] at h
    | ok text =>
      have hline : line = text ++ [10] := by
        simp only [toJsonLine, toJson, hvl, hdump, bind, Except.bind, pure, Except.pure,
          Except.ok.injEq] at h
        exact h.symm
      obtain ⟨hne, hprin⟩ := codec.printable_dump hdump
      have hfin : codec.Finite (msg.document codec value) := by
        refine codec.finite_object fun f hf => ?_
        simp only [List.mem_cons, List.not_mem_nil, or_false] at hf
        rcases hf with rfl | rfl | rfl | rfl
        · exact codec.finite_ofLong _
        · exact codec.finite_ofString _
        · exact codec.finite_ofString _
        · exact codec.finite_parse (parseValue_eq_ok.mp hvl)
      obtain ⟨normal, hnor⟩ : ∃ normal, codec.dump value = .ok normal := by
        have hok := codec.dump_member hdump ("value", value) (by simp)
        cases hnor : codec.dump value with
        | error what => simp [hnor, Except.isOk, Except.toBool] at hok
        | ok normal => exact ⟨normal, rfl⟩
      refine ⟨text, { msg with serializedValue := normal }, hline, hne, hprin, ?_, ?_⟩
      · rw [fromJsonLine, popBack_of_printable (by decide) hprin,
          popBack_of_printable (by decide) hprin,
          parseValue_eq_ok.mpr (codec.parse_dump hfin hdump)]
        exact fromJson_document hnor
      · simp only [normalise, hvl, hnor, bind, Except.bind, pure, Except.pure]

end BagMessage

/-! A library that can print and parse one message and the documents in it. -/

def ascii (text : String) : List UInt8 := text.toList.map fun c => UInt8.ofNat c.toNat

def sampleMessage : BagMessage := ⟨5, "pose", .event, ascii "1"⟩

def sampleText : List UInt8 :=
  ascii "\x7b\"timestamp\":5,\"topic\":\"pose\",\"type\":\"Event\",\"value\":1\x7d"

def sampleDump : JsonValue → Except String (List UInt8)
  | .integer 1 => .ok (ascii "1")
  | .integer 5 => .ok (ascii "5")
  | .string "pose" => .ok (ascii "\"pose\"")
  | .string "Event" => .ok (ascii "\"Event\"")
  | .object [("timestamp", .integer 5), ("topic", .string "pose"), ("type", .string "Event"),
      ("value", .integer 1)] => .ok sampleText
  | _ => .error "not printed"

def sampleParse (text : List UInt8) : Except ParseFailure JsonValue :=
  if text = ascii "1" then .ok (.integer 1)
  else if text = ascii "5" then .ok (.integer 5)
  else if text = ascii "\"pose\"" then .ok (.string "pose")
  else if text = ascii "\"Event\"" then .ok (.string "Event")
  else if text = sampleText then .ok (.object [("timestamp", .integer 5),
    ("topic", .string "pose"), ("type", .string "Event"), ("value", .integer 1)])
  else .error (.parseError "not parsed")

def sampleCodec : JsonCodec JsonValue where
  toJsonLib := JsonValue.lib sampleParse
  ofLong n := .integer n.toInt
  ofString text := .string text
  object fields := .object fields
  dump := sampleDump
  Finite _ := True
  finite_parse _ := trivial
  finite_ofLong _ := trivial
  finite_ofString _ := trivial
  finite_object _ := trivial
  parse_dump _ h := by
    unfold sampleDump at h
    split at h <;> cases h <;> rfl
  printable_dump {_ text} h := by
    suffices hall : text.isEmpty = false ∧ text.all (32 ≤ ·) = true by simpa using hall
    unfold sampleDump at h
    split at h <;> cases h <;> exact ⟨rfl, rfl⟩
  dump_member h := by
    unfold sampleDump at h
    split at h <;> cases h <;> rename_i hobject <;> cases hobject
    decide +kernel
  field_object h := by simp [JsonValue.lib, JsonValue.field?, h]
  getLong_ofLong n := by simp [JsonValue.lib]
  getString_ofString _ := rfl

end Mxrc.Logging
