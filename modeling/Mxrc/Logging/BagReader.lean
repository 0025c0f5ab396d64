import Mxrc.Logging.BagMessage
import Mxrc.Logging.Indexer

/-!
# Reading a bag file

The reader has the contents of the open file and the part `rest` that its stream
has not delivered yet. At the end of the file `tellg` is -1 after
`std::getline`. The loops take fuel from the number of bytes that are left.
-/

namespace Mxrc.Logging
open Mxrc.Lib List

structure BagReader where
  ifs : Option (List UInt8) := none
  rest : List UInt8 := []
  footer : BagFooter := {}
  indexer : List IndexEntry := []
  topicFilter : String := ""
  currentPosition : UInt64 := 0

def getline : List UInt8 → List UInt8 × Option (List UInt8)
  | [] => ([], none)
  | b :: bs => if b = 10 then ([], some bs) else ((getline bs).1.cons b, (getline bs).2)

namespace BagReader
variable {J : Type} (codec : JsonCodec J) (r : BagReader)

def close : BagReader := { footer := r.footer }

def seekToStart : BagReader :=
  match r.ifs with
  | none => r
  | some bytes => { r with rest := bytes, currentPosition := 0 }

def openFile (file : Option (List UInt8)) : Except String (Bool × BagReader) :=
  let r := if r.ifs.isSome then r.close else r
  match file with
  | none => .ok (false, r)
  | some bytes =>
    match Indexer.readFromFile r.indexer file with
    | .error what => .error what
    | .ok (footer, indexer) =>
      let r := { r with ifs := some bytes, rest := bytes, footer, indexer }
      if !footer.isValid then .ok (false, r.close)
      else if !footer.isSupportedVersion then .ok (false, r.close)
      else .ok (true, r.seekToStart)

def isInDataArea : Bool := r.ifs.isSome && r.currentPosition < r.footer.indexOffset

def hasNext : Bool := r.ifs.isSome && r.isInDataArea

def getlineStep : List UInt8 × BagReader :=
  match getline r.rest with
  | (line, some rest) => (line, { r with
      rest, currentPosition := UInt64.ofNat ((r.ifs.getD []).length - rest.length) })
  | (line, none) => (line, { r with rest := [], currentPosition := -1 })

def readLineLoop : ℕ → BagReader → Option (List UInt8) × BagReader
  | 0, r => (none, r)
  | fuel + 1, r =>
    if !r.isInDataArea then (none, r)
    else if r.getlineStep.1 = [] then readLineLoop fuel r.getlineStep.2
    else (some r.getlineStep.1, r.getlineStep.2)

def readLine : Option (List UInt8) × BagReader := readLineLoop (r.rest.length + 2) r

/-- Lines that cannot be parsed and messages of other topics are skipped. -/
def readNextLoop : ℕ → BagReader → Option BagMessage × BagReader
  | 0, r => (none, r)
  | fuel + 1, r =>
    if !r.isInDataArea then (none, r)
    else
      match r.readLine with
      | (none, r) => (none, r)
      | (some line, r) =>
        match BagMessage.fromJsonLine codec line with
        | .error _ => readNextLoop fuel r
        | .ok msg =>
          if r.topicFilter ≠ "" ∧ msg.topic ≠ r.topicFilter then readNextLoop fuel r
          else (some msg, r)

def readNext : Option BagMessage × BagReader :=
  if !r.hasNext then (none, r) else readNextLoop codec (r.rest.length + 2) r

def readAllLoop : ℕ → BagReader → List BagMessage
  | 0, _ => []
  | fuel + 1, r =>
    if !r.hasNext then []
    else (r.readNext codec).1.toList ++ readAllLoop fuel (r.readNext codec).2

def readAll : List BagMessage := readAllLoop codec (r.rest.length + 2) r

def getMessageCount : ℕ := r.indexer.length

end BagReader

lemma getline_append {text : List UInt8} (htext : 10 ∉ text) (rest : List UInt8) :
    getline (text ++ 10 :: rest) = (text, some rest) := by
  induction text with
  | nil => simp [getline]
  | cons b bs ih =>
    simp only [mem_cons, not_or] at htext
    rw [cons_append, getline, if_neg (Ne.symm htext.1), ih htext.2]

def dataArea (texts : List (List UInt8)) : List UInt8 := (texts.map (· ++ [10])).flatten

lemma dataArea_cons (text : List UInt8) (texts : List (List UInt8)) (tail : List UInt8) :
    dataArea (text :: texts) ++ tail = text ++ 10 :: (dataArea texts ++ tail) := by
  simp [dataArea]

lemma length_le_dataArea (texts : List (List UInt8)) :
    texts.length ≤ (dataArea texts).length := by
  induction texts with
  | nil => exact Nat.zero_le _
  | cons text texts ih =>
    have hlen := congrArg List.length (dataArea_cons text texts [])
    simp only [append_nil, length_append, length_cons] at hlen ⊢
    omega

namespace BagReader
variable {J : Type} {codec : JsonCodec J} {r : BagReader} {bytes tail text : List UInt8}
  {texts : List (List UInt8)}

structure Facing (r : BagReader) (bytes : List UInt8) (texts : List (List UInt8))
    (tail : List UInt8) : Prop where
  ifs : r.ifs = some bytes
  rest : r.rest = dataArea texts ++ tail
  position : r.currentPosition.toNat + r.rest.length = bytes.length
  offset : r.footer.indexOffset.toNat + tail.length = bytes.length
  topicFilter : r.topicFilter = ""
  small : bytes.length < 2 ^ 64

lemma Facing.isInDataArea (h : Facing r bytes texts tail) :
    r.isInDataArea = true ↔ texts ≠ [] := by
  have hposit := h.position
  have hoff := h.offset
  have hlen := length_le_dataArea texts
  rw [h.rest, length_append] at hposit
  rw [BagReader.isInDataArea, h.ifs]
  simp only [Option.isSome_some, Bool.true_and, decide_eq_true_eq, UInt64.lt_iff_toNat_lt]
  constructor
  · rintro hlt rfl
    simp only [dataArea, map_nil, flatten_nil, length_nil] at hposit
    omega
  · intro hne
    have hpos : 0 < texts.length := length_pos_of_ne_nil hne
    omega

lemma Facing.hasNext (h : Facing r bytes texts tail) : r.hasNext = r.isInDataArea := by
  simp [BagReader.hasNext, h.ifs]

lemma Facing.readLine (h : Facing r bytes (text :: texts) tail) (hne : text ≠ [])
    (htext : 10 ∉ text) :
    ∃ r', r.readLine = (some text, r') ∧ Facing r' bytes texts tail := by
  have hrest : r.rest = text ++ 10 :: (dataArea texts ++ tail) := by rw [h.rest, dataArea_cons]
  have hposit := h.position
  rw [hrest] at hposit
  simp only [length_append, length_cons] at hposit
  have hstep : r.getlineStep = (text, { r with
      rest := dataArea texts ++ tail
      currentPosition := UInt64.ofNat (bytes.length - (dataArea texts ++ tail).length) }) := by
    simp only [getlineStep, hrest, getline_append htext, h.ifs, Option.getD_some]
  refine ⟨r.getlineStep.2, ?_, ?_⟩
  · have hin := h.isInDataArea.mpr (cons_ne_nil _ _)
    rw [BagReader.readLine, readLineLoop, hin, Bool.not_true, if_neg Bool.false_ne_true, hstep,
      if_neg hne]
  · rw [hstep]
    refine ⟨h.ifs, rfl, ?_, h.offset, h.topicFilter, h.small⟩
    have hsml := h.small
    rw [UInt64.toNat_ofNat_of_lt' (by norm_num [UInt64.size]; omega)]
    simp only [length_append]
    omega

lemma Facing.readNext (h : Facing r bytes (text :: texts) tail) (hne : text ≠ [])
    (htext : 10 ∉ text) {msg : BagMessage} (hmsg : BagMessage.fromJsonLine codec text = .ok msg) :
    ∃ r', r.readNext codec = (some msg, r') ∧ Facing r' bytes texts tail := by
  obtain ⟨r', hread, hfac⟩ := h.readLine hne htext
  have hin := h.isInDataArea.mpr (cons_ne_nil _ _)
  refine ⟨r', ?_, hfac⟩
  rw [BagReader.readNext, h.hasNext, hin, Bool.not_true, if_neg Bool.false_ne_true, readNextLoop,
    hin, Bool.not_true, if_neg Bool.false_ne_true, hread]
  simp only [hmsg, hfac.topicFilter]
  simp

variable {msgs : List BagMessage} {entries : List IndexEntry} {dataSize : UInt64}

lemma Facing.readAllLoop (h : Facing r bytes texts tail)
    (htex : ∀ text ∈ texts, text ≠ [] ∧ 10 ∉ text)
    (hmsgs : texts.map (BagMessage.fromJsonLine codec) = msgs.map .ok) {fuel : ℕ}
    (hfuel : texts.length < fuel) : readAllLoop codec fuel r = msgs := by
  induction texts generalizing r msgs fuel with
  | nil =>
    obtain ⟨fuel, rfl⟩ : ∃ n, fuel = n + 1 := ⟨fuel - 1, by simp at hfuel; omega⟩
    have hmsgs : msgs = [] := by simpa [eq_comm] using hmsgs
    have hin : r.isInDataArea = false := by
      rw [← Bool.not_eq_true, h.isInDataArea]
      simp
    rw [BagReader.readAllLoop, h.hasNext, hin, hmsgs]
    rfl
  | cons text texts ih =>
    obtain ⟨fuel, rfl⟩ : ∃ n, fuel = n + 1 := ⟨fuel - 1, by simp at hfuel; omega⟩
    cases msgs with
    | nil => simp at hmsgs
    | cons msg msgs =>
      simp only [map_cons, List.cons.injEq] at hmsgs
      obtain ⟨hne, htext⟩ := htex text mem_cons_self
      obtain ⟨r', hread, hfac⟩ := h.readNext hne htext hmsgs.1
      have hin := h.isInDataArea.mpr (cons_ne_nil _ _)
      rw [BagReader.readAllLoop, h.hasNext, hin, Bool.not_true, if_neg Bool.false_ne_true, hread,
        ih hfac (fun text' hmem => htex text' (mem_cons_of_mem _ hmem)) hmsgs.2
          (by simpa using hfuel)]
      rfl

lemma openFile_facing
    (hbs : bytes = dataArea texts ++
      Indexer.writeToFile entries (dataArea texts).length dataSize)
    (hsize : bytes.length < 2 ^ 63) :
    ∃ r, openFile {} (some bytes) = .ok (true, r) ∧ r.indexer = entries ∧ r.rest = bytes ∧
      Facing r bytes texts (Indexer.writeToFile entries (dataArea texts).length dataSize) := by
  have hlen : bytes.length = (dataArea texts).length + 16 * entries.length + 64 := by
    rw [hbs, Indexer.writeToFile, length_append, length_append,
      Indexer.length_indexBlock, Indexer.sized_footer.length_toBytes]
    omega
  have hread := Indexer.readFromFile_writeToFile [] entries (dataArea texts) dataSize (by omega)
  have hidx : (if entries = [] then [] else entries) = entries := by
    split_ifs with hemp
    · exact hemp.symm
    · rfl
  rw [← hbs, hidx] at hread
  let r : BagReader :=
    { ifs := some bytes
      rest := bytes
      footer := Indexer.footer entries (dataArea texts).length dataSize
      indexer := entries }
  have hopen : openFile {} (some bytes) = .ok (true, r) := by
    simp only [openFile, Option.isSome_none, Bool.false_eq_true, if_false, hread]
    rfl
  refine ⟨r, hopen, rfl, rfl, rfl, hbs, Nat.zero_add _, ?_, rfl, by omega⟩
  rw [Indexer.toNat_indexOffset_footer (by omega), hbs, length_append]

lemma openFile_finished (htex : ∀ text ∈ texts, text ≠ [] ∧ 10 ∉ text)
    (hmsgs : texts.map (BagMessage.fromJsonLine codec) = msgs.map .ok)
    (hbs : bytes = dataArea texts ++
      Indexer.writeToFile entries (dataArea texts).length dataSize)
    (hsize : bytes.length < 2 ^ 63) :
    ∃ r, openFile {} (some bytes) = .ok (true, r) ∧ r.readAll codec = msgs ∧
      r.getMessageCount = entries.length := by
  obtain ⟨r, hopen, hidx, hrest, hfac⟩ := openFile_facing hbs hsize
  have hfuel := length_le_dataArea texts
  have hlen := congrArg List.length hbs
  rw [length_append] at hlen
  refine ⟨r, hopen, hfac.readAllLoop htex hmsgs ?_, by rw [getMessageCount, hidx]⟩
  rw [hrest]
  omega

end BagReader
end Mxrc.Logging
