import Mxrc.Lib.BinarySearch
import Mxrc.Logging.Readback

/-!
# Replaying a bag file

`start` puts the reader where the index finds the start time, and the thread
hands every message from there on that passes the filters to the callback.
`appendAsync` makes no entries, and the search takes them to be sorted.
Statistics and waiting are left out.
-/

namespace Mxrc.Logging
open Mxrc.Lib AsyncWriter List Option

namespace Indexer

def below (entries : List IndexEntry) (timestampNs : UInt64) (i : ℕ) : Bool :=
  entries[i]?.any (·.timestampNs < timestampNs)

def entryAt (entries : List IndexEntry) (timestampNs : UInt64) (it : ℕ) : Option IndexEntry :=
  if it = 0 then entries[0]?
  else if it = entries.length ∨ entries[it]?.map (·.timestampNs) ≠ some timestampNs then
    entries[it - 1]?
  else entries[it]?

/-- `none` if there are no entries. The bisection is done as in the library, also on unsorted
entries. -/
def findByTimestamp (entries : List IndexEntry) (timestampNs : UInt64) : Option IndexEntry :=
  entryAt entries timestampNs (lowerBound (below entries timestampNs) entries.length)

variable {entries : List IndexEntry}

lemma below_mono (hsrt : entries.Pairwise (·.timestampNs ≤ ·.timestampNs))
    (timestampNs : UInt64) (i j : ℕ) (hij : i ≤ j) (hj : below entries timestampNs j = true) :
    below entries timestampNs i = true := by
  obtain ⟨entry, hent, hlt⟩ := (Option.any_eq_true _ _).mp hj
  obtain ⟨hjlt, rfl⟩ := List.getElem?_eq_some_iff.mp hent
  rw [below, getElem?_eq_getElem (lt_of_le_of_lt hij hjlt), any_some]
  rcases Nat.eq_or_lt_of_le hij with rfl | hlt'
  · exact hlt
  · have hle := pairwise_iff_getElem.mp hsrt i j (by omega) hjlt hlt'
    rw [decide_eq_true_eq] at hlt ⊢
    exact UInt64.lt_of_le_of_lt hle hlt

lemma below_eq_false {timestampNs : UInt64} {i : ℕ} (hi : entries.length ≤ i) :
    below entries timestampNs i = false := by
  rw [below, getElem?_eq_none hi]
  rfl

end Indexer

/-- `none` if the stream cannot be positioned, as the offset is negative as a `streamoff`. -/
def BagReader.seekToTimestamp (r : BagReader) (timestampNs : UInt64) : Option (Bool × BagReader) :=
  match r.ifs, Indexer.findByTimestamp r.indexer timestampNs with
  | some bytes, some entry =>
    if 2 ^ 63 ≤ entry.fileOffset.toNat then none
    else some (true, { r with
      rest := bytes.drop entry.fileOffset.toNat, currentPosition := entry.fileOffset })
  | _, _ => some (false, r)

structure BagReplayer where
  reader : BagReader := {}
  topicFilter : String := ""
  startTime : UInt64 := 0
  endTime : UInt64 := -1
  isPlaying : Bool := false

namespace BagReplayer
variable {J : Type} (codec : JsonCodec J) (p : BagReplayer)

def openFile (file : Option (List UInt8)) : Except String (Bool × BagReplayer) :=
  if p.isPlaying then .ok (false, p)
  else (p.reader.openFile file).map fun (result, reader) => (result, { p with reader })

def setTopicFilter (topic : String) : BagReplayer := { p with topicFilter := topic }

def setTimeRange (startTime endTime : UInt64) : BagReplayer := { p with startTime, endTime }

def start : Option (Bool × BagReplayer) :=
  if p.isPlaying then some (false, p)
  else if p.reader.ifs.isNone then some (false, p)
  else if 0 < p.startTime then
    (p.reader.seekToTimestamp p.startTime).map fun (_, reader) =>
      (true, { p with reader, isPlaying := true })
  else some (true, { p with reader := p.reader.seekToStart, isPlaying := true })

def isInTimeRange (msg : BagMessage) : Bool :=
  p.startTime ≤ msg.timestampNs.toUInt64 && msg.timestampNs.toUInt64 ≤ p.endTime

def replayLoop : ℕ → BagReader → List BagMessage
  | 0, _ => []
  | fuel + 1, reader =>
    if !reader.hasNext then []
    else
      match reader.readNext codec with
      | (none, reader) => replayLoop fuel reader
      | (some msg, reader) =>
        if p.topicFilter ≠ "" ∧ msg.topic ≠ p.topicFilter then replayLoop fuel reader
        else if !p.isInTimeRange msg then replayLoop fuel reader
        else msg :: replayLoop fuel reader

def replayThread : List BagMessage := p.replayLoop codec (p.reader.rest.length + 2) p.reader

def replay (file : List UInt8) (startTime endTime : UInt64) (topic : String) :
    Option (List BagMessage) :=
  match openFile {} (some file) with
  | .ok (true, p) => ((p.setTimeRange startTime endTime).setTopicFilter topic).start.map
      fun (_, p) => p.replayThread codec
  | _ => none

/-! ## What should be replayed -/

/-- The messages in a data area: its lines that are not empty and can be parsed. -/
def fileMessages (data : List UInt8) : List BagMessage :=
  ((data.splitOn 10).filter (· ≠ [])).filterMap fun text =>
    (BagMessage.fromJsonLine codec text).toOption

def Selected (startTime endTime : UInt64) (topic : String) (msg : BagMessage) : Prop :=
  startTime.toNat ≤ msg.timestampNs.toInt ∧ msg.timestampNs.toInt ≤ endTime.toNat ∧
    (topic = "" ∨ msg.topic = topic)

instance (startTime endTime : UInt64) (topic : String) :
    DecidablePred (Selected startTime endTime topic) := fun _ => inferInstanceAs (Decidable (_ ∧ _))

def closedFile (data : List UInt8) (entries : List IndexEntry) (dataSize : UInt64) : List UInt8 :=
  data ++ Indexer.writeToFile entries data.length dataSize

/-- The callback gets each selected message of the file once, in the order of the file, and nothing
else. -/
def ReplaysExactly (data : List UInt8) (entries : List IndexEntry) (dataSize : UInt64)
    (startTime endTime : UInt64) (topic : String) : Prop :=
  replay codec (closedFile data entries dataSize) startTime endTime topic =
    some ((fileMessages codec data).filter (Selected startTime endTime topic))

def startOffset (entries : List IndexEntry) (startTime : UInt64) : ℕ :=
  if startTime = 0 then 0
  else ((Indexer.findByTimestamp entries startTime).map (·.fileOffset.toNat)).getD 0

/-! ## One file -/

section
variable {codec} {p} {texts : List (List UInt8)} {msgs : List BagMessage} {bytes tail : List UInt8}
  {r : BagReader} {k : ℕ}

def passes (p : BagReplayer) (msg : BagMessage) : Bool :=
  (p.topicFilter = "" || msg.topic = p.topicFilter) && p.isInTimeRange msg

lemma replayLoop_eq (fuel : ℕ) (r : BagReader) :
    p.replayLoop codec fuel r = (BagReader.readAllLoop codec fuel r).filter p.passes := by
  induction fuel generalizing r with
  | zero => rfl
  | succ fuel ih =>
    rw [replayLoop, BagReader.readAllLoop]
    split_ifs with hnext
    · rfl
    · cases hread : r.readNext codec with
      | mk result r' =>
        cases result with
        | none => exact ih r'
        | some msg =>
          simp only [toList_some, singleton_append]
          rw [filter_cons, ih]
          by_cases htop : p.topicFilter ≠ "" ∧ msg.topic ≠ p.topicFilter
          · have hpas : p.passes msg = false := by simp [passes, htop]
            rw [if_pos htop, hpas]
            rfl
          · have hpas : p.passes msg = p.isInTimeRange msg := by
              have hkept : p.topicFilter = "" ∨ msg.topic = p.topicFilter := by
                rw [not_and_or, not_not, not_not] at htop
                exact htop
              simp [passes, hkept]
            rw [if_neg htop, hpas]
            cases p.isInTimeRange msg <;> rfl

lemma dataArea_append (texts texts' : List (List UInt8)) :
    dataArea (texts ++ texts') = dataArea texts ++ dataArea texts' := by
  simp [dataArea]

lemma fileMessages_dataArea (htex : ∀ text ∈ texts, text ≠ [] ∧ 10 ∉ text)
    (hmsgs : texts.map (BagMessage.fromJsonLine codec) = msgs.map .ok) :
    fileMessages codec (dataArea texts) = msgs := by
  induction texts generalizing msgs with
  | nil =>
    have hmsgs : msgs = [] := by simpa [eq_comm] using hmsgs
    rw [hmsgs]
    rfl
  | cons text texts ih =>
    cases msgs with
    | nil => simp at hmsgs
    | cons msg msgs =>
      simp only [map_cons, List.cons.injEq] at hmsgs
      obtain ⟨hne, htext⟩ := htex text mem_cons_self
      have hrest := ih (fun text' hmem => htex text' (mem_cons_of_mem _ hmem)) hmsgs.2
      have hdata : dataArea (text :: texts) = text ++ 10 :: dataArea texts := by
        simpa using dataArea_cons text texts []
      have hspl : (dataArea (text :: texts)).splitOn 10 =
          text :: (dataArea texts).splitOn 10 := by
        rw [hdata, List.splitOn]
        refine splitOnP_append_cons_of_forall_mem ?_ 10 (by simp) _
        intro b hb
        have hne10 : b ≠ 10 := fun heq => htext (heq ▸ hb)
        simpa using hne10
      rw [fileMessages] at hrest ⊢
      rw [hspl, filter_cons, if_pos (by simpa using hne), filterMap_cons, hmsgs.1]
      exact congrArg (msg :: ·) hrest

lemma facing_drop (h : BagReader.Facing r bytes texts tail) (hrest : r.rest = bytes)
    {position : UInt64} (hposit : position.toNat = (dataArea (texts.take k)).length) :
    BagReader.Facing { r with
        rest := bytes.drop position.toNat, currentPosition := position }
      bytes (texts.drop k) tail := by
  have hbs : bytes = dataArea (texts.take k) ++ (dataArea (texts.drop k) ++ tail) := by
    rw [← append_assoc, ← dataArea_append, take_append_drop, ← h.rest, hrest]
  refine ⟨h.ifs, ?_, ?_, h.offset, h.topicFilter, h.small⟩
  · change bytes.drop position.toNat = _
    rw [hposit]
    nth_rewrite 1 [hbs]
    exact drop_left
  · have hlen := congrArg List.length hbs
    rw [length_append] at hlen
    change position.toNat + (bytes.drop position.toNat).length = bytes.length
    rw [length_drop, hposit]
    omega

lemma drop_eq_self (h : (dataArea (texts.take k)).length = 0) : texts.drop k = texts := by
  have hlen := length_le_dataArea (texts.take k)
  have htake : texts.take k = [] := eq_nil_of_length_eq_zero (by omega)
  have hspl := take_append_drop k texts
  rwa [htake, nil_append] at hspl

lemma start_facing (h : BagReader.Facing p.reader bytes texts tail)
    (hrest : p.reader.rest = bytes) (hplay : p.isPlaying = false) (hsize : bytes.length < 2 ^ 63)
    (hline : startOffset p.reader.indexer p.startTime = (dataArea (texts.take k)).length) :
    ∃ reader, p.start = some (true, { p with reader, isPlaying := true }) ∧
      BagReader.Facing reader bytes (texts.drop k) tail := by
  have hopen : p.reader.ifs.isNone = false := by rw [h.ifs]; rfl
  rw [start, hplay, hopen, if_neg Bool.false_ne_true, if_neg Bool.false_ne_true]
  by_cases hzero : p.startTime = 0
  · rw [startOffset, if_pos hzero] at hline
    rw [hzero, if_neg (by decide)]
    have hposit : (0 : UInt64).toNat = (dataArea (texts.take k)).length := hline
    have hseek := facing_drop h hrest hposit
    refine ⟨_, rfl, ?_⟩
    rw [h.ifs] at hseek
    rw [BagReader.seekToStart, h.ifs]
    exact hseek
  · rw [startOffset, if_neg hzero] at hline
    have hpos : 0 < p.startTime := by
      rw [UInt64.lt_iff_toNat_lt]
      exact Nat.pos_of_ne_zero fun h0 => hzero (UInt64.toNat_inj.mp h0)
    rw [if_pos hpos, BagReader.seekToTimestamp, h.ifs]
    cases hfind : Indexer.findByTimestamp p.reader.indexer p.startTime with
    | none =>
      rw [hfind] at hline
      refine ⟨_, rfl, ?_⟩
      rw [drop_eq_self hline.symm]
      exact h
    | some entry =>
      rw [hfind] at hline
      have hposit : entry.fileOffset.toNat = (dataArea (texts.take k)).length := hline
      have hle : (dataArea (texts.take k)).length ≤ bytes.length := by
        rw [← hrest, h.rest, ← take_append_drop k texts, dataArea_append, append_assoc,
          length_append, take_append_drop]
        exact Nat.le_add_right _ _
      simp only [if_neg (show ¬ 2 ^ 63 ≤ entry.fileOffset.toNat by omega), map_some]
      have hseek := facing_drop h hrest hposit
      rw [h.ifs] at hseek
      exact ⟨_, rfl, hseek⟩

lemma replay_eq {entries : List IndexEntry} {dataSize startTime endTime : UInt64}
    (topic : String) (htex : ∀ text ∈ texts, text ≠ [] ∧ 10 ∉ text)
    (hmsgs : texts.map (BagMessage.fromJsonLine codec) = msgs.map .ok)
    (hsize : (closedFile (dataArea texts) entries dataSize).length < 2 ^ 63)
    (hline : startOffset entries startTime = (dataArea (texts.take k)).length) :
    replay codec (closedFile (dataArea texts) entries dataSize) startTime endTime topic =
      some ((msgs.drop k).filter
        (passes { startTime := startTime, endTime := endTime, topicFilter := topic })) := by
  have hbs : closedFile (dataArea texts) entries dataSize =
      dataArea texts ++ Indexer.writeToFile entries (dataArea texts).length dataSize := rfl
  obtain ⟨r, hopen, hidx, hrest, hfac⟩ := BagReader.openFile_facing hbs hsize
  let p : BagReplayer := { reader := r, startTime, endTime, topicFilter := topic }
  rw [← hidx] at hline
  obtain ⟨reader, hstr, hrdr⟩ := start_facing (p := p) hfac hrest rfl hsize hline
  have hmsgs' : (texts.drop k).map (BagMessage.fromJsonLine codec) = (msgs.drop k).map .ok := by
    rw [map_drop, hmsgs, map_drop]
  have hall : BagReader.readAllLoop codec (reader.rest.length + 2) reader = msgs.drop k := by
    refine hrdr.readAllLoop (fun text hmem => htex text (mem_of_mem_drop hmem)) hmsgs' ?_
    have hlen := length_le_dataArea (texts.drop k)
    rw [hrdr.rest, length_append]
    omega
  have hpnd : openFile {} (some (closedFile (dataArea texts) entries dataSize)) =
      .ok (true, { reader := r }) := by
    rw [openFile, if_neg Bool.false_ne_true, hopen]
    rfl
  rw [replay, hpnd]
  change p.start.map (fun x => x.2.replayThread codec) = _
  rw [hstr, map_some, replayThread, replayLoop_eq, hall]
  rfl

lemma filter_drop_eq_iff {α : Type*} {P : α → Bool} {l : List α} {n : ℕ} :
    (l.drop n).filter P = l.filter P ↔ ∀ x ∈ l.take n, P x = false := by
  have hspl : l.filter P = (l.take n).filter P ++ (l.drop n).filter P := by
    rw [← filter_append, take_append_drop]
  rw [hspl, self_eq_append_left, filter_eq_nil_iff]
  simp only [Bool.not_eq_true]

lemma passes_iff_selected {startTime endTime : UInt64} {topic : String} {msg : BagMessage}
    (hsig : endTime.toNat < 2 ^ 63 ∨ 0 ≤ msg.timestampNs.toInt) :
    passes { startTime := startTime, endTime := endTime, topicFilter := topic } msg = true ↔
      Selected startTime endTime topic msg := by
  have htime : msg.timestampNs.toInt = if 2 * msg.timestampNs.toUInt64.toNat < 2 ^ 64 then
      (msg.timestampNs.toUInt64.toNat : ℤ) else msg.timestampNs.toUInt64.toNat - (2 ^ 64 : ℕ) :=
    BitVec.toInt_eq_toNat_cond _
  have hlt := msg.timestampNs.toUInt64.toNat_lt
  simp only [passes, isInTimeRange, Selected, Bool.and_eq_true, Bool.or_eq_true, decide_eq_true_eq,
    UInt64.le_iff_toNat_le]
  split_ifs at htime with hsml
  · rw [htime, Nat.cast_le, Nat.cast_le]
    tauto
  · -- a negative timestamp is beyond the end of the range on both sides
    have hend : endTime.toNat < 2 ^ 63 := by
      rcases hsig with hend | hnon
      · exact hend
      · omega
    constructor
    · rintro ⟨-, -, hle⟩
      omega
    · rintro ⟨hge, -, -⟩
      omega

lemma replaysExactly_iff_take {entries : List IndexEntry} {dataSize startTime endTime : UInt64}
    {topic : String} (htex : ∀ text ∈ texts, text ≠ [] ∧ 10 ∉ text)
    (hmsgs : texts.map (BagMessage.fromJsonLine codec) = msgs.map .ok)
    (hsize : (closedFile (dataArea texts) entries dataSize).length < 2 ^ 63)
    (hline : startOffset entries startTime = (dataArea (texts.take k)).length)
    (hsig : ∀ msg ∈ msgs, endTime.toNat < 2 ^ 63 ∨ 0 ≤ msg.timestampNs.toInt) :
    ReplaysExactly codec (dataArea texts) entries dataSize startTime endTime topic ↔
      ∀ msg ∈ msgs.take k, ¬ Selected startTime endTime topic msg := by
  have hfil : msgs.filter (Selected startTime endTime topic) =
      msgs.filter
        (passes { startTime := startTime, endTime := endTime, topicFilter := topic }) := by
    refine filter_congr fun msg hmem => ?_
    rw [Bool.eq_iff_iff, decide_eq_true_eq, passes_iff_selected (hsig msg hmem)]
  rw [ReplaysExactly, replay_eq topic htex hmsgs hsize hline, fileMessages_dataArea htex hmsgs,
    hfil, some_inj, filter_drop_eq_iff]
  refine forall₂_congr fun msg hmem => ?_
  rw [← passes_iff_selected (hsig msg (mem_of_mem_take hmem)), Bool.not_eq_true]

structure Complete (entries : List IndexEntry) (texts : List (List UInt8))
    (msgs : List BagMessage) : Prop where
  time : entries.map (·.timestampNs) = msgs.map (·.timestampNs.toUInt64)
  offset : ∀ i entry, entries[i]? = some entry →
    entry.fileOffset.toNat = (dataArea (texts.take i)).length
  sorted : entries.Pairwise (·.timestampNs ≤ ·.timestampNs)

end

/-! ## Files that `close` has written -/

structure Closing (ops : List SimpleBagWriter.Op) (s : SimpleBagWriter)
    (w : AsyncWriter BagMessage) (dataSize : UInt64) : Prop where
  run : ∃ queueCapacity rotationPolicy files,
    Run (SimpleBagWriter.next codec) (fun _ _ => True)
      { queueCapacity, rotationPolicy, files } ops s
  phase : s.phase = .joining (.close dataSize)
  joined : ∃ writer, s.asyncWriter = some writer ∧ writer.join = some w

def closingData (s : SimpleBagWriter) (w : AsyncWriter BagMessage) : List UInt8 :=
  s.fileContents ++ w.lines.flatten

lemma length_closedFile {s : SimpleBagWriter} (w : AsyncWriter BagMessage) (dataSize : UInt64) :
    (closedFile (closingData s w) s.indexer dataSize).length = s.finalSize w := by
  rw [closedFile, length_append, Indexer.writeToFile, length_append,
    Indexer.length_indexBlock, Indexer.sized_footer.length_toBytes, SimpleBagWriter.finalSize,
    closingData]
  omega

/-- The file was empty when it was opened and can be addressed, `start` finds the beginning of a
line, and no timestamp is negative unless excluded. -/
structure Placed (s : SimpleBagWriter) (w : AsyncWriter BagMessage) (startTime endTime : UInt64) :
    Prop where
  empty : s.fileContents = []
  size : s.finalSize w < 2 ^ 63
  line : ∃ k, startOffset s.indexer startTime = (w.lines.take k).flatten.length
  signed : endTime.toNat < 2 ^ 63 ∨
    ∀ msg ∈ fileMessages codec (closingData s w), 0 ≤ msg.timestampNs.toInt

variable {codec} in
lemma Closing.lines {ops : List SimpleBagWriter.Op} {s : SimpleBagWriter}
    {w : AsyncWriter BagMessage} {dataSize : UInt64} (h : Closing codec ops s w dataSize) :
    w.lines = linesOf (BagMessage.toJsonLine codec) w.accepted := by
  obtain ⟨queueCapacity, rotationPolicy, files, hrun⟩ := h.run
  obtain ⟨writer, hwrit, hjoin⟩ := h.joined
  have hlive : SimpleBagWriter.Live codec s :=
    hrun.invariant (SimpleBagWriter.Live codec) (SimpleBagWriter.live_initial _ _ _)
      fun _ _ _ hs _ hn => hs.stepped (SimpleBagWriter.stepped_of_next hn)
  obtain ⟨hacc, hlin⟩ :=
    (hlive.writer writer hwrit).1.join (hlive.writer writer hwrit).2.1 hjoin
  rw [hacc]
  exact hlin

theorem replaysExactly_iff (codec : JsonCodec J) (ops : List SimpleBagWriter.Op)
    (s : SimpleBagWriter) (w : AsyncWriter BagMessage) (dataSize : UInt64)
    (hclosing : Closing codec ops s w dataSize) (startTime endTime : UInt64) (topic : String)
    (hplaced : Placed codec s w startTime endTime) :
    ReplaysExactly codec (closingData s w) s.indexer dataSize startTime endTime topic ↔
      ∀ msg ∈ fileMessages codec ((closingData s w).take (startOffset s.indexer startTime)),
        ¬ Selected startTime endTime topic msg := by
  have hlin := hclosing.lines
  have hok := AsyncWriter.map_filter_isOk (BagMessage.toJsonLine codec) w.accepted
  rw [← hlin] at hok
  obtain ⟨texts, msgs, htex, hcln, hread, -⟩ := SimpleBagWriter.exists_texts hok
  have hdata : closingData s w = dataArea texts := by
    rw [closingData, hplaced.empty, nil_append, htex]
    rfl
  obtain ⟨k, hk⟩ := hplaced.line
  rw [htex, ← map_take] at hk
  have hline : startOffset s.indexer startTime = (dataArea (texts.take k)).length := hk
  have hsize := hplaced.size
  rw [← length_closedFile w dataSize, hdata] at hsize
  have hbef : fileMessages codec ((closingData s w).take (startOffset s.indexer startTime)) =
      msgs.take k := by
    have hspl : dataArea texts = dataArea (texts.take k) ++ dataArea (texts.drop k) := by
      rw [← dataArea_append, take_append_drop]
    rw [hdata, hline, hspl, take_left]
    refine fileMessages_dataArea (fun text hmem => hcln text (mem_of_mem_take hmem)) ?_
    rw [map_take, hread, map_take]
  have hsig : ∀ msg ∈ msgs, endTime.toNat < 2 ^ 63 ∨ 0 ≤ msg.timestampNs.toInt := by
    intro msg hmem
    refine hplaced.signed.imp_right fun hnon => hnon msg ?_
    rw [hdata, fileMessages_dataArea hcln hread]
    exact hmem
  rw [hbef, hdata]
  exact replaysExactly_iff_take hcln hread hsize hline hsig

/-- One message is queued by `appendAsync` and written, the next one is appended, and the bag is
closed. -/
def writtenThenAppended : List SimpleBagWriter.Op :=
  [.begin (.openFile "a.bag" true), .begin (.appendAsync sampleMessage), .work, .work, .work, .work,
    .work, .begin (.append sampleMessage), .proceed {}, .work, .work, .work, .work, .proceed {},
    .proceed {}, .proceed {}, .begin .close, .proceed {}, .proceed {}, .proceed {}, .work, .work,
    .work, .work]

lemma exists_closing : ∃ s w, Closing sampleCodec writtenThenAppended s w 112 ∧
    s.indexer = [⟨5, 56⟩] ∧ s.fileContents = [] ∧
    w.lines = [sampleText ++ [10], sampleText ++ [10]] := by
  have hexec : (exec (SimpleBagWriter.next sampleCodec) (fun _ _ => true)
      { queueCapacity := 10, rotationPolicy := {} } writtenThenAppended).map
      (fun s => (s.phase, s.indexer, s.fileContents)) =
      some (.joining (.close 112), [⟨5, 56⟩], []) := by
    decide +kernel
  have hjnd : ((exec (SimpleBagWriter.next sampleCodec) (fun _ _ => true)
      { queueCapacity := 10, rotationPolicy := {} } writtenThenAppended).bind fun s =>
      s.asyncWriter.bind fun w => w.join.map (·.lines)) =
      some [sampleText ++ [10], sampleText ++ [10]] := by
    decide +kernel
  obtain ⟨s, hs, heq⟩ := map_eq_some_iff.mp hexec
  simp only [Prod.mk.injEq] at heq
  obtain ⟨hph, hidx, hcon⟩ := heq
  rw [hs, bind_some] at hjnd
  obtain ⟨writer, hwrit, hjnd⟩ := bind_eq_some_iff.mp hjnd
  obtain ⟨w, hjoin, hlin⟩ := map_eq_some_iff.mp hjnd
  exact ⟨s, w, ⟨⟨10, {}, ∅, Run.of_exec (fun _ _ _ => trivial) hs⟩, hph, writer, hwrit, hjoin⟩,
    hidx, hcon, hlin⟩

theorem replaysExactly_iff_second : ∃ s w, Closing sampleCodec writtenThenAppended s w 112 ∧
    Placed sampleCodec s w 1 10 ∧
    (ReplaysExactly sampleCodec (closingData s w) s.indexer 112 1 10 "" ↔
      ∀ msg ∈ fileMessages sampleCodec ((closingData s w).take (startOffset s.indexer 1)),
        ¬ Selected 1 10 "" msg) := by
  obtain ⟨s, w, hclosing, hidx, hcon, hlin⟩ := exists_closing
  have hplaced : Placed sampleCodec s w 1 10 := by
    refine ⟨hcon, ?_, ⟨1, ?_⟩, .inl (by decide)⟩
    · rw [SimpleBagWriter.finalSize, hcon, hidx, hlin]
      decide +kernel
    · rw [hidx, hlin]
      decide +kernel
  exact ⟨s, w, hclosing, hplaced,
    replaysExactly_iff sampleCodec writtenThenAppended s w 112 hclosing 1 10 "" hplaced⟩

/-- The search puts the reader before the second message, and the first one is not replayed. -/
theorem not_replaysExactly : ¬ ∀ (J : Type) (codec : JsonCodec J) (ops : List SimpleBagWriter.Op)
    (s : SimpleBagWriter) (w : AsyncWriter BagMessage) (dataSize : UInt64),
    Closing codec ops s w dataSize → ∀ startTime endTime topic,
      ReplaysExactly codec (closingData s w) s.indexer dataSize startTime endTime topic := by
  intro hall
  obtain ⟨s, w, hclosing, hidx, hcon, hlin⟩ := exists_closing
  have hxct := hall JsonValue sampleCodec _ s w 112 hclosing 1 10 ""
  rw [ReplaysExactly, closingData, hidx, hcon, hlin] at hxct
  have hlen := congrArg (Option.map List.length) hxct
  exact absurd hlen (by decide +kernel)

end BagReplayer
end Mxrc.Logging
