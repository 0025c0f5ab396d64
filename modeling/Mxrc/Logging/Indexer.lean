import Mxrc.Lib.Bytes
import Mxrc.Lib.Crc

/-!
# Index block and footer of a bag file

A bag file is the data area, the index block and a footer of 64 bytes. The
structures are packed and little-endian. A stream opened for appending starts at
the end of the file, so `tellp` is the length of what is there.
-/

namespace Mxrc.Logging
open Mxrc.Lib List

structure IndexEntry where
  timestampNs : UInt64
  fileOffset : UInt64
deriving DecidableEq

namespace IndexEntry

def toBytes (entry : IndexEntry) : List UInt8 :=
  toLE 8 entry.timestampNs.toNat ++ toLE 8 entry.fileOffset.toNat

def ofBytes (bs : List UInt8) : IndexEntry :=
  ⟨UInt64.ofNat (ofLE (bs.take 8)), UInt64.ofNat (ofLE ((bs.drop 8).take 8))⟩

@[simp] lemma length_toBytes (entry : IndexEntry) : entry.toBytes.length = 16 := by
  simp [toBytes]

end IndexEntry

lemma ofNat_ofLE_toLE_uint64 (v : UInt64) : UInt64.ofNat (ofLE (toLE 8 v.toNat)) = v := by
  have hlt : v.toNat < 256 ^ 8 := v.toNat_lt
  rw [ofLE_toLE, Nat.mod_eq_of_lt hlt, UInt64.ofNat_toNat]

lemma ofNat_ofLE_toLE_uint32 (v : UInt32) : UInt32.ofNat (ofLE (toLE 4 v.toNat)) = v := by
  have hlt : v.toNat < 256 ^ 4 := v.toNat_lt
  rw [ofLE_toLE, Nat.mod_eq_of_lt hlt, UInt32.ofNat_toNat]

lemma IndexEntry.ofBytes_toBytes (entry : IndexEntry) : ofBytes entry.toBytes = entry := by
  have htake : entry.toBytes.take 8 = toLE 8 entry.timestampNs.toNat :=
    take_left' (toLE_length ..)
  have hdrop : (entry.toBytes.drop 8).take 8 = toLE 8 entry.fileOffset.toNat := by
    rw [toBytes, drop_left' (toLE_length ..), take_of_length_le (toLE_length ..).le]
  rw [ofBytes, htake, hdrop, ofNat_ofLE_toLE_uint64, ofNat_ofLE_toLE_uint64]

def magicText : List UInt8 := [77, 88, 82, 67, 66, 65, 71]

structure BagFooter where
  magic : List UInt8 := magicText ++ [0]
  version : UInt32 := 1
  dataSize : UInt64 := 0
  indexOffset : UInt64 := 0
  indexCount : UInt64 := 0
  checksum : UInt32 := 0
  reserved : List UInt8 := List.replicate 24 0
deriving DecidableEq

namespace BagFooter

def createInvalid : BagFooter := { magic := List.replicate 8 0, version := 0 }

def isValid (footer : BagFooter) : Bool := footer.magic.take 7 = magicText

def isSupportedVersion (footer : BagFooter) : Bool := footer.version = 1

def toBytes (footer : BagFooter) : List UInt8 :=
  footer.magic ++ (toLE 4 footer.version.toNat ++ (toLE 8 footer.dataSize.toNat ++
    (toLE 8 footer.indexOffset.toNat ++ (toLE 8 footer.indexCount.toNat ++
      (toLE 4 footer.checksum.toNat ++ footer.reserved)))))

def ofBytes (bs : List UInt8) : BagFooter :=
  let atVersion := bs.drop 8
  let atDataSize := atVersion.drop 4
  let atIndexOffset := atDataSize.drop 8
  let atIndexCount := atIndexOffset.drop 8
  let atChecksum := atIndexCount.drop 8
  { magic := bs.take 8
    version := UInt32.ofNat (ofLE (atVersion.take 4))
    dataSize := UInt64.ofNat (ofLE (atDataSize.take 8))
    indexOffset := UInt64.ofNat (ofLE (atIndexOffset.take 8))
    indexCount := UInt64.ofNat (ofLE (atIndexCount.take 8))
    checksum := UInt32.ofNat (ofLE (atChecksum.take 4))
    reserved := atChecksum.drop 4 }

structure Sized (footer : BagFooter) : Prop where
  magic : footer.magic.length = 8
  reserved : footer.reserved.length = 24

lemma Sized.length_toBytes {footer : BagFooter} (h : footer.Sized) :
    footer.toBytes.length = 64 := by
  simp [toBytes, h.magic, h.reserved]

lemma Sized.ofBytes_toBytes {footer : BagFooter} (h : footer.Sized) :
    ofBytes footer.toBytes = footer := by
  have hmag := h.magic
  simp only [ofBytes, toBytes, drop_left', take_left', hmag, toLE_length,
    ofNat_ofLE_toLE_uint64, ofNat_ofLE_toLE_uint32]

end BagFooter

namespace Indexer
variable {entries : List IndexEntry} {data : List UInt8} {position : ℕ} {dataSize : UInt64}

def indexBlock (entries : List IndexEntry) : List UInt8 := entries.flatMap IndexEntry.toBytes

def footer (entries : List IndexEntry) (position : ℕ) (dataSize : UInt64) : BagFooter :=
  { dataSize, indexOffset := UInt64.ofNat position, indexCount := UInt64.ofNat entries.length }

def writeToFile (entries : List IndexEntry) (position : ℕ) (dataSize : UInt64) : List UInt8 :=
  indexBlock entries ++ (footer entries position dataSize).toBytes

def maxSize : ℕ := (2 ^ 63 - 1) / 16

def readEntries : ℕ → List UInt8 → Option (List IndexEntry)
  | 0, _ => some []
  | n + 1, bs =>
    if bs.length < 16 then none
    else (readEntries n (bs.drop 16)).map (IndexEntry.ofBytes (bs.take 16) :: ·)

/-- `reserve` throws if the count is too large for any vector; a negative offset makes the first
read fail. -/
def readFromFile (entries : List IndexEntry) (file : Option (List UInt8)) :
    Except String (BagFooter × List IndexEntry) :=
  match file with
  | none => .ok (.createInvalid, entries)
  | some bytes =>
    if bytes.length < 64 then .ok (.createInvalid, entries)
    else
      let footer := BagFooter.ofBytes (bytes.drop (bytes.length - 64))
      if !footer.isValid then .ok (.createInvalid, entries)
      else if !footer.isSupportedVersion then .ok (.createInvalid, entries)
      else if footer.indexCount = 0 then .ok (footer, entries)
      else if maxSize < footer.indexCount.toNat then .error "vector::reserve"
      else if 2 ^ 63 ≤ footer.indexOffset.toNat then .ok (.createInvalid, [])
      else
        match readEntries footer.indexCount.toNat (bytes.drop footer.indexOffset.toNat) with
        | none => .ok (.createInvalid, [])
        | some read => .ok (footer, read)

lemma length_indexBlock : (indexBlock entries).length = 16 * entries.length := by
  induction entries with
  | nil => rfl
  | cons entry entries ih =>
    rw [indexBlock, flatMap_cons, length_append, IndexEntry.length_toBytes]
    simp only [indexBlock] at ih
    rw [ih, length_cons]
    omega

lemma readEntries_indexBlock (rest : List UInt8) :
    readEntries entries.length (indexBlock entries ++ rest) = some entries := by
  induction entries with
  | nil => rfl
  | cons entry entries ih =>
    have hblc : indexBlock (entry :: entries) ++ rest =
        entry.toBytes ++ (indexBlock entries ++ rest) := by
      simp [indexBlock]
    rw [hblc, length_cons, readEntries, if_neg (by simp), drop_left' (by simp),
      take_left' (by simp), ih, IndexEntry.ofBytes_toBytes]
    rfl

lemma sized_footer : (footer entries position dataSize).Sized := ⟨rfl, by simp [footer]⟩

lemma toNat_indexOffset_footer (hpos : position < 2 ^ 63) :
    (footer entries position dataSize).indexOffset.toNat = position :=
  UInt64.toNat_ofNat_of_lt (by norm_num [UInt64.size]; omega)

lemma toNat_indexCount_footer (hcnt : entries.length < 2 ^ 63) :
    (footer entries position dataSize).indexCount.toNat = entries.length :=
  UInt64.toNat_ofNat_of_lt (by norm_num [UInt64.size]; omega)

lemma readFromFile_writeToFile (old entries : List IndexEntry) (data : List UInt8)
    (dataSize : UInt64) (hsize : data.length + 16 * entries.length < 2 ^ 63) :
    readFromFile old (some (data ++ writeToFile entries data.length dataSize)) =
      .ok (footer entries data.length dataSize, if entries = [] then old else entries) := by
  set file := data ++ writeToFile entries data.length dataSize with hfile
  have hlen : file.length = (data ++ indexBlock entries).length + 64 := by
    simp [hfile, writeToFile, sized_footer.length_toBytes]
    omega
  have hfoot : BagFooter.ofBytes (file.drop (file.length - 64)) =
      footer entries data.length dataSize := by
    rw [hlen, Nat.add_sub_cancel, hfile, writeToFile, ← append_assoc, drop_left,
      sized_footer.ofBytes_toBytes]
  have hcnt : (footer entries data.length dataSize).indexCount.toNat = entries.length :=
    toNat_indexCount_footer (by omega)
  have hoff : (footer entries data.length dataSize).indexOffset.toNat = data.length :=
    toNat_indexOffset_footer (by omega)
  have hzero : (footer entries data.length dataSize).indexCount = 0 ↔ entries = [] := by
    rw [← UInt64.toNat_inj, hcnt]
    simp
  simp only [readFromFile, hfoot, hcnt, hoff, hzero]
  rw [if_neg (by omega), if_neg (by simp [footer, BagFooter.isValid, magicText]),
    if_neg (by simp [footer, BagFooter.isSupportedVersion])]
  split_ifs with hemp hmax
  · rfl
  · simp only [maxSize] at hmax
    omega
  · omega
  · have hdrop : file.drop data.length = indexBlock entries ++
        (footer entries data.length dataSize).toBytes := by
      rw [hfile, drop_left, writeToFile]
    rw [hdrop, readEntries_indexBlock]

theorem index_round_trip (data : List UInt8) (entries : List IndexEntry) (dataSize : UInt64)
    (hfile : (data ++ writeToFile entries data.length dataSize).length < 2 ^ 63) :
    ∃ footer, readFromFile [] (some (data ++ writeToFile entries data.length dataSize)) =
        .ok (footer, entries) ∧
      footer.isValid = true ∧ footer.isSupportedVersion = true ∧ footer.dataSize = dataSize ∧
      footer.indexOffset.toNat = data.length ∧ footer.indexCount.toNat = entries.length := by
  have hlen : data.length + 16 * entries.length < 2 ^ 63 := by
    rw [length_append, writeToFile, length_append, length_indexBlock] at hfile
    omega
  refine ⟨_, ?_, rfl, rfl, rfl, toNat_indexOffset_footer (by omega), toNat_indexCount_footer ?_⟩
  · rw [readFromFile_writeToFile [] entries data dataSize hlen]
    split_ifs with hemp
    · rw [hemp]
    · rfl
  · omega

theorem index_round_trip_footer :
    ∃ footer, readFromFile [] (some (BagFooter.toBytes {} ++ writeToFile [⟨5, 0⟩] 64 64)) =
        .ok (footer, [⟨5, 0⟩]) ∧
      footer.isValid = true ∧ footer.isSupportedVersion = true ∧ footer.dataSize = 64 ∧
      footer.indexOffset.toNat = 64 ∧ footer.indexCount.toNat = 1 :=
  index_round_trip (BagFooter.toBytes {}) [⟨5, 0⟩] 64 (by decide +kernel)

section
open Crc

def poly : BitVec 32 := 0xEDB88320

def table : List (BitVec 32) :=
  (List.range 256).map fun i =>
    (fun crc => if crc &&& 1#32 ≠ 0#32 then (crc >>> 1) ^^^ poly else crc >>> 1)^[8]
      (BitVec.ofNat 32 i)

def crcLoop (crc : BitVec 32) (data : List UInt8) : BitVec 32 :=
  data.foldl (fun crc byte =>
    (crc >>> 8) ^^^ table.getD ((crc ^^^ byte.toBitVec.setWidth 32) &&& 0xFF#32).toNat 0) crc

def crc32 (data : List UInt8) : BitVec 32 := ~~~(crcLoop 0xFFFFFFFF data)

lemma getD_table (x : BitVec 32) :
    table.getD (x &&& 0xFF#32).toNat 0 = (shift poly)^[8] (x &&& 0xFF#32) := by
  have hstep : (fun crc =>
      if crc &&& 1#32 ≠ 0#32 then (crc >>> 1) ^^^ poly else crc >>> 1) = shift poly := by
    funext crc
    rw [shift, BitVec.and_one_eq_setWidth_ofBool_getLsbD]
    cases crc.getLsbD 0 <;> rfl
  have hlt : (x &&& 0xFF#32).toNat < 256 := by
    rw [BitVec.toNat_and]
    exact Nat.lt_of_le_of_lt Nat.and_le_right (by decide)
  rw [table, hstep, getD_eq_getElem?_getD, getElem?_map, getElem?_range hlt,
    Option.map_some, Option.getD_some, BitVec.ofNat_toNat, BitVec.setWidth_eq]

lemma getLsbD_mask (i : ℕ) : (0xFF#32).getLsbD i = decide (i < 8) := by
  rw [show 0xFF#32 = (BitVec.allOnes 8).setWidth 32 from rfl, BitVec.getLsbD_setWidth,
    BitVec.getLsbD_allOnes]
  simp only [Bool.and_eq_right_iff_imp, decide_eq_true_eq]
  omega

lemma crcByte_eq (crc : BitVec 32) (byte : UInt8) :
    (crc >>> 8) ^^^ table.getD ((crc ^^^ byte.toBitVec.setWidth 32) &&& 0xFF#32).toNat 0 =
      (lowBits 8 byte.toBitVec).foldl (bitStep poly) crc := by
  set x := byte.toBitVec.setWidth 32
  have hbits : lowBits 8 byte.toBitVec = lowBits 8 x :=
    map_congr_left fun i hi => by
      simp [x, Nat.lt_trans (mem_range.mp hi) (by decide : 8 < 32)]
  have hx : x >>> 8 = 0#32 := by
    ext i hi
    simp [x]
  have hsame : ∀ i < 8, (crc ^^^ x).getLsbD i = ((crc ^^^ x) &&& 0xFF#32).getLsbD i := by
    intro i hi
    rw [BitVec.getLsbD_and, getLsbD_mask, decide_eq_true hi, Bool.and_true]
  have hhigh : ((crc ^^^ x) ^^^ ((crc ^^^ x) &&& 0xFF#32)) >>> 8 = crc >>> 8 := by
    rw [BitVec.ushiftRight_xor_distrib, BitVec.ushiftRight_xor_distrib, hx]
    ext i hi
    simp [getLsbD_mask]
  rw [getD_table, hbits, foldl_lowBits, hx, ← hhigh, ← iterate_shift_xor hsame, BitVec.xor_assoc,
    BitVec.xor_self]

lemma crcLoop_eq_feed (crc : BitVec 32) (data : List UInt8) :
    crcLoop crc data = feed poly crc data := by
  induction data generalizing crc with
  | nil => rfl
  | cons byte data ih =>
    rw [feed, flatMap_cons, foldl_append, ← crcByte_eq]
    exact ih _

theorem crc32_is_reflected (data more : List UInt8) (crc : BitVec 32) :
    crc32 data = ~~~(feed 0xEDB88320 0xFFFFFFFF data) ∧
      crcLoop crc (data ++ more) = crcLoop (crcLoop crc data) more ∧
      crc32 (data ++ more) = ~~~(crcLoop (crcLoop 0xFFFFFFFF data) more) := by
  refine ⟨congrArg (~~~·) (crcLoop_eq_feed _ data), foldl_append, ?_⟩
  exact congrArg (~~~·) foldl_append

example : crc32 [49, 50, 51, 52, 53, 54, 55, 56, 57] = 0xCBF43926#32 := by decide +kernel

/-- Damage within 32 consecutive bits of a file always changes its checksum. -/
theorem crc32_detects_burst {data data' : List UInt8} {before burst burst' after : List Bool}
    (hdata : data.flatMap (fun byte => lowBits 8 byte.toBitVec) = before ++ (burst ++ after))
    (hdata' : data'.flatMap (fun byte => lowBits 8 byte.toBitVec) = before ++ (burst' ++ after))
    (hlen : burst.length = burst'.length) (hle : burst.length ≤ 32) (hne : burst ≠ burst') :
    crc32 data ≠ crc32 data' := by
  intro hcrc
  have hpoly : poly.getLsbD (32 - 1) = true := by decide
  rw [crc32, crc32, BitVec.not_inj, crcLoop_eq_feed, crcLoop_eq_feed, feed, feed, hdata, hdata',
    foldl_append, foldl_append, foldl_append, foldl_append] at hcrc
  have hreg := foldl_bitStep_injective hpoly (by decide) hcrc
  exact hne (eq_of_foldl_bitStep hpoly hlen ((Nat.zero_add _).trans_le hle) fun i _ =>
    congrArg (BitVec.getLsbD · i) hreg)

/-- Three bits across the border of two bytes. -/
theorem crc32_detects_burst_across_bytes : crc32 [0, 128, 1] ≠ crc32 [0, 0, 2] :=
  @crc32_detects_burst [0, 128, 1] [0, 0, 2] (replicate 15 false) [true, true, false]
    [false, false, true] (replicate 6 false) (by decide) (by decide) rfl (by decide) (by decide)

end
end Indexer
end Mxrc.Logging
