import Mxrc.Logging.Replay

/-!
# Seeking in a bag file

`seekToTimestamp` goes to the first index entry that is not before the time, or
to the entry before it if none has exactly this time. Times are unsigned.
-/

namespace Mxrc.Logging
open Mxrc.Lib BagReplayer List Option

section
variable {α : Type*} {P : α → Bool} {l : List α} {n : ℕ}

lemma filter_eq_drop (htake : ∀ a ∈ l.take n, P a = false) (hdrop : ∀ a ∈ l.drop n, P a = true) :
    l.filter P = l.drop n := by
  conv_lhs => rw [← take_append_drop n l]
  rw [filter_append, filter_eq_nil_iff.mpr (by simpa using htake), nil_append,
    filter_eq_self.mpr hdrop]

end

namespace BagReader
variable {J : Type} {codec : JsonCodec J} {r₀ r : BagReader} {bytes tail : List UInt8}
  {texts : List (List UInt8)} {msgs : List BagMessage} {time : UInt64}

lemma ifs_of_openFile (h : r₀.openFile (some bytes) = .ok (true, r)) : r.ifs = some bytes := by
  simp only [openFile] at h
  split at h
  · cases h
  · split_ifs at h <;> cases h <;> rfl

lemma Facing.readAll_drop (h : Facing r bytes texts tail) (hrest : r.rest = bytes)
    (htexts : ∀ text ∈ texts, text ≠ [] ∧ 10 ∉ text)
    (hmsgs : texts.map (BagMessage.fromJsonLine codec) = msgs.map .ok) {k : ℕ} {position : UInt64}
    (hposit : position.toNat = (dataArea (texts.take k)).length) :
    readAll codec { r with rest := bytes.drop position.toNat, currentPosition := position } =
      msgs.drop k := by
  have hfac := facing_drop h hrest hposit
  refine hfac.readAllLoop (fun text hmem => htexts text (mem_of_mem_drop hmem)) ?_ ?_
  · rw [map_drop, hmsgs, map_drop]
  · have hlen := length_le_dataArea (texts.drop k)
    rw [hfac.rest, length_append]
    omega

lemma lowerBound_divides {entries : List IndexEntry} (h : Complete entries texts msgs)
    (time : UInt64) :
    lowerBound (Indexer.below entries time) entries.length ≤ entries.length ∧
      ∀ i msg, msgs[i]? = some msg →
        (i < lowerBound (Indexer.below entries time) entries.length ↔
          msg.timestampNs.toUInt64 < time) := by
  obtain ⟨hbef, haft⟩ := lowerBound_spec (Indexer.below_mono h.sorted time) fun i hi =>
    Indexer.below_eq_false (i := i) hi
  refine ⟨?_, fun i msg hmsg => ?_⟩
  · by_contra hgt
    have hbel := hbef entries.length (not_le.mp hgt)
    rw [Indexer.below_eq_false le_rfl] at hbel
    cases hbel
  · have hbel : Indexer.below entries time i = decide (msg.timestampNs.toUInt64 < time) := by
      have htime := congrArg (·[i]?) h.time
      simp only [getElem?_map, hmsg, map_some] at htime
      obtain ⟨entry, hent, htime⟩ := map_eq_some_iff.mp htime
      rw [Indexer.below, hent, any_some, htime]
    constructor
    · intro hlt
      simpa [hbel] using hbef i hlt
    · intro hless
      by_contra hge
      simpa [hbel, hless] using haft i (not_lt.mp hge)

lemma filter_eq_of_divides {it : ℕ} (hdiv : ∀ i msg, msgs[i]? = some msg →
      (i < it ↔ msg.timestampNs.toUInt64 < time)) :
    msgs.filter (time ≤ ·.timestampNs.toUInt64) = msgs.drop it := by
  refine filter_eq_drop (fun msg hmem => ?_) fun msg hmem => ?_
  · obtain ⟨i, hi⟩ := mem_iff_getElem?.mp hmem
    rw [getElem?_take] at hi
    split_ifs at hi with hlt
    simpa using (hdiv i msg hi).mp hlt
  · obtain ⟨i, hi⟩ := mem_iff_getElem?.mp hmem
    rw [getElem?_drop] at hi
    simpa using (hdiv (it + i) msg hi).not.mp (by omega)

lemma findByTimestamp_complete {entries : List IndexEntry} (h : Complete entries texts msgs)
    (hne : msgs ≠ []) (time : UInt64) :
    ∃ k entry, Indexer.findByTimestamp entries time = some entry ∧ entries[k]? = some entry ∧
      ∃ smaller, msgs.drop k = smaller ++ msgs.filter (time ≤ ·.timestampNs.toUInt64) ∧
        smaller.length ≤ 1 ∧ (∀ msg ∈ smaller, msg.timestampNs.toUInt64 < time) ∧
        ((∃ msg ∈ msgs, msg.timestampNs.toUInt64 = time) ∨
          (∀ msg ∈ msgs, time ≤ msg.timestampNs.toUInt64) → smaller = []) := by
  obtain ⟨hle, hdiv⟩ := lowerBound_divides h time
  have hlen : entries.length = msgs.length := by simpa using congrArg List.length h.time
  have hpos : 0 < msgs.length := length_pos_of_ne_nil hne
  have htime : ∀ i (hi : i < entries.length) (hi' : i < msgs.length),
      entries[i].timestampNs = msgs[i].timestampNs.toUInt64 := fun i hi hi' => by
    simpa [hi, hi'] using congrArg (·[i]?) h.time
  rw [Indexer.findByTimestamp]
  generalize lowerBound (Indexer.below entries time) entries.length = it at hle hdiv ⊢
  rw [filter_eq_of_divides hdiv, Indexer.entryAt]
  split_ifs with hzero hend
  · exact ⟨0, entries[0], getElem?_eq_getElem _, getElem?_eq_getElem _, [],
      by simp [hzero], by simp, by simp, fun _ => rfl⟩
  · have hlt : it - 1 < msgs.length := by omega
    have hbef : msgs[it - 1].timestampNs.toUInt64 < time :=
      (hdiv _ _ (getElem?_eq_getElem hlt)).mp (by omega)
    refine ⟨it - 1, entries[it - 1], getElem?_eq_getElem _, getElem?_eq_getElem _,
      [msgs[it - 1]], ?_, by simp, by simpa using hbef, ?_⟩
    · rw [drop_eq_getElem_cons hlt, Nat.sub_add_cancel (by omega)]
      rfl
    · rintro (⟨msg, hmem, hxct⟩ | hall)
      · -- the message at the exact time stands at or after `it`, so `it` has this time too
        obtain ⟨j, hj, rfl⟩ := mem_iff_getElem.mp hmem
        have hitj : it ≤ j := by
          by_contra hgt
          have hless := (hdiv j _ (getElem?_eq_getElem hj)).mp (not_le.mp hgt)
          rw [hxct] at hless
          exact absurd hless (UInt64.lt_irrefl time)
        have hit : it < entries.length := by omega
        have hge : ¬msgs[it].timestampNs.toUInt64 < time :=
          (hdiv it _ (getElem?_eq_getElem (by omega))).not.mp (lt_irrefl it)
        have hsrt : entries[it].timestampNs ≤ entries[j].timestampNs := by
          rcases Nat.eq_or_lt_of_le hitj with rfl | hlt'
          · exact UInt64.le_refl _
          · exact pairwise_iff_getElem.mp h.sorted it j hit (by omega) hlt'
        rw [htime it hit (by omega), htime j (by omega) hj, hxct] at hsrt
        have heq : entries[it].timestampNs = time := by
          rw [htime it hit (by omega)]
          exact UInt64.le_antisymm hsrt (UInt64.not_lt.mp hge)
        rcases hend with hend | hend
        · omega
        · exact absurd (by rw [getElem?_eq_getElem hit, map_some, heq]) hend
      · exact absurd (hall _ (getElem_mem hlt)) (UInt64.not_le.mpr hbef)
  · have hlt : it < entries.length := by
      rw [not_or] at hend
      omega
    exact ⟨it, entries[it], getElem?_eq_getElem hlt, getElem?_eq_getElem hlt, [],
      by simp, by simp, by simp, fun _ => rfl⟩

theorem seek_loses_nothing (hopen : r₀.openFile (some bytes) = .ok (true, r))
    (hfilter : r.topicFilter = "") (hsize : bytes.length < 2 ^ 63)
    (hbytes : bytes = dataArea texts ++ tail)
    (hoffset : r.footer.indexOffset.toNat = (dataArea texts).length)
    (htexts : ∀ text ∈ texts, text ≠ [] ∧ 10 ∉ text)
    (hmsgs : texts.map (BagMessage.fromJsonLine codec) = msgs.map .ok)
    (hcomplete : Complete r.indexer texts msgs) (time : UInt64) (rest : List UInt8)
    (position : UInt64) :
    ∃ found r' smaller,
      seekToTimestamp { r with rest, currentPosition := position } time = some (found, r') ∧
      r'.readAll codec = smaller ++ msgs.filter (time ≤ ·.timestampNs.toUInt64) ∧
      smaller.length ≤ 1 ∧ (∀ msg ∈ smaller, msg.timestampNs.toUInt64 < time) ∧
      ((∃ msg ∈ msgs, msg.timestampNs.toUInt64 = time) ∨
        (∀ msg ∈ msgs, time ≤ msg.timestampNs.toUInt64) → smaller = []) := by
  have hifs := ifs_of_openFile hopen
  by_cases hne : msgs = []
  · have htexts : texts = [] := by simpa [hne] using congrArg List.length hmsgs
    have hentr : r.indexer = [] := by simpa [hne] using congrArg List.length hcomplete.time
    refine ⟨false, { r with rest, currentPosition := position }, [], ?_, ?_, by simp, by simp,
      fun _ => rfl⟩
    · simp only [seekToTimestamp, hifs, hentr]
      rfl
    · have hend : r.footer.indexOffset = 0 := by
        rw [← UInt64.toNat_inj, hoffset, htexts]
        rfl
      simp [readAll, readAllLoop, hasNext, isInDataArea, hend, hne]
  · obtain ⟨k, entry, hfind, hent, smaller, hdrop, hsmal⟩ :=
      findByTimestamp_complete hcomplete hne time
    have hline := hcomplete.offset k entry hent
    have hle : (dataArea (texts.take k)).length ≤ bytes.length := by
      rw [hbytes, ← take_append_drop k texts, dataArea_append, append_assoc,
        length_append, take_append_drop]
      exact Nat.le_add_right _ _
    have hfac : Facing { r with rest := bytes, currentPosition := 0 } bytes texts tail := by
      refine ⟨hifs, hbytes, Nat.zero_add _, ?_, hfilter, by omega⟩
      rw [hbytes, length_append, ← hoffset]
    refine ⟨true, { r with
      rest := bytes.drop entry.fileOffset.toNat, currentPosition := entry.fileOffset }, smaller,
      ?_, ?_, hsmal⟩
    · simp only [seekToTimestamp, hifs, hfind]
      rw [if_neg (by omega)]
    · rw [← hdrop]
      exact hfac.readAll_drop rfl htexts hmsgs hline

theorem seek_sample : ∃ r found r',
    openFile {} (some (closedFile (dataArea [sampleText]) [⟨5, 0⟩] 0)) = .ok (true, r) ∧
      r.seekToTimestamp 5 = some (found, r') ∧ r'.readAll sampleCodec = [sampleMessage] := by
  have hsize : (closedFile (dataArea [sampleText]) [⟨5, 0⟩] 0).length < 2 ^ 63 := by decide +kernel
  obtain ⟨r, hopen, hidx, hrest, hfac⟩ := openFile_facing rfl hsize
  have hoffset := hfac.offset
  rw [length_append, Nat.add_right_cancel_iff] at hoffset
  have hcomplete : Complete r.indexer [sampleText] [sampleMessage] := by
    rw [hidx]
    refine ⟨by decide +kernel, ?_, by simp⟩
    rintro (_ | i) entry hent
    · cases hent
      rfl
    · simp at hent
  have hmsgs : [sampleText].map (BagMessage.fromJsonLine sampleCodec) =
      [sampleMessage].map .ok := by decide +kernel
  obtain ⟨found, r', smaller, hseek, hread, -, -, hnone⟩ := seek_loses_nothing hopen
    hfac.topicFilter hsize rfl hoffset (by decide +kernel) hmsgs hcomplete 5 r.rest
    r.currentPosition
  refine ⟨r, found, r', hopen, hseek, ?_⟩
  rw [hread, hnone (.inl ⟨sampleMessage, by simp, by decide⟩)]
  decide +kernel

end BagReader
end Mxrc.Logging
