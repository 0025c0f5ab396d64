import Mxrc.Logging.BagReader

/-!
# Opening and reading an arbitrary file

The fields of the footer are arbitrary. Every round of the reader's loops takes
a newline out of what is left or meets the end of the file; `work` is the number
of rounds left. The reader reads behind `index_offset` when the data area does
not end with a line.
-/

namespace Mxrc.Logging
open Mxrc.Lib List Option

lemma getline_some {bs line rest : List UInt8} (h : getline bs = (line, some rest)) :
    bs = line ++ 10 :: rest ∧ 10 ∉ line := by
  induction bs generalizing line with
  | nil => simp [getline] at h
  | cons b bs ih =>
    rw [getline] at h
    split_ifs at h with hb
    · obtain ⟨rfl, hrest⟩ := Prod.mk.inj h
      cases hrest
      simp [hb]
    · obtain ⟨hline, hrest⟩ := Prod.mk.inj h
      obtain ⟨hbs, hnot⟩ := ih (Prod.ext rfl hrest)
      rw [← hline, cons_append, ← hbs]
      exact ⟨rfl, by simp [hnot, Ne.symm hb]⟩

lemma getline_none {bs line : List UInt8} (h : getline bs = (line, none)) : 10 ∉ bs := by
  induction bs generalizing line with
  | nil => simp
  | cons b bs ih =>
    rw [getline] at h
    split_ifs at h with hb
    · cases h
    · obtain ⟨-, hrest⟩ := Prod.mk.inj h
      simp [ih (Prod.ext rfl hrest), Ne.symm hb]

namespace BagReader
variable {J : Type} {codec : JsonCodec J} {r : BagReader} {bytes : List UInt8}

lemma getlineStep_cases (r : BagReader) :
    (∃ rest, r.rest = r.getlineStep.1 ++ 10 :: rest ∧ 10 ∉ r.getlineStep.1 ∧
      r.getlineStep.2 = { r with
        rest, currentPosition := UInt64.ofNat ((r.ifs.getD []).length - rest.length) }) ∨
    (10 ∉ r.rest ∧ r.getlineStep.2 = { r with rest := [], currentPosition := -1 }) := by
  rcases hline : getline r.rest with ⟨line, _ | rest⟩
  · exact .inr ⟨getline_none hline, by simp [getlineStep, hline]⟩
  · obtain ⟨hrest, hnot⟩ := getline_some hline
    refine .inl ⟨rest, ?_, ?_, ?_⟩ <;> simp only [getlineStep, hline]
    · exact hrest
    · exact hnot

def work (r : BagReader) : ℕ := if r.isInDataArea then r.rest.length + 1 else 0

lemma work_le (r : BagReader) : r.work ≤ r.rest.length + 1 := by
  rw [work]
  split_ifs <;> omega

lemma work_getlineStep (hin : r.isInDataArea = true) : r.getlineStep.2.work < r.work := by
  rw [work.eq_def r, if_pos hin]
  rcases getlineStep_cases r with ⟨rest, hrest, -, hstep⟩ | ⟨-, hstep⟩
  · have hle := work_le r.getlineStep.2
    rw [hstep] at hle ⊢
    rw [hrest, length_append, length_cons]
    simp only at hle
    omega
  · have hout : r.getlineStep.2.isInDataArea = false := by
      have hmax : (-1 : UInt64).toNat = 2 ^ 64 - 1 := by decide
      have hlt := r.footer.indexOffset.toNat_lt
      rw [hstep, isInDataArea, Bool.and_eq_false_iff, decide_eq_false_iff_not, UInt64.not_lt,
        UInt64.le_iff_toNat_le, hmax]
      exact .inr (Nat.le_sub_one_of_lt hlt)
    rw [work, hout]
    simp

section
variable {I : BagReader → Prop}

section
variable (hstep : ∀ r, I r → r.isInDataArea = true → I r.getlineStep.2)
include hstep

lemma readLineLoop_keeps (fuel : ℕ) {r : BagReader} (h : I r) : I (readLineLoop fuel r).2 := by
  induction fuel generalizing r with
  | zero => exact h
  | succ fuel ih =>
    rw [readLineLoop]
    split_ifs with hin
    · exact h
    · exact ih (hstep r h (by simpa using hin))
    · exact hstep r h (by simpa using hin)

lemma readNextLoop_keeps (fuel : ℕ) {r : BagReader} (h : I r) :
    I (readNextLoop codec fuel r).2 := by
  induction fuel generalizing r with
  | zero => exact h
  | succ fuel ih =>
    have hline : I r.readLine.2 := readLineLoop_keeps hstep _ h
    rw [readNextLoop]
    split_ifs with hin
    · exact h
    · rcases hread : r.readLine with ⟨_ | line, r'⟩
      · simpa [hread] using hline
      · rw [hread] at hline
        simp only
        split
        · exact ih hline
        · split_ifs
          · exact ih hline
          · exact hline

lemma readNext_keeps (h : I r) : I (r.readNext codec).2 := by
  rw [readNext]
  split_ifs
  · exact h
  · exact readNextLoop_keeps hstep _ h

end
end

lemma readLineLoop_work_le (fuel : ℕ) (r : BagReader) :
    (readLineLoop fuel r).2.work ≤ r.work :=
  readLineLoop_keeps (I := fun r' => r'.work ≤ r.work)
    (fun _ h hin => (work_getlineStep hin).le.trans h) fuel le_rfl

lemma readLineLoop_eq {fuel fuel' : ℕ} (hfuel : r.work < fuel) (hfuel' : r.work < fuel') :
    readLineLoop fuel r = readLineLoop fuel' r := by
  induction fuel generalizing r fuel' with
  | zero => omega
  | succ fuel ih =>
    obtain ⟨fuel', rfl⟩ : ∃ n, fuel' = n + 1 := ⟨fuel' - 1, by omega⟩
    rw [readLineLoop, readLineLoop]
    split_ifs with hin
    · rfl
    · have hless := work_getlineStep (r := r) (by simpa using hin)
      exact ih (by omega) (by omega)
    · rfl

lemma readLine_work_lt (hin : r.isInDataArea = true) : r.readLine.2.work < r.work := by
  have hless := work_getlineStep hin
  rw [readLine, readLineLoop, hin, Bool.not_true, if_neg Bool.false_ne_true]
  split_ifs
  · exact lt_of_le_of_lt (readLineLoop_work_le _ _) hless
  · exact hless

lemma readNextLoop_work_le (fuel : ℕ) (r : BagReader) :
    (readNextLoop codec fuel r).2.work ≤ r.work :=
  readNextLoop_keeps (I := fun r' => r'.work ≤ r.work)
    (fun _ h hin => (work_getlineStep hin).le.trans h) fuel le_rfl

lemma readNextLoop_eq {fuel fuel' : ℕ} (hfuel : r.work < fuel) (hfuel' : r.work < fuel') :
    readNextLoop codec fuel r = readNextLoop codec fuel' r := by
  induction fuel generalizing r fuel' with
  | zero => omega
  | succ fuel ih =>
    obtain ⟨fuel', rfl⟩ : ∃ n, fuel' = n + 1 := ⟨fuel' - 1, by omega⟩
    rw [readNextLoop, readNextLoop]
    by_cases hin : r.isInDataArea = true
    · have hless := readLine_work_lt hin
      rcases hread : r.readLine with ⟨_ | line, r'⟩
      · rfl
      · rw [hread] at hless
        simp only at hless
        have hsame : readNextLoop codec fuel r' = readNextLoop codec fuel' r' :=
          ih (by omega) (by omega)
        simp only [hsame]
    · simp [hin]

lemma hasNext_eq (r : BagReader) : r.hasNext = r.isInDataArea := by
  rw [hasNext, isInDataArea]
  cases r.ifs <;> rfl

lemma readNext_work_lt (codec : JsonCodec J) (h : r.hasNext = true) :
    (r.readNext codec).2.work < r.work := by
  have hin : r.isInDataArea = true := hasNext_eq r ▸ h
  have hless := readLine_work_lt hin
  rw [readNext, h, Bool.not_true, if_neg Bool.false_ne_true, readNextLoop, hin, Bool.not_true,
    if_neg Bool.false_ne_true]
  rcases hread : r.readLine with ⟨_ | line, r'⟩
  · rwa [hread] at hless
  · rw [hread] at hless
    simp only at hless ⊢
    split
    · exact lt_of_le_of_lt (readNextLoop_work_le _ _) hless
    · split_ifs
      · exact lt_of_le_of_lt (readNextLoop_work_le _ _) hless
      · exact hless

def afterCalls (codec : JsonCodec J) (n : ℕ) (r : BagReader) : BagReader :=
  (fun r => (r.readNext codec).2)^[n] r

lemma afterCalls_keeps {I : BagReader → Prop}
    (hstep : ∀ r, I r → r.isInDataArea = true → I r.getlineStep.2) (h : I r) (n : ℕ) :
    I (r.afterCalls codec n) := by
  induction n generalizing r with
  | zero => exact h
  | succ n ih => exact ih (readNext_keeps hstep h)

lemma exists_hasNext_eq_false {n : ℕ} (hwork : r.work ≤ n) :
    ∃ k ≤ n, (r.afterCalls codec k).hasNext = false := by
  induction n generalizing r with
  | zero =>
    cases h : r.hasNext with
    | false => exact ⟨0, le_rfl, h⟩
    | true =>
      have hless := readNext_work_lt codec h
      omega
  | succ n ih =>
    cases h : r.hasNext with
    | false => exact ⟨0, by omega, h⟩
    | true =>
      have hless := readNext_work_lt codec h
      obtain ⟨k, hk, hend⟩ := ih (r := (r.readNext codec).2) (by omega)
      exact ⟨k + 1, by omega, hend⟩

def consumed (r : BagReader) : ℕ := (r.ifs.getD []).length - r.rest.length

structure Stands (bytes : List UInt8) (offset : UInt64) (r : BagReader) : Prop where
  ifs : r.ifs = some bytes
  offset : r.footer.indexOffset = offset
  place : ∃ p ≤ bytes.length, r.rest = bytes.drop p ∧
    (r.currentPosition.toNat = p ∧ (p = 0 ∨ bytes[p - 1]? = some 10) ∨
      p = bytes.length ∧ r.currentPosition = -1)

variable {offset : UInt64}

lemma Stands.getlineStep (h : Stands bytes offset r) (hsize : bytes.length < 2 ^ 63) :
    Stands bytes offset r.getlineStep.2 := by
  obtain ⟨p, hp, hrest, -⟩ := h.place
  rcases getlineStep_cases r with ⟨rest, hline, -, hstep⟩ | ⟨-, hstep⟩
  · have hdrop : rest = bytes.drop (p + (r.getlineStep.1.length + 1)) := by
      rw [← drop_drop, ← hrest, hline, ← drop_drop, drop_left]
      rfl
    have hlen := congrArg List.length (hrest.symm.trans hline)
    simp only [length_drop, length_append, length_cons] at hlen
    have hnew : bytes[p + r.getlineStep.1.length]? = some 10 := by
      rw [← getElem?_drop, ← hrest, hline]
      simp
    rw [hstep]
    refine ⟨h.ifs, h.offset, p + (r.getlineStep.1.length + 1), by omega, hdrop, .inl ⟨?_, .inr ?_⟩⟩
    · rw [h.ifs, getD_some, UInt64.toNat_ofNat_of_lt' (by norm_num [UInt64.size]; omega)]
      omega
    · rw [show p + (r.getlineStep.1.length + 1) - 1 = p + r.getlineStep.1.length by omega]
      exact hnew
  · rw [hstep]
    exact ⟨h.ifs, h.offset, bytes.length, le_rfl, by simp, .inr ⟨rfl, rfl⟩⟩

/-- The data area is empty, reaches the end of the file or ends with a newline. -/
def Ended (bytes : List UInt8) (offset : UInt64) : Prop :=
  offset = 0 ∨ bytes.length ≤ offset.toNat ∨ bytes[offset.toNat - 1]? = some 10

lemma Stands.position_lt (h : Stands bytes offset r) (hin : r.isInDataArea = true) :
    ∃ p, r.rest = bytes.drop p ∧ p < offset.toNat := by
  rw [isInDataArea, h.offset, Bool.and_eq_true, decide_eq_true_eq, UInt64.lt_iff_toNat_lt] at hin
  obtain ⟨p, -, hrest, ⟨hpos, -⟩ | ⟨-, hpos⟩⟩ := h.place
  · exact ⟨p, hrest, hpos ▸ hin.2⟩
  · have hmax : (-1 : UInt64).toNat = 2 ^ 64 - 1 := by decide
    have hlt := offset.toNat_lt
    rw [hpos, hmax] at hin
    omega

lemma Stands.consumed_getlineStep (h : Stands bytes offset r) (hndd : Ended bytes offset)
    (hin : r.isInDataArea = true) : r.getlineStep.2.consumed ≤ offset.toNat := by
  obtain ⟨p, hrest, hp⟩ := h.position_lt hin
  rcases hndd with rfl | hlen | hnew
  · simp at hp
  · have hcon : r.getlineStep.2.consumed ≤ bytes.length := by
      rcases getlineStep_cases r with ⟨rest, -, -, hstep⟩ | ⟨-, hstep⟩ <;>
        simp [hstep, consumed, h.ifs]
    exact hcon.trans hlen
  · -- the newline that ends the area lies in what is left, so the line ends there at the latest
    have hlast : r.rest[offset.toNat - 1 - p]? = some 10 := by
      rw [hrest, getElem?_drop, show p + (offset.toNat - 1 - p) = offset.toNat - 1 by omega]
      exact hnew
    rcases getlineStep_cases r with ⟨rest, hline, hnot, hstep⟩ | ⟨hnot, -⟩
    · have hlen := congrArg List.length (hrest.symm.trans hline)
      simp only [length_drop, length_append, length_cons] at hlen
      have hend : r.getlineStep.1.length ≤ offset.toNat - 1 - p := by
        by_contra hlt
        rw [hline, getElem?_append_left (by omega)] at hlast
        exact hnot (mem_of_getElem? hlast)
      simp only [hstep, consumed, h.ifs, getD_some]
      omega
    · exact absurd (mem_of_getElem? hlast) hnot

lemma Stands.ended (h : Stands bytes offset r) (hend : r.hasNext = false)
    (hins : r.consumed ≤ offset.toNat) : Ended bytes offset := by
  rw [hasNext_eq, isInDataArea, h.ifs, h.offset, isSome_some, Bool.true_and,
    decide_eq_false_iff_not, UInt64.lt_iff_toNat_lt] at hend
  rw [consumed, h.ifs, getD_some] at hins
  obtain ⟨p, hp, hrest, ⟨hpos, hline⟩ | ⟨rfl, -⟩⟩ := h.place
  · rw [hrest, length_drop] at hins
    have heq : p = offset.toNat := by omega
    rcases hline with rfl | hline
    · exact .inl (UInt64.toNat_inj.mp heq.symm)
    · exact .inr (.inr (heq ▸ hline))
  · rw [hrest, length_drop] at hins
    exact .inr (.inl (by omega))

/-! ### The members of a constant document -/

inductive Failure
  | thrown (what : String)
  | assertion

def member (codec : JsonCodec J) (isObject : J → Bool) (j : J) (name : String) :
    Except Failure J :=
  if isObject j && !codec.contains j name then .error .assertion else .ok (codec.field j name)

def parseLine (codec : JsonCodec J) (isObject : J → Bool) (line : List UInt8) :
    Except Failure BagMessage := do
  let j ← (BagMessage.parseValue codec
    (BagMessage.popBack 13 (BagMessage.popBack 10 line))).mapError .thrown
  let timestampNs ← (codec.getLong (← member codec isObject j "timestamp")).mapError .thrown
  let topic ← (codec.getString (← member codec isObject j "topic")).mapError .thrown
  let type ← (codec.getString (← member codec isObject j "type")).mapError .thrown
  let dataType ← (stringToDataType type).mapError .thrown
  let serializedValue ← (codec.dump (← member codec isObject j "value")).mapError .thrown
  return { timestampNs, topic, dataType, serializedValue }

def AssertionFails (codec : JsonCodec J) (isObject : J → Bool) (line : List UInt8) : Prop :=
  parseLine codec isObject line = .error .assertion

def Agrees {α : Type} (x : Except Failure α) (y : Except String α) : Prop :=
  x = .error .assertion ∨ x = y.mapError .thrown

section
variable {α β : Type}

lemma agrees_mapError (y : Except String α) : Agrees (y.mapError .thrown) y := .inr rfl

lemma Agrees.member {isObject : J → Bool} {j : J} {name : String} {f : J → Except Failure β}
    {y : Except String β} (h : Agrees (f (codec.field j name)) y) :
    Agrees (member codec isObject j name >>= f) y := by
  rw [BagReader.member]
  split_ifs
  · exact .inl rfl
  · exact h

lemma Agrees.bind {x : Except Failure α} {y : Except String α} {f : α → Except Failure β}
    {g : α → Except String β} (h : Agrees x y) (hf : ∀ a, Agrees (f a) (g a)) :
    Agrees (x >>= f) (y >>= g) := by
  rcases h with rfl | rfl
  · exact .inl rfl
  · cases y with
    | error what => exact .inr rfl
    | ok a => exact hf a

end

lemma parseLine_eq {isObject : J → Bool} {line : List UInt8}
    (h : ¬AssertionFails codec isObject line) :
    parseLine codec isObject line = (BagMessage.fromJsonLine codec line).mapError .thrown := by
  refine Or.resolve_left (b := parseLine codec isObject line = _) ?_ h
  refine (agrees_mapError _).bind fun j => ?_
  refine Agrees.member ((agrees_mapError _).bind fun timestampNs => ?_)
  refine Agrees.member ((agrees_mapError _).bind fun topic => ?_)
  refine Agrees.member ((agrees_mapError _).bind fun type => ?_)
  refine (agrees_mapError _).bind fun dataType => ?_
  exact Agrees.member ((agrees_mapError _).bind fun serializedValue => .inr rfl)

/-! ### Opening and reading -/

def linesLoop : ℕ → BagReader → List (List UInt8)
  | 0, _ => []
  | fuel + 1, r => r.readLine.1.toList ++
      if r.readLine.1.isSome then linesLoop fuel r.readLine.2 else []

def lines (r : BagReader) : List (List UInt8) := linesLoop (r.rest.length + 2) r

/-- Reading ends, also within a call, stays inside the data area and fails no assertion. -/
structure ReadsSafely (codec : JsonCodec J) (isObject : J → Bool) (bytes : List UInt8)
    (r : BagReader) : Prop where
  ends : ∃ n ≤ bytes.length + 1, (r.afterCalls codec n).hasNext = false
  rounds : ∀ n fuel, (r.afterCalls codec n).rest.length + 2 ≤ fuel →
    readNextLoop codec fuel (r.afterCalls codec n) =
        readNextLoop codec ((r.afterCalls codec n).rest.length + 2) (r.afterCalls codec n) ∧
      readLineLoop fuel (r.afterCalls codec n) = (r.afterCalls codec n).readLine
  inside : ∀ n, (r.afterCalls codec n).consumed ≤ r.footer.indexOffset.toNat
  asserts : ∀ line ∈ r.lines, ¬AssertionFails codec isObject line

/-- `open` returns, and a file that it accepts can be read. -/
def OpensSafely (codec : JsonCodec J) (isObject : J → Bool) (r : BagReader) (bytes : List UInt8) :
    Prop :=
  ∃ result r', r.openFile (some bytes) = .ok (result, r') ∧
    (result = true → ReadsSafely codec isObject bytes r')

def footerOf (bytes : List UInt8) : BagFooter := .ofBytes (bytes.drop (bytes.length - 64))

def Reserves (bytes : List UInt8) : Prop :=
  64 ≤ bytes.length → (footerOf bytes).isValid = true →
    (footerOf bytes).isSupportedVersion = true → (footerOf bytes).indexCount.toNat ≤ Indexer.maxSize

lemma readFromFile_isOk_iff (entries : List IndexEntry) (bytes : List UInt8) :
    (Indexer.readFromFile entries (some bytes)).isOk = true ↔ Reserves bytes := by
  rw [Reserves, footerOf]
  simp only [Indexer.readFromFile]
  split_ifs with hlen hval hver hzero hmax hoff
  · simp only [Except.isOk, Except.toBool, true_iff]
    omega
  · simp_all [Except.isOk, Except.toBool]
  · simp_all [Except.isOk, Except.toBool]
  · simp [Except.isOk, Except.toBool, hzero]
  · simp_all [Except.isOk, Except.toBool]
  · simp_all [Except.isOk, Except.toBool]
  · split <;> simp_all [Except.isOk, Except.toBool]

lemma exists_openFile_iff (r : BagReader) (bytes : List UInt8) :
    (∃ result r', r.openFile (some bytes) = .ok (result, r')) ↔ Reserves bytes := by
  simp only [openFile]
  generalize (if r.ifs.isSome = true then r.close else r) = r₀
  rw [← readFromFile_isOk_iff r₀.indexer]
  cases Indexer.readFromFile r₀.indexer (some bytes) with
  | error what => simp [Except.isOk, Except.toBool]
  | ok read =>
    simp only [Except.isOk, Except.toBool, iff_true]
    split_ifs <;> exact ⟨_, _, rfl⟩

lemma openFile_stands {r r' : BagReader} (h : r.openFile (some bytes) = .ok (true, r')) :
    Stands bytes r'.footer.indexOffset r' ∧ r'.rest = bytes := by
  simp only [openFile] at h
  generalize (if r.ifs.isSome = true then r.close else r) = r₀ at h
  split at h
  · cases h
  · split_ifs at h <;> cases h
    exact ⟨⟨rfl, rfl, 0, Nat.zero_le _, rfl, .inl ⟨rfl, .inl rfl⟩⟩, rfl⟩

lemma readsSafely_iff {isObject : J → Bool} (hsize : bytes.length < 2 ^ 63)
    (hstan : Stands bytes r.footer.indexOffset r) (hrest : r.rest = bytes) :
    ReadsSafely codec isObject bytes r ↔ Ended bytes r.footer.indexOffset ∧
      ∀ line ∈ r.lines, ¬AssertionFails codec isObject line := by
  have hall : ∀ n, Stands bytes r.footer.indexOffset (r.afterCalls codec n) :=
    afterCalls_keeps (fun _ h _ => h.getlineStep hsize) hstan
  have hwork : r.work ≤ bytes.length + 1 := hrest ▸ work_le r
  constructor
  · intro h
    obtain ⟨n, -, hend⟩ := h.ends
    exact ⟨(hall n).ended hend (h.inside n), h.asserts⟩
  · rintro ⟨hndd, hass⟩
    refine ⟨exists_hasNext_eq_false hwork, ?_, ?_, hass⟩
    · intro n fuel hfuel
      have hle := work_le (r.afterCalls codec n)
      exact ⟨readNextLoop_eq (by omega) (by omega), readLineLoop_eq (by omega) (by omega)⟩
    · refine fun n => (afterCalls_keeps (I := fun r' => Stands bytes r.footer.indexOffset r' ∧
        r'.consumed ≤ r.footer.indexOffset.toNat) ?_ ⟨hstan, ?_⟩ n).2
      · exact fun r' h hin => ⟨h.1.getlineStep hsize, h.1.consumed_getlineStep hndd hin⟩
      · rw [consumed, hstan.ifs, hrest, getD_some, Nat.sub_self]
        exact Nat.zero_le _

def hugeCount : List UInt8 := BagFooter.toBytes { indexCount := -1 }

lemma openFile_hugeCount : (openFile {} (some hugeCount)).isOk = false := by decide +kernel

end BagReader
end Mxrc.Logging
