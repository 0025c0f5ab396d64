import Mxrc.Ethercat.MotorCommand
import Mxrc.Lib.Bits

/-!
# Digital outputs

`writeDigitalOutput` reads the bitmap of a slave, changes the bit of a channel
and writes it back. The domain is a byte for every address, and an `int` is its
32 bits. A shift by 32 or more is undefined, and its value is a parameter.
-/

namespace Mxrc.Ethercat
open Mxrc.Lib List Option

abbrev Domain := ℕ → UInt8

namespace Domain

def readUInt8 (domain : Domain) (offset : UInt32) : UInt8 := domain offset.toNat

def readUInt16 (domain : Domain) (offset : UInt32) : UInt16 :=
  UInt16.ofNat (ofLE (load domain offset.toNat 2))

def writeUInt8 (domain : Domain) (offset : UInt32) (value : UInt8) : Domain :=
  store domain offset.toNat [value]

def writeUInt16 (domain : Domain) (offset : UInt32) (value : UInt16) : Domain :=
  store domain offset.toNat (toLE 2 value.toNat)

end Domain

structure DigitalOutputCall where
  slaveId : UInt16
  channel : UInt8
  value : Bool
deriving DecidableEq

section
variable (config : Config) (undefinedShift : UInt8 → UInt32)

def shiftedOne (channel : UInt8) : UInt32 :=
  if channel < 32 then 1 <<< channel.toUInt32 else undefinedShift channel

def setChannel (bitmap : UInt16) (channel : UInt8) (value : Bool) : UInt16 :=
  if value then (bitmap.toUInt32 ||| shiftedOne undefinedShift channel).toUInt16
  else (bitmap.toUInt32 &&& ~~~shiftedOne undefinedShift channel).toUInt16

def writeDigitalOutput (domain : Option Domain) (call : DigitalOutputCall) :
    Int × Option Domain :=
  match domain with
  | none => (-1, none)
  | some image =>
    if (config call.slaveId).isEmpty then (-1, some image)
    else
      match findPDOOffset config call.slaveId 0x1600 0x01 with
      | none => (-1, some image)
      | some mapping =>
        match mapping.dataType with
        | .uint8 =>
          let bitmap := (Domain.readUInt8 image mapping.offset).toUInt16
          let bitmap := setChannel undefinedShift bitmap call.channel call.value
          (0, some (Domain.writeUInt8 image mapping.offset bitmap.toUInt8))
        | .uint16 =>
          let bitmap := Domain.readUInt16 image mapping.offset
          let bitmap := setChannel undefinedShift bitmap call.channel call.value
          (0, some (Domain.writeUInt16 image mapping.offset bitmap))
        | _ => (-1, some image)

structure Served where
  before : Option Domain
  call : DigitalOutputCall
  result : Int
  after : Option Domain

def serve (domain : Option Domain) (call : DigitalOutputCall) : Served :=
  let w := writeDigitalOutput config undefinedShift domain call
  ⟨domain, call, w.1, w.2⟩

def served : Option Domain → List DigitalOutputCall → List Served
  | _, [] => []
  | domain, call :: calls =>
    let s := serve config undefinedShift domain call
    s :: served s.after calls

def afterCalls (domain : Option Domain) (calls : List DigitalOutputCall) : Option Domain :=
  calls.foldl (fun domain call => (writeDigitalOutput config undefinedShift domain call).2) domain

end

section
variable (undefinedShift : UInt8 → UInt32) {channel : UInt8}

lemma toNat_shiftedOne (hc : channel.toNat < 16) :
    (shiftedOne undefinedShift channel).toNat = 2 ^ channel.toNat := by
  have hlt : channel < 32 := UInt8.lt_iff_toNat_lt.mpr (hc.trans (by decide))
  have hpow : 2 ^ channel.toNat < 2 ^ 32 := Nat.pow_lt_pow_right (by decide) (hc.trans (by decide))
  rw [shiftedOne, if_pos hlt, UInt32.toNat_shiftLeft, UInt8.toNat_toUInt32,
    Nat.mod_eq_of_lt (hc.trans (by decide)), Nat.shiftLeft_eq]
  simpa using hpow

lemma testBit_setChannel (bitmap : UInt16) (hc : channel.toNat < 16) (value : Bool) {j : ℕ}
    (hj : j < 16) :
    (setChannel undefinedShift bitmap channel value).toNat.testBit j =
      if j = channel.toNat then value else bitmap.toNat.testBit j := by
  have hshf := toNat_shiftedOne undefinedShift hc
  rw [setChannel]
  cases value with
  | true =>
    rw [if_pos rfl, UInt32.toNat_toUInt16, Nat.testBit_mod_two_pow, UInt32.toNat_or,
      Nat.testBit_or, UInt16.toNat_toUInt32, hshf, Nat.testBit_two_pow]
    by_cases h : j = channel.toNat
    · simp [h, hc]
    · simp [h, Ne.symm h, hj]
  | false =>
    rw [if_neg Bool.false_ne_true, UInt32.toNat_toUInt16, Nat.testBit_mod_two_pow,
      UInt32.toNat_and, Nat.testBit_and, UInt16.toNat_toUInt32, testBit_not, hshf,
      Nat.testBit_two_pow]
    by_cases h : j = channel.toNat
    · simp [h]
    · simp [h, Ne.symm h, hj, hj.trans (show 16 < 32 by decide)]

variable (image : Domain) (offset : UInt32) {channel : UInt8} (value : Bool)

lemma bitAt_setChannel_uint8 (hc : channel.toNat < 8) :
    bitAt (Domain.writeUInt8 image offset (setChannel undefinedShift
        (Domain.readUInt8 image offset).toUInt16 channel value).toUInt8) =
      Function.update (bitAt image) (fieldBit offset.toNat channel.toNat) value := by
  have hcel : ∀ v : UInt8, [v] = toLE 1 v.toNat := fun v => by
    rw [toLE, toLE, UInt8.ofNat_toNat]
  rw [Domain.writeUInt8, hcel]
  refine bitAt_store_field hc fun j hj => ?_
  rw [UInt16.toNat_toUInt8, Nat.testBit_mod_two_pow, decide_eq_true (by omega), Bool.true_and,
    testBit_setChannel undefinedShift _ (by omega) value (by omega), UInt8.toNat_toUInt16]
  rfl

lemma bitAt_setChannel_uint16 (hc : channel.toNat < 16) :
    bitAt (Domain.writeUInt16 image offset (setChannel undefinedShift
        (Domain.readUInt16 image offset) channel value)) =
      Function.update (bitAt image) (fieldBit offset.toNat channel.toNat) value := by
  rw [Domain.writeUInt16]
  refine bitAt_store_field hc fun j hj => ?_
  have hread : (Domain.readUInt16 image offset).toNat.testBit j =
      (ofLE (load image offset.toNat 2)).testBit j := by
    rw [Domain.readUInt16, UInt16.toNat_ofNat', Nat.testBit_mod_two_pow,
      decide_eq_true (by omega), Bool.true_and]
  rw [testBit_setChannel undefinedShift _ hc value (by omega), hread]

end

section
variable (config : Config)

def outputField (slaveId : UInt16) : Option PDOMapping :=
  (findPDOOffset config slaveId 0x1600 0x01).filter fun mapping =>
    mapping.dataType = .uint8 ∨ mapping.dataType = .uint16

def addressed (call : DigitalOutputCall) : Option Bit :=
  (outputField config call.slaveId).bind fun mapping =>
    if call.channel.toNat < 8 * mapping.dataType.size then
      some (fieldBit mapping.offset.toNat call.channel.toNat)
    else none

def ChannelFits (call : DigitalOutputCall) : Prop :=
  ∀ mapping, outputField config call.slaveId = some mapping →
    call.channel.toNat < 8 * mapping.dataType.size

/-- A call that returns 0 changes the bit of its channel only; one that cannot address it returns -1
and changes nothing. -/
structure Served.BitExact (s : Served) : Prop where
  written : s.result = 0 → ∃ image image' bit, s.before = some image ∧ s.after = some image' ∧
    addressed config s.call = some bit ∧ bitAt image' bit = s.call.value ∧
    (∀ b, b ≠ bit → bitAt image' b = bitAt image b) ∧
    ∀ a, a ≠ bit.address → image' a = image a
  refused : s.before = none ∨ addressed config s.call = none →
    s.result = -1 ∧ s.after = s.before

def writes (log : List Served) : List (Bit × Bool) :=
  log.filterMap fun s =>
    if s.result = 0 then (addressed config s.call).map (·, s.call.value) else none

def lastWritten (log : List Served) (bit : Bit) : Option Bool :=
  (((writes config log).filter (·.1 = bit)).getLast?).map Prod.snd

/-- Every call is bit-exact, and afterwards every bit has the value last written to it. -/
def DigitalOutputsExact (undefinedShift : UInt8 → UInt32) (domain : Option Domain)
    (calls : List DigitalOutputCall) : Prop :=
  (∀ s ∈ served config undefinedShift domain calls, s.BitExact config) ∧
    (afterCalls config undefinedShift domain calls).map bitAt = domain.map fun image b =>
      (lastWritten config (served config undefinedShift domain calls) b).getD (bitAt image b)

end

section
variable {config : Config} {undefinedShift : UInt8 → UInt32} {image : Domain}
  {call : DigitalOutputCall} {mapping : PDOMapping}

lemma writeDigitalOutput_of_outputField_none (h : outputField config call.slaveId = none) :
    writeDigitalOutput config undefinedShift (some image) call = (-1, some image) := by
  rw [writeDigitalOutput]
  by_cases hemp : (config call.slaveId).isEmpty = true
  · rw [if_pos hemp]
  · rw [if_neg hemp]
    cases hfind : findPDOOffset config call.slaveId 0x1600 0x01 with
    | none => rfl
    | some mapping =>
      rw [outputField, hfind, filter_some] at h
      cases htype : mapping.dataType <;> simp_all

section
variable (h : outputField config call.slaveId = some mapping)
include h

lemma writeDigitalOutput_of_outputField :
    ∃ image', writeDigitalOutput config undefinedShift (some image) call = (0, some image') ∧
      (call.channel.toNat < 8 * mapping.dataType.size →
        bitAt image' = Function.update (bitAt image)
          (fieldBit mapping.offset.toNat call.channel.toNat) call.value) := by
  rw [outputField, filter_eq_some_iff] at h
  obtain ⟨hfind, htype⟩ := h
  have hemp : ¬ (config call.slaveId).isEmpty = true := by
    intro hemp
    rw [findPDOOffset, List.isEmpty_iff.mp hemp] at hfind
    simp at hfind
  rw [writeDigitalOutput, if_neg hemp, hfind]
  rcases of_decide_eq_true htype with hty | hty
  · simp only [hty]
    refine ⟨_, rfl, fun hc => ?_⟩
    exact bitAt_setChannel_uint8 undefinedShift image mapping.offset call.value hc
  · simp only [hty]
    refine ⟨_, rfl, fun hc => ?_⟩
    exact bitAt_setChannel_uint16 undefinedShift image mapping.offset call.value hc

lemma addressed_of_lt (hc : call.channel.toNat < 8 * mapping.dataType.size) :
    addressed config call = some (fieldBit mapping.offset.toNat call.channel.toNat) := by
  rw [addressed, h, bind_some, if_pos hc]

lemma addressed_of_not_lt (hc : ¬ call.channel.toNat < 8 * mapping.dataType.size) :
    addressed config call = none := by
  rw [addressed, h, bind_some, if_neg hc]

end

variable (config undefinedShift image call)

lemma writeDigitalOutput_cases :
    (outputField config call.slaveId = none ∧
      writeDigitalOutput config undefinedShift (some image) call = (-1, some image)) ∨
    ∃ mapping image', outputField config call.slaveId = some mapping ∧
      writeDigitalOutput config undefinedShift (some image) call = (0, some image') ∧
      (call.channel.toNat < 8 * mapping.dataType.size →
        bitAt image' = Function.update (bitAt image)
          (fieldBit mapping.offset.toNat call.channel.toNat) call.value) := by
  cases h : outputField config call.slaveId with
  | none => exact .inl ⟨rfl, writeDigitalOutput_of_outputField_none h⟩
  | some mapping =>
    obtain ⟨image', hwr, hbits⟩ := writeDigitalOutput_of_outputField h
    exact .inr ⟨mapping, image', rfl, hwr, hbits⟩

lemma bitExact_serve_iff :
    (serve config undefinedShift (some image) call).BitExact config ↔ ChannelFits config call := by
  obtain ⟨hnone, hwr⟩ | ⟨mapping, image', hfld, hwr, hbits⟩ :=
    writeDigitalOutput_cases config undefinedShift image call
  · have hfits : ChannelFits config call := by
      intro mapping hfld
      rw [hnone] at hfld
      cases hfld
    refine iff_of_true ⟨?_, ?_⟩ hfits
    · intro h
      rw [serve, hwr] at h
      cases h
    · intro _
      rw [serve, hwr]
      exact ⟨rfl, rfl⟩
  · by_cases hc : call.channel.toNat < 8 * mapping.dataType.size
    · have hadd := addressed_of_lt hfld hc
      have hfits : ChannelFits config call := by
        intro mapping' hfld'
        rw [hfld] at hfld'
        cases hfld'
        exact hc
      refine iff_of_true ⟨fun _ => ?_, ?_⟩ hfits
      · rw [serve, hwr]
        refine ⟨image, image', _, rfl, rfl, hadd, ?_, fun b hb => ?_, fun a ha => ?_⟩
        · rw [hbits hc, Function.update_self]
        · rw [hbits hc, Function.update_of_ne hb]
        · refine byte_eq_of_bitAt fun i => ?_
          rw [hbits hc, Function.update_of_ne]
          intro heq
          exact ha (congrArg Bit.address heq)
      · intro h
        simp [serve, hadd] at h
    · refine iff_of_false ?_ fun hfits => hc (hfits mapping hfld)
      intro h
      obtain ⟨hres, -⟩ := h.refused (.inr (addressed_of_not_lt hfld hc))
      rw [serve, hwr] at hres
      cases hres

lemma exists_after_serve : ∃ image', (serve config undefinedShift (some image) call).after =
    some image' := by
  obtain ⟨-, hwr⟩ | ⟨mapping, image', -, hwr, -⟩ :=
    writeDigitalOutput_cases config undefinedShift image call
  · exact ⟨image, by rw [serve, hwr]⟩
  · exact ⟨image', by rw [serve, hwr]⟩

variable {call image}

lemma bitAt_serve {image' : Domain} (hfits : ChannelFits config call)
    (haft : (serve config undefinedShift (some image) call).after = some image') :
    bitAt image' = (writes config [serve config undefinedShift (some image) call]).foldl
      (fun f w => Function.update f w.1 w.2) (bitAt image) := by
  obtain ⟨-, hwr⟩ | ⟨mapping, image₁, hfld, hwr, hbits⟩ :=
    writeDigitalOutput_cases config undefinedShift image call
  · rw [serve, hwr] at haft
    cases haft
    simp [writes, serve, hwr]
  · rw [serve, hwr] at haft
    cases haft
    have hadd := addressed_of_lt hfld (hfits mapping hfld)
    simp [writes, serve, hwr, hadd, hbits (hfits mapping hfld)]

end

section
variable (config : Config) (undefinedShift : UInt8 → UInt32)

lemma served_none (calls : List DigitalOutputCall) :
    ∀ s ∈ served config undefinedShift none calls, s.BitExact config := by
  induction calls with
  | nil => simp [served]
  | cons call calls ih =>
    intro s hs
    rcases mem_cons.mp hs with rfl | hs
    · refine ⟨fun h => ?_, fun _ => ⟨rfl, rfl⟩⟩
      cases h
    · exact ih s hs

lemma afterCalls_none (calls : List DigitalOutputCall) :
    afterCalls config undefinedShift none calls = none := by
  induction calls with
  | nil => rfl
  | cons call calls ih => exact ih

lemma bitExact_served_iff (calls : List DigitalOutputCall) (image : Domain) :
    (∀ s ∈ served config undefinedShift (some image) calls, s.BitExact config) ↔
      ∀ call ∈ calls, ChannelFits config call := by
  induction calls generalizing image with
  | nil => simp [served]
  | cons call calls ih =>
    obtain ⟨image', haft⟩ := exists_after_serve config undefinedShift image call
    rw [served, forall_mem_cons, forall_mem_cons, bitExact_serve_iff, haft, ih]

lemma bitAt_afterCalls {calls : List DigitalOutputCall}
    (h : ∀ call ∈ calls, ChannelFits config call) (image : Domain) :
    (afterCalls config undefinedShift (some image) calls).map bitAt =
      some ((writes config (served config undefinedShift (some image) calls)).foldl
        (fun f w => Function.update f w.1 w.2) (bitAt image)) := by
  induction calls generalizing image with
  | nil => rfl
  | cons call calls ih =>
    rw [forall_mem_cons] at h
    obtain ⟨image', haft⟩ := exists_after_serve config undefinedShift image call
    have hwrit : writes config (served config undefinedShift (some image) (call :: calls)) =
        writes config [serve config undefinedShift (some image) call] ++
          writes config (served config undefinedShift (some image') calls) := by
      rw [served, ← haft]
      exact filterMap_append (l := [_])
    have hcal : afterCalls config undefinedShift (some image) (call :: calls) =
        afterCalls config undefinedShift (some image') calls := by
      rw [← haft]
      rfl
    rw [hcal, ih h.2, hwrit, foldl_append, ← bitAt_serve config undefinedShift h.1 haft]

theorem digitalOutputs_exact_iff (domain : Option Domain) (calls : List DigitalOutputCall) :
    DigitalOutputsExact config undefinedShift domain calls ↔
      domain = none ∨ ∀ call ∈ calls, ChannelFits config call := by
  cases domain with
  | none =>
    refine iff_of_true ⟨served_none config undefinedShift calls, ?_⟩ (.inl rfl)
    rw [afterCalls_none]
    rfl
  | some image =>
    rw [DigitalOutputsExact, bitExact_served_iff]
    simp only [reduceCtorEq, false_or, and_iff_left_iff_imp]
    intro h
    rw [bitAt_afterCalls config undefinedShift h, map_some]
    congr 1
    funext b
    exact foldl_update_apply _ _ b

/-- Channel 8 of an 8-bit bitmap: the call returns 0 and changes no bit. -/
theorem not_digitalOutputs_exact :
    ¬ ∀ config undefinedShift domain calls,
      DigitalOutputsExact config undefinedShift domain calls := by
  intro h
  have hxct := (h (fun _ => [⟨.output, 0x1600, 0x01, .uint8, 0⟩]) (fun _ => 0)
    (some fun _ => 0) [⟨1, 8, true⟩]).1 _ mem_cons_self
  have hres := (hxct.refused (.inr (by decide))).1
  revert hres
  decide

end
end Mxrc.Ethercat
