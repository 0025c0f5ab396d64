import Mxrc.Lib.Runs
import Mxrc.Lib.Bytes

/-!
# The real-time data store as a sequence lock

One entry of `RTDataStore` with one writer and one reader; each load, store and
`fetch_add` is one step. The sequence counter is unbounded and read modulo
`2^64`. The reader's locals start with arbitrary contents, and its `continue` on
an odd counter goes to the loop condition with an old `seq2`. `inForce` is the
last completed set call.
-/

namespace Mxrc.Rt.RTDataStore
open Mxrc.Lib List

inductive DataType
  | none
  | int32
  | float
  | double
  | uint64
  | string
deriving DecidableEq

/-- The argument of a set call; floating-point values are their bit patterns. -/
inductive Value
  | int32 (v : BitVec 32)
  | float (bits : BitVec 32)
  | double (bits : BitVec 64)
  | uint64 (v : BitVec 64)
  | string (s : List UInt8)
deriving DecidableEq

def Value.type : Value → DataType
  | .int32 _ => .int32
  | .float _ => .float
  | .double _ => .double
  | .uint64 _ => .uint64
  | .string _ => .string

def Value.bytes : Value → List UInt8
  | .int32 v => toLE 4 v.toNat
  | .float bits => toLE 4 bits.toNat
  | .double bits => toLE 8 bits.toNat
  | .uint64 v => toLE 8 v.toNat
  | .string s => s.take 31 ++ [0]

lemma Value.bytes_length_le (v : Value) : v.bytes.length ≤ 32 := by
  cases v <;> simp [Value.bytes]

structure DataValue where
  bytes : List UInt8
  length_eq : bytes.length = 32
deriving DecidableEq

def DataValue.zero : DataValue := ⟨List.replicate 32 0, by simp⟩

/-- Writing one member of the union leaves the bytes behind it as they are. -/
def DataValue.write (d : DataValue) (v : Value) : DataValue where
  bytes := v.bytes ++ d.bytes.drop v.bytes.length
  length_eq := by
    have h := v.bytes_length_le
    have hd := d.length_eq
    simp
    omega

structure DataEntry where
  value : DataValue
  type : DataType
  timestampNs : UInt64
  seq : ℕ
deriving DecidableEq

inductive GetCall
  | int32
  | float
  | double
  | uint64
  | string (bufferSize : ℕ)
deriving DecidableEq

def GetCall.type : GetCall → DataType
  | .int32 => .int32
  | .float => .float
  | .double => .double
  | .uint64 => .uint64
  | .string _ => .string

def copyLen (bufferSize : ℕ) : ℕ := if bufferSize < 32 then bufferSize - 1 else 31

def GetCall.decode (g : GetCall) (d : DataValue) : Value :=
  match g with
  | .int32 => .int32 (BitVec.ofNat 32 (ofLE (d.bytes.take 4)))
  | .float => .float (BitVec.ofNat 32 (ofLE (d.bytes.take 4)))
  | .double => .double (BitVec.ofNat 64 (ofLE (d.bytes.take 8)))
  | .uint64 => .uint64 (BitVec.ofNat 64 (ofLE (d.bytes.take 8)))
  | .string bufferSize => .string (cString (d.bytes.take (copyLen bufferSize) ++ [0]))

/-- What a get call is to return for a set call of its type: the value, or as much text as fits. -/
def GetCall.expects (g : GetCall) (v : Value) : Value :=
  match g, v with
  | .string bufferSize, .string s => .string ((cString (s.take 31)).take (copyLen bufferSize))
  | _, v => v

lemma decode_write (g : GetCall) (d : DataValue) (v : Value) (h : v.type = g.type) :
    g.decode (d.write v) = g.expects v := by
  cases v <;> cases g <;> simp [Value.type, GetCall.type] at h
  all_goals simp only [GetCall.decode, GetCall.expects, DataValue.write, Value.bytes]
  · rw [take_left' (by simp), ofNat_ofLE_toLE (w := 32) (n := 4) rfl]
  · rw [take_left' (by simp), ofNat_ofLE_toLE (w := 32) (n := 4) rfl]
  · rw [take_left' (by simp), ofNat_ofLE_toLE (w := 64) (n := 8) rfl]
  · rw [take_left' (by simp), ofNat_ofLE_toLE (w := 64) (n := 8) rfl]
  · rw [cString_append_nul, cString_take, append_assoc, singleton_append, cString_append_nul]

inductive Writer
  | idle
  | writeValue (v : Value)
  | writeType (v : Value)
  | writeTimestamp (v : Value)
  | finish (v : Value)
deriving DecidableEq

inductive ReaderPc
  | idle
  | loadSeq1
  | readType
  | readValue
  | loadSeq2
  | leave
deriving DecidableEq

structure Reader where
  pc : ReaderPc
  call : GetCall
  seq1 : ℕ
  seq2 : ℕ
  tempType : DataType
  tempValue : DataValue
deriving DecidableEq

structure State where
  entry : DataEntry
  writer : Writer
  reader : Reader
  inForce : Option Value
deriving DecidableEq

def State.init : State :=
  ⟨⟨.zero, .none, 0, 0⟩, .idle, ⟨.idle, .int32, 0, 0, .none, .zero⟩, none⟩

/-- Which thread moves. The locals of a get call are given with its start. -/
inductive Label
  | set (v : Value)
  | write (nowNs : UInt64)
  | get (call : GetCall) (seq1 seq2 : ℕ) (tempType : DataType) (tempValue : DataValue)
  | read
deriving DecidableEq

def stepWriter (s : State) (nowNs : UInt64) : Option State :=
  match s.writer with
  | .idle => none
  | .writeValue v =>
    some { s with
      entry := { s.entry with value := s.entry.value.write v }, writer := .writeType v }
  | .writeType v =>
    some { s with entry := { s.entry with type := v.type }, writer := .writeTimestamp v }
  | .writeTimestamp v =>
    some { s with entry := { s.entry with timestampNs := nowNs }, writer := .finish v }
  | .finish v =>
    some { s with
      entry := { s.entry with seq := s.entry.seq + 1 }, writer := .idle, inForce := some v }

def loopTest (r : Reader) : ReaderPc :=
  if r.seq1 % 2 ^ 64 = r.seq2 % 2 ^ 64 then .leave else .loadSeq1

def stepReader (s : State) : Option State :=
  let r := s.reader
  match r.pc with
  | .idle => none
  | .loadSeq1 =>
    let r := { r with seq1 := s.entry.seq }
    let pc := if s.entry.seq % 2 = 1 then loopTest r else .readType
    some { s with reader := { r with pc } }
  | .readType => some { s with reader := { r with tempType := s.entry.type, pc := .readValue } }
  | .readValue => some { s with reader := { r with tempValue := s.entry.value, pc := .loadSeq2 } }
  | .loadSeq2 =>
    let r := { r with seq2 := s.entry.seq }
    some { s with reader := { r with pc := loopTest r } }
  | .leave => some { s with reader := { r with pc := .idle } }

def next (s : State) : Label → Option State
  | .set v =>
    if s.writer = .idle then
      some { s with
        entry := { s.entry with seq := s.entry.seq + 1 }, writer := .writeValue v }
    else none
  | .write nowNs => stepWriter s nowNs
  | .get call seq1 seq2 tempType tempValue =>
    -- A buffer of size zero is refused before the entry is touched.
    if s.reader.pc = .idle ∧ call ≠ .string 0 then
      some { s with reader := ⟨.loadSeq1, call, seq1, seq2, tempType, tempValue⟩ }
    else none
  | .read => stepReader s

def Reader.result (r : Reader) : Int × Option Value :=
  if r.tempType = r.call.type then (0, some (r.call.decode r.tempValue)) else (-1, none)

/-- A get call that returns 0 has the value of a set call of its type which had completed, with no
other in progress, at some instant of the read. -/
def ReadsOneSet (G : State → Label → Prop) (before : List Label) (call : GetCall)
    (during : List Label) : Prop :=
  ∀ seq1 seq2 tempType tempValue s v,
    Run next G State.init (before ++ .get call seq1 seq2 tempType tempValue :: during) s →
    (∀ c q₁ q₂ t d, .get c q₁ q₂ t d ∉ during) →
    s.reader.pc = .leave → s.reader.result = (0, some v) →
    ∃ d₁ d₂ mid c, during = d₁ ++ d₂ ∧
      Run next G State.init (before ++ .get call seq1 seq2 tempType tempValue :: d₁) mid ∧
      mid.writer = .idle ∧ mid.inForce = some c ∧ c.type = call.type ∧ v = call.expects c

/-- No odd counter that equals the stale `seq2` is loaded, and the counter has not gone round
between the two loads. -/
def NoStaleExit (s : State) : Label → Prop
  | .read =>
    (s.reader.pc = .loadSeq1 → s.entry.seq % 2 = 1 →
      s.entry.seq % 2 ^ 64 ≠ s.reader.seq2 % 2 ^ 64) ∧
    (s.reader.pc = .loadSeq2 → s.reader.seq1 % 2 ^ 64 = s.entry.seq % 2 ^ 64 →
      s.reader.seq1 = s.entry.seq)
  | _ => True

instance (s : State) (l : Label) : Decidable (NoStaleExit s l) :=
  match l with
  | .set _ => .isTrue trivial
  | .write _ => .isTrue trivial
  | .get .. => .isTrue trivial
  | .read => inferInstanceAs (Decidable (_ ∧ _))

def Stores (e : DataEntry) (v : Value) : Prop :=
  e.type = v.type ∧ ∃ d : DataValue, e.value = d.write v

def Coherent (s : State) : Prop :=
  match s.writer with
  | .idle => s.entry.seq % 2 = 0 ∧
      (s.inForce = none → s.entry.type = .none) ∧ ∀ c, s.inForce = some c → Stores s.entry c
  | .writeValue _ => s.entry.seq % 2 = 1
  | .writeType v => s.entry.seq % 2 = 1 ∧ ∃ d : DataValue, s.entry.value = d.write v
  | .writeTimestamp v => s.entry.seq % 2 = 1 ∧ Stores s.entry v
  | .finish v => s.entry.seq % 2 = 1 ∧ Stores s.entry v

def Label.ofReader : Label → Prop
  | .get .. => True
  | .read => True
  | _ => False

variable {s : State} {l : Label} {G : State → Label → Prop}

lemma next_ofReader {s' : State} (hl : l.ofReader) (h : next s l = some s') :
    s'.entry = s.entry ∧ s'.writer = s.writer ∧ s'.inForce = s.inForce := by
  cases l with
  | set v => cases hl
  | write nowNs => cases hl
  | get call seq1 seq2 tempType tempValue =>
    simp only [next] at h
    split_ifs at h
    cases h
    exact ⟨rfl, rfl, rfl⟩
  | read =>
    simp only [next, stepReader] at h
    cases hpc : s.reader.pc <;> simp only [hpc, Option.some.injEq, reduceCtorEq] at h <;>
      subst h <;> exact ⟨rfl, rfl, rfl⟩

lemma next_ofWriter {s' : State} (hl : ¬ l.ofReader) (h : next s l = some s') :
    s'.reader = s.reader ∧
      (s'.entry.seq = s.entry.seq + 1 ∨ s'.entry.seq = s.entry.seq ∧ s.writer ≠ .idle) := by
  cases l with
  | set v =>
    simp only [next] at h
    split_ifs at h
    cases h
    exact ⟨rfl, Or.inl rfl⟩
  | write nowNs =>
    simp only [next, stepWriter] at h
    cases hw : s.writer <;> simp only [hw, Option.some.injEq, reduceCtorEq] at h <;> subst h <;>
      simp
  | get call seq1 seq2 tempType tempValue => exact absurd trivial hl
  | read => exact absurd trivial hl

lemma next_read_call {s' : State} (h : next s .read = some s') :
    s'.reader.call = s.reader.call := by
  simp only [next, stepReader] at h
  cases hpc : s.reader.pc <;> simp only [hpc, Option.some.injEq, reduceCtorEq] at h <;>
    subst h <;> rfl

lemma coherent_init : Coherent State.init := by
  simp [Coherent, State.init]

lemma coherent_next {s' : State} (hc : Coherent s) (h : next s l = some s') : Coherent s' := by
  by_cases hl : l.ofReader
  · obtain ⟨he, hw, hf⟩ := next_ofReader hl h
    simp only [Coherent, he, hw, hf]
    exact hc
  cases l with
  | set v =>
    simp only [next] at h
    split_ifs at h with hidle
    cases h
    simp only [Coherent, hidle] at hc ⊢
    omega
  | write nowNs =>
    simp only [next, stepWriter] at h
    cases hw : s.writer with
    | idle => simp [hw] at h
    | writeValue v =>
      simp only [hw, Option.some.injEq] at h
      subst h
      simp only [Coherent, hw] at hc ⊢
      exact ⟨hc, _, rfl⟩
    | writeType v =>
      simp only [hw, Option.some.injEq] at h
      subst h
      simp only [Coherent, hw] at hc ⊢
      exact ⟨hc.1, rfl, hc.2⟩
    | writeTimestamp v =>
      simp only [hw, Option.some.injEq] at h
      subst h
      simp only [Coherent, hw] at hc ⊢
      exact hc
    | finish v =>
      simp only [hw, Option.some.injEq] at h
      subst h
      simp only [Coherent, hw] at hc ⊢
      refine ⟨by omega, by simp, fun c hcv => ?_⟩
      cases hcv
      exact hc.2
  | get call seq1 seq2 tempType tempValue => exact absurd trivial hl
  | read => exact absurd trivial hl

section
variable {G : State → Label → Prop} {s₁ : State}

/-- `mid` is an instant of the read, between set calls, at which the counter was `seq1`; the entry
has not changed since, unless the counter has. -/
structure Snapshot (G : State → Label → Prop) (s₁ mid : State) (d : List Label) (t : State) :
    Prop where
  instant : ∃ d₁ d₂, d = d₁ ++ d₂ ∧ Run next G s₁ d₁ mid
  idle : mid.writer = .idle
  coherent : Coherent mid
  seq1_eq : t.reader.seq1 = mid.entry.seq
  mono : mid.entry.seq ≤ t.entry.seq
  same : t.entry.seq = mid.entry.seq → t.entry = mid.entry ∧ t.writer = .idle

variable {d : List Label}

lemma Snapshot.next {mid t t' : State} {l : Label} (h : Snapshot G s₁ mid d t)
    (hn : next t l = some t') (hseq : t'.reader.seq1 = t.reader.seq1) :
    Snapshot G s₁ mid (d ++ [l]) t' := by
  obtain ⟨d₁, d₂, hd, hrun⟩ := h.instant
  have hmono := h.mono
  refine ⟨⟨d₁, d₂ ++ [l], by rw [hd, append_assoc], hrun⟩, h.idle, h.coherent,
    hseq.trans h.seq1_eq, ?_, ?_⟩
  · by_cases hl : l.ofReader
    · rw [(next_ofReader hl hn).1]
      exact hmono
    · rcases (next_ofWriter hl hn).2 with hs | hs <;> omega
  · by_cases hl : l.ofReader
    · obtain ⟨he, hw, -⟩ := next_ofReader hl hn
      rw [he, hw]
      exact h.same
    · intro heq
      rcases (next_ofWriter hl hn).2 with hs | ⟨hs, hbusy⟩
      · omega
      · exact absurd (h.same (by omega)).2 hbusy

def Reading (G : State → Label → Prop) (s₁ : State) (d : List Label) (t : State) : Prop :=
  let r := t.reader
  match r.pc with
  | .idle => True
  | .loadSeq1 => True
  | .readType => ∃ mid, Snapshot G s₁ mid d t
  | .readValue => ∃ mid, Snapshot G s₁ mid d t ∧
      (t.entry.seq = mid.entry.seq → r.tempType = mid.entry.type)
  | .loadSeq2 => ∃ mid, Snapshot G s₁ mid d t ∧
      (t.entry.seq = mid.entry.seq → r.tempType = mid.entry.type ∧ r.tempValue = mid.entry.value)
  | .leave => ∃ mid d₁ d₂, d = d₁ ++ d₂ ∧ Run next G s₁ d₁ mid ∧ mid.writer = .idle ∧
      Coherent mid ∧ r.tempType = mid.entry.type ∧ r.tempValue = mid.entry.value

lemma Coherent.idle_of_even {s : State} (h : Coherent s) (he : s.entry.seq % 2 ≠ 1) :
    s.writer = .idle := by
  cases hw : s.writer <;> simp only [Coherent, hw] at h <;> first | rfl | omega

lemma reading_ofWriter {t t' : State} {l : Label} (hl : ¬ l.ofReader) (hn : next t l = some t')
    (h : Reading G s₁ d t) : Reading G s₁ (d ++ [l]) t' := by
  obtain ⟨hr, hseq⟩ := next_ofWriter hl hn
  have stays : ∀ mid, Snapshot G s₁ mid d t → t'.entry.seq = mid.entry.seq →
      t.entry.seq = mid.entry.seq := by
    intro mid hs heq
    have := hs.mono
    omega
  simp only [Reading, hr] at h ⊢
  cases hpc : t.reader.pc <;> simp only [hpc] at h ⊢
  case readType =>
    obtain ⟨mid, hs⟩ := h
    exact ⟨mid, hs.next hn (by rw [hr])⟩
  case readValue =>
    obtain ⟨mid, hs, ht⟩ := h
    exact ⟨mid, hs.next hn (by rw [hr]), fun heq => ht (stays mid hs heq)⟩
  case loadSeq2 =>
    obtain ⟨mid, hs, ht⟩ := h
    exact ⟨mid, hs.next hn (by rw [hr]), fun heq => ht (stays mid hs heq)⟩
  case leave =>
    obtain ⟨mid, d₁, d₂, hd, hmid⟩ := h
    exact ⟨mid, d₁, d₂ ++ [l], by rw [hd, append_assoc], hmid⟩

lemma reading_read {t t' : State} (hrun : Run next G s₁ d t) (hc : Coherent t)
    (hg : NoStaleExit t .read) (hn : next t .read = some t') (h : Reading G s₁ d t) :
    Reading G s₁ (d ++ [.read]) t' := by
  have hn' := hn
  simp only [next, stepReader] at hn'
  cases hpc : t.reader.pc <;> simp only [hpc, Option.some.injEq, reduceCtorEq] at hn' <;>
    simp only [Reading, hpc] at h
  case loadSeq1 =>
    subst hn'
    by_cases hodd : t.entry.seq % 2 = 1
    · have hne := hg.1 hpc hodd
      simp only [Reading, hodd, loopTest, hne, if_true, if_false]
    · -- The instant of this load is the one the read is about.
      simp only [Reading, hodd, if_false]
      have hidle := hc.idle_of_even hodd
      exact ⟨t, ⟨d, [.read], rfl, hrun⟩, hidle, hc, rfl, le_refl _, fun _ => ⟨rfl, hidle⟩⟩
  case readType =>
    obtain ⟨mid, hs⟩ := h
    subst hn'
    exact ⟨mid, hs.next hn rfl, fun heq => by rw [(hs.same heq).1]⟩
  case readValue =>
    obtain ⟨mid, hs, ht⟩ := h
    subst hn'
    exact ⟨mid, hs.next hn rfl, fun heq => ⟨ht heq, by rw [(hs.same heq).1]⟩⟩
  case loadSeq2 =>
    obtain ⟨mid, hs, ht⟩ := h
    subst hn'
    by_cases heq : t.reader.seq1 % 2 ^ 64 = t.entry.seq % 2 ^ 64
    · have hsame : t.entry.seq = mid.entry.seq := (hg.2 hpc heq).symm.trans hs.seq1_eq
      obtain ⟨d₁, d₂, hd, hmid⟩ := hs.instant
      simp only [Reading, loopTest, heq, if_true]
      exact ⟨mid, d₁, d₂ ++ [.read], by rw [hd, append_assoc], hmid, hs.idle, hs.coherent, ht hsame⟩
    · simp only [Reading, loopTest, heq, if_false]
  case leave =>
    subst hn'
    trivial

end

lemma reading_run {s₁ : State} {d : List Label} (h0 : Coherent s₁)
    (hpc : s₁.reader.pc = .loadSeq1) (h : Run next NoStaleExit s₁ d s) :
    (∀ c q₁ q₂ t v, .get c q₁ q₂ t v ∉ d) →
      s.reader.call = s₁.reader.call ∧ Reading NoStaleExit s₁ d s := by
  refine (Run.invariant_history (fun d t => Run next NoStaleExit s₁ d t ∧ Coherent t ∧
    ((∀ c q₁ q₂ t v, .get c q₁ q₂ t v ∉ d) →
      t.reader.call = s₁.reader.call ∧ Reading NoStaleExit s₁ d t)) ?_ ?_ h).2.2
  · exact ⟨.nil, h0, fun _ => ⟨rfl, by simp [Reading, hpc]⟩⟩
  · intro d t l t' ⟨hrun, hc, ih⟩ hg hn
    refine ⟨hrun.snoc hg hn, coherent_next hc hn, fun hno => ?_⟩
    obtain ⟨hcall, hr⟩ := ih fun c q₁ q₂ t v hmem => hno c q₁ q₂ t v (by simp [hmem])
    by_cases hl : l.ofReader
    · cases l with
      | set v => cases hl
      | write nowNs => cases hl
      | get c q₁ q₂ t v => exact absurd (by simp) (hno c q₁ q₂ t v)
      | read => exact ⟨(next_read_call hn).trans hcall, reading_read hrun hc hg hn hr⟩
    · exact ⟨by rw [(next_ofWriter hl hn).1, hcall], reading_ofWriter hl hn hr⟩

lemma get_start {s₁ : State} {before : List Label} {call : GetCall} {seq1 seq2 : ℕ}
    {tempType : DataType} {tempValue : DataValue}
    (h : Run next G s (before ++ [.get call seq1 seq2 tempType tempValue]) s₁) :
    s₁.reader.pc = .loadSeq1 ∧ s₁.reader.call = call := by
  obtain ⟨s', -, -, hn⟩ := h.snoc_inv
  simp only [next] at hn
  split_ifs at hn
  cases hn
  exact ⟨rfl, rfl⟩

theorem readsOneSet_of_noStaleExit (before : List Label) (call : GetCall) (during : List Label) :
    ReadsOneSet NoStaleExit before call during := by
  intro seq1 seq2 tempType tempValue s v hrun hno hleave hres
  rw [append_cons] at hrun
  obtain ⟨s₁, hbef, hdur⟩ := hrun.split
  obtain ⟨hpc, hcall⟩ := get_start hbef
  have hc₁ : Coherent s₁ :=
    hbef.invariant Coherent coherent_init fun _ _ _ hc _ hn => coherent_next hc hn
  obtain ⟨hcall', hread⟩ := reading_run hc₁ hpc hdur hno
  simp only [Reading, hleave] at hread
  obtain ⟨mid, d₁, d₂, hd, hmid, hidle, hc, htype, hvl⟩ := hread
  simp only [Coherent, hidle] at hc
  simp only [Reader.result, hcall', hcall, htype, hvl] at hres
  have hmat : mid.entry.type = call.type := by
    by_contra hne
    simp [hne] at hres
  rw [if_pos hmat] at hres
  cases hfor : mid.inForce with
  | none =>
    rw [hc.2.1 hfor] at hmat
    cases call <;> cases hmat
  | some c =>
    obtain ⟨hct, w, hw⟩ := hc.2.2 c hfor
    have hcc : c.type = call.type := hct.symm.trans hmat
    refine ⟨d₁, d₂, mid, c, hd, ?_, hidle, hfor, hcc, ?_⟩
    · rw [append_cons]
      exact hbef.append hmid
    · rw [hw, decode_write call w c hcc] at hres
      simpa using hres.symm

def Writer.value : Writer → Option Value
  | .idle => none
  | .writeValue v => some v
  | .writeType v => some v
  | .writeTimestamp v => some v
  | .finish v => some v

lemma inForce_mem {ls : List Label} (h : Run next G State.init ls s) :
    ∀ c, s.writer.value = some c ∨ s.inForce = some c → .set c ∈ ls := by
  refine h.invariant_history
    (fun ls s => ∀ c, s.writer.value = some c ∨ s.inForce = some c → .set c ∈ ls)
    (by simp [State.init, Writer.value]) ?_
  intro ls s l s' ih _ hn c hc
  rw [mem_append]
  by_cases hl : l.ofReader
  · obtain ⟨-, hw, hf⟩ := next_ofReader hl hn
    rw [hw, hf] at hc
    exact Or.inl (ih c hc)
  cases l with
  | set v =>
    simp only [next] at hn
    split_ifs at hn
    cases hn
    rcases hc with hv | hf
    · cases hv
      exact Or.inr (by simp)
    · exact Or.inl (ih c (Or.inr hf))
  | write nowNs =>
    left
    simp only [next, stepWriter] at hn
    cases hw : s.writer <;> simp only [hw, Option.some.injEq, reduceCtorEq] at hn <;> subst hn <;>
      simp [Writer.value, hw] at hc ih
    case finish v =>
      exact ih c (Or.inl hc)
    all_goals exact ih c hc
  | get call seq1 seq2 tempType tempValue => exact absurd trivial hl
  | read => exact absurd trivial hl

def integerSet : List Label :=
  [.set (.int32 7), .write 0, .write 0, .write 0, .write 0]

/-- A float is written over the integer 7 while it is read. The second load and the first one of the
next round both see 3. -/
def tornDuring : List Label :=
  [.read, .read, .set (.float 0x40490fdb), .write 0, .read, .read, .read]

theorem not_readsOneSet :
    ¬ ∀ before call during, ReadsOneSet (fun _ _ => True) before call during := by
  intro h
  have hrun : ∃ s, exec next (fun _ _ => true) State.init
      (integerSet ++ .get .int32 0 0 .none .zero :: tornDuring) = some s ∧
      s.reader.pc = .leave ∧ s.reader.result = (0, some (.int32 0x40490fdb)) :=
    ⟨_, rfl, by decide, by decide⟩
  obtain ⟨s, hs, hleave, hres⟩ := hrun
  obtain ⟨d₁, d₂, mid, c, hd, hmid, -, hfor, htype, hv⟩ :=
    h integerSet .int32 tornDuring 0 0 .none .zero s _ (Run.of_exec (by simp) hs)
      (by simp [tornDuring]) hleave hres
  -- The only integer ever set is 7.
  have hmem := inForce_mem hmid c (Or.inr hfor)
  have hset : .set c ∈ integerSet ++ .get .int32 0 0 .none .zero :: tornDuring := by
    rw [hd]
    simp only [mem_append, mem_cons] at hmem ⊢
    tauto
  simp [integerSet, tornDuring] at hset
  rcases hset with rfl | rfl
  · simp [GetCall.expects] at hv
  · simp [Value.type, GetCall.type] at htype

end Mxrc.Rt.RTDataStore
