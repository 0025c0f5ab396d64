import Mathlib

/-!
# Numbers as decimal texts

`ofInt` and `fixed places` print a number, the second one rounded to a number of
places, and `number?` reads the usual floating point syntax. What is printed is
read back: an integer as itself, any other number as its rounded value.
-/

namespace Mxrc.Lib.Decimal
open List Option

def value (ds : List Char) : ℕ := Nat.ofDigitChars 10 ds 0

def exponentDigits? (ds : List Char) : Option ℤ :=
  if ds = [] ∨ ¬ds.all Char.isDigit then none else some (value ds)

def exponentSigned? : List Char → Option ℤ
  | '-' :: ds => (exponentDigits? ds).map (- ·)
  | '+' :: ds => exponentDigits? ds
  | ds => exponentDigits? ds

def exponent? : List Char → Option ℤ
  | [] => some 0
  | 'e' :: s => exponentSigned? s
  | 'E' :: s => exponentSigned? s
  | _ => none

def fraction : List Char → List Char × List Char
  | '.' :: s => (s.takeWhile Char.isDigit, s.dropWhile Char.isDigit)
  | s => ([], s)

def unsigned? (s : List Char) : Option ℚ :=
  let whole := s.takeWhile Char.isDigit
  let part := fraction (s.dropWhile Char.isDigit)
  if whole ++ part.1 = [] then none
  else (exponent? part.2).map fun e : ℤ =>
    value (whole ++ part.1) * (10 : ℚ) ^ (e - part.1.length)

def number? : List Char → Option ℚ
  | '-' :: s => (unsigned? s).map (- ·)
  | '+' :: s => unsigned? s
  | s => unsigned? s

def ofInt (n : ℤ) : List Char :=
  (if n < 0 then ['-'] else []) ++ Nat.toDigits 10 n.natAbs

def roundHalfEven (q : ℚ) : ℤ :=
  let low := ⌊q⌋
  if q - low < 1 / 2 then low
  else if 1 / 2 < q - low then low + 1
  else if low % 2 = 0 then low
  else low + 1

def units (places : ℕ) (q : ℚ) : ℕ := (roundHalfEven (|q| * 10 ^ places)).toNat

def fixed (places : ℕ) (q : ℚ) : List Char :=
  (if q < 0 then ['-'] else []) ++ (Nat.toDigits 10 (units places q / 10 ^ places) ++
    '.' :: (Nat.toDigits 10 (units places q % 10 ^ places)).leftpad places '0')

def rounded (places : ℕ) (q : ℚ) : ℚ :=
  (if q < 0 then -1 else 1) * (units places q / 10 ^ places)

section
variable {ds t : List Char} {c : Char}

section
variable (h : ∀ d ∈ ds, d.isDigit)
include h

lemma takeWhile_digits_of_all : ds.takeWhile Char.isDigit = ds :=
  takeWhile_eq_self_iff.mpr h

lemma dropWhile_digits_of_all : ds.dropWhile Char.isDigit = [] :=
  dropWhile_eq_nil_iff.mpr h

lemma takeWhile_digits_append (hc : ¬c.isDigit) : (ds ++ c :: t).takeWhile Char.isDigit = ds := by
  rw [takeWhile_append_of_pos h, takeWhile_cons_of_neg hc, append_nil]

lemma dropWhile_digits_append (hc : ¬c.isDigit) :
    (ds ++ c :: t).dropWhile Char.isDigit = c :: t := by
  rw [dropWhile_append_of_pos h, dropWhile_cons_of_neg hc]

end

lemma isDigit_toDigits (n : ℕ) : ∀ d ∈ Nat.toDigits 10 n, d.isDigit := fun _ hd =>
  Nat.isDigit_of_mem_toDigits (by decide) (by decide) hd

lemma value_toDigits (n : ℕ) : value (Nat.toDigits 10 n) = n :=
  Nat.ofDigitChars_toDigits (by decide) (by decide)

lemma unsigned?_digits (h : ∀ d ∈ ds, d.isDigit) (hne : ds ≠ []) :
    unsigned? ds = some (value ds : ℚ) := by
  simp [unsigned?, takeWhile_digits_of_all h, dropWhile_digits_of_all h, fraction, exponent?, hne]

lemma unsigned?_point (hds : ∀ d ∈ ds, d.isDigit) (ht : ∀ d ∈ t, d.isDigit) (hne : ds ≠ []) :
    unsigned? (ds ++ '.' :: t) = some (value (ds ++ t) / 10 ^ t.length : ℚ) := by
  have hpnt : ¬('.').isDigit := by decide
  simp [unsigned?, takeWhile_digits_append hds hpnt, dropWhile_digits_append hds hpnt, fraction,
    takeWhile_digits_of_all ht, dropWhile_digits_of_all ht, exponent?, hne, div_eq_mul_inv]

lemma number?_of_isDigit (hne : ds ≠ []) (h : ∀ d ∈ ds, d.isDigit) :
    number? (ds ++ t) = unsigned? (ds ++ t) := by
  obtain ⟨d, ds, rfl⟩ := exists_cons_of_ne_nil hne
  have hd : d.isDigit := h d (by simp)
  rw [cons_append]
  unfold number?
  split
  · next heq => obtain ⟨rfl, -⟩ := List.cons.inj heq; exact absurd hd (by decide)
  · next heq => obtain ⟨rfl, -⟩ := List.cons.inj heq; exact absurd hd (by decide)
  · rfl

lemma number?_neg (s : List Char) : number? ('-' :: s) = (unsigned? s).map (- ·) := rfl

lemma number?_sign (b : Prop) [Decidable b] (hne : ds ≠ []) (h : ∀ d ∈ ds, d.isDigit) :
    number? ((if b then ['-'] else []) ++ (ds ++ t)) =
      (unsigned? (ds ++ t)).map ((if b then -1 else 1) * ·) := by
  split_ifs with hb
  · rw [singleton_append, number?_neg]
    simp
  · rw [nil_append, number?_of_isDigit hne h]
    simp

end

lemma number?_ofInt (n : ℤ) : number? (ofInt n) = some (n : ℚ) := by
  have hread := number?_sign (t := []) (n < 0) (Nat.toDigits_ne_nil (n := n.natAbs))
    (isDigit_toDigits n.natAbs)
  rw [append_nil] at hread
  rw [ofInt, hread, unsigned?_digits (isDigit_toDigits _) Nat.toDigits_ne_nil, value_toDigits,
    map_some]
  congr 1
  split_ifs with hn
  · have habs : (n.natAbs : ℤ) = -n := by omega
    rw [← Int.cast_natCast, habs]
    push_cast
    ring
  · have habs : (n.natAbs : ℤ) = n := by omega
    rw [← Int.cast_natCast, habs, one_mul]

lemma value_append (ds t : List Char) : value (ds ++ t) = 10 ^ t.length * value ds + value t := by
  rw [value, Nat.ofDigitChars_append, Nat.ofDigitChars_eq_ofDigitChars_zero]
  rfl

lemma value_leftpad (places n : ℕ) : value ((Nat.toDigits 10 n).leftpad places '0') = n := by
  have hzero : value (List.replicate (places - (Nat.toDigits 10 n).length) '0') = 0 := by
    rw [value, Nat.ofDigitChars_replicate_zero, Nat.mul_zero]
  rw [List.leftpad, value_append, hzero, value_toDigits, Nat.mul_zero, Nat.zero_add]

lemma length_leftpad {places n : ℕ} (hplac : 0 < places) (hn : n < 10 ^ places) :
    ((Nat.toDigits 10 n).leftpad places '0').length = places := by
  have hlen := (Nat.length_toDigits_le_iff (by decide) hplac).mpr hn
  rw [List.leftpad, length_append, length_replicate]
  omega

lemma isDigit_leftpad (places n : ℕ) :
    ∀ d ∈ (Nat.toDigits 10 n).leftpad places '0', d.isDigit := by
  intro d hd
  rcases mem_append.mp hd with hd | hd
  · rw [eq_of_mem_replicate hd]
    decide
  · exact isDigit_toDigits n d hd

lemma number?_fixed {places : ℕ} (hplac : 0 < places) (q : ℚ) :
    number? (fixed places q) = some (rounded places q) := by
  have hlen : ((Nat.toDigits 10 (units places q % 10 ^ places)).leftpad places '0').length =
      places := length_leftpad hplac (Nat.mod_lt _ (by positivity))
  rw [fixed, number?_sign (q < 0) Nat.toDigits_ne_nil (isDigit_toDigits _),
    unsigned?_point (isDigit_toDigits _) (isDigit_leftpad _ _) Nat.toDigits_ne_nil, value_append,
    hlen, value_toDigits, value_leftpad, Nat.div_add_mod, map_some, rounded]

section

def IsNumeric (c : Char) : Prop := c.isDigit ∨ c ∈ ['+', '-', '.', 'e', 'E']

instance (c : Char) : Decidable (IsNumeric c) := inferInstanceAs (Decidable (_ ∨ _))

variable {s : List Char} {c : Char}

lemma isNumeric_of_exponentDigits? (h : (exponentDigits? s).isSome) (hc : c ∈ s) :
    IsNumeric c := by
  rw [exponentDigits?] at h
  split_ifs at h with hs
  · simp at h
  · rw [not_or, not_not] at hs
    exact .inl (List.all_eq_true.mp hs.2 c hc)

lemma isNumeric_of_exponentSigned? (h : (exponentSigned? s).isSome) (hc : c ∈ s) :
    IsNumeric c := by
  unfold exponentSigned? at h
  split at h
  · rw [isSome_map] at h
    rcases mem_cons.mp hc with rfl | hc
    · decide
    · exact isNumeric_of_exponentDigits? h hc
  · rcases mem_cons.mp hc with rfl | hc
    · decide
    · exact isNumeric_of_exponentDigits? h hc
  · exact isNumeric_of_exponentDigits? h hc

lemma isNumeric_of_exponent? (h : (exponent? s).isSome) (hc : c ∈ s) : IsNumeric c := by
  unfold exponent? at h
  split at h
  · simp at hc
  · rcases mem_cons.mp hc with rfl | hc
    · decide
    · exact isNumeric_of_exponentSigned? h hc
  · rcases mem_cons.mp hc with rfl | hc
    · decide
    · exact isNumeric_of_exponentSigned? h hc
  · simp at h

lemma mem_fraction (s : List Char) (hc : c ∈ s) :
    c = '.' ∨ c ∈ (fraction s).1 ∨ c ∈ (fraction s).2 := by
  unfold fraction
  split
  · next t =>
    rcases mem_cons.mp hc with hc | hc
    · exact .inl hc
    · rw [← takeWhile_append_dropWhile (p := Char.isDigit) (l := t)] at hc
      exact .inr (mem_append.mp hc)
  · exact .inr (.inr hc)

lemma isDigit_fraction (s : List Char) (hc : c ∈ (fraction s).1) : c.isDigit := by
  unfold fraction at hc
  split at hc
  · exact mem_takeWhile_imp hc
  · simp at hc

lemma isNumeric_of_unsigned? (h : (unsigned? s).isSome) (hc : c ∈ s) : IsNumeric c := by
  rw [← takeWhile_append_dropWhile (p := Char.isDigit) (l := s)] at hc
  rw [unsigned?] at h
  split_ifs at h
  · simp at h
  · rw [isSome_map] at h
    rcases mem_append.mp hc with hc | hc
    · exact .inl (mem_takeWhile_imp hc)
    · rcases mem_fraction _ hc with rfl | hc | hc
      · decide
      · exact .inl (isDigit_fraction _ hc)
      · exact isNumeric_of_exponent? h hc

lemma isNumeric_of_number? (h : (number? s).isSome) (hc : c ∈ s) : IsNumeric c := by
  unfold number? at h
  split at h
  · rw [isSome_map] at h
    rcases mem_cons.mp hc with rfl | hc
    · decide
    · exact isNumeric_of_unsigned? h hc
  · rcases mem_cons.mp hc with rfl | hc
    · decide
    · exact isNumeric_of_unsigned? h hc
  · exact isNumeric_of_unsigned? h hc

end
end Mxrc.Lib.Decimal
