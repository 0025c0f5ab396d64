import Mxrc.Lib.Decimal

/-!
# Calendar times and their texts

`gmtime` and `mktime` over the Gregorian calendar, and `put_time` and `get_time`
for formats of digits and literal characters. Days are counted in eras of 400
years that begin on 1 March.
-/

namespace Mxrc.Lib.Calendar
open List
open Mxrc.Lib.Decimal

def daysBeforeYear (year : ℤ) : ℤ := 365 * year + year / 4 - year / 100

def yearOfEra (day : ℤ) : ℤ := (day - day / 1460 + day / 36524 - day / 146096) / 365

def daysBeforeMonth (month : ℤ) : ℤ := (153 * month + 2) / 5

def monthOfYear (day : ℤ) : ℤ := (5 * day + 2) / 153

section
variable {day : ℤ} (h0 : 0 ≤ day) (h1 : day < 146097)
include h0 h1

lemma leapYears_bounds :
    yearOfEra day / 4 ≤ day / 1460 ∧ day / 1460 ≤ yearOfEra day / 4 + 1 := by
  unfold yearOfEra
  omega

lemma centuries_eq : yearOfEra day / 100 + day / 146096 = day / 36524 := by
  have hcen : 0 ≤ day / 36524 ∧ day / 36524 ≤ 4 := by omega
  unfold yearOfEra
  generalize hk : day / 36524 = k at *
  obtain ⟨hk0, hk4⟩ := hcen
  -- the quotients are linear in the day once the century is fixed
  interval_cases k <;> omega

lemma yearOfEra_bounds :
    (0 ≤ yearOfEra day ∧ yearOfEra day < 400) ∧ 0 ≤ day - daysBeforeYear (yearOfEra day) ∧
      day - daysBeforeYear (yearOfEra day) ≤ 365 := by
  have hleap := leapYears_bounds h0 h1
  have hcent := centuries_eq h0 h1
  have hyear : yearOfEra day = (day - day / 1460 + day / 36524 - day / 146096) / 365 := rfl
  unfold daysBeforeYear
  omega

end

lemma monthOfYear_bounds {day : ℤ} (h0 : 0 ≤ day) (h1 : day ≤ 365) :
    (0 ≤ monthOfYear day ∧ monthOfYear day < 12) ∧ 0 ≤ day - daysBeforeMonth (monthOfYear day) ∧
      day - daysBeforeMonth (monthOfYear day) ≤ 30 := by
  unfold monthOfYear daysBeforeMonth
  omega

structure Date where
  year : ℤ
  month : ℤ
  day : ℤ
deriving DecidableEq

def dateOfDays (days : ℤ) : Date :=
  let day := (days + 719468) % 146097
  let year := yearOfEra day
  let dayOfYear := day - daysBeforeYear year
  let month := monthOfYear dayOfYear
  { year := (days + 719468) / 146097 * 400 + year + if month < 10 then 0 else 1
    month := if month < 10 then month + 3 else month - 9
    day := dayOfYear - daysBeforeMonth month + 1 }

def daysOfDate (d : Date) : ℤ :=
  let year := if d.month ≤ 2 then d.year - 1 else d.year
  let month := if d.month ≤ 2 then d.month + 9 else d.month - 3
  year / 400 * 146097 + daysBeforeYear (year % 400) + daysBeforeMonth month + (d.day - 1) - 719468

lemma dateOfDays_parts (days : ℤ) : ∃ era year month day,
    dateOfDays days = ⟨era * 400 + year + if month < 10 then 0 else 1,
      if month < 10 then month + 3 else month - 9, day + 1⟩ ∧
    (0 ≤ year ∧ year < 400) ∧ (0 ≤ month ∧ month < 12) ∧ (0 ≤ day ∧ day ≤ 30) ∧
    days = era * 146097 + daysBeforeYear year + daysBeforeMonth month + day - 719468 := by
  have h0 : 0 ≤ (days + 719468) % 146097 := by omega
  have h1 : (days + 719468) % 146097 < 146097 := by omega
  obtain ⟨hyear, hday⟩ := yearOfEra_bounds h0 h1
  obtain ⟨hmon, hrest⟩ := monthOfYear_bounds hday.1 hday.2
  refine ⟨(days + 719468) / 146097, _, _, _, rfl, hyear, hmon, hrest, ?_⟩
  have hera := Int.mul_ediv_add_emod (days + 719468) 146097
  omega

lemma daysOfDate_dateOfDays (days : ℤ) : daysOfDate (dateOfDays days) = days := by
  obtain ⟨era, year, month, day, hdate, hyear, hmon, -, hdays⟩ := dateOfDays_parts days
  have hera : (era * 400 + year) / 400 = era := by omega
  have hyearOfEra : (era * 400 + year) % 400 = year := by omega
  rw [hdate, daysOfDate]
  dsimp only
  by_cases hlate : month < 10
  · rw [if_pos hlate, if_pos hlate, if_neg (by omega), if_neg (by omega), add_zero, hera,
      hyearOfEra, add_sub_cancel_right, add_sub_cancel_right]
    exact hdays.symm
  · rw [if_neg hlate, if_neg hlate, if_pos (by omega), if_pos (by omega), add_sub_cancel_right,
      hera, hyearOfEra, sub_add_cancel, add_sub_cancel_right]
    exact hdays.symm

structure DateTime extends Date where
  hour : ℤ
  minute : ℤ
  second : ℤ
deriving DecidableEq

def gmtime (t : ℤ) : DateTime :=
  ⟨dateOfDays (t / 86400), t % 86400 / 3600, t % 3600 / 60, t % 60⟩

/-- The time is taken to be a local one without daylight saving, `offset` seconds ahead of UTC. -/
def mktime (offset : ℤ) (tm : DateTime) : ℤ :=
  daysOfDate tm.toDate * 86400 + tm.hour * 3600 + tm.minute * 60 + tm.second - offset

lemma mktime_gmtime (offset t : ℤ) : mktime offset (gmtime t) = t - offset := by
  rw [mktime, gmtime, daysOfDate_dateOfDays]
  dsimp only
  omega

inductive Field
  | year
  | month
  | day
  | hour
  | minute
  | second
deriving DecidableEq

namespace Field

def value : Field → DateTime → ℤ
  | .year, tm => tm.year
  | .month, tm => tm.month
  | .day, tm => tm.day
  | .hour, tm => tm.hour
  | .minute, tm => tm.minute
  | .second, tm => tm.second

def assign : Field → ℤ → DateTime → DateTime
  | .year, n, tm => { tm with year := n }
  | .month, n, tm => { tm with month := n }
  | .day, n, tm => { tm with day := n }
  | .hour, n, tm => { tm with hour := n }
  | .minute, n, tm => { tm with minute := n }
  | .second, n, tm => { tm with second := n }

def width : Field → ℕ
  | .year => 4
  | _ => 2

def range : Field → ℤ × ℤ
  | .year => (0, 9999)
  | .month => (1, 12)
  | .day => (1, 31)
  | .hour => (0, 23)
  | .minute => (0, 59)
  | .second => (0, 59)

def InRange (f : Field) (n : ℤ) : Prop := f.range.1 ≤ n ∧ n ≤ f.range.2

instance (f : Field) (n : ℤ) : Decidable (f.InRange n) := inferInstanceAs (Decidable (_ ∧ _))

def digits (f : Field) (n : ℤ) : List Char := (Nat.toDigits 10 n.toNat).leftpad f.width '0'

lemma width_pos (f : Field) : 0 < f.width := by
  cases f <;> decide

lemma InRange.nonneg {f : Field} {n : ℤ} (h : f.InRange n) : 0 ≤ n := by
  have hlow : 0 ≤ f.range.1 := by cases f <;> decide
  exact hlow.trans h.1

lemma InRange.length_digits {f : Field} {n : ℤ} (h : f.InRange n) :
    (f.digits n).length = f.width := by
  have hhigh : f.range.2 < 10 ^ f.width := by cases f <;> decide
  have hn := h.2
  exact length_leftpad f.width_pos (by zify; rw [Int.toNat_of_nonneg h.nonneg]; omega)

lemma InRange.value_digits {f : Field} {n : ℤ} (h : f.InRange n) :
    (Decimal.value (f.digits n) : ℤ) = n := by
  rw [digits, value_leftpad, Int.toNat_of_nonneg h.nonneg]

end Field

inductive Item
  | literal (c : Char)
  | field (f : Field)
deriving DecidableEq

def putTime : List Item → DateTime → List Char
  | [], _ => []
  | .literal c :: format, tm => c :: putTime format tm
  | .field f :: format, tm => f.digits (f.value tm) ++ putTime format tm

/-- The fields that the format names are assigned; what follows in the text is not read. -/
def getTime : List Item → List Char → DateTime → Option DateTime
  | [], _, tm => some tm
  | .literal c :: format, text, tm =>
    if text.head? = some c then getTime format text.tail tm else none
  | .field f :: format, text, tm =>
    let digits := text.take f.width
    if digits.length = f.width ∧ digits.all Char.isDigit ∧ f.InRange (Decimal.value digits) then
      getTime format (text.drop f.width) (f.assign (Decimal.value digits) tm)
    else none

def Item.copy (tm : DateTime) : Item → DateTime → DateTime
  | .literal _, tm' => tm'
  | .field f, tm' => f.assign (f.value tm) tm'

def DateTime.InRange (tm : DateTime) : Prop := ∀ f : Field, f.InRange (f.value tm)

lemma getTime_putTime (format : List Item) {tm : DateTime} (h : tm.InRange) (tm₀ : DateTime) :
    getTime format (putTime format tm) tm₀ =
      some (format.foldl (fun tm' item => item.copy tm tm') tm₀) := by
  induction format generalizing tm₀ with
  | nil => rfl
  | cons item format ih =>
    cases item with
    | literal c =>
      rw [putTime, getTime, head?_cons, if_pos rfl, tail_cons, ih]
      rfl
    | field f =>
      have hlen := (h f).length_digits
      have htake : (f.digits (f.value tm) ++ putTime format tm).take f.width =
          f.digits (f.value tm) := take_left' hlen
      have hdrop : (f.digits (f.value tm) ++ putTime format tm).drop f.width =
          putTime format tm := drop_left' hlen
      have hdig : (f.digits (f.value tm)).all Char.isDigit := by
        rw [all_eq_true]
        exact isDigit_leftpad _ _
      rw [putTime, getTime, htake, hdrop, (h f).value_digits, if_pos ⟨hlen, hdig, h f⟩, ih]
      rfl

def isoFormat : List Item :=
  [.field .year, .literal '-', .field .month, .literal '-', .field .day, .literal 'T',
    .field .hour, .literal ':', .field .minute, .literal ':', .field .second, .literal 'Z']

lemma getTime_putTime_isoFormat {tm : DateTime} (h : tm.InRange) (tm₀ : DateTime) :
    getTime isoFormat (putTime isoFormat tm) tm₀ = some tm :=
  getTime_putTime isoFormat h tm₀

def endOfYear9999 : ℤ := 253402300800

lemma inRange_gmtime {t : ℤ} (h0 : 0 ≤ t) (h1 : t < endOfYear9999) : (gmtime t).InRange := by
  have hdays0 : 0 ≤ t / 86400 := by omega
  have hdays1 : t / 86400 < 2932897 := by
    rw [endOfYear9999] at h1
    omega
  obtain ⟨era, year, month, day, hdate, hyear, hmon, hday, hdays⟩ := dateOfDays_parts (t / 86400)
  intro f
  rw [gmtime, hdate]
  cases f <;> simp only [Field.value, Field.InRange, Field.range]
  case year =>
    -- the last year of the era ends with February, in the year after it
    unfold daysBeforeYear daysBeforeMonth at hdays
    split_ifs <;> omega
  case month => split_ifs <;> omega
  all_goals omega

example : putTime isoFormat (gmtime 951782400) = "2000-02-29T00:00:00Z".toList := by
  decide +kernel

end Mxrc.Lib.Calendar
