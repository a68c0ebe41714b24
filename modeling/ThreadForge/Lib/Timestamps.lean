import Mathlib.Data.String.Basic
import Mathlib.Order.Basic
import Mathlib.Tactic.Ring

/-!
# Timestamps and the text they are written as

Dates of the Gregorian calendar, instants in UTC, and the ISO text of an instant. The text has a
fraction only where the microseconds are not zero, so its order is not quite that of time.

## Main results

* `Instant.stamp_le_iff` — when the text of an instant comes before that of another.
-/

namespace Timestamps

/-! ## Text of a fixed width -/

/-- The last `width` decimal digits of a number. -/
def padded : Nat → Nat → List Char
  | 0, _ => []
  | width + 1, n => padded width (n / 10) ++ [Nat.digitChar (n % 10)]

@[simp] theorem length_padded (width n : Nat) : (padded width n).length = width := by
  induction width generalizing n with
  | zero => rfl
  | succ width ih => rw [padded, List.length_append, ih, List.length_singleton]

/-- Parts of one length are compared before what follows them. -/
theorem append_lt_append_iff {α : Type*} [LT α] {a b x y : List α} (h : a.length = b.length) :
    a ++ x < b ++ y ↔ a < b ∨ a = b ∧ x < y := by
  induction a generalizing b with
  | nil =>
    rw [List.length_nil] at h
    rw [List.length_eq_zero_iff.mp h.symm]
    simp
  | cons c a ih =>
    cases b with
    | nil => cases h
    | cons d b =>
      rw [List.length_cons, List.length_cons] at h
      rw [List.cons_append, List.cons_append, List.cons_lt_cons_iff, List.cons_lt_cons_iff,
        ih (Nat.succ_injective h), List.cons.injEq]
      tauto

theorem digitChar_lt_iff {m n : Nat} (hm : m < 10) (hn : n < 10) :
    Nat.digitChar m < Nat.digitChar n ↔ m < n := by
  have hall : ∀ i ∈ List.range 10, ∀ j ∈ List.range 10,
      (Nat.digitChar i < Nat.digitChar j ↔ i < j) := by decide
  exact hall m (List.mem_range.mpr hm) n (List.mem_range.mpr hn)

/-- **Digits of one width are ordered as the numbers.** -/
theorem padded_lt_iff : ∀ {width m n : Nat}, m < 10 ^ width → n < 10 ^ width →
    (padded width m < padded width n ↔ m < n)
  | 0, m, n, hm, hn => by
    rw [pow_zero] at hm hn
    simp only [padded, lt_irrefl, false_iff]
    omega
  | width + 1, m, n, hm, hn => by
    have hm' : m / 10 < 10 ^ width := by rw [pow_succ] at hm; omega
    have hn' : n / 10 < 10 ^ width := by rw [pow_succ] at hn; omega
    have heq : padded width (m / 10) = padded width (n / 10) ↔ m / 10 = n / 10 := by
      constructor
      · intro h
        have hlt := (padded_lt_iff hm' hn').not.mp (h ▸ lt_irrefl _)
        have hgt := (padded_lt_iff hn' hm').not.mp (h ▸ lt_irrefl _)
        omega
      · intro h
        rw [h]
    have hdigit : [Nat.digitChar (m % 10)] < [Nat.digitChar (n % 10)] ↔ m % 10 < n % 10 := by
      rw [List.cons_lt_cons_iff, digitChar_lt_iff (Nat.mod_lt _ (by decide))
        (Nat.mod_lt _ (by decide))]
      simp
    rw [padded, padded, append_lt_append_iff (by simp), padded_lt_iff hm' hn', heq, hdigit]
    omega

/-- A number, a separator and what follows. -/
theorem padded_cons_lt_iff {width m n : Nat} (c : Char) {x y : List Char} (hm : m < 10 ^ width)
    (hn : n < 10 ^ width) :
    padded width m ++ c :: x < padded width n ++ c :: y ↔ m < n ∨ m = n ∧ x < y := by
  rw [append_lt_append_iff (by simp), padded_lt_iff hm hn, List.cons_lt_cons_iff]
  constructor
  · rintro (h | ⟨h, hc | ⟨-, hx⟩⟩)
    · exact Or.inl h
    · exact absurd hc (lt_irrefl c)
    · rcases lt_trichotomy m n with hlt | heq | hgt
      · exact Or.inl hlt
      · exact Or.inr ⟨heq, hx⟩
      · exact absurd ((padded_lt_iff hn hm).mpr hgt) (h ▸ lt_irrefl _)
  · rintro (h | ⟨rfl, hx⟩)
    · exact Or.inl h
    · exact Or.inr ⟨rfl, Or.inr ⟨rfl, hx⟩⟩

/-! ## The calendar -/

def isLeap (year : Nat) : Prop := year % 4 = 0 ∧ (year % 100 ≠ 0 ∨ year % 400 = 0)

instance (year : Nat) : Decidable (isLeap year) := inferInstanceAs (Decidable (_ ∧ _))

def daysInMonth (year month : Nat) : Nat :=
  if month = 0 then 0
  else if month = 2 then if isLeap year then 29 else 28
  else if month = 4 ∨ month = 6 ∨ month = 9 ∨ month = 11 then 30
  else 31

def daysBeforeMonth (year : Nat) : Nat → Nat
  | 0 => 0
  | month + 1 => daysBeforeMonth year month + daysInMonth year month

def daysBeforeYear (year : Nat) : Nat :=
  (year - 1) * 365 + (year - 1) / 4 - (year - 1) / 100 + (year - 1) / 400

theorem daysBeforeMonth_mono (year : Nat) {month month' : Nat} (h : month ≤ month') :
    daysBeforeMonth year month ≤ daysBeforeMonth year month' := by
  induction month', h using Nat.le_induction with
  | base => exact le_refl _
  | succ month' _ ih =>
    rw [daysBeforeMonth]
    omega

theorem daysBeforeMonth_thirteen (year : Nat) :
    daysBeforeMonth year 13 = if isLeap year then 366 else 365 := by
  by_cases hleap : isLeap year
  · simp [daysBeforeMonth, daysInMonth, hleap]
  · simp [daysBeforeMonth, daysInMonth, hleap]

/-- The twelve months are the year. -/
theorem daysBeforeYear_succ {year : Nat} (h : 1 ≤ year) :
    daysBeforeYear (year + 1) = daysBeforeYear year + daysBeforeMonth year 13 := by
  obtain ⟨k, rfl⟩ : ∃ k, year = k + 1 := ⟨year - 1, by omega⟩
  rw [daysBeforeMonth_thirteen, daysBeforeYear, daysBeforeYear, Nat.add_sub_cancel,
    Nat.add_sub_cancel]
  have hfour : (k + 1) / 4 = k / 4 + if 4 ∣ k + 1 then 1 else 0 := Nat.succ_div
  have hhundred : (k + 1) / 100 = k / 100 + if 100 ∣ k + 1 then 1 else 0 := Nat.succ_div
  have hfours : (k + 1) / 400 = k / 400 + if 400 ∣ k + 1 then 1 else 0 := Nat.succ_div
  rw [hfour, hhundred, hfours]
  -- the centuries are among the fourth years, and the fourth centuries among the centuries
  have hle : k / 100 ≤ k / 4 := Nat.div_le_div_left (by decide) (by decide)
  have hleap : isLeap (k + 1) ↔ 4 ∣ k + 1 ∧ (¬100 ∣ k + 1 ∨ 400 ∣ k + 1) := by
    rw [isLeap, Nat.dvd_iff_mod_eq_zero, Nat.dvd_iff_mod_eq_zero, Nat.dvd_iff_mod_eq_zero]
  by_cases h4 : 4 ∣ k + 1
  · by_cases h100 : 100 ∣ k + 1
    · by_cases h400 : 400 ∣ k + 1
      · rw [if_pos h4, if_pos h100, if_pos h400, if_pos (hleap.mpr ⟨h4, Or.inr h400⟩)]
        omega
      · rw [if_pos h4, if_pos h100, if_neg h400,
          if_neg fun hyear => (hleap.mp hyear).2.elim (fun hnot => hnot h100) h400]
        omega
    · have h400 : ¬400 ∣ k + 1 := fun hdvd => h100 ((by decide : 100 ∣ 400).trans hdvd)
      rw [if_pos h4, if_neg h100, if_neg h400, if_pos (hleap.mpr ⟨h4, Or.inl h100⟩)]
      omega
  · have h100 : ¬100 ∣ k + 1 := fun hdvd => h4 ((by decide : 4 ∣ 100).trans hdvd)
    have h400 : ¬400 ∣ k + 1 := fun hdvd => h100 ((by decide : 100 ∣ 400).trans hdvd)
    rw [if_neg h4, if_neg h100, if_neg h400, if_neg fun hyear => h4 (hleap.mp hyear).1]
    omega

theorem daysBeforeYear_mono {year year' : Nat} (hpos : 1 ≤ year) (h : year ≤ year') :
    daysBeforeYear year ≤ daysBeforeYear year' := by
  induction year', h using Nat.le_induction with
  | base => exact le_refl _
  | succ year' hle ih =>
    rw [daysBeforeYear_succ (by omega)]
    omega

/-- A date of the years 1 to 9999. -/
structure Date where
  year : Nat
  month : Nat
  day : Nat
  year_pos : 1 ≤ year
  year_le : year ≤ 9999
  month_pos : 1 ≤ month
  month_le : month ≤ 12
  day_pos : 1 ≤ day
  day_le : day ≤ daysInMonth year month

namespace Date

/-- The number of the day, where the first of January of the year 1 is day 1. -/
def ordinal (date : Date) : Nat :=
  daysBeforeYear date.year + daysBeforeMonth date.year date.month + date.day

/-- The next day, where the calendar has one. -/
def next? (date : Date) : Option Date :=
  if h : date.day + 1 ≤ daysInMonth date.year date.month then
    some { date with day := date.day + 1, day_pos := Nat.le_add_left 1 _, day_le := h }
  else if h : date.month + 1 ≤ 12 then
    some { date with
      month := date.month + 1
      day := 1
      month_pos := Nat.le_add_left 1 _
      month_le := h
      day_pos := le_refl 1
      day_le := by
        unfold daysInMonth
        split
        · omega
        split
        · split <;> omega
        split <;> omega }
  else if h : date.year + 1 ≤ 9999 then
    some { date with
      year := date.year + 1
      month := 1
      day := 1
      year_pos := Nat.le_add_left 1 _
      year_le := h
      month_pos := le_refl 1
      month_le := by decide
      day_pos := le_refl 1
      day_le := by simp [daysInMonth] }
  else none

theorem ordinal_le (date : Date) :
    date.ordinal ≤ daysBeforeYear date.year + daysBeforeMonth date.year (date.month + 1) := by
  have hle := date.day_le
  rw [ordinal, daysBeforeMonth]
  omega

theorem lt_ordinal (date : Date) :
    daysBeforeYear date.year + daysBeforeMonth date.year date.month < date.ordinal := by
  have hpos := date.day_pos
  rw [ordinal]
  omega

theorem ordinal_lt_of_year {a b : Date} (h : a.year < b.year) : a.ordinal < b.ordinal := by
  have ha := a.ordinal_le
  have hb := b.lt_ordinal
  have hmonths : daysBeforeMonth a.year (a.month + 1) ≤ daysBeforeMonth a.year 13 :=
    daysBeforeMonth_mono a.year (Nat.succ_le_succ a.month_le)
  have hyears : daysBeforeYear (a.year + 1) ≤ daysBeforeYear b.year :=
    daysBeforeYear_mono (Nat.le_add_left 1 a.year) h
  rw [daysBeforeYear_succ a.year_pos] at hyears
  omega

theorem ordinal_lt_of_month {a b : Date} (hyear : a.year = b.year) (h : a.month < b.month) :
    a.ordinal < b.ordinal := by
  have ha := a.ordinal_le
  have hb := b.lt_ordinal
  have hmonths : daysBeforeMonth a.year (a.month + 1) ≤ daysBeforeMonth a.year b.month :=
    daysBeforeMonth_mono a.year h
  rw [← hyear] at hb
  omega

/-- **Dates are ordered by year, month and day.** -/
theorem ordinal_lt_iff (a b : Date) : a.ordinal < b.ordinal ↔
    a.year < b.year ∨ a.year = b.year ∧
      (a.month < b.month ∨ a.month = b.month ∧ a.day < b.day) := by
  rcases lt_trichotomy a.year b.year with hlt | heq | hgt
  · exact ⟨fun _ => Or.inl hlt, fun _ => ordinal_lt_of_year hlt⟩
  · rcases lt_trichotomy a.month b.month with hmlt | hmeq | hmgt
    · exact ⟨fun _ => Or.inr ⟨heq, Or.inl hmlt⟩, fun _ => ordinal_lt_of_month heq hmlt⟩
    · rw [ordinal, ordinal, heq, hmeq]
      omega
    · have hback := ordinal_lt_of_month heq.symm hmgt
      omega
  · have hback := ordinal_lt_of_year hgt
    omega

theorem ordinal_eq_iff (a b : Date) : a.ordinal = b.ordinal ↔
    a.year = b.year ∧ a.month = b.month ∧ a.day = b.day := by
  have hlt := ordinal_lt_iff a b
  have hgt := ordinal_lt_iff b a
  omega

end Date

/-! ## Instants -/

/-- A moment in UTC. -/
structure Instant where
  date : Date
  hour : Nat
  minute : Nat
  second : Nat
  microsecond : Nat
  hour_lt : hour < 24
  minute_lt : minute < 60
  second_lt : second < 60
  microsecond_lt : microsecond < 1000000

namespace Instant

/-- The whole seconds up to the instant. -/
def seconds (t : Instant) : Nat :=
  t.date.ordinal * 86400 + t.hour * 3600 + t.minute * 60 + t.second

/-- The microseconds up to the instant: its place in time. -/
def micros (t : Instant) : Nat := t.seconds * 1000000 + t.microsecond

/-- An hour later, where the calendar goes that far. -/
def plusHour (t : Instant) : Option Instant :=
  if h : t.hour + 1 < 24 then some { t with hour := t.hour + 1, hour_lt := h }
  else t.date.next?.map fun tomorrow =>
    { t with date := tomorrow, hour := 0, hour_lt := by decide }

/-! ## The text of an instant -/

/-- The text up to the seconds. -/
def secondsText (t : Instant) : List Char :=
  padded 4 t.date.year ++ '-' :: (padded 2 t.date.month ++ '-' :: (padded 2 t.date.day ++
    'T' :: (padded 2 t.hour ++ ':' :: (padded 2 t.minute ++ ':' :: (padded 2 t.second ++ [])))))

/-- The fraction, which a whole second does not have, and the zone. -/
def fraction (t : Instant) : List Char :=
  if t.microsecond = 0 then ['Z'] else '.' :: (padded 6 t.microsecond ++ ['Z'])

/-- `isoformat()` of a UTC time, with its offset written `Z`. -/
def stamp (t : Instant) : String := String.ofList (t.secondsText ++ t.fraction)

theorem length_secondsText (t : Instant) : t.secondsText.length = 19 := by
  simp [secondsText]

theorem day_lt (date : Date) : date.day < 10 ^ 2 := by
  have hle := date.day_le
  have hmonth : daysInMonth date.year date.month ≤ 31 := by
    unfold daysInMonth
    split
    · omega
    split
    · split <;> omega
    split <;> omega
  omega

/-- The texts up to the seconds are ordered as the seconds. -/
theorem secondsText_lt_iff (a b : Instant) :
    a.secondsText < b.secondsText ↔ a.seconds < b.seconds := by
  have hya : a.date.year < 10 ^ 4 := Nat.lt_succ_of_le a.date.year_le
  have hyb : b.date.year < 10 ^ 4 := Nat.lt_succ_of_le b.date.year_le
  have hma : a.date.month < 10 ^ 2 := lt_of_le_of_lt a.date.month_le (by decide)
  have hmb : b.date.month < 10 ^ 2 := lt_of_le_of_lt b.date.month_le (by decide)
  have hha := a.hour_lt
  have hhb := b.hour_lt
  have hia := a.minute_lt
  have hib := b.minute_lt
  have hsa := a.second_lt
  have hsb := b.second_lt
  have hlast : padded 2 a.second ++ [] < padded 2 b.second ++ [] ↔ a.second < b.second := by
    rw [List.append_nil, List.append_nil, padded_lt_iff (by omega) (by omega)]
  have hlt := a.date.ordinal_lt_iff b.date
  have heq := a.date.ordinal_eq_iff b.date
  rw [secondsText, secondsText, padded_cons_lt_iff '-' hya hyb, padded_cons_lt_iff '-' hma hmb,
    padded_cons_lt_iff 'T' (day_lt a.date) (day_lt b.date),
    padded_cons_lt_iff ':' (by omega) (by omega), padded_cons_lt_iff ':' (by omega) (by omega),
    hlast, seconds, seconds]
  omega

theorem secondsText_eq_iff (a b : Instant) :
    a.secondsText = b.secondsText ↔ a.seconds = b.seconds := by
  constructor
  · intro h
    have hlt := (secondsText_lt_iff a b).not.mp (h ▸ lt_irrefl _)
    have hgt := (secondsText_lt_iff b a).not.mp (h ▸ lt_irrefl _)
    omega
  · intro h
    rcases lt_trichotomy a.secondsText b.secondsText with hlt | heq | hgt
    · have hseconds := (secondsText_lt_iff a b).mp hlt
      omega
    · exact heq
    · have hseconds := (secondsText_lt_iff b a).mp hgt
      omega

/-- In one second, the whole one is the last. -/
theorem fraction_lt_iff (a b : Instant) : a.fraction < b.fraction ↔
    a.microsecond ≠ 0 ∧ (b.microsecond = 0 ∨ a.microsecond < b.microsecond) := by
  have hdot : '.' < 'Z' := by decide
  unfold fraction
  by_cases ha : a.microsecond = 0
  · rw [if_pos ha]
    by_cases hb : b.microsecond = 0
    · rw [if_pos hb]
      simp [ha]
    · rw [if_neg hb, List.cons_lt_cons_iff]
      simp [ha, hdot.not_gt]
  · rw [if_neg ha]
    by_cases hb : b.microsecond = 0
    · rw [if_pos hb, List.cons_lt_cons_iff]
      simp [ha, hb, hdot]
    · rw [if_neg hb, List.cons_lt_cons_iff, padded_cons_lt_iff 'Z' a.microsecond_lt b.microsecond_lt]
      simp [ha, hb]

/-- **The text of an instant comes before that of another** when the instant does, except in one
second: there a whole second comes after its fractions. -/
theorem stamp_lt_iff (a b : Instant) : a.stamp < b.stamp ↔
    a.seconds < b.seconds ∨ a.seconds = b.seconds ∧
      a.microsecond ≠ 0 ∧ (b.microsecond = 0 ∨ a.microsecond < b.microsecond) := by
  rw [stamp, stamp, String.lt_iff_toList_lt, String.toList_ofList, String.toList_ofList,
    append_lt_append_iff (by rw [length_secondsText, length_secondsText]), secondsText_lt_iff,
    secondsText_eq_iff, fraction_lt_iff]

theorem stamp_le_iff (a b : Instant) : a.stamp ≤ b.stamp ↔
    a.seconds < b.seconds ∨ a.seconds = b.seconds ∧
      (b.microsecond = 0 ∨ a.microsecond ≠ 0 ∧ a.microsecond ≤ b.microsecond) := by
  rw [← not_lt, stamp_lt_iff]
  omega

/-- The text says which instant it is. -/
theorem micros_eq_of_stamp {a b : Instant} (h : a.stamp = b.stamp) : a.micros = b.micros := by
  have hlt := (stamp_lt_iff a b).not.mp (h ▸ lt_irrefl _)
  have hgt := (stamp_lt_iff b a).not.mp (h ▸ lt_irrefl _)
  rw [micros, micros]
  omega

end Instant

end Timestamps
