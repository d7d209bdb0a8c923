import Mathlib.Data.Int.Basic
import Mathlib.Data.Nat.Basic
import Mathlib.Tactic.Ring

/-!
# Civil dates and their decimal names

A count of days is broken into a calendar date, a count of seconds into a day and a time of day,
and numbers are written with a fixed number of digits for each field.  These translations are
one-to-one, and that is all this file is after:

* `Date.ofDays` has a left inverse, so two days with the same date are the same day
  (`Date.ofDays_injective`), and likewise for the seconds of a day (`Time.ofSeconds_injective`);
* `padded` writes a number with at least a given number of digits, and `compact` writes a year and
  five two-digit fields one after another with nothing in between; the fields can still be read
  back (`compact_inj`).

The calendar is the proleptic Gregorian one.  The year is counted from March, which puts the leap
day last, and the months from March follow the pattern 31, 30, 31, 30, 31 that the quotients by
153 encode.
-/

set_option autoImplicit false

namespace Calendar

/-! ## Days -/

/-- A calendar date. -/
@[ext] structure Date where
  /-- The year, with `0` for the year before year 1. -/
  year : ℤ
  /-- The month, `1` to `12`. -/
  month : ℕ
  /-- The day of the month. -/
  day : ℕ
  month_mem : 1 ≤ month ∧ month ≤ 12
  day_mem : 1 ≤ day ∧ day ≤ 31
  deriving DecidableEq

/-- Where a day stands in the calendar's cycles: the 400-year era it is in, the century of the
era, the four-year cycle of the century, the year of the cycle and the day of the year, the year
starting on 1 March. -/
structure Cycles where
  era : ℤ
  century : ℤ
  cycle : ℤ
  year : ℤ
  day : ℤ
  century_mem : 0 ≤ century ∧ century ≤ 3
  cycle_mem : 0 ≤ cycle ∧ cycle ≤ 24
  year_mem : 0 ≤ year ∧ year ≤ 3
  day_mem : 0 ≤ day ∧ day ≤ 365

/-- The cycles of a day counted from 1 March 2000.  The last century of an era and the last year
of a cycle are one day longer than the others, which is what the minima are for. -/
def Cycles.ofDays (z : ℤ) : Cycles :=
  let doe := z % 146097
  let century := min (doe / 36524) 3
  let doc := doe - century * 36524
  let doq := doc % 1461
  let year := min (doq / 365) 3
  { era := z / 146097
    century := century
    cycle := doc / 1461
    year := year
    day := doq - year * 365
    century_mem := by omega
    cycle_mem := by omega
    year_mem := by omega
    day_mem := by omega }

/-- The day counted from 1 March 2000. -/
def Cycles.toDays (c : Cycles) : ℤ :=
  c.era * 146097 + c.century * 36524 + c.cycle * 1461 + c.year * 365 + c.day

theorem Cycles.toDays_ofDays (z : ℤ) : (Cycles.ofDays z).toDays = z := by
  simp only [Cycles.ofDays, Cycles.toDays]
  omega

/-- The civil date at a position in the cycles. -/
def Cycles.toDate (c : Cycles) : Date :=
  let mp := (5 * c.day + 2) / 153
  { year := 2000 + c.era * 400 + c.century * 100 + c.cycle * 4 + c.year + (if mp < 10 then 0 else 1)
    month := (if mp < 10 then mp + 3 else mp - 9).toNat
    day := (c.day - (153 * mp + 2) / 5 + 1).toNat
    month_mem := by have := c.day_mem; split <;> omega
    day_mem := by have := c.day_mem; omega }

/-- The day, counted from 1 March 2000, on which a date falls. -/
def Date.toDays (d : Date) : ℤ :=
  let mp : ℤ := (d.month + 9) % 12
  let y := d.year - (if d.month ≤ 2 then 1 else 0) - 2000
  let yoe := y % 400
  (y / 400) * 146097 + (yoe / 100) * 36524 + (yoe % 100 / 4) * 1461 + (yoe % 4) * 365
    + ((153 * mp + 2) / 5 + d.day - 1)

/-- A year counted from 2000 gives back its place in the cycles. -/
theorem year_cycles {era century cycle year : ℤ} (hc : 0 ≤ century ∧ century ≤ 3)
    (hq : 0 ≤ cycle ∧ cycle ≤ 24) (hy : 0 ≤ year ∧ year ≤ 3) {y : ℤ}
    (h : y = era * 400 + century * 100 + cycle * 4 + year) :
    y / 400 = era ∧ y % 400 / 100 = century ∧ y % 400 % 100 / 4 = cycle ∧ y % 400 % 4 = year := by
  have hyoe : y % 400 = century * 100 + cycle * 4 + year := by omega
  rw [hyoe]
  omega

theorem Cycles.toDays_toDate (c : Cycles) : c.toDate.toDays = c.toDays := by
  obtain ⟨era, century, cycle, year, day, hc, hq, hy, hd⟩ := c
  simp only [Cycles.toDate, Date.toDays, Cycles.toDays]
  obtain ⟨mp, hmp⟩ : ∃ mp, mp = (5 * day + 2) / 153 := ⟨_, rfl⟩
  rw [← hmp]
  have hmp' : 0 ≤ mp ∧ mp ≤ 11 := by omega
  have hday : ((day - (153 * mp + 2) / 5 + 1).toNat : ℤ) = day - (153 * mp + 2) / 5 + 1 := by omega
  rw [hday]
  by_cases h : mp < 10
  · have hm : ((mp + 3).toNat + 9 : ℤ) % 12 = mp := by omega
    have hle : ¬(mp + 3).toNat ≤ 2 := by omega
    rw [if_pos h, if_pos h, if_neg hle, hm]
    obtain ⟨h1, h2, h3, h4⟩ := year_cycles hc hq hy
      (show 2000 + era * 400 + century * 100 + cycle * 4 + year + 0 - 0 - 2000 = _ by ring)
    rw [h1, h2, h3, h4]
    omega
  · have hm : ((mp - 9).toNat + 9 : ℤ) % 12 = mp := by omega
    have hle : (mp - 9).toNat ≤ 2 := by omega
    rw [if_neg h, if_neg h, if_pos hle, hm]
    obtain ⟨h1, h2, h3, h4⟩ := year_cycles hc hq hy
      (show 2000 + era * 400 + century * 100 + cycle * 4 + year + 1 - 1 - 2000 = _ by ring)
    rw [h1, h2, h3, h4]
    omega

/-- The civil date of a day counted from 1 January 1970. -/
def Date.ofDays (z : ℤ) : Date := (Cycles.ofDays (z - 11017)).toDate

theorem Date.ofDays_injective : Function.Injective Date.ofDays := by
  intro z z' h
  have h' := congrArg Date.toDays h
  rw [Date.ofDays, Date.ofDays, Cycles.toDays_toDate, Cycles.toDays_toDate, Cycles.toDays_ofDays,
    Cycles.toDays_ofDays] at h'
  omega

/-! ## Seconds -/

/-- A time of day. -/
@[ext] structure Time where
  hour : ℕ
  minute : ℕ
  second : ℕ
  hour_lt : hour < 24
  minute_lt : minute < 60
  second_lt : second < 60
  deriving DecidableEq

/-- The time of day of a second, counted from the start of a day. -/
def Time.ofSeconds (s : ℤ) : Time where
  hour := (s % 86400 / 3600).toNat
  minute := (s % 3600 / 60).toNat
  second := (s % 60).toNat
  hour_lt := by omega
  minute_lt := by omega
  second_lt := by omega

/-- Seconds of one day with the same time of day are the same. -/
theorem Time.ofSeconds_injective {s s' : ℤ} (hday : s / 86400 = s' / 86400)
    (h : Time.ofSeconds s = Time.ofSeconds s') : s = s' := by
  simp only [Time.ofSeconds, Time.mk.injEq] at h
  obtain ⟨hhour, hminute, hsecond⟩ := h
  omega

example : (Date.ofDays (1541307600 / 86400)).day = 4 := by decide

/-! ## Digits -/

/-- The decimal digits of `n`, with zeros in front up to `width` digits. -/
def padded (width n : ℕ) : List Char :=
  List.replicate (width - (Nat.toDigits 10 n).length) '0' ++ Nat.toDigits 10 n

theorem padded_injective (width : ℕ) : Function.Injective (padded width) := by
  intro n m h
  have hval : ∀ k, Nat.ofDigitChars 10 (padded width k) 0 = k := fun k ↦ by
    rw [padded, Nat.ofDigitChars_append, Nat.ofDigitChars_replicate_zero, Nat.mul_zero,
      Nat.ofDigitChars_ten_toDigits]
  rw [← hval n, h, hval m]

theorem length_padded_two {n : ℕ} (h : n < 100) : (padded 2 n).length = 2 := by
  have hle : (Nat.toDigits 10 n).length ≤ 2 :=
    (Nat.length_toDigits_le_iff (by decide) (by decide)).mpr h
  rw [padded, List.length_append, List.length_replicate]
  omega

/-- A year and two-digit fields after it, with nothing in between. -/
def compact (year : ℕ) (fields : List ℕ) : List Char :=
  padded 4 year ++ fields.flatMap (padded 2)

theorem flatMap_padded_inj {fs gs : List ℕ} (hf : ∀ n ∈ fs, n < 100) (hg : ∀ n ∈ gs, n < 100)
    (h : fs.flatMap (padded 2) = gs.flatMap (padded 2)) (hlen : fs.length = gs.length) :
    fs = gs := by
  induction fs generalizing gs with
  | nil => exact (List.length_eq_zero_iff.mp hlen.symm).symm
  | cons n fs ih =>
    cases gs with
    | nil => simp at hlen
    | cons m gs =>
      rw [List.flatMap_cons, List.flatMap_cons] at h
      have hn := length_padded_two (hf n List.mem_cons_self)
      have hm := length_padded_two (hg m List.mem_cons_self)
      obtain ⟨h1, h2⟩ := List.append_inj h (hn.trans hm.symm)
      rw [padded_injective 2 h1, ih (fun k hk ↦ hf k (List.mem_cons_of_mem _ hk))
        (fun k hk ↦ hg k (List.mem_cons_of_mem _ hk)) h2 (by simpa using hlen)]

theorem length_flatMap_padded {fs : List ℕ} (hf : ∀ n ∈ fs, n < 100) :
    (fs.flatMap (padded 2)).length = 2 * fs.length := by
  induction fs with
  | nil => rfl
  | cons n fs ih =>
    rw [List.flatMap_cons, List.length_append, length_padded_two (hf n List.mem_cons_self),
      ih fun k hk ↦ hf k (List.mem_cons_of_mem _ hk), List.length_cons]
    omega

/-- **A compact name can be read back**: the two-digit fields sit at fixed places from its end,
and what is left in front is the year. -/
theorem compact_inj {y z : ℕ} {fs gs : List ℕ} (hf : ∀ n ∈ fs, n < 100) (hg : ∀ n ∈ gs, n < 100)
    (hlen : fs.length = gs.length) : compact y fs = compact z gs ↔ y = z ∧ fs = gs := by
  refine ⟨fun h ↦ ?_, fun h ↦ by rw [h.1, h.2]⟩
  have hl : (fs.flatMap (padded 2)).length = (gs.flatMap (padded 2)).length := by
    rw [length_flatMap_padded hf, length_flatMap_padded hg, hlen]
  obtain ⟨h1, h2⟩ := List.append_inj' h hl
  exact ⟨padded_injective 4 h1, flatMap_padded_inj hf hg h2 hlen⟩

end Calendar
