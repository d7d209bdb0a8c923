import LandCap.Database
import LandCap.Library.Calendar

/-!
# The names of uploaded images

`CapDatabase.uniqueImageName` formats the current date with the pattern `yyyyMMddHHmmss`, in the
calendar and the time zone of the device.  `Clock` is what that call depends on: the instant, the
zone and the calendar.  The zone is the offset from UTC it gives to each second, so that a
daylight-saving change is one more offset; the calendar is whatever it says of each day.

`uniqueImageName_eq_iff` says what the name remembers of the clock.
-/

set_option autoImplicit false

namespace LandCap

open Calendar

/-- What a calendar says of a day, as far as the pattern asks for it. -/
structure LocalDay where
  /-- The pattern letter `y` counts years within the era. -/
  yearOfEra : ℕ
  month : ℕ
  day : ℕ
  month_lt : month < 100
  day_lt : day < 100
  deriving DecidableEq

/-- A year before year 1 is counted backwards, in an era of its own. -/
def yearOfEra (year : ℤ) : ℕ := if 0 < year then year.toNat else (1 - year).toNat

/-- The Gregorian calendar. -/
def gregorian (day : ℤ) : LocalDay where
  yearOfEra := yearOfEra (Date.ofDays day).year
  month := (Date.ofDays day).month
  day := (Date.ofDays day).day
  month_lt := by have := (Date.ofDays day).month_mem; omega
  day_lt := by have := (Date.ofDays day).day_mem; omega

/-- A moment at which a device reads its clock. -/
structure Clock where
  /-- `Date()`, in milliseconds since the start of 1970 in UTC. -/
  instant : ℤ
  /-- The device's offset from UTC, in seconds, at each second. -/
  zone : ℤ → ℤ
  /-- The device's calendar, for the days since the start of 1970. -/
  calendar : ℤ → LocalDay

/-- The start of 1970, in UTC. -/
def Clock.epoch : Clock := ⟨0, fun _ ↦ 0, gregorian⟩

/-- The second a device's clock shows, counted as if its local time were UTC. -/
def Clock.localSecond (c : Clock) : ℤ := c.instant / 1000 + c.zone (c.instant / 1000)

/-- The day and the time a device's clock shows. -/
def Clock.day (c : Clock) : LocalDay := c.calendar (c.localSecond / 86400)

def Clock.time (c : Clock) : Time := Time.ofSeconds c.localSecond

/-- The fields of the pattern `MMddHHmmss`. -/
def Clock.fields (c : Clock) : List ℕ :=
  [c.day.month, c.day.day, c.time.hour, c.time.minute, c.time.second]

/-- `uniqueImageName`: the date formatted with `yyyyMMddHHmmss`. -/
def uniqueImageName (now : Clock) : String :=
  String.ofList (compact now.day.yearOfEra now.fields)

/-- The two clocks show the same date and the same time, to the second. -/
def SameSecond (c d : Clock) : Prop := c.day.yearOfEra = d.day.yearOfEra ∧ c.fields = d.fields

instance (c d : Clock) : Decidable (SameSecond c d) := inferInstanceAs (Decidable (_ ∧ _))

theorem Clock.fields_lt (c : Clock) : ∀ n ∈ c.fields, n < 100 := by
  intro n hn
  have h1 := c.day.month_lt
  have h2 := c.day.day_lt
  have h3 := c.time.hour_lt
  have h4 := c.time.minute_lt
  have h5 := c.time.second_lt
  simp only [Clock.fields, List.mem_cons, List.not_mem_nil, or_false] at hn
  omega

/-- **A name is the wall clock's second, and nothing else.** -/
theorem uniqueImageName_eq_iff {c d : Clock} :
    uniqueImageName c = uniqueImageName d ↔ SameSecond c d := by
  rw [uniqueImageName, uniqueImageName, String.ofList_inj]
  exact compact_inj c.fields_lt d.fields_lt rfl

/-- In the Gregorian calendar and within one era, clocks that show the same date and time show the
same second. -/
theorem sameSecond_iff {c d : Clock} (hc : c.calendar = gregorian) (hd : d.calendar = gregorian)
    (hcyear : 0 < (Date.ofDays (c.localSecond / 86400)).year)
    (hdyear : 0 < (Date.ofDays (d.localSecond / 86400)).year) :
    SameSecond c d ↔ c.localSecond = d.localSecond := by
  rw [SameSecond, Clock.fields, Clock.fields, Clock.day, Clock.day, hc, hd]
  refine ⟨fun ⟨hy, hf⟩ ↦ ?_, fun h ↦ ?_⟩
  · simp only [gregorian, yearOfEra, if_pos hcyear, if_pos hdyear] at hy
    simp only [gregorian, List.cons.injEq, and_true] at hf
    obtain ⟨hm, hday, hh, hmin, hs⟩ := hf
    have hdate : Date.ofDays (c.localSecond / 86400) = Date.ofDays (d.localSecond / 86400) :=
      Date.ext (by omega) hm hday
    exact Time.ofSeconds_injective (Date.ofDays_injective hdate) (Time.ext hh hmin hs)
  · rw [Clock.time, Clock.time, h]
    exact ⟨rfl, rfl⟩

/-! ## File names -/

/-- `"\(imageID).png"`. -/
def fileName (now : Clock) : String := uniqueImageName now ++ ".png"

theorem slash_notMem_compact (y : ℕ) (fs : List ℕ) : '/' ∉ compact y fs := by
  have hp : ∀ w n, '/' ∉ padded w n := by
    intro w n h
    rw [padded, List.mem_append, List.mem_replicate] at h
    rcases h with h | h
    · exact absurd h.2 (by decide)
    · have := Nat.isDigit_of_mem_toDigits (by decide) (by decide) h
      exact absurd this (by decide)
  rw [compact, List.mem_append, List.mem_flatMap]
  rintro (h | ⟨n, -, h⟩)
  · exact hp _ _ h
  · exact hp _ _ h

/-- A file name is one key: following it from a reference goes one level down. -/
theorem components_fileName (now : Clock) : components (fileName now) = [fileName now] := by
  have hno : '/' ∉ (fileName now).toList := by
    rw [fileName, uniqueImageName, String.toList_append, List.mem_append, String.toList_ofList]
    rintro (h | h)
    · exact slash_notMem_compact _ _ h
    · exact absurd h (by decide)
  have hs : (fileName now).toList.splitOn '/' = [(fileName now).toList] :=
    List.splitOnP_eq_singleton fun c hc ↦ by
      simpa using fun he : c = '/' ↦ hno (he ▸ hc)
  have hne : (fileName now).toList ≠ [] := by simp [fileName]
  rw [components, hs]
  simp [hne]

theorem fileName_eq_iff {c d : Clock} : fileName c = fileName d ↔ SameSecond c d := by
  rw [← uniqueImageName_eq_iff, fileName, fileName, String.append_left_inj]

end LandCap
