import VibeOS.Lib.Gregorian

/-!
# Calendar time

`localtime_r` of the C library: it takes a day number apart into cycles of 400, 100, 4 and 1 years that start in 1970.
In these cycles the leap day is not in the last year, and the long century is the first one and not the last. The
years come out right exactly where this makes no difference: `Anchored` has the days for which it does not, and
`localtime_r_correct` says that the conversion is right for these days and for no others. `localtime_r_fails` is
31 December 1972 and 31 December 1973.
-/

namespace VibeOS.Calendar

open Gregorian List

/-- Source: `user/libc/include/time.h` `struct tm` -/
structure Tm where
  sec : Int
  min : Int
  hour : Int
  mday : Int
  mon : Nat
  year : Int
  wday : Int
  yday : Int
  isdst : Int
  gmtoff : Int
  zone : String
deriving DecidableEq

/-- The two rows of the table, one behind the other.
Source: `user/libc/sys.c` -/
def monLengths : List Int := monthLengths false ++ monthLengths true

/-- The search for the month, over the lengths from the first month on; `none` is a read behind the table.
Source: `user/libc/sys.c` `localtime_r` -/
def monthLoop : List Int → Nat → Int → Option (Nat × Int)
  | [], _, _ => none
  | len :: lens, m, yRem => if yRem ≥ len then monthLoop lens (m + 1) (yRem - len) else some (m, yRem)

/-- The year and the day of the year, from a day number.
Source: `user/libc/sys.c` `localtime_r` -/
def yearOfDays (days : Int) : Int × Int :=
  let (qcCycles, qcRem) := truncDiv days 146097
  let cCycles := qcRem.tdiv 36524
  let cRem := qcRem.tmod 36524
  let (cCycles, cRem) := if cCycles = 4 then (3, cRem + 36524) else (cCycles, cRem)
  let qCycles := cRem.tdiv 1461
  let qRem := cRem.tmod 1461
  let yInQ := qRem.tdiv 365
  let yRem := qRem.tmod 365
  let (yInQ, yRem) := if yInQ = 4 then (3, yRem + 365) else (yInQ, yRem)
  (1970 + qcCycles * 400 + cCycles * 100 + qCycles * 4 + yInQ, yRem)

/-- Source: `user/libc/sys.c` -/
def localtimeR (t : Int) : Option Tm :=
  let (days, rem) := truncDiv t 86400
  let wday := (days + 4).tmod 7
  let (year, yRem) := yearOfDays days
  let leap := year.tmod 4 = 0 ∧ (year.tmod 100 ≠ 0 ∨ year.tmod 400 = 0)
  (monthLoop (monLengths.drop (if leap then 12 else 0)) 0 yRem).map fun (m, d) =>
    { sec := rem.tmod 60
      min := (rem.tmod 3600).tdiv 60
      hour := rem.tdiv 3600
      mday := wrap32 (d + 1)
      mon := m
      year := wrap32 (year - 1900)
      wday := if wday < 0 then wday + 7 else wday
      yday := wrap32 yRem
      isdst := 0
      gmtoff := 0
      zone := "UTC" }

/-! ### The calendar's side -/

/-- The fields are a date and a time of day, and agree with each other. -/
structure Tm.Valid (r : Tm) : Prop where
  hour : 0 ≤ r.hour ∧ r.hour < 24
  min : 0 ≤ r.min ∧ r.min < 60
  sec : 0 ≤ r.sec ∧ r.sec < 60
  date : IsDate (r.year + 1900) r.mon r.mday
  yday : r.yday = daysBeforeMonth (isLeap (r.year + 1900)) r.mon + (r.mday - 1)
  wday : r.wday = weekday (dayNumber (r.year + 1900) r.mon r.mday)

def Tm.seconds (r : Tm) : Int :=
  dayNumber (r.year + 1900) r.mon r.mday * 86400 + r.hour * 3600 + r.min * 60 + r.sec

def Tm.Before (r r' : Tm) : Prop :=
  r.year < r'.year ∨ r.year = r'.year ∧ (r.mon < r'.mon ∨ r.mon = r'.mon ∧ (r.mday < r'.mday ∨ r.mday = r'.mday ∧
    (r.hour < r'.hour ∨ r.hour = r'.hour ∧ (r.min < r'.min ∨ r.min = r'.min ∧ r.sec < r'.sec))))

/-- The years of the 1970 cycles whose days `yearOfDays` counts from the right start, without the last year of every
four and without the last day of a leap year. -/
def Anchored (y yday : Int) : Prop :=
  ((y - 1970) % 400 < 100 ∨ 32 ≤ (y - 1970) % 100) ∧ y % 4 ≠ 1 ∧ ¬ (isLeap y = true ∧ yday = 365)

instance Anchored.instDecidable (y yday : Int) : Decidable (Anchored y yday) := inferInstanceAs (Decidable (_ ∧ _))

/-- The year of `t` fits, and its day is one that comes out right. -/
def Covered (t : Int) : Prop := ∃ y yday, OnDay (t / 86400) y yday ∧ Fits32 (y - 1900) ∧ Anchored y yday

lemma seconds_lt {r r' : Tm} (h : r.Valid) (h' : r'.Valid) (hb : r.Before r') : r.seconds < r'.seconds := by
  have hh := h.hour
  have hm := h.min
  have hs := h.sec
  have hh' := h'.hour
  have hm' := h'.min
  have hs' := h'.sec
  -- a later date is at least one whole day later
  have hdate : (r.year < r'.year ∨ r.year = r'.year ∧ (r.mon < r'.mon ∨ r.mon = r'.mon ∧ r.mday < r'.mday)) →
      r.seconds < r'.seconds := by
    intro hlt
    have hday := dayNumber_lt h.date h'.date (by omega)
    unfold Tm.seconds
    omega
  rcases hb with hy | ⟨hy, hmon | ⟨hmon, hd | ⟨hd, htime⟩⟩⟩
  · exact hdate (.inl hy)
  · exact hdate (.inr ⟨hy, .inl hmon⟩)
  · exact hdate (.inr ⟨hy, .inr ⟨hmon, hd⟩⟩)
  · unfold Tm.seconds
    rw [hy, hmon, hd]
    omega

lemma before_or_before (r r' : Tm) : r.Before r' ∨ r'.Before r ∨
    (r.year = r'.year ∧ r.mon = r'.mon ∧ r.mday = r'.mday ∧ r.hour = r'.hour ∧ r.min = r'.min ∧ r.sec = r'.sec) := by
  unfold Tm.Before
  omega

lemma before_iff {r r' : Tm} (h : r.Valid) (h' : r'.Valid) : r.Before r' ↔ r.seconds < r'.seconds := by
  refine ⟨seconds_lt h h', fun hlt => ?_⟩
  rcases before_or_before r r' with hb | hb | ⟨hy, hm, hd, hh, hmin, hs⟩
  · exact hb
  · exact absurd (seconds_lt h' h hb) (by omega)
  · unfold Tm.seconds at hlt
    rw [hy, hm, hd, hh, hmin, hs] at hlt
    exact absurd hlt (lt_irrefl _)

/-! ### The code's side -/

lemma monthLoop_spec (lens : List Int) (n m : Nat) (yRem : Int) (h0 : 0 ≤ yRem) (hn : n ≤ lens.length)
    (h : yRem < (lens.take n).sum) : ∃ k d, monthLoop lens m yRem = some (m + k, d) ∧ k < n ∧
      (lens.take k).sum + d = yRem ∧ 0 ≤ d ∧ d < lens.getD k 0 := by
  induction lens generalizing n m yRem with
  | nil =>
    simp only [take_nil, sum_nil] at h
    omega
  | cons len lens ih =>
    cases n with
    | zero =>
      simp only [take_zero, sum_nil] at h
      omega
    | succ n =>
      rw [take_succ_cons, sum_cons] at h
      by_cases hlen : yRem ≥ len
      · obtain ⟨k, d, hk, hkn, hsum, hd0, hd⟩ := ih n (m + 1) (yRem - len) (by omega) (by simpa using hn) (by omega)
        refine ⟨k + 1, d, ?_, by omega, ?_, hd0, by simpa using hd⟩
        · rw [monthLoop, if_pos hlen, hk]
          congr 2
          omega
        · rw [take_succ_cons, sum_cons]
          omega
      · exact ⟨0, yRem, by rw [monthLoop, if_neg hlen]; rfl, by omega, by simp, h0, by simpa using by omega⟩

lemma daysBeforeYear_cycles {y : Int} (h : (y - 1970) % 400 < 100 ∨ 32 ≤ (y - 1970) % 100) (h4 : y % 4 ≠ 1) :
    daysBeforeYear y = 146097 * ((y - 1970) / 400) + 36524 * ((y - 1970) % 400 / 100) +
      1461 * ((y - 1970) % 100 / 4) + 365 * ((y - 1970) % 4) := by
  unfold daysBeforeYear
  omega

lemma year_of_cycles (n : Int) : n / 400 * 400 + n % 400 / 100 * 100 + n % 100 / 4 * 4 + n % 4 = n := by
  have h100 : n % 400 % 100 = n % 100 := Int.emod_emod_of_dvd n (by decide)
  have h4 : n % 100 % 4 = n % 4 := Int.emod_emod_of_dvd n (by decide)
  have h1 := Int.mul_ediv_add_emod n 400
  have h2 := Int.mul_ediv_add_emod (n % 400) 100
  have h3 := Int.mul_ediv_add_emod (n % 100) 4
  linarith

/-- On the days that are covered the cycles give the year and the day of the year. -/
lemma yearOfDays_anchored {day y yday : Int} (h : OnDay day y yday) (ha : Anchored y yday) :
    yearOfDays day = (y, yday) := by
  obtain ⟨hcycle, h4, hlast⟩ := ha
  have hstart := daysBeforeYear_cycles hcycle h4
  have hcount := h.count
  have hlow := h.low
  -- in a year that is not the last of its four, all days but the last of a leap year
  have hhigh : yday ≤ 364 := by
    have hlen := h.high
    unfold yearLength at hlen
    by_cases hl : isLeap y = true
    · rw [if_pos hl] at hlen
      have : yday ≠ 365 := fun h' => hlast ⟨hl, h'⟩
      omega
    · rw [if_neg hl] at hlen
      omega
  have hqc : day / 146097 = (y - 1970) / 400 := by omega
  have hr : day % 146097 = 36524 * ((y - 1970) % 400 / 100) + 1461 * ((y - 1970) % 100 / 4) +
      365 * ((y - 1970) % 4) + yday := by omega
  have hc : day % 146097 / 36524 = (y - 1970) % 400 / 100 := by omega
  have hcr : day % 146097 % 36524 = 1461 * ((y - 1970) % 100 / 4) + 365 * ((y - 1970) % 4) + yday := by omega
  have hq : day % 146097 % 36524 / 1461 = (y - 1970) % 100 / 4 := by omega
  have hqr : day % 146097 % 36524 % 1461 = 365 * ((y - 1970) % 4) + yday := by omega
  have hy : day % 146097 % 36524 % 1461 / 365 = (y - 1970) % 4 := by omega
  have hyr : day % 146097 % 36524 % 1461 % 365 = yday := by omega
  unfold yearOfDays
  rw [truncDiv_floor day (by decide)]
  dsimp only
  rw [tdiv_of_nonneg _ (by omega), tmod_of_nonneg _ (by omega), if_neg (by omega)]
  rw [tdiv_of_nonneg _ (by omega), tmod_of_nonneg _ (by omega), tdiv_of_nonneg _ (by omega),
    tmod_of_nonneg _ (by omega), if_neg (by omega)]
  rw [hqc, hc, hq, hy, hyr]
  have hsum := year_of_cycles (y - 1970)
  refine Prod.ext ?_ rfl
  linarith

lemma monthLoop_year (leap : Bool) {yday : Int} (h0 : 0 ≤ yday) (h : yday < if leap then 366 else 365) :
    ∃ k d, monthLoop (monLengths.drop (if leap = true then 12 else 0)) 0 yday = some (k, d) ∧ k < 12 ∧
      daysBeforeMonth leap k + d = yday ∧ 0 ≤ d ∧ d < (monthLengths leap).getD k 0 := by
  have hrow : (monLengths.drop (if leap = true then 12 else 0)).take 12 = monthLengths leap := by
    cases leap <;> decide
  have hrowLength : 12 ≤ (monLengths.drop (if leap = true then 12 else 0)).length := by cases leap <;> decide
  have hsum : (monthLengths leap).sum = if leap then 366 else 365 := by cases leap <;> decide
  obtain ⟨k, d, hk, hk12, hkd, hd0, hd⟩ := monthLoop_spec _ 12 0 yday h0 hrowLength (by rw [hrow, hsum]; exact h)
  refine ⟨k, d, ?_, hk12, ?_, hd0, ?_⟩
  · rw [hk, zero_add]
  · rw [daysBeforeMonth, ← hrow, take_take, min_eq_left hk12.le]
    exact hkd
  · rw [← hrow, getD_eq_getElem?_getD, getElem?_take_of_lt hk12, ← getD_eq_getElem?_getD]
    exact hd

lemma weekday_tmod (n : Int) : (if (n + 4).tmod 7 < 0 then (n + 4).tmod 7 + 7 else (n + 4).tmod 7) = weekday n := by
  have h7 : truncDiv (n + 4) 7 = ((n + 4) / 7, (n + 4) % 7) := truncDiv_floor (n + 4) (by decide)
  unfold truncDiv at h7
  split_ifs with hneg
  · rw [if_pos hneg] at h7
    exact congrArg Prod.snd h7
  · rw [if_neg hneg] at h7
    exact congrArg Prod.snd h7

lemma clock_tmod {r : Int} (h : 0 ≤ r) :
    r.tmod 60 = r % 60 ∧ (r.tmod 3600).tdiv 60 = r % 3600 / 60 ∧ r.tdiv 3600 = r / 3600 := by
  have h3600 : r.tmod 3600 = r % 3600 := tmod_of_nonneg _ h
  have hrest := Int.emod_nonneg r (show (3600 : Int) ≠ 0 by decide)
  refine ⟨tmod_of_nonneg _ h, ?_, tdiv_of_nonneg _ h⟩
  rw [h3600]
  exact tdiv_of_nonneg _ hrest

lemma localtimeR_covered {t : Int} (h : Covered t) : ∃ r, localtimeR t = some r ∧ r.Valid ∧ r.seconds = t := by
  obtain ⟨y, yday, hday, hfits, ha⟩ := h
  have hyear := yearOfDays_anchored hday ha
  have hleap : (y.tmod 4 = 0 ∧ (y.tmod 100 ≠ 0 ∨ y.tmod 400 = 0)) ↔ isLeap y = true := by
    rw [isLeap_iff, tmod_eq_zero_iff, tmod_eq_zero_iff, Ne, tmod_eq_zero_iff]
  have hlow := hday.low
  have hhigh := hday.high
  have hyl : yearLength y ≤ 366 := by
    unfold yearLength
    split <;> decide
  obtain ⟨k, d, hk, hk12, hkd, hd0, hd⟩ := monthLoop_year (isLeap y) hlow hhigh
  have hb0 := daysBeforeMonth_nonneg (isLeap y) k hk12
  have hwd : wrap32 (d + 1) = d + 1 := wrap32_of_fits ⟨by omega, by omega⟩
  have hwy : wrap32 (y - 1900) = y - 1900 := wrap32_of_fits hfits
  have hwyd : wrap32 yday = yday := wrap32_of_fits ⟨by omega, by omega⟩
  have hnum : dayNumber y k (d + 1) = t / 86400 := by
    unfold dayNumber
    have := hday.count
    omega
  have hrem := Int.emod_nonneg t (show (86400 : Int) ≠ 0 by decide)
  have hrem' := Int.emod_lt_of_pos t (show (0 : Int) < 86400 by decide)
  obtain ⟨hsec, hmin, hhour⟩ := clock_tmod hrem
  have hy : y - 1900 + 1900 = y := by omega
  refine ⟨⟨(t % 86400).tmod 60, ((t % 86400).tmod 3600).tdiv 60, (t % 86400).tdiv 3600, d + 1, k, y - 1900,
    weekday (t / 86400), yday, 0, 0, "UTC"⟩, ?_, ⟨?_, ?_, ?_, ?_, ?_, ?_⟩, ?_⟩
  · unfold localtimeR
    rw [truncDiv_floor t (by decide)]
    dsimp only
    rw [hyear]
    simp only [hleap]
    rw [hk]
    simp only [Option.map_some, hwd, hwy, hwyd, weekday_tmod]
  · dsimp only
    omega
  · dsimp only
    omega
  · dsimp only
    omega
  · dsimp only
    rw [hy]
    exact ⟨hk12, by omega, by omega⟩
  · dsimp only
    rw [hy]
    omega
  · rw [hy, hnum]
  · unfold Tm.seconds
    dsimp only
    rw [hy, hnum, hmin, hsec, hhour]
    omega

/-- The year that comes out has the numbers of cycles as its digits, and the days of the cycles are taken off. -/
lemma yearOfDays_digits (day : Int) : ∃ c q r : Int, (0 ≤ c ∧ c ≤ 3) ∧ (0 ≤ q ∧ q ≤ 24) ∧ (0 ≤ r ∧ r ≤ 3) ∧
    (yearOfDays day).1 = 1970 + day / 146097 * 400 + c * 100 + q * 4 + r ∧
    day = 146097 * (day / 146097) + 36524 * c + 1461 * q + 365 * r + (yearOfDays day).2 ∧
    0 ≤ (yearOfDays day).2 ∧ (yearOfDays day).2 ≤ 365 ∧ (r ≤ 2 → (yearOfDays day).2 ≤ 364) := by
  unfold yearOfDays
  rw [truncDiv_floor day (by decide)]
  have hsum := Int.mul_ediv_add_emod day 146097
  have hlow := Int.emod_nonneg day (show (146097 : Int) ≠ 0 by decide)
  have hhigh := Int.emod_lt_of_pos day (show (0 : Int) < 146097 by decide)
  dsimp only
  generalize day / 146097 = qc at *
  generalize day % 146097 = rest at *
  rw [tdiv_of_nonneg _ hlow, tmod_of_nonneg _ hlow]
  -- the long century and the long year are the fourth of their cycles
  by_cases hc : rest / 36524 = 4
  · rw [if_pos hc]
    dsimp only
    rw [tdiv_of_nonneg _ (by omega), tmod_of_nonneg _ (by omega)]
    have hrest : rest % 36524 = 0 := by omega
    rw [hrest]
    refine ⟨3, 24, 3, by decide, by decide, by decide, ?_⟩
    norm_num [Int.tdiv, Int.tmod]
    omega
  · rw [if_neg hc]
    dsimp only
    rw [tdiv_of_nonneg _ (by omega), tmod_of_nonneg _ (by omega), tdiv_of_nonneg _ (by omega),
      tmod_of_nonneg _ (by omega)]
    by_cases hy : rest % 36524 % 1461 / 365 = 4
    · rw [if_pos hy]
      exact ⟨rest / 36524, rest % 36524 / 1461, 3, by omega, by omega, by decide, rfl, by dsimp only; omega,
        by dsimp only; omega, by dsimp only; omega, by omega⟩
    · rw [if_neg hy]
      exact ⟨rest / 36524, rest % 36524 / 1461, rest % 36524 % 1461 / 365, by omega, by omega, by omega, rfl,
        by dsimp only; omega, by dsimp only; omega, by dsimp only; omega, fun _ => by dsimp only; omega⟩

/-- Only the days that are covered come out with their year and their day of the year. -/
lemma anchored_of_yearOfDays {day y yday : Int} (h : OnDay day y yday) (hy : yearOfDays day = (y, yday)) :
    Anchored y yday := by
  obtain ⟨c, q, r, hc, hq, hr, hyear, hsum, -, -, hshort⟩ := yearOfDays_digits day
  rw [hy] at hyear hsum hshort
  dsimp only at hyear hsum hshort
  have hcount := h.count
  unfold daysBeforeYear at hcount
  generalize day / 146097 = qc at *
  have h4 : (y - 1) / 4 = 492 + 100 * qc + 25 * c + q + (r + 1) / 4 := by omega
  have h100 : (y - 1) / 100 = 19 + 4 * qc + c + (4 * q + r + 69) / 100 := by omega
  have h400 : (y - 1) / 400 = 4 + qc + (100 * c + 4 * q + r + 369) / 400 := by omega
  -- the leap days that the cycles miss or count too much
  have hleaps : (r + 1) / 4 - (4 * q + r + 69) / 100 + (100 * c + 4 * q + r + 369) / 400 = 0 := by
    rw [h4, h100, h400] at hcount
    linarith
  clear h4 h100 h400 hcount hsum
  have hr2 : r ≤ 2 := by omega
  have hyday := hshort hr2
  have hdigits : (y - 1970) % 400 = 100 * c + 4 * q + r ∧ (y - 1970) % 100 = 4 * q + r := by omega
  refine ⟨by omega, by omega, fun hlast => ?_⟩
  omega

/-- The year that comes out differs little from the one of the day, so that the cut to 32 bits does not matter. -/
lemma year_near {day y yday : Int} (h : OnDay day y yday) :
    -800 < (yearOfDays day).1 - y ∧ (yearOfDays day).1 - y < 800 := by
  obtain ⟨c, q, r, hc, hq, hr, hyear, -⟩ := yearOfDays_digits day
  have hcount := h.count
  have hlow := h.low
  have hhigh : yday < 366 + 1 := by
    have := h.high
    unfold yearLength at this
    split at this <;> omega
  unfold daysBeforeYear at hcount
  omega

/-- A conversion that is right gives the year and the day of the year. -/
lemma yearOfDays_of_valid {t y yday : Int} (hday : OnDay (t / 86400) y yday) (hfits : Fits32 (y - 1900)) {r : Tm}
    (hr : localtimeR t = some r) (hvalid : r.Valid) (hsec : r.seconds = t) : yearOfDays (t / 86400) = (y, yday) := by
  have hdate : OnDay (t / 86400) (r.year + 1900) r.yday := by
    have hon := hvalid.date.onDay
    have hh := hvalid.hour
    have hm := hvalid.min
    have hs := hvalid.sec
    unfold Tm.seconds at hsec
    rwa [← hvalid.yday, show dayNumber (r.year + 1900) r.mon r.mday = t / 86400 by omega] at hon
  obtain ⟨hyear, hyday⟩ := hday.unique hdate
  obtain ⟨c, q, z, -, -, -, -, -, hy0, hy365, -⟩ := yearOfDays_digits (t / 86400)
  have hnear := year_near hday
  obtain ⟨hlow, hhigh⟩ := hfits
  unfold localtimeR at hr
  rw [truncDiv_floor t (by decide)] at hr
  dsimp only at hr
  generalize yearOfDays (t / 86400) = found at *
  obtain ⟨year, yRem⟩ := found
  dsimp only at hr hy0 hy365 hnear
  obtain ⟨⟨m, d⟩, -, rfl⟩ := Option.map_eq_some_iff.mp hr
  dsimp only at hyear hyday
  rw [wrap32_of_fits ⟨by omega, by omega⟩] at hyday
  unfold wrap32 at hyear
  rw [hyday, show year = y by omega]

/-- The conversion of a time whose year fits is right exactly for the days that are covered. On these it is injective
and keeps the order.
Source: `user/libc/sys.c` `localtime_r` -/
theorem localtime_r_correct (t y yday : Int) (hday : OnDay (t / 86400) y yday) (hfits : Fits32 (y - 1900)) :
    ((∃ r, localtimeR t = some r ∧ r.Valid ∧ r.seconds = t) ↔ Anchored y yday) ∧
    (Anchored y yday → ∀ t', Covered t' → (localtimeR t' = localtimeR t → t' = t) ∧
      ∀ r r', localtimeR t = some r → localtimeR t' = some r' → (r.Before r' ↔ t < t')) := by
  refine ⟨⟨fun ⟨r, hr, hvalid, hsec⟩ => ?_, fun ha => localtimeR_covered ⟨y, yday, hday, hfits, ha⟩⟩,
    fun ha t' h' => ?_⟩
  · exact anchored_of_yearOfDays hday (yearOfDays_of_valid hday hfits hr hvalid hsec)
  obtain ⟨r, hr, hvalid, hsec⟩ := localtimeR_covered ⟨y, yday, hday, hfits, ha⟩
  obtain ⟨r', hr', hvalid', hsec'⟩ := localtimeR_covered h'
  refine ⟨fun heq => ?_, fun r1 r2 h1 h2 => ?_⟩
  · rw [hr, hr'] at heq
    cases heq
    rw [← hsec, ← hsec']
  · rw [hr] at h1
    rw [hr'] at h2
    cases h1
    cases h2
    rw [before_iff hvalid hvalid', hsec, hsec']

theorem localtime_r_leap_day : ∃ r, localtimeR 951825600 = some r ∧ r.Valid ∧ r.seconds = 951825600 :=
  (localtime_r_correct 951825600 2000 59 ⟨by decide, by decide, by decide⟩ (by decide)).1.mpr (by decide)

/-- 31 December 1972 comes out as 1 January 1973, and 31 December 1973 as the first day of a thirteenth month. -/
theorem localtime_r_fails : OnDay (94608000 / 86400) 1972 365 ∧
    (localtimeR 94608000).map (fun r => (r.year, r.mon, r.mday)) = some (73, 0, 1) ∧
    OnDay (126144000 / 86400) 1973 364 ∧
    (localtimeR 126144000).map (fun r => (r.year, r.mon, r.mday)) = some (73, 12, 1) :=
  ⟨⟨by decide, by decide, by decide⟩, by decide, ⟨by decide, by decide, by decide⟩, by decide⟩

end VibeOS.Calendar
