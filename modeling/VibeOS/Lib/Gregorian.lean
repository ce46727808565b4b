import VibeOS.Lib.CInt

/-!
# The Gregorian calendar

Years are integers and the calendar is extended to all of them. `daysBeforeYear` counts the days from 1 January 1970
to 1 January of a year: it is 0 for 1970 and grows by the length of each year (`daysBeforeYear_succ`), and these two
facts determine it. `dayNumber` counts on through the months.
-/

namespace VibeOS.Gregorian

def isLeap (y : Int) : Bool := y % 4 = 0 && (y % 100 ≠ 0 || y % 400 = 0)

def yearLength (y : Int) : Int := if isLeap y then 366 else 365

/-- From 1 January 1970 to 1 January of a year. -/
def daysBeforeYear (y : Int) : Int := 365 * (y - 1970) + ((y - 1) / 4 - (y - 1) / 100 + (y - 1) / 400) - 477

variable (leap : Bool)

def monthLengths : List Int := [31, if leap then 29 else 28, 31, 30, 31, 30, 31, 31, 30, 31, 30, 31]

/-- The days of a year before its month `m`, counted from 0. -/
def daysBeforeMonth (m : Nat) : Int := ((monthLengths leap).take m).sum

/-- The day `d` of month `m`, from 1 January 1970 on. Months count from 0 and days from 1. -/
def dayNumber (y : Int) (m : Nat) (d : Int) : Int := daysBeforeYear y + daysBeforeMonth (isLeap y) m + (d - 1)

/-- 1 January 1970 was a Thursday; Sunday is 0. -/
def weekday (day : Int) : Int := (day + 4) % 7

/-- `day` is day `yday` of year `y`. -/
structure OnDay (day y yday : Int) : Prop where
  count : daysBeforeYear y + yday = day
  low : 0 ≤ yday
  high : yday < yearLength y

lemma isLeap_iff (y : Int) : isLeap y ↔ y % 4 = 0 ∧ (y % 100 ≠ 0 ∨ y % 400 = 0) := by
  simp [isLeap]

lemma daysBeforeYear_succ (y : Int) : daysBeforeYear (y + 1) = daysBeforeYear y + yearLength y := by
  have hleap := isLeap_iff y
  unfold daysBeforeYear yearLength
  by_cases h : isLeap y = true
  · rw [if_pos h]
    have := hleap.mp h
    omega
  · rw [if_neg h]
    have : ¬ (y % 4 = 0 ∧ (y % 100 ≠ 0 ∨ y % 400 = 0)) := fun h' => h (hleap.mpr h')
    omega

lemma daysBeforeYear_mono {y y' : Int} (h : y ≤ y') : daysBeforeYear y ≤ daysBeforeYear y' := by
  unfold daysBeforeYear
  omega

lemma daysBeforeMonth_step : ∀ m < 12, ∀ m' < m,
    daysBeforeMonth leap m' + (monthLengths leap).getD m' 0 ≤ daysBeforeMonth leap m := by
  cases leap <;> decide

lemma daysBeforeMonth_last :
    ∀ m < 12, daysBeforeMonth leap m + (monthLengths leap).getD m 0 ≤ if leap then 366 else 365 := by
  cases leap <;> decide

lemma daysBeforeMonth_nonneg : ∀ m < 12, 0 ≤ daysBeforeMonth leap m := by
  cases leap <;> decide

/-- Month `m` (from 0) of year `y` has a day `d`. -/
structure IsDate (y : Int) (m : Nat) (d : Int) : Prop where
  month : m < 12
  first : 1 ≤ d
  last : d ≤ (monthLengths (isLeap y)).getD m 0

lemma dayNumber_lt {y y' d d' : Int} {m m' : Nat} (h : IsDate y m d) (h' : IsDate y' m' d')
    (hlt : y < y' ∨ y = y' ∧ (m < m' ∨ m = m' ∧ d < d')) : dayNumber y m d < dayNumber y' m' d' := by
  unfold dayNumber
  rcases hlt with hy | ⟨rfl, hm | ⟨rfl, hd⟩⟩
  · have hnext : daysBeforeYear y + yearLength y ≤ daysBeforeYear y' := by
      rw [← daysBeforeYear_succ]
      exact daysBeforeYear_mono hy
    have hin : daysBeforeMonth (isLeap y) m + d ≤ yearLength y :=
      le_trans (add_le_add_right h.last _) (daysBeforeMonth_last (isLeap y) m h.month)
    have h0 := daysBeforeMonth_nonneg (isLeap y') m' h'.month
    have hd' := h'.first
    omega
  · have hstep := daysBeforeMonth_step (isLeap y) m' h'.month m hm
    have hd := h.last
    have hd' := h'.first
    omega
  · omega

lemma IsDate.onDay {y d : Int} {m : Nat} (h : IsDate y m d) :
    OnDay (dayNumber y m d) y (daysBeforeMonth (isLeap y) m + (d - 1)) := by
  have h0 := daysBeforeMonth_nonneg (isLeap y) m h.month
  have hfirst := h.first
  refine ⟨(add_assoc _ _ _).symm, by omega, ?_⟩
  have hin : daysBeforeMonth (isLeap y) m + d ≤ yearLength y :=
    le_trans (add_le_add_right h.last _) (daysBeforeMonth_last (isLeap y) m h.month)
  omega

/-- A day belongs to one year. -/
lemma OnDay.unique {day y y' yday yday' : Int} (h : OnDay day y yday) (h' : OnDay day y' yday') :
    y = y' ∧ yday = yday' := by
  have hnext (z z' : Int) (hlt : z < z') : daysBeforeYear z + yearLength z ≤ daysBeforeYear z' := by
    rw [← daysBeforeYear_succ]
    exact daysBeforeYear_mono hlt
  obtain ⟨hc, hl, hh⟩ := h
  obtain ⟨hc', hl', hh'⟩ := h'
  have hy : y = y' := by
    rcases lt_trichotomy y y' with hlt | heq | hgt
    · have := hnext y y' hlt
      omega
    · exact heq
    · have := hnext y' y hgt
      omega
  subst hy
  exact ⟨rfl, by omega⟩

end VibeOS.Gregorian
