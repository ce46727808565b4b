import Mathlib

/-!
# Rounded rectangles

The test of one pixel and the bounds of one row, which invert the circle with two steps of Newton's method.

* `fastIsqrt_isRoot_iff`: for which numbers the two steps reach the integer root; they never end below it.
* `bounds_iff_contains`: the bounds of a row are the pixels of the shape exactly if the root of the row is one of these
  and it is not the row of the centers, where the bounds leave the rectangle (`center_row_outside`).

Names are those of `kernel/src/render.c`.
-/

namespace VibeOS.Rounded

variable (x y width height radius : Int)

/-- How far a row of the corners is from the next center. -/
def cornerDy (py : Int) : Int := if py < y + radius then y + radius - 1 - py else py - (y + height - 1 - radius + 1)

def roundedRectContains (px py : Int) : Bool :=
  let right := x + width - 1
  let bottom := y + height - 1
  if px < x ∨ py < y ∨ px ≥ x + width ∨ py ≥ y + height then false
  else if radius ≤ 0 then true
  else if px ≥ x + radius ∧ px ≤ right - radius then true
  else if py ≥ y + radius ∧ py ≤ bottom - radius then true
  else
    let dx := if px < x + radius then x + radius - 1 - px else px - (right - radius + 1)
    let dy := cornerDy y height radius py
    dx * dx + dy * dy ≤ radius * radius

def fastIsqrt (val : Int) : Int :=
  if val ≤ 0 then 0
  else
    let g := if val ≥ 1024 then 32 else if val ≥ 256 then 16 else if val ≥ 64 then 8 else if val ≥ 16 then 4
      else if val ≥ 4 then 2 else 1
    let temp := (g + val / g) / 2
    let g := (temp + val / temp) / 2
    if g * g > val then g - 1 else g

/-- The first and the last pixel of a row. -/
def getRoundedRectScanlineBounds (yPos : Int) : Int × Int :=
  let right := x + width - 1
  let bottom := y + height - 1
  if yPos < y ∨ yPos > bottom then (x, x)
  else if radius ≤ 0 ∨ yPos ≥ y + radius ∧ yPos ≤ bottom - radius then (x, right)
  else
    let dy := cornerDy y height radius yPos
    let target := radius * radius - dy * dy
    let dx := if target ≤ 0 then 1 else fastIsqrt target + 1
    (x + radius - dx, right - radius + dx)

def IsRoot (t s : Int) : Prop := 0 ≤ s ∧ s * s ≤ t ∧ t < (s + 1) * (s + 1)

/-- The numbers for which two steps from 32 or less are enough. -/
def RootReached (t : Int) : Prop :=
  t ≤ 3711 ∨ (3721 ≤ t ∧ t ≤ 3824) ∨ (3844 ≤ t ∧ t ≤ 3926) ∨ (3969 ≤ t ∧ t ≤ 4031) ∨ (4096 ≤ t ∧ t ≤ 4159) ∨
    (4225 ≤ t ∧ t ≤ 4263) ∨ (4356 ≤ t ∧ t ≤ 4367)

instance RootReached.decidable (t : Int) : Decidable (RootReached t) := by
  unfold RootReached
  infer_instance

/-- A row off the centers whose root is reached. -/
def RowExact (yPos : Int) : Prop :=
  let dy := cornerDy y height radius yPos
  dy ≠ 0 ∧ RootReached (radius * radius - dy * dy)

/-- One step of Newton's method from a positive number does not end below the root. -/
lemma lt_of_step {t g q : Int} (hg : 0 < g) (hq : q = t / g) : t < ((g + q) / 2 + 1) * ((g + q) / 2 + 1) := by
  have hlt : t < (q + 1) * g := by
    rw [hq]
    exact Int.lt_ediv_add_one_mul_self t hg
  have hhalf : g + q + 1 ≤ 2 * ((g + q) / 2 + 1) := by omega
  by_cases hq0 : 0 ≤ q
  · nlinarith [sq_nonneg (g - (q + 1))]
  · have : t < 0 := by nlinarith
    nlinarith [sq_nonneg ((g + q) / 2 + 1)]

lemma lt_fastIsqrt {t : Int} (ht : 0 < t) : 0 ≤ fastIsqrt t ∧ t < (fastIsqrt t + 1) * (fastIsqrt t + 1) := by
  rw [fastIsqrt, if_neg (by omega)]
  generalize hg : (if t ≥ 1024 then (32 : Int) else if t ≥ 256 then 16 else if t ≥ 64 then 8 else if t ≥ 16 then 4
      else if t ≥ 4 then 2 else 1) = g
  have hpos : 1 ≤ g ∧ g ≤ t := by split_ifs at hg <;> omega
  dsimp only
  have htemp : 0 < (g + t / g) / 2 := by
    have := (Int.le_ediv_iff_mul_le (by omega)).mpr (show 1 * g ≤ t by omega)
    omega
  have hstep := lt_of_step (t := t) htemp rfl
  generalize (g + t / g) / 2 = u at *
  have hquot : 0 ≤ t / u := Int.ediv_nonneg ht.le htemp.le
  generalize t / u = q at *
  split_ifs with hlt
  · refine ⟨?_, by simpa using hlt⟩
    by_contra hneg
    have h0 : (u + q) / 2 = 0 := by omega
    rw [h0] at hlt
    omega
  · exact ⟨by omega, hstep⟩

lemma root_small : ∀ a ∈ List.range 84, ∀ b ∈ List.range 80,
    fastIsqrt ↑(80 * a + b) * fastIsqrt ↑(80 * a + b) ≤ ↑(80 * a + b) ↔ RootReached ↑(80 * a + b) := by
  decide +kernel

/-- From 6720 on the second step ends above the root. -/
lemma root_large {t : Int} (ht : 6720 ≤ t) : t < fastIsqrt t * fastIsqrt t := by
  rw [fastIsqrt, if_neg (by omega), if_pos (show t ≥ 1024 by omega)]
  dsimp only
  have htemp : 121 ≤ (32 + t / 32) / 2 := by omega
  have hupper : t ≤ 64 * ((32 + t / 32) / 2) := by omega
  generalize (32 + t / 32) / 2 = u at *
  have hquot : t / u ≤ 64 := Int.ediv_le_of_le_mul (by omega) hupper
  have hquot0 : 0 ≤ t / u := Int.ediv_nonneg (by omega) (by omega)
  have hlt := Int.lt_ediv_add_one_mul_self t (show 0 < u by omega)
  generalize t / u = q at *
  have hhalf : u + q - 3 ≤ 2 * ((u + q) / 2 - 1) := by omega
  have hlarge : t < ((u + q) / 2 - 1) * ((u + q) / 2 - 1) := by
    have hsq : (u + q - 3) * (u + q - 3) ≤ (2 * ((u + q) / 2 - 1)) * (2 * ((u + q) / 2 - 1)) :=
      mul_self_le_mul_self (by omega) hhalf
    nlinarith [mul_self_le_mul_self (show 0 ≤ u - 64 by omega) (show u - 64 ≤ u - q by omega)]
  split_ifs with hle
  · exact hlarge
  · nlinarith

lemma fastIsqrt_isRoot_iff {t : Int} (ht : 0 < t) : IsRoot t (fastIsqrt t) ↔ RootReached t := by
  obtain ⟨h0, hlt⟩ := lt_fastIsqrt ht
  have hroot : IsRoot t (fastIsqrt t) ↔ fastIsqrt t * fastIsqrt t ≤ t := ⟨fun h => h.2.1, fun h => ⟨h0, h, hlt⟩⟩
  rw [hroot]
  obtain ⟨n, rfl⟩ := Int.eq_ofNat_of_zero_le ht.le
  by_cases hn : n < 6720
  · have hsmall := root_small (n / 80) (List.mem_range.mpr (by omega)) (n % 80) (List.mem_range.mpr (by omega))
    rwa [Nat.div_add_mod] at hsmall
  · have hlarge := root_large (show 6720 ≤ (n : Int) by omega)
    refine ⟨fun hle => absurd hle hlarge.not_ge, fun hr => ?_⟩
    unfold RootReached at hr
    omega

lemma IsRoot.le_iff {t s d : Int} (h : IsRoot t s) (hd : 0 ≤ d) : d * d ≤ t ↔ d ≤ s := by
  obtain ⟨hs, hle, hlt⟩ := h
  constructor
  · intro hdt
    by_contra hds
    nlinarith
  · intro hds
    nlinarith

variable {x y width height radius}

lemma cornerDy_bounds {yPos : Int} (hy : y ≤ yPos ∧ yPos < y + height)
    (hrow : ¬ (yPos ≥ y + radius ∧ yPos ≤ y + height - 1 - radius)) :
    0 ≤ cornerDy y height radius yPos ∧ cornerDy y height radius yPos < radius := by
  unfold cornerDy
  split_ifs <;> omega

section bounds

variable (hr : 0 ≤ radius) (hw : 2 * radius ≤ width) {yPos : Int} (hy : y ≤ yPos ∧ yPos < y + height)
include hr hw hy

/-- On a row that does not qualify the first pixel of the bounds is not one of the shape. -/
lemma first_pixel_outside (hrow : ¬ (radius = 0 ∨ (y + radius ≤ yPos ∧ yPos ≤ y + height - 1 - radius) ∨
    RowExact y height radius yPos)) :
    let bounds := getRoundedRectScanlineBounds x y width height radius yPos
    bounds.1 ≤ bounds.2 ∧ roundedRectContains x y width height radius bounds.1 yPos = false := by
  obtain ⟨hr0, hstraight, hexact⟩ := not_or.mp hrow |>.imp_right not_or.mp
  obtain ⟨hdy0, hdyr⟩ := cornerDy_bounds hy hstraight
  unfold getRoundedRectScanlineBounds roundedRectContains RowExact at *
  dsimp only at *
  rw [if_neg (by omega), if_neg (by omega)]
  generalize cornerDy y height radius yPos = dy at *
  have htarget : 0 < radius * radius - dy * dy := by nlinarith
  obtain ⟨hs0, hlt⟩ := lt_fastIsqrt htarget
  have hroot := fastIsqrt_isRoot_iff htarget
  rw [if_neg (by omega)]
  generalize fastIsqrt (radius * radius - dy * dy) = s at *
  have hover : radius * radius - dy * dy < s * s ∨ radius ≤ s := by
    by_cases hdy : dy = 0
    · refine .inr ?_
      rw [hdy] at hlt
      by_contra hlow
      nlinarith
    · exact .inl (not_le.mp fun hle => hexact ⟨hdy, hroot.mp ⟨hs0, hle, hlt⟩⟩)
  refine ⟨by omega, ?_⟩
  split_ifs with h1 h2 h3 h4
  · rfl
  · omega
  · omega
  · rw [decide_eq_false_iff_not, show x + radius - 1 - (x + radius - (s + 1)) = s by omega]
    omega
  · omega

/-- The bounds of a row are the pixels of the shape exactly if the radius is 0, the row is straight, or its root is
reached. -/
theorem bounds_iff_contains :
    (∀ px, ((getRoundedRectScanlineBounds x y width height radius yPos).1 ≤ px ∧
      px ≤ (getRoundedRectScanlineBounds x y width height radius yPos).2) ↔
      roundedRectContains x y width height radius px yPos) ↔
    radius = 0 ∨ (y + radius ≤ yPos ∧ yPos ≤ y + height - 1 - radius) ∨ RowExact y height radius yPos := by
  refine ⟨fun h => ?_, fun hrow px => ?_⟩
  · by_contra hnot
    obtain ⟨hle, hout⟩ := first_pixel_outside (x := x) hr hw hy hnot
    exact absurd ((h _).mp ⟨le_rfl, hle⟩) (by rw [hout]; exact Bool.false_ne_true)
  unfold getRoundedRectScanlineBounds roundedRectContains
  dsimp only
  rw [if_neg (by omega)]
  by_cases hplain : radius ≤ 0 ∨ yPos ≥ y + radius ∧ yPos ≤ y + height - 1 - radius
  · rw [if_pos hplain]
    split_ifs <;> simp <;> omega
  · obtain ⟨hr0, hstraight⟩ := not_or.mp hplain
    obtain ⟨hdy, hreached⟩ := (hrow.resolve_left (by omega)).resolve_left hstraight
    obtain ⟨hdy0, hdyr⟩ := cornerDy_bounds hy hstraight
    rw [if_neg hplain]
    generalize cornerDy y height radius yPos = dy at *
    have hroot := (fastIsqrt_isRoot_iff (by nlinarith)).mpr hreached
    rw [if_neg (by nlinarith)]
    generalize fastIsqrt (radius * radius - dy * dy) = s at *
    have hs : s < radius := by
      have hdd : 0 < dy * dy := mul_pos (by omega) (by omega)
      by_contra h
      have hss := mul_self_le_mul_self hr (not_lt.mp h)
      have := hroot.2.1
      omega
    have hcircle : ∀ d, 0 ≤ d → (d * d + dy * dy ≤ radius * radius ↔ d ≤ s) := fun d hd =>
      le_sub_iff_add_le.symm.trans (hroot.le_iff hd)
    have hs0 := hroot.1
    split_ifs with h1 h2 h3
    · simp
      omega
    · simp
      omega
    · rw [decide_eq_true_iff, hcircle _ (by omega)]
      omega
    · rw [decide_eq_true_iff, hcircle _ (by omega)]
      omega

end bounds

/-- The first row of a square of four with corners of radius 2. -/
theorem bounds_iff_contains_first : RowExact 0 4 2 0 ∧ ∀ px, ((getRoundedRectScanlineBounds 0 0 4 4 2 0).1 ≤ px ∧
    px ≤ (getRoundedRectScanlineBounds 0 0 4 4 2 0).2) ↔ roundedRectContains 0 0 4 4 2 px 0 :=
  have hrow : RowExact 0 4 2 0 := ⟨by decide, by decide⟩
  ⟨hrow, (bounds_iff_contains (by decide) (by decide) (by decide)).mpr (.inr (.inr hrow))⟩

/-- The row of the centers leaves the rectangle; a large root is not exact. -/
theorem center_row_outside : getRoundedRectScanlineBounds 0 0 2 2 1 0 = (-1, 2) ∧
    roundedRectContains 0 0 2 2 1 (-1) 0 = false ∧ fastIsqrt 3712 = 61 := by
  decide

end VibeOS.Rounded
