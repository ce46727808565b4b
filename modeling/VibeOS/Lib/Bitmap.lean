import VibeOS.Lib.Bytes

/-!
# Bitmaps stored in byte buffers

Bit `i` of a bitmap is bit `i % 8` of byte `i / 8`. `setBit` and `clearBit` are the masked
updates `|= 1 << (i % 8)` and `&= ~(1 << (i % 8))`; `firstClear` is the linear scan for a clear
bit, and `clearCount bm n` the number of clear bits below `n`.
-/

namespace VibeOS

open List

variable {i j n : Nat}
variable {bm : Buf}

namespace Bitmap

def mask (i : Nat) : UInt8 := 1 <<< UInt8.ofNat (i % 8)

def bit (bm : Buf) (i : Nat) : Bool := (bm (i / 8) &&& mask i) != 0

def setBit (bm : Buf) (i : Nat) : Buf := fun k => if k = i / 8 then bm k ||| mask i else bm k

def clearBit (bm : Buf) (i : Nat) : Buf := fun k =>
  if k = i / 8 then bm k &&& ~~~ (mask i) else bm k

/-- The first clear bit among the `n` bits from `i` on. -/
def firstClear (bm : Buf) : (i n : Nat) → Option Nat
  | _, 0 => none
  | i, n + 1 => if bit bm i then firstClear bm (i + 1) n else some i

variable (bm)

def clearCount (n : Nat) : Nat := (List.range n).countP fun i => !bit bm i

/-! ### Single bits -/

lemma mask_toNat (i : Nat) : (mask i).toNat = 2 ^ (i % 8) := by
  have h : i % 8 < 8 := Nat.mod_lt _ (by omega)
  have key : ∀ r < 8, ((1 : UInt8) <<< UInt8.ofNat r).toNat = 2 ^ r := by decide
  exact key _ h

lemma bit_eq_testBit (i : Nat) : bit bm i = (bm (i / 8)).toNat.testBit (i % 8) := by
  have key : (bm (i / 8) &&& mask i).toNat = 2 ^ (i % 8) * ((bm (i / 8)).toNat.testBit (i % 8)).toNat := by
    rw [UInt8.toNat_and, mask_toNat, Nat.and_two_pow, mul_comm]
  rw [bit, Bool.eq_iff_iff, bne_iff_ne, ne_eq, ← UInt8.toNat_inj, key]
  cases (bm (i / 8)).toNat.testBit (i % 8) <;> simp

lemma eq_of_div_mod (h1 : j / 8 = i / 8) (h2 : j % 8 = i % 8) : j = i := by omega

lemma bit_setBit (i j : Nat) : bit (setBit bm i) j = (decide (j = i) || bit bm j) := by
  rw [bit_eq_testBit, bit_eq_testBit, setBit]
  by_cases h : j / 8 = i / 8
  · rw [if_pos h, UInt8.toNat_or, mask_toNat, Nat.testBit_or, Nat.testBit_two_pow, Bool.or_comm]
    congr 1
    rw [decide_eq_decide]
    constructor
    · intro h'; exact eq_of_div_mod h h'.symm
    · rintro rfl; rfl
  · rw [if_neg h]
    have hne : j ≠ i := by rintro rfl; exact h rfl
    simp [hne]

lemma bit_clearBit (i j : Nat) : bit (clearBit bm i) j = (decide (j ≠ i) && bit bm j) := by
  rw [bit_eq_testBit, bit_eq_testBit, clearBit]
  by_cases h : j / 8 = i / 8
  · rw [if_pos h, UInt8.toNat_and, Nat.testBit_and, Bool.and_comm]
    congr 1
    have hj : j % 8 < 8 := Nat.mod_lt _ (by omega)
    have key : (~~~ (mask i)).toNat = 2 ^ 8 - (2 ^ (i % 8) + 1) := by
      rw [UInt8.toNat_not, mask_toNat]
      simp only [UInt8.size]
      omega
    rw [key, Nat.testBit_two_pow_sub_succ (by
      have h8 : i % 8 < 8 := Nat.mod_lt _ (by omega)
      exact Nat.pow_lt_pow_right (by omega) h8), Nat.testBit_two_pow]
    simp only [hj, decide_true, Bool.true_and]
    rw [← decide_not, decide_eq_decide]
    constructor
    · rintro h' rfl; exact h' rfl
    · intro h' h''; exact h' (eq_of_div_mod h h''.symm)
  · rw [if_neg h]
    have hne : j ≠ i := by rintro rfl; exact h rfl
    simp [hne]

@[simp] lemma bit_setBit_self (i : Nat) : bit (setBit bm i) i = true := by
  simp [bit_setBit]

@[simp] lemma bit_clearBit_self (i : Nat) : bit (clearBit bm i) i = false := by
  simp [bit_clearBit]

variable {bm}

lemma bit_setBit_of_ne (h : j ≠ i) : bit (setBit bm i) j = bit bm j := by
  simp [bit_setBit, h]

lemma bit_clearBit_of_ne (h : j ≠ i) : bit (clearBit bm i) j = bit bm j := by
  simp [bit_clearBit, h]

lemma bit_foldl_setBit (l : List Nat) (bm : Buf) (j : Nat) :
    bit (l.foldl setBit bm) j = (decide (j ∈ l) || bit bm j) := by
  induction l generalizing bm with
  | nil => simp
  | cons i l ih =>
    rw [foldl_cons, ih, bit_setBit, Bool.eq_iff_iff]
    simp only [Bool.or_eq_true, decide_eq_true_eq, mem_cons]
    tauto

lemma bit_zero (i : Nat) : bit Buf.zero i = false := by
  rw [bit_eq_testBit]
  simp [Buf.zero]

lemma ext_bit {bm' : Buf} (h : ∀ i, bit bm i = bit bm' i) : bm = bm' := by
  funext k
  apply UInt8.toNat_inj.mp
  apply Nat.eq_of_testBit_eq
  intro r
  by_cases hr : r < 8
  · have hk := h (8 * k + r)
    rw [bit_eq_testBit, bit_eq_testBit, show (8 * k + r) / 8 = k by omega, show (8 * k + r) % 8 = r by omega] at hk
    exact hk
  · have hpow : 2 ^ 8 ≤ 2 ^ r := Nat.pow_le_pow_right (by omega) (by omega)
    rw [Nat.testBit_lt_two_pow (lt_of_lt_of_le (bm k).toNat_lt hpow),
      Nat.testBit_lt_two_pow (lt_of_lt_of_le (bm' k).toNat_lt hpow)]

lemma clearBit_setBit (h : bit bm i = false) : clearBit (setBit bm i) i = bm := by
  refine ext_bit fun j => ?_
  rw [bit_clearBit, bit_setBit]
  by_cases hj : j = i
  · simp [hj, h]
  · simp [hj]

/-! ### The scan -/

lemma firstClear_some (h : firstClear bm i n = some j) :
    i ≤ j ∧ j < i + n ∧ bit bm j = false ∧ ∀ k, i ≤ k → k < j → bit bm k = true := by
  induction n generalizing i with
  | zero => simp [firstClear] at h
  | succ n ih =>
    rw [firstClear] at h
    by_cases hb : bit bm i = true
    · rw [if_pos hb] at h
      obtain ⟨h1, h2, h3, h4⟩ := ih h
      refine ⟨by omega, by omega, h3, fun k hk1 hk2 => ?_⟩
      by_cases hki : k = i
      · rw [hki]; exact hb
      · exact h4 k (by omega) hk2
    · rw [if_neg hb] at h
      cases h
      exact ⟨le_rfl, by omega, by simpa using hb, fun k hk1 hk2 => by omega⟩

lemma firstClear_none (h : firstClear bm i n = none) : ∀ k, i ≤ k → k < i + n → bit bm k = true := by
  induction n generalizing i with
  | zero => intro k hk1 hk2; omega
  | succ n ih =>
    rw [firstClear] at h
    by_cases hb : bit bm i = true
    · rw [if_pos hb] at h
      intro k hk1 hk2
      by_cases hki : k = i
      · rw [hki]; exact hb
      · exact ih h k (by omega) (by omega)
    · rw [if_neg hb] at h
      cases h

/-! ### Counting clear bits -/

lemma clearCount_le (bm : Buf) (n : Nat) : clearCount bm n ≤ n := by
  have h := countP_le_length (p := fun i => !bit bm i) (l := List.range n)
  simpa [clearCount] using h

lemma clearCount_succ (bm : Buf) (n : Nat) : clearCount bm (n + 1) = clearCount bm n + (!bit bm n).toNat := by
  rw [clearCount, range_succ, countP_append, clearCount]
  cases h : bit bm n <;> simp [h]

lemma clearCount_of_lt {k : Nat} (h : ∀ i < n, bit bm i = decide (i < k)) : clearCount bm n = n - k := by
  induction n with
  | zero => rw [Nat.zero_sub]; rfl
  | succ n ih =>
    rw [clearCount_succ, ih fun i hi => h i (by omega), h n (by omega)]
    by_cases hn : n < k
    · simp [hn]
      omega
    · simp [hn]
      omega

lemma clearCount_congr {bm' : Buf} (h : ∀ i < n, bit bm i = bit bm' i) : clearCount bm n = clearCount bm' n := by
  apply countP_congr
  intro i hi
  rw [h i (mem_range.mp hi)]

lemma clearCount_setBit (hi : i < n) (hb : bit bm i = false) : clearCount (setBit bm i) n + 1 = clearCount bm n := by
  induction n with
  | zero => omega
  | succ n ih =>
    rw [clearCount_succ, clearCount_succ]
    by_cases hin : i = n
    · subst hin
      have hlt : clearCount (setBit bm i) i = clearCount bm i :=
        clearCount_congr fun k hk => bit_setBit_of_ne (by omega)
      rw [hlt, hb]
      simp
    · rw [bit_setBit_of_ne (by omega)]
      omega

lemma clearCount_clearBit (hi : i < n) (hb : bit bm i) : clearCount (clearBit bm i) n = clearCount bm n + 1 := by
  induction n with
  | zero => omega
  | succ n ih =>
    rw [clearCount_succ, clearCount_succ]
    by_cases hin : i = n
    · subst hin
      have hlt : clearCount (clearBit bm i) i = clearCount bm i :=
        clearCount_congr fun k hk => bit_clearBit_of_ne (by omega)
      rw [hlt, hb]
      simp
    · rw [bit_clearBit_of_ne (by omega)]
      omega

/-! ### Counters kept beside a bitmap -/

/-- A machine counter that holds the number of clear bits. -/
def Counts (bm : Buf) (n : Nat) (c : UInt32) : Prop := c.toNat = clearCount bm n

lemma Counts.set {c : UInt32} (h : Counts bm n c) (hi : i < n)
    (hb : bit bm i = false) : Counts (setBit bm i) n (c - 1) := by
  have hcount := clearCount_setBit hi hb
  have hone : (1 : UInt32).toNat = 1 := rfl
  rw [Counts] at h ⊢
  rw [UInt32.toNat_sub_of_le _ _ (by rw [UInt32.le_iff_toNat_le]; omega)]
  omega

lemma Counts.clear {c : UInt32} (h : Counts bm n c) (hi : i < n)
    (hb : bit bm i) (hn : n < 2 ^ 32) : Counts (clearBit bm i) n (c + 1) := by
  have hcount := clearCount_clearBit hi hb
  have hle := clearCount_le (clearBit bm i) n
  have hone : (1 : UInt32).toNat = 1 := rfl
  rw [Counts] at h ⊢
  rw [UInt32.toNat_add]
  omega

end Bitmap

end VibeOS
