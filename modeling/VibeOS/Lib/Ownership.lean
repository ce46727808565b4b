import Mathlib

/-!
# Exclusive ownership of numbered resources

Slots `S` each hold a resource number, `0` for none. `Exclusive own used lo hi` says that the
resources held are pairwise distinct, lie in `[lo, hi)` and are marked used; `NoLeak` is the
converse, that every marked resource of the range is held by some slot. Taking a free resource
into an empty slot (`assign`) and giving one back (`release`) keep both.
-/

namespace VibeOS

namespace Ownership

variable {S : Type*} {own own' : S → Nat} {used used' : Nat → Bool} {lo hi : Nat}

/-- No resource is held twice, and every held resource is marked and in range. -/
structure Exclusive (own : S → Nat) (used : Nat → Bool) (lo hi : Nat) : Prop where
  range : ∀ s, own s ≠ 0 → lo ≤ own s ∧ own s < hi
  marked : ∀ s, own s ≠ 0 → used (own s) = true
  inj : ∀ s t, own s = own t → own s ≠ 0 → s = t

def NoLeak (own : S → Nat) (used : Nat → Bool) (lo hi : Nat) : Prop :=
  ∀ b, lo ≤ b → b < hi → used b = true → ∃ s, own s = b

lemma Exclusive.ne_of_unmarked (h : Exclusive own used lo hi) {b : Nat} (hb : used b = false)
    (hb0 : b ≠ 0) (s : S) : own s ≠ b := by
  rintro rfl
  rw [h.marked s hb0] at hb
  cases hb

lemma Exclusive.congr (h : Exclusive own used lo hi) (hown : ∀ s, own' s = own s)
    (hused : ∀ b, used' b = used b) : Exclusive own' used' lo hi := by
  obtain rfl : own' = own := funext hown
  obtain rfl : used' = used := funext hused
  exact h

section assign

variable [DecidableEq S] {s0 : S} {b : Nat}

lemma Exclusive.assign (h : Exclusive own used lo hi) (hb : lo ≤ b ∧ b < hi) (hb0 : b ≠ 0)
    (hfree : used b = false) (hown : ∀ s, own' s = if s = s0 then b else own s)
    (hused : ∀ x, used' x = (decide (x = b) || used x)) : Exclusive own' used' lo hi where
  range s hs := by
    rw [hown] at hs ⊢
    split_ifs at hs ⊢ with heq
    · exact hb
    · exact h.range s hs
  marked s hs := by
    rw [hown] at hs ⊢
    rw [hused]
    split_ifs at hs ⊢ with heq
    · simp
    · simp [h.marked s hs]
  inj s t hst hs := by
    rw [hown] at hs
    rw [hown, hown] at hst
    by_cases h1 : s = s0 <;> by_cases h2 : t = s0
    · rw [h1, h2]
    · rw [if_pos h1, if_neg h2] at hst
      exact absurd hst.symm (h.ne_of_unmarked hfree hb0 t)
    · rw [if_neg h1, if_pos h2] at hst
      exact absurd hst (h.ne_of_unmarked hfree hb0 s)
    · rw [if_neg h1] at hst hs
      rw [if_neg h2] at hst
      exact h.inj s t hst hs

lemma NoLeak.assign (h : NoLeak own used lo hi) (h0 : own s0 = 0) (hlo : 0 < lo)
    (hown : ∀ s, own' s = if s = s0 then b else own s)
    (hused : ∀ x, used' x = (decide (x = b) || used x)) : NoLeak own' used' lo hi := by
  intro x hx1 hx2 hx
  rw [hused] at hx
  by_cases hxb : x = b
  · exact ⟨s0, by rw [hown, if_pos rfl, hxb]⟩
  · simp only [hxb, decide_false, Bool.false_or] at hx
    obtain ⟨s, hs⟩ := h x hx1 hx2 hx
    refine ⟨s, ?_⟩
    rw [hown, if_neg, hs]
    rintro rfl
    omega

lemma Exclusive.release (h : Exclusive own used lo hi) (hown : ∀ s, own' s = if s = s0 then 0 else own s)
    (hused : ∀ x, used' x = (decide (x ≠ own s0) && used x)) : Exclusive own' used' lo hi where
  range s hs := by
    rw [hown] at hs ⊢
    split_ifs at hs ⊢ with heq
    · exact absurd rfl hs
    · exact h.range s hs
  marked s hs := by
    rw [hown] at hs ⊢
    rw [hused]
    split_ifs at hs ⊢ with heq
    · exact absurd rfl hs
    · have hne : own s ≠ own s0 := fun he => heq (h.inj s s0 he hs)
      simp [hne, h.marked s hs]
  inj s t hst hs := by
    rw [hown] at hs
    rw [hown, hown] at hst
    by_cases h1 : s = s0
    · rw [if_pos h1] at hs
      exact absurd rfl hs
    · rw [if_neg h1] at hst hs
      by_cases h2 : t = s0
      · rw [if_pos h2] at hst
        exact absurd hst hs
      · rw [if_neg h2] at hst
        exact h.inj s t hst hs

lemma NoLeak.release (h : NoLeak own used lo hi) (hown : ∀ s, own' s = if s = s0 then 0 else own s)
    (hused : ∀ x, used' x = (decide (x ≠ own s0) && used x)) : NoLeak own' used' lo hi := by
  intro x hx1 hx2 hx
  rw [hused, Bool.and_eq_true, decide_eq_true_eq] at hx
  obtain ⟨s, hs⟩ := h x hx1 hx2 hx.2
  refine ⟨s, ?_⟩
  rw [hown, if_neg, hs]
  rintro rfl
  exact hx.1 hs.symm

end assign

end Ownership

end VibeOS
