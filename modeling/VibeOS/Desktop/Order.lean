import VibeOS.Desktop.Window

/-!
# The order of the windows

`focus_window` (`WindowOrder.focus`, which the desktop's own `focusWindow` calls) for all twenty windows, the built-in
ones too, with flags that may change in any way between two calls. The order stays a permutation of the windows, in two
classes: the windows always on top stand above the others, and each class keeps its order except for the focused one.
-/

namespace VibeOS

open List
open WindowOrder

/-- A call of `focus_window`, or any change of the windows' flags. -/
inductive OrderEvent where
  | focus (index : Int)
  | setFlags (flags : Nat → UInt32)

def OrderEvent.step (o : WindowOrder) : OrderEvent → WindowOrder
  | .focus index => o.focus index
  | .setFlags flags => { o with flags := flags }

variable {o : WindowOrder} {i : Nat}

/-! ### One call -/

section

variable (h : o.zOrder ~ range 20)

include h

lemma normalize_zOrder :
    o.normalize.zOrder = o.zOrder.filter (!o.alwaysOnTop ·) ++ o.zOrder.filter o.alwaysOnTop := by
  have hsame (p : Nat → Bool) : (o.zOrder.filter fun i => i < 20 && p i) = o.zOrder.filter p :=
    filter_congr fun i hi => by rw [decide_eq_true (mem_range.mp (h.mem_iff.mp hi)), Bool.true_and]
  have hlen := ((filter_append_perm o.alwaysOnTop o.zOrder).symm.trans perm_append_comm).length_eq
  unfold WindowOrder.normalize
  dsimp only
  rw [hsame, hsame, drop_eq_nil_of_le hlen.le, append_nil]

lemma moved_perm (hi : i ∈ o.zOrder) : o.zOrder.erase i ++ [i] ~ range 20 :=
  (perm_append_singleton _ _).trans ((perm_cons_erase hi).symm.trans h)

lemma focus_zOrder (hi : i < 20) : (o.focus i).zOrder =
    (o.zOrder.erase i ++ [i]).filter (!o.alwaysOnTop ·) ++ (o.zOrder.erase i ++ [i]).filter o.alwaysOnTop := by
  have hmem : i ∈ o.zOrder := h.mem_iff.mpr (mem_range.mpr hi)
  unfold WindowOrder.focus
  rw [if_neg (by omega)]
  dsimp only
  rw [Int.toNat_natCast, if_pos hmem, normalize_zOrder (moved_perm h hmem)]
  rfl

lemma step_perm (e : OrderEvent) : (e.step o).zOrder ~ range 20 := by
  cases e with
  | setFlags flags => exact h
  | focus index =>
    by_cases hi : index < 0 ∨ index ≥ 20
    · rw [OrderEvent.step, WindowOrder.focus, if_pos hi]
      exact h
    · obtain ⟨i, rfl⟩ := Int.eq_ofNat_of_zero_le (a := index) (by omega)
      have hmem : i ∈ o.zOrder := h.mem_iff.mpr (mem_range.mpr (by omega))
      rw [OrderEvent.step, focus_zOrder h (by omega)]
      exact (perm_append_comm.trans (filter_append_perm _ _)).trans (moved_perm h hmem)

/-- Each class of windows keeps its order in the two passes. -/
lemma focus_class (hi : i < 20) (top : Bool) :
    (o.focus i).zOrder.filter (o.alwaysOnTop · == top) = (o.zOrder.erase i ++ [i]).filter (o.alwaysOnTop · == top) := by
  rw [focus_zOrder h hi, filter_append, filter_filter, filter_filter]
  cases top
  · simp
  · simp

end

/-- In every state the order is a permutation. After a focus the windows always on top are above the others, the
focused one is the last of its class, and the others of each class stand as before. -/
theorem z_order_permutes (flags : Nat → UInt32) (focused target : Int) (events : List OrderEvent) (i : Fin 20) :
    let o := run OrderEvent.step ⟨flags, range 20, focused, target⟩ events
    let p := o.focus i
    o.zOrder ~ range 20 ∧ p.zOrder ~ range 20 ∧ p.flags = o.flags ∧
      p.zOrder.Pairwise (fun a b => o.alwaysOnTop a ≤ o.alwaysOnTop b) ∧
      (p.zOrder.filter (o.alwaysOnTop · == o.alwaysOnTop i)).getLast? = some i.val ∧
      ∀ top, ((p.zOrder.filter (o.alwaysOnTop · == top)).filter (· != i.val)) =
        (o.zOrder.filter (o.alwaysOnTop · == top)).filter (· != i.val) := by
  intro o p
  have h : o.zOrder ~ range 20 :=
    foldlRecOn (motive := fun o : WindowOrder => o.zOrder ~ range 20) events OrderEvent.step (.refl _)
      fun _ h e _ => step_perm h e
  refine ⟨h, step_perm h (.focus i), ?_, ?_, ?_, fun top => ?_⟩
  · show (o.focus i).flags = o.flags
    unfold WindowOrder.focus
    dsimp only
    split_ifs <;> rfl
  · rw [focus_zOrder h i.isLt]
    refine pairwise_append.mpr ⟨?_, ?_, fun a _ b hb => ?_⟩
    · refine pairwise_of_forall_mem_list fun a ha b _ => ?_
      rw [(Bool.not_eq_true' _).mp (mem_filter.mp ha).2]
      exact Bool.false_le _
    · exact pairwise_of_forall_mem_list fun a _ b hb => (mem_filter.mp hb).2 ▸ Bool.le_true _
    · exact (mem_filter.mp hb).2 ▸ Bool.le_true _
  · rw [focus_class h i.isLt, filter_append, filter_cons_of_pos (by simp)]
    simp
  · rw [focus_class h i.isLt, filter_comm, filter_comm _ _ o.zOrder, filter_append,
      (h.nodup_iff.mpr nodup_range).erase_eq_filter]
    simp

end VibeOS
