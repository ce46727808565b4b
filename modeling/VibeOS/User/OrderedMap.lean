import VibeOS.Lib.Run
import VibeOS.User.Containers

/-!
# Ordered maps

`std::map` is a vector of entries sorted by key, with a binary search. Keys are compared by any strict weak order; two
keys neither of which comes first are the same key for the map. The finite map that the vector stands for is the set of
its entries. `Op.Does` says what each operation returns and how it changes that set.
-/

namespace VibeOS.OrderedMap

open Containers List Option Function

variable {K V : Type} (comp : K → K → Bool)

/-- What `Compare` has to be. -/
structure StrictWeak : Prop where
  irrefl : ∀ a, comp a a = false
  trans : ∀ a b c, comp a b = true → comp b c = true → comp a c = true
  weak : ∀ a b c, comp a c = true → comp a b = true ∨ comp b c = true

/-- Source: `user/libc/include/map` -/
def keyEq (a b : K) : Bool := !comp a b && !comp b a

/-- Source: `user/libc/include/map` `map::lower` -/
def lowerLoop (m : Storage (K × V)) (k : K) : Nat → Nat → Nat → Option Nat
  | 0, _, _ => none
  | fuel + 1, lo, hi =>
    if lo < hi then
      let mid := lo + (hi - lo) / 2
      (m.cells mid).bind fun e => if comp e.1 k then lowerLoop m k fuel (mid + 1) hi else lowerLoop m k fuel lo mid
    else some lo

/-- The index of `lower`, and whether its key is `k`: the test that the operations share. -/
def locate (m : Storage (K × V)) (k : K) : Option (Nat × Bool) :=
  (lowerLoop comp m k (m.size + 1) 0 m.size).bind fun lo =>
    if lo < m.size then (m.cells lo).map fun e => (lo, keyEq comp e.1 k) else some (lo, false)

/-- Source: `user/libc/include/map` `map::insert`; `map::operator[]` with a default value -/
def insertEntry (m : Storage (K × V)) (kv : K × V) : Option ((Nat × Bool) × Storage (K × V)) :=
  (locate comp m kv.1).bind fun r =>
    if r.2 then some ((r.1, false), m) else (insert m r.1 (.value kv)).map fun m' => ((r.1, true), m')

/-- The operations of `map`; `eraseAt` takes an iterator. -/
inductive Op (K V : Type) where
  | insert (kv : K × V)
  | index (k : K)
  | eraseKey (k : K)
  | eraseAt (i : Nat)
  | find (k : K)
  | count (k : K)
  | lowerBound (k : K)
  | upperBound (k : K)

/-- Source: `user/libc/include/map` `map::count` -/
def count (m : Storage (K × V)) (k : K) : Option Nat := (locate comp m k).map fun r => if r.2 then 1 else 0

/-- The position or count that is returned, whether an entry was inserted, and the map. An iterator is its index.
Source: `user/libc/include/map` -/
def step [Inhabited V] (m : Storage (K × V)) : Op K V → Option ((Nat × Bool) × Storage (K × V))
  | .insert kv => insertEntry comp m kv
  | .index k => insertEntry comp m (k, default)
  | .eraseKey k => (locate comp m k).map fun r => if r.2 then ((1, false), erase m r.1) else ((0, false), m)
  | .eraseAt i => some ((i, false), erase m i)
  | .find k => (locate comp m k).map fun r => ((if r.2 then r.1 else m.size, false), m)
  | .count k => (count comp m k).map fun n => ((n, false), m)
  | .lowerBound k => (locate comp m k).map fun r => ((r.1, false), m)
  | .upperBound k => (locate comp m k).map fun r => ((if r.2 then r.1 + 1 else r.1, false), m)

/-! ### What the operations do -/

def Has (l : List (K × V)) (k : K) (e : K × V) : Prop := e ∈ l ∧ keyEq comp e.1 k = true

/-- A new entry, unless there is one with its key. -/
def Inserts (l : List (K × V)) (kv : K × V) (r : Nat × Bool) (l' : List (K × V)) : Prop :=
  (∃ e, Has comp l kv.1 e ∧ l[r.1]? = some e ∧ r.2 = false ∧ l' = l) ∨
    ((∀ e, ¬ Has comp l kv.1 e) ∧ r.2 = true ∧ l'[r.1]? = some kv ∧ ∀ e, e ∈ l' ↔ e = kv ∨ e ∈ l)

/-- The entries of the list are those of the map, in the order of their keys. -/
def Op.Does [Inhabited V] (l : List (K × V)) (r : Nat × Bool) (l' : List (K × V)) : Op K V → Prop
  | .insert kv => Inserts comp l kv r l'
  | .index k => Inserts comp l (k, default) r l'
  | .eraseKey k => (r.1 = 1 ∧ (∃ e, Has comp l k e) ∨ r.1 = 0 ∧ ∀ e, ¬ Has comp l k e) ∧
      ∀ e, e ∈ l' ↔ e ∈ l ∧ keyEq comp e.1 k = false
  | .eraseAt i => r.1 = i ∧ l' = l.eraseIdx i
  | .find k => l' = l ∧ ((∃ e, Has comp l k e ∧ l[r.1]? = some e) ∨ r.1 = l.length ∧ ∀ e, ¬ Has comp l k e)
  | .count k => l' = l ∧ (r.1 = 1 ∧ (∃ e, Has comp l k e) ∨ r.1 = 0 ∧ ∀ e, ¬ Has comp l k e)
  | .lowerBound k => l' = l ∧ r.1 ≤ l.length ∧ ∀ j e, l[j]? = some e → (j < r.1 ↔ comp e.1 k = true)
  | .upperBound k => l' = l ∧ r.1 ≤ l.length ∧ ∀ j e, l[j]? = some e → (r.1 ≤ j ↔ comp k e.1 = true)

/-- An iterator that is erased is one of the map. -/
def Op.Valid : Option (Storage (K × V)) → Op K V → Prop
  | some m, .eraseAt i => i < m.size
  | _, _ => True

def next [Inhabited V] (m : Option (Storage (K × V))) (op : Op K V) : Option (Storage (K × V)) :=
  m.bind fun m => (step comp m op).map Prod.snd

/-! ### The search -/

section

variable {comp} {m : Storage (K × V)} {l : List (K × V)} {k : K} {i : Nat}

abbrev Sorted (comp : K → K → Bool) (l : List (K × V)) : Prop := l.Pairwise fun a b => comp a.1 b.1 = true

lemma sorted_lt (hs : Sorted comp l) {j : Nat} {e e' : K × V} (hij : i < j) (hi : l[i]? = some e)
    (hj : l[j]? = some e') : comp e.1 e'.1 = true := by
  obtain ⟨h1, rfl⟩ := List.getElem?_eq_some_iff.mp hi
  obtain ⟨h2, rfl⟩ := List.getElem?_eq_some_iff.mp hj
  exact pairwise_iff_getElem.mp hs i j h1 h2 hij

lemma lowerLoop_spec (hc : StrictWeak comp) (hm : m.Holds l) (hs : Sorted comp l) {fuel lo hi : Nat}
    (hle : lo ≤ hi) (hhi : hi ≤ l.length) (hfuel : hi < fuel + lo)
    (hlow : ∀ j e, l[j]? = some e → j < lo → comp e.1 k)
    (hhigh : ∀ j e, l[j]? = some e → hi ≤ j → comp e.1 k = false) :
    ∃ i ≤ l.length, lowerLoop comp m k fuel lo hi = some i ∧ ∀ j e, l[j]? = some e → (j < i ↔ comp e.1 k) := by
  induction fuel generalizing lo hi with
  | zero => omega
  | succ fuel ih =>
    rw [lowerLoop]
    split_ifs with hlt
    · have hmid : lo + (hi - lo) / 2 < l.length := by omega
      dsimp only
      rw [hm.cells, getElem?_eq_getElem hmid, bind_some]
      have hat := getElem?_eq_getElem hmid
      split_ifs with hless
      · refine ih (by omega) hhi (by omega) (fun j e he hj => ?_) hhigh
        rcases Nat.lt_succ_iff_lt_or_eq.mp hj with hj | rfl
        · exact hc.trans _ _ _ (sorted_lt hs hj he hat) hless
        · cases hat.symm.trans he
          exact hless
      · refine ih (by omega) (by omega) (by omega) hlow fun j e he hj => ?_
        rcases Nat.eq_or_lt_of_le hj with rfl | hj
        · cases hat.symm.trans he
          exact Bool.eq_false_iff.mpr hless
        · exact Bool.eq_false_iff.mpr fun h => hless (hc.trans _ _ _ (sorted_lt hs hj hat he) h)
    · refine ⟨lo, by omega, rfl, fun j e he => ⟨hlow j e he, fun h => ?_⟩⟩
      by_contra hj
      exact Bool.false_ne_true ((hhigh j e he (by omega)).symm.trans h)

lemma keyEq_iff {a b : K} : keyEq comp a b ↔ comp a b = false ∧ comp b a = false := by
  simp [keyEq]

/-- The place of a key: that of its entry, or where an entry would come. -/
lemma locate_spec (hc : StrictWeak comp) (hm : m.Holds l) (hs : Sorted comp l) (k : K) :
    ∃ i b, locate comp m k = some (i, b) ∧ i ≤ l.length ∧ (∀ j e, l[j]? = some e → (j < i ↔ comp e.1 k)) ∧
      (b ∧ (∃ e, l[i]? = some e ∧ Has comp l k e) ∧ (∀ j e, l[j]? = some e → i < j → comp k e.1) ∨
        b = false ∧ (∀ e, ¬ Has comp l k e) ∧ ∀ j e, l[j]? = some e → i ≤ j → comp k e.1) := by
  obtain ⟨i, hi, hrun, hcut⟩ := lowerLoop_spec (k := k) hc hm hs (Nat.zero_le _) le_rfl
    (show l.length < l.length + 1 + 0 by omega) (fun j e _ hj => by omega)
    (fun j e he hj => by rw [getElem?_eq_none hj] at he; cases he)
  have hnone (hafter : ∀ j e, l[j]? = some e → i ≤ j → comp k e.1 = true) (e : K × V) : ¬ Has comp l k e := by
    rintro ⟨hmem, heq⟩
    obtain ⟨j, he⟩ := mem_iff_getElem?.mp hmem
    obtain ⟨h1, h2⟩ := keyEq_iff.mp heq
    by_cases hj : j < i
    · exact Bool.false_ne_true (h1.symm.trans ((hcut j e he).mp hj))
    · exact Bool.false_ne_true (h2.symm.trans (hafter j e he (by omega)))
  rw [locate, hm.size, hrun, bind_some]
  split_ifs with hlt
  · have hat := getElem?_eq_getElem hlt
    have hnot : comp l[i].1 k = false := Bool.eq_false_iff.mpr fun h => lt_irrefl i ((hcut i _ hat).mpr h)
    rw [hm.cells, hat, map_some]
    refine ⟨i, _, rfl, hi, hcut, ?_⟩
    rcases heq : keyEq comp l[i].1 k with _ | _
    · have hfirst : comp k l[i].1 = true := by simpa [keyEq, hnot] using heq
      have hafter : ∀ j e, l[j]? = some e → i ≤ j → comp k e.1 = true := fun j e he hj => by
        rcases Nat.eq_or_lt_of_le hj with rfl | hj
        · cases hat.symm.trans he
          exact hfirst
        · exact hc.trans _ _ _ hfirst (sorted_lt hs hj hat he)
      exact .inr ⟨rfl, hnone hafter, hafter⟩
    · refine .inl ⟨rfl, ⟨l[i], hat, mem_of_getElem? hat, heq⟩, fun j e he hj => ?_⟩
      exact (hc.weak _ k _ (sorted_lt hs hj hat he)).resolve_left (by rw [hnot]; exact Bool.false_ne_true)
  · have hafter : ∀ j e, l[j]? = some e → i ≤ j → comp k e.1 = true := fun j e he hj => by
      rw [getElem?_eq_none (by omega)] at he
      cases he
    exact ⟨i, false, rfl, hi, hcut, .inr ⟨rfl, hnone hafter, hafter⟩⟩

/-! ### Insertion and removal -/

lemma sorted_insertIdx (hs : Sorted comp l) {kv : K × V} (hbefore : ∀ j e, l[j]? = some e → j < i → comp e.1 kv.1)
    (hafter : ∀ j e, l[j]? = some e → i ≤ j → comp kv.1 e.1) : Sorted comp (l.insertIdx i kv) := by
  refine pairwise_iff_getElem.mpr fun a b ha hb hab => ?_
  have h1 := getElem?_eq_getElem ha
  have h2 := getElem?_eq_getElem hb
  rw [getElem?_insertIdx] at h1 h2
  split_ifs at h1 h2
  any_goals omega
  · exact sorted_lt hs hab h1 h2
  · exact Option.some.inj h2 ▸ hbefore a _ h1 ‹_›
  · exact sorted_lt hs (by omega) h1 h2
  · exact Option.some.inj h1 ▸ hafter _ _ h2 (by omega)
  · exact sorted_lt hs (by omega) h1 h2

variable (hc : StrictWeak comp) (hm : m.Holds l) (hs : Sorted comp l)
include hc hm hs

lemma insertEntry_does (kv : K × V) : ∃ r m' l', insertEntry comp m kv = some (r, m') ∧ m'.Holds l' ∧
    Sorted comp l' ∧ Inserts comp l kv r l' := by
  obtain ⟨i, b, hloc, hi, hcut, ⟨rfl, ⟨e, he, hhas⟩, -⟩ | ⟨rfl, hnone, hafter⟩⟩ := locate_spec hc hm hs kv.1
  · exact ⟨(i, false), m, l, by rw [insertEntry, hloc]; rfl, hm, hs, .inl ⟨e, hhas, he, rfl, rfl⟩⟩
  · obtain ⟨m', hins, hm'⟩ := insert_spec hm hi (show Storage.read _ (.value kv) = some kv from rfl)
    refine ⟨(i, true), m', _, by rw [insertEntry, hloc]; simp [hins], hm',
      sorted_insertIdx hs (fun j e he => (hcut j e he).mp) hafter, .inr ⟨hnone, rfl, ?_, fun e => mem_insertIdx hi⟩⟩
    rw [getElem?_insertIdx, if_neg (lt_irrefl i), if_pos rfl, if_pos hi]

lemma eraseKey_does [Inhabited V] (k : K) : ∃ r m' l', step comp m (.eraseKey k) = some
    (r, m') ∧ m'.Holds l' ∧ Sorted comp l' ∧
    (Op.eraseKey k).Does comp l r l' := by
  obtain ⟨i, b, hloc, hi, hcut, ⟨rfl, ⟨e, he, hhas⟩, hafter⟩ | ⟨rfl, hnone, hafter⟩⟩ := locate_spec hc hm hs k
  · have hlt := (List.getElem?_eq_some_iff.mp he).1
    refine ⟨(1, false), _, l.eraseIdx i, by rw [step, hloc]; rfl, erase_holds hm hlt,
      hs.sublist (eraseIdx_sublist ..), .inl ⟨rfl, e, hhas⟩, fun e' => ?_⟩
    rw [mem_eraseIdx_iff_getElem?]
    constructor
    · rintro ⟨j, hj, he'⟩
      refine ⟨mem_of_getElem? he', Bool.eq_false_iff.mpr fun heq => ?_⟩
      obtain ⟨h1, h2⟩ := keyEq_iff.mp heq
      rcases Nat.lt_or_gt_of_ne hj with hj | hj
      · exact Bool.false_ne_true (h1.symm.trans ((hcut j e' he').mp hj))
      · exact Bool.false_ne_true (h2.symm.trans (hafter j e' he' hj))
    · rintro ⟨hmem, hne⟩
      obtain ⟨j, he'⟩ := mem_iff_getElem?.mp hmem
      refine ⟨j, fun hj => ?_, he'⟩
      cases (hj ▸ he').symm.trans he
      exact Bool.false_ne_true (hne.symm.trans hhas.2)
  · refine ⟨(0, false), m, l, by rw [step, hloc]; rfl, hm, hs, .inr ⟨rfl, hnone⟩, fun e => ⟨fun h => ⟨h, ?_⟩, And.left⟩⟩
    exact Bool.eq_false_iff.mpr fun heq => hnone e ⟨h, heq⟩

lemma step_does [Inhabited V] (op : Op K V) (hv : op.Valid (some m)) : ∃ r m' l', step comp m op = some
    (r, m') ∧ m'.Holds l' ∧
    Sorted comp l' ∧ op.Does comp l r l' := by
  cases op with
  | insert kv => exact insertEntry_does hc hm hs kv
  | index k => exact insertEntry_does hc hm hs (k, default)
  | eraseKey k => exact eraseKey_does hc hm hs k
  | eraseAt i =>
    exact ⟨(i, false), _, _, rfl, erase_holds hm (hm.size ▸ hv), hs.sublist (eraseIdx_sublist ..), rfl, rfl⟩
  | find k =>
    obtain ⟨i, b, hloc, -, -, ⟨rfl, ⟨e, he, hhas⟩, -⟩ | ⟨rfl, hnone, -⟩⟩ := locate_spec hc hm hs k
    · exact ⟨(i, false), m, l, by rw [step, hloc]; rfl, hm, hs, rfl, .inl ⟨e, hhas, he⟩⟩
    · exact ⟨(m.size, false), m, l, by rw [step, hloc]; rfl, hm, hs, rfl, .inr ⟨hm.size, hnone⟩⟩
  | count k =>
    obtain ⟨i, b, hloc, -, -, ⟨rfl, ⟨e, -, hhas⟩, -⟩ | ⟨rfl, hnone, -⟩⟩ := locate_spec hc hm hs k
    · exact ⟨(1, false), m, l, by rw [step, count, hloc]; rfl, hm, hs, rfl, .inl ⟨rfl, e, hhas⟩⟩
    · exact ⟨(0, false), m, l, by rw [step, count, hloc]; rfl, hm, hs, rfl, .inr ⟨rfl, hnone⟩⟩
  | lowerBound k =>
    obtain ⟨i, b, hloc, hi, hcut, -⟩ := locate_spec hc hm hs k
    exact ⟨(i, false), m, l, by rw [step, hloc]; rfl, hm, hs, rfl, hi, hcut⟩
  | upperBound k =>
    obtain ⟨i, b, hloc, hi, hcut, hb⟩ := locate_spec hc hm hs k
    have hle : ∀ j e, l[j]? = some e → comp k e.1 = true → i ≤ j := fun j e he hlt => by
      by_contra hj
      exact Bool.false_ne_true ((hc.irrefl k).symm.trans (hc.trans _ _ _ hlt ((hcut j e he).mp (by omega))))
    rcases hb with ⟨rfl, ⟨e, he, hhas⟩, hafter⟩ | ⟨rfl, -, hafter⟩
    · refine ⟨(i + 1, false), m, l, by rw [step, hloc]; rfl, hm, hs, rfl, (List.getElem?_eq_some_iff.mp he).1,
        fun j e' he' => ⟨hafter j e' he', fun hlt => Nat.lt_of_le_of_ne (hle j e' he' hlt) fun hij => ?_⟩⟩
      cases (hij ▸ he').symm.trans he
      exact Bool.false_ne_true ((keyEq_iff.mp hhas.2).2.symm.trans hlt)
    · exact ⟨(i, false), m, l, by rw [step, hloc]; rfl, hm, hs, rfl, hi, fun j e he => ⟨hafter j e he, hle j e he⟩⟩

end

/-- After any operations the vector is sorted, and every operation does what it does to the finite map. -/
theorem map_refines [Inhabited V] (hc : StrictWeak comp) (ops : List (Op K V))
    (h : Along (next comp) Op.Valid (some {}) ops) :
    ∃ (m : Storage (K × V)) (l : _), run (next comp) (some {}) ops = some m ∧ m.Holds l ∧ Sorted comp l ∧
      ∀ op : Op K V, op.Valid (some m) → ∃ r m' l', step comp m op = some (r, m') ∧ m'.Holds l' ∧ Sorted comp l' ∧
        op.Does comp l r l' := by
  have hrun : ∃ (m : Storage (K × V)) (l : _), run (next comp) (some {}) ops = some m ∧ m.Holds l ∧ Sorted comp l := by
    refine run_invariant (I := fun s => ∃ (m : Storage (K × V)) (l : _), s = some m ∧ m.Holds l ∧ Sorted comp l) ?_
      ⟨{}, [], rfl, ⟨fun _ => rfl, rfl⟩, List.Pairwise.nil⟩ h
    rintro _ op ⟨m, l, rfl, hm, hs⟩ hv
    obtain ⟨r, m', l', hstep, hm', hs', -⟩ := step_does hc hm hs op hv
    exact ⟨m', l', by rw [next, bind_some, hstep]; rfl, hm', hs'⟩
  obtain ⟨m, l, hm, hl, hs⟩ := hrun
  exact ⟨m, l, hm, hl, hs, step_does hc hl hs⟩

theorem map_refines_two : ∃ (m : Storage (Nat × Nat)) (l : _),
    run (next fun a b : Nat => decide (a < b)) (some {}) [.insert (2, 5), .index 1] = some m ∧
    m.Holds l ∧ Sorted (fun a b => decide (a < b)) l := by
  obtain ⟨m, l, hrun, hm, hs, -⟩ := map_refines (V := Nat) (fun a b : Nat => decide (a < b))
    ⟨fun a => by simp, fun a b c => by simpa using Nat.lt_trans, fun a b c h => by simp at h ⊢; omega⟩
    [.insert (2, 5), .index 1] ⟨trivial, trivial, trivial⟩
  exact ⟨m, l, hrun, hm, hs⟩

/-! ### The multimap

`std::multimap` is the map with another `equal_range`: an entry whose key is there already is not inserted. -/

/-- Any calls of `insert` and `emplace`, on the empty multimap. -/
def insertAll (kvs : List (K × V)) : Option (Storage (K × V)) :=
  run (fun m kv => m.bind fun m => (insertEntry comp m kv).map Prod.snd) (some {}) kvs

/-- Source: `user/libc/include/map` `multimap::equal_range` -/
def equalRange (m : Storage (K × V)) (k : K) : Option (Nat × Nat) :=
  (locate comp m k).map fun r => if r.2 then (r.1, r.1 + 1) else (m.size, m.size)

section multimap

variable {comp} {m : Storage (K × V)} {l : List (K × V)} (hc : StrictWeak comp)
include hc

lemma Sorted.nodup (hs : Sorted comp l) : l.Nodup :=
  hs.imp fun {a b} hab (heq : a = b) => Bool.false_ne_true ((hc.irrefl b.1).symm.trans (heq ▸ hab))

lemma equalRange_spec (hm : m.Holds l) (hs : Sorted comp l) (k : K) : ∃ i j, equalRange comp m k = some (i, j) ∧
    (l.take j).drop i = l.filter (keyEq comp ·.1 k) ∧ count comp m k = some (l.filter (keyEq comp ·.1 k)).length := by
  obtain ⟨i, b, hloc, hi, hcut, ⟨rfl, ⟨e, he, hhas⟩, hafter⟩ | ⟨rfl, hnone, -⟩⟩ := locate_spec hc hm hs k
  · have hfilter : l.filter (keyEq comp ·.1 k) = [e] := by
      refine perm_singleton.mp ((perm_ext_iff_of_nodup ((hs.nodup hc).filter _) (nodup_singleton e)).mpr fun e' => ?_)
      rw [mem_filter, mem_singleton]
      refine ⟨fun ⟨hmem, heq⟩ => ?_, fun h => h ▸ hhas⟩
      obtain ⟨j, he'⟩ := mem_iff_getElem?.mp hmem
      obtain ⟨h1, h2⟩ := keyEq_iff.mp heq
      rcases Nat.lt_trichotomy j i with hj | rfl | hj
      · exact absurd ((hcut j e' he').mp hj) (by rw [h1]; exact Bool.false_ne_true)
      · exact Option.some.inj (he'.symm.trans he)
      · exact absurd (hafter j e' he' hj) (by rw [h2]; exact Bool.false_ne_true)
    obtain ⟨hlt, rfl⟩ := List.getElem?_eq_some_iff.mp he
    refine ⟨i, i + 1, by rw [equalRange, hloc]; rfl, ?_, by rw [count, hloc, hfilter]; rfl⟩
    rw [hfilter, drop_take, Nat.add_sub_cancel_left, drop_eq_getElem_cons hlt]
    rfl
  · have hfilter : l.filter (keyEq comp ·.1 k) = [] := filter_eq_nil_iff.mpr fun e he heq => hnone e ⟨he, heq⟩
    refine ⟨m.size, m.size, by rw [equalRange, hloc]; rfl, ?_, by rw [count, hloc, hfilter]; rfl⟩
    rw [hfilter, hm.size, drop_take, Nat.sub_self, take_zero]

omit hc in
lemma Sorted.distinct {kvs : List (K × V)} (hs : Sorted comp l) (hl : l.Perm kvs) :
    kvs.Pairwise fun a b => keyEq comp a.1 b.1 = false :=
  (hs.imp fun {a b} hab => by simp [keyEq, hab]).perm hl fun {a b} hab => by
    rw [keyEq, Bool.and_comm]
    exact hab

lemma insertAll_spec (kvs : List (K × V)) (hm : m.Holds l) (hs : Sorted comp l) : ∃ (m' : Storage (K × V)) (l' : _),
      run (fun m kv => m.bind fun m => (insertEntry comp m kv).map Prod.snd) (some m) kvs = some m' ∧ m'.Holds l' ∧
        Sorted comp l' ∧ l' ⊆ l ++ kvs ∧
        ((l ++ kvs).Pairwise (fun a b => keyEq comp a.1 b.1 = false) → l'.Perm (l ++ kvs)) := by
  induction kvs generalizing m l with
  | nil => exact ⟨m, l, rfl, hm, hs, by simp, fun _ => by rw [append_nil]⟩
  | cons kv kvs ih =>
    obtain ⟨r, m1, l1, hins, hm1, hs1, ⟨e, ⟨he, heq⟩, -, -, rfl⟩ | ⟨-, -, -, hmem⟩⟩ := insertEntry_does hc hm hs kv
    · obtain ⟨m', l', hrun, hm', hs', hsub, -⟩ := ih hm1 hs1
      refine ⟨m', l', by rw [run_cons, bind_some, hins]; exact hrun, hm', hs', fun e' h' => ?_, fun h => ?_⟩
      · have := hsub h'
        simp only [mem_append, mem_cons] at this ⊢
        tauto
      · exact absurd heq (by rw [(pairwise_append.mp h).2.2 e he kv mem_cons_self]; exact Bool.false_ne_true)
    · obtain ⟨m', l', hrun, hm', hs', hsub, hl'⟩ := ih hm1 hs1
      refine ⟨m', l', by rw [run_cons, bind_some, hins]; exact hrun, hm', hs', fun e' h' => ?_, fun h => ?_⟩
      · have := hsub h'
        simp only [mem_append, mem_cons, hmem] at this ⊢
        tauto
      · have hkv : kv ∉ l := fun hkv => absurd ((pairwise_append.mp h).2.2 kv hkv kv mem_cons_self)
          (by simp [keyEq, hc.irrefl])
        have hperm : l1.Perm (kv :: l) :=
          (perm_ext_iff_of_nodup (hs1.nodup hc) (nodup_cons.mpr ⟨hkv, hs.nodup hc⟩)).mpr fun e => by
            rw [hmem, mem_cons]
        have hall : (l1 ++ kvs).Perm (l ++ kv :: kvs) := (hperm.append_right kvs).trans perm_middle.symm
        exact (hl' (h.perm hall.symm fun {a b} hab => by rw [keyEq, Bool.and_comm]; exact hab)).trans hall

end multimap

/-- The map is sorted and `equal_range` and `count` find what is in it; all inserted pairs are in it exactly when
their keys all differ. -/
theorem multimap_keeps (hc : StrictWeak comp) (kvs : List (K × V)) :
    ∃ (m : Storage (K × V)) (l : _), insertAll comp kvs = some m ∧ m.Holds l ∧ Sorted comp l ∧
      (∀ k, ∃ i j, equalRange comp m k = some (i, j) ∧ (l.take j).drop i = l.filter (keyEq comp ·.1 k) ∧
        count comp m k = some (l.filter (keyEq comp ·.1 k)).length) ∧
      (l.Perm kvs ↔ kvs.Pairwise fun a b => keyEq comp a.1 b.1 = false) ∧
      (m.size = kvs.length ↔ kvs.Pairwise fun a b => keyEq comp a.1 b.1 = false) := by
  obtain ⟨m, l, hrun, hm, hs, hsub, hl⟩ := insertAll_spec hc (m := {}) (l := []) kvs ⟨fun _ => rfl, rfl⟩ .nil
  refine ⟨m, l, hrun, hm, hs, equalRange_spec hc hm hs, ⟨hs.distinct, hl⟩, fun hsize => ?_, fun h => ?_⟩
  · have hlen : kvs.length ≤ l.length := (hsize.symm.trans hm.size).le
    exact hs.distinct ((subperm_of_subset (hs.nodup hc) hsub).perm_of_length_le hlen)
  · exact hm.size.trans (hl h).length_eq

theorem multimap_keeps_two : ∃ m : Storage (Nat × Nat),
    insertAll (fun a b : Nat => decide (a < b)) [(2, 5), (1, 6)] = some m ∧ m.size = 2 := by
  obtain ⟨m, l, hrun, -, -, -, -, hsize⟩ := multimap_keeps (fun a b : Nat => decide (a < b))
    ⟨fun a => by simp, fun a b c => by simpa using Nat.lt_trans, fun a b c h => by simp at h ⊢; omega⟩
    [(2, 5), (1, 6)]
  exact ⟨m, hrun, hsize.mpr (by decide)⟩

/-- The second pair with a key is lost. -/
theorem multimap_loses : (insertAll (fun a b : Nat => decide (a < b)) [(1, 5), (1, 6)]).map (·.size) = some 1 := by
  decide

end VibeOS.OrderedMap
