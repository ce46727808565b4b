import Mathlib

/-!
# Directory forests

A `Forest` is a set of used nodes, some of them directories; a directory has a link list and an
`up` pointer. `Forest.Ok f root` says that links lead to used nodes, that no node is linked twice
and that the `up` pointer of a linked directory leads back to the directory that links it.
`Attached` is reachability from the root, and `Full` says that nothing used is cut off.

The changes are `alloc` (a fresh node nobody links to yet), `link`, `cut` (remove the link to a node) and `drop`
(free a node). Each keeps the invariant, and `Full` survives allocating and linking a node, and removing a leaf.
`Sim` is equality up to the order of links and up to what unused nodes hold; an implementation is compared with the
forest through it.
-/

namespace VibeOS

open List

/-- Nodes, directories among them, and their links. -/
structure Forest (α ν : Type*) where
  used : α → Bool
  isDir : α → Bool
  up : α → α
  links : α → List (ν × α)

namespace Forest

variable {α ν : Type*} {f f' : Forest α ν} {root : α}

def targets (f : Forest α ν) (d : α) : List α := (f.links d).map Prod.snd

def Dir (f : Forest α ν) (d : α) : Prop := f.used d = true ∧ f.isDir d = true

/-- Links lead to used nodes, at most one to each and none to the root; `up` says where the link to a directory is. -/
structure Ok (f : Forest α ν) (root : α) : Prop where
  root_dir : f.Dir root
  root_up : f.up root = root
  link_used : ∀ d e, f.Dir d → e ∈ f.links d → f.used e.2 = true ∧ e.2 ≠ root
  nodup : ∀ d, f.Dir d → (f.targets d).Nodup
  disjoint : ∀ d d', f.Dir d → f.Dir d' → d ≠ d' → List.Disjoint (f.targets d) (f.targets d')
  up_link : ∀ d e, f.Dir d → e ∈ f.links d → f.isDir e.2 = true → f.up e.2 = d

/-- The nodes that the links lead to from the root. -/
inductive Attached (f : Forest α ν) (root : α) : α → Prop where
  | root : Attached f root root
  | link {d : α} {e : ν × α} : Attached f root d → f.Dir d → e ∈ f.links d → Attached f root e.2

/-- Nothing in use is cut off from the root. -/
def Full (f : Forest α ν) (root : α) : Prop := ∀ x, f.used x = true → f.Attached root x

lemma mem_targets {d : α} {e : ν × α} (h : e ∈ f.links d) : e.2 ∈ f.targets d :=
  mem_map_of_mem h

lemma Ok.linker_unique (h : f.Ok root) {d d' : α} {e e' : ν × α} (hd : f.Dir d)
    (hd' : f.Dir d') (he : e ∈ f.links d) (he' : e' ∈ f.links d') (heq : e.2 = e'.2) : d = d' := by
  by_contra hne
  exact h.disjoint d d' hd hd' hne (mem_targets he) (heq ▸ mem_targets he')

lemma Ok.used_of_attached (h : f.Ok root) {x : α} (hx : f.Attached root x) : f.used x = true := by
  cases hx with
  | root => exact h.root_dir.1
  | link _ hd he => exact (h.link_used _ _ hd he).1

lemma Ok.attached_up (h : f.Ok root) {x : α} (hx : f.Attached root x) (hdir : f.isDir x) :
    f.Attached root (f.up x) := by
  cases hx with
  | root => rw [h.root_up]; exact .root
  | link hd hdd he => rw [h.up_link _ _ hdd he hdir]; exact hd

lemma Ok.ne_of_attached (h : f.Ok root) {x : α} (hx : f.Attached root x) (hdir : f.Dir x)
    {e : ν × α} (he : e ∈ f.links x) : e.2 ≠ x := by
  induction hx generalizing e with
  | root => exact (h.link_used _ e hdir he).2
  | @link d e' _ hd he' ih =>
    intro heq
    have hed : e'.2 = d := h.linker_unique hdir hd he he' heq
    exact ih hd he' hed

lemma ok_of_lone (hused : ∀ x, f.used x ↔ x = root) (hdir : f.isDir root)
    (hup : f.up root = root) (hlinks : f.links root = []) : f.Ok root ∧ f.Full root := by
  have honly : ∀ {d}, f.Dir d → d = root := fun hd => (hused _).mp hd.1
  have hnil : ∀ {d}, f.Dir d → f.links d = [] := fun hd => by rw [honly hd, hlinks]
  refine ⟨⟨⟨(hused root).mpr rfl, hdir⟩, hup, fun d e hd he => ?_, fun d hd => ?_,
    fun d d' hd hd' hne => ?_, fun d e hd he _ => ?_⟩, fun x hx => ?_⟩
  · rw [hnil hd] at he
    cases he
  · rw [targets, hnil hd]
    exact nodup_nil
  · exact absurd ((honly hd).trans (honly hd').symm) hne
  · rw [hnil hd] at he
    cases he
  · rw [(hused x).mp hx]
    exact .root

/-! ### Equality up to order -/

/-- The same tree, with the links of a directory in any order. -/
structure Sim (f f' : Forest α ν) : Prop where
  used : ∀ x, f'.used x = f.used x
  isDir : ∀ x, f.used x = true → f'.isDir x = f.isDir x
  up : ∀ d, f.Dir d → f'.up d = f.up d
  links : ∀ d, f.Dir d → (f'.links d).Perm (f.links d)

lemma Sim.dir (h : Sim f f') {d : α} : f'.Dir d ↔ f.Dir d := by
  constructor
  · rintro ⟨h1, h2⟩
    rw [h.used] at h1
    rw [h.isDir d h1] at h2
    exact ⟨h1, h2⟩
  · rintro ⟨h1, h2⟩
    exact ⟨by rw [h.used, h1], by rw [h.isDir d h1, h2]⟩

lemma Sim.mem_links (h : Sim f f') {d : α} (hd : f.Dir d) {e : ν × α} :
    e ∈ f'.links d ↔ e ∈ f.links d := (h.links d hd).mem_iff

lemma Sim.targets (h : Sim f f') {d : α} (hd : f.Dir d) :
    (f'.targets d).Perm (f.targets d) := (h.links d hd).map Prod.snd

lemma Sim.trans {f'' : Forest α ν} (h1 : Sim f f') (h2 : Sim f' f'') : Sim f f'' where
  used x := by rw [h2.used, h1.used]
  isDir x hx := by rw [h2.isDir x (by rw [h1.used, hx]), h1.isDir x hx]
  up d hd := by rw [h2.up d (h1.dir.mpr hd), h1.up d hd]
  links d hd := (h2.links d (h1.dir.mpr hd)).trans (h1.links d hd)

lemma Ok.of_sim (h : f.Ok root) (hs : Sim f f') : f'.Ok root where
  root_dir := hs.dir.mpr h.root_dir
  root_up := by rw [hs.up root h.root_dir, h.root_up]
  link_used d e hd he := by
    rw [hs.dir] at hd
    rw [hs.mem_links hd] at he
    rw [hs.used]
    exact h.link_used d e hd he
  nodup d hd := by
    rw [hs.dir] at hd
    exact (hs.targets hd).nodup_iff.mpr (h.nodup d hd)
  disjoint d d' hd hd' hne := by
    rw [hs.dir] at hd hd'
    intro x hx hx'
    exact h.disjoint d d' hd hd' hne ((hs.targets hd).mem_iff.mp hx) ((hs.targets hd').mem_iff.mp hx')
  up_link d e hd he hdir := by
    rw [hs.dir] at hd
    rw [hs.mem_links hd] at he
    have hu := (h.link_used d e hd he).1
    rw [hs.isDir _ hu] at hdir
    rw [hs.up _ ⟨hu, hdir⟩]
    exact h.up_link d e hd he hdir

lemma Attached.of_sim (hs : Sim f f') {x : α} (h : f.Attached root x) : f'.Attached root x := by
  induction h with
  | root => exact .root
  | link _ hd he ih => exact .link ih (hs.dir.mpr hd) ((hs.mem_links hd).mpr he)

lemma Full.of_sim (h : f.Full root) (hs : Sim f f') : f'.Full root := fun x hx =>
  (h x (by rw [← hs.used]; exact hx)).of_sim hs

def Unlinked (f : Forest α ν) (t : α) : Prop := ∀ d e, f.Dir d → e ∈ f.links d → e.2 ≠ t

lemma Ok.unlinked_of_unused (h : f.Ok root) {t : α} (ht : f.used t = false) : f.Unlinked t := by
  rintro d e hd he rfl
  rw [(h.link_used d e hd he).1] at ht
  cases ht

lemma Unlinked.of_sim {t : α} (h : f.Unlinked t) (hs : Sim f f') : f'.Unlinked t := by
  intro d e hd he
  rw [hs.dir] at hd
  exact h d e hd ((hs.mem_links hd).mp he)

lemma Ok.ne_of_unused (h : f.Ok root) {n : α} (hn : f.used n = false) : root ≠ n := by
  rintro rfl
  rw [h.root_dir.1] at hn
  cases hn

lemma Unlinked.not_mem_targets {t d : α} (h : f.Unlinked t) (hd : f.Dir d) : t ∉ f.targets d := by
  intro hmem
  obtain ⟨e, he, het⟩ := mem_map.mp hmem
  exact h d e hd he het

/-! ### Allocating, linking, cutting and dropping -/

variable [DecidableEq α]

variable (f)

/-- A fresh node `n`, with an `up` pointer to `p` if it is a directory. -/
def alloc (n : α) (dir : Bool) (p : α) : Forest α ν where
  used x := decide (x = n) || f.used x
  isDir x := if x = n then dir else f.isDir x
  up x := if x = n then p else f.up x
  links x := if x = n then [] else f.links x

def link (p : α) (a : ν) (n : α) : Forest α ν :=
  { f with links := fun x => if x = p then (a, n) :: f.links p else f.links x }

def cut (p t : α) : Forest α ν :=
  { f with links := fun x => if x = p then (f.links p).filter (·.2 ≠ t) else f.links x }

def drop (t : α) : Forest α ν :=
  { f with used := fun x => decide (x ≠ t) && f.used x }

variable {f}

section alloc

variable {p n : α} {dir : Bool}

lemma dir_alloc_of_ne {d : α} (hd : d ≠ n) : (f.alloc n dir p).Dir d ↔ f.Dir d := by
  simp [Dir, alloc, hd]

lemma links_alloc_of_ne {d : α} (hd : d ≠ n) : (f.alloc n dir p).links d = f.links d := by
  simp [alloc, hd]

lemma mem_links_alloc {d : α} {e : ν × α} : e ∈ (f.alloc n dir p).links d ↔ d ≠ n ∧ e ∈ f.links d := by
  by_cases hdn : d = n <;> simp [alloc, hdn]

lemma Ok.alloc (h : f.Ok root) (hn : f.used n = false) : (f.alloc n dir p).Ok root := by
  have hrn := h.ne_of_unused hn
  have hold : f.Unlinked n := h.unlinked_of_unused hn
  have htargets : ∀ d, d ≠ n → (f.alloc n dir p).targets d = f.targets d := fun d hd => by
    rw [targets, links_alloc_of_ne hd, targets]
  have hempty : (f.alloc n dir p).targets n = [] := by simp [targets, Forest.alloc]
  constructor
  case root_dir => exact (dir_alloc_of_ne hrn).mpr h.root_dir
  case root_up => simp [Forest.alloc, hrn, h.root_up]
  case link_used =>
    intro d e hd he
    obtain ⟨hdn, he⟩ := mem_links_alloc.mp he
    have := h.link_used d e ((dir_alloc_of_ne hdn).mp hd) he
    exact ⟨by simp [Forest.alloc, this.1], this.2⟩
  case nodup =>
    intro d hd
    by_cases hdn : d = n
    · rw [hdn, hempty]
      exact nodup_nil
    · rw [htargets d hdn]
      exact h.nodup d ((dir_alloc_of_ne hdn).mp hd)
  case disjoint =>
    intro d d' hd hd' hne
    by_cases hdn : d = n
    · rw [hdn, hempty]
      exact disjoint_nil_left _
    by_cases hdn' : d' = n
    · rw [hdn', hempty]
      exact disjoint_nil_right _
    rw [htargets d hdn, htargets d' hdn']
    exact h.disjoint d d' ((dir_alloc_of_ne hdn).mp hd) ((dir_alloc_of_ne hdn').mp hd') hne
  case up_link =>
    intro d e hd he hdir
    obtain ⟨hdn, he⟩ := mem_links_alloc.mp he
    rw [dir_alloc_of_ne hdn] at hd
    have hen := hold d e hd he
    simp only [Forest.alloc, hen, if_false] at hdir ⊢
    exact h.up_link d e hd he hdir

lemma Ok.unlinked_alloc (h : f.Ok root) (hn : f.used n = false) : (f.alloc n dir p).Unlinked n := by
  intro d e hd he
  obtain ⟨hdn, he⟩ := mem_links_alloc.mp he
  exact h.unlinked_of_unused hn d e ((dir_alloc_of_ne hdn).mp hd) he

end alloc

section link

variable {p n : α} {a : ν}

lemma mem_links_link {d : α} {e : ν × α} : e ∈ (f.link p a n).links d ↔ e ∈ f.links d ∨ d = p ∧ e = (a, n) := by
  by_cases hdp : d = p
  · subst hdp
    simp [link, or_comm]
  · simp [link, hdp]

lemma targets_link (d : α) : (f.link p a n).targets d = if d = p then n :: f.targets p else f.targets d := by
  simp only [targets, link]
  split_ifs <;> rfl

lemma Ok.link (h : f.Ok root) (hp : f.Dir p) (hn : f.used n) (hnr : n ≠ root)
    (hno : f.Unlinked n) (hup : f.isDir n → f.up n = p) : (f.link p a n).Ok root where
  root_dir := h.root_dir
  root_up := h.root_up
  link_used d e hd he := by
    rcases mem_links_link.mp he with he | ⟨-, rfl⟩
    · exact h.link_used d e hd he
    · exact ⟨hn, hnr⟩
  nodup d hd := by
    rw [targets_link]
    split_ifs with hdp
    · exact nodup_cons.mpr ⟨hno.not_mem_targets hp, h.nodup p hp⟩
    · exact h.nodup d hd
  disjoint d d' hd hd' hne := by
    have hdis := h.disjoint d d' hd hd' hne
    rw [targets_link, targets_link]
    split_ifs with h1 h2 h2
    · exact absurd (h1.trans h2.symm) hne
    · rw [h1] at hdis
      exact disjoint_cons_left.mpr ⟨hno.not_mem_targets hd', hdis⟩
    · rw [h2] at hdis
      exact disjoint_cons_right.mpr ⟨hno.not_mem_targets hd, hdis⟩
    · exact hdis
  up_link d e hd he hdir := by
    rcases mem_links_link.mp he with he | ⟨rfl, rfl⟩
    · exact h.up_link d e hd he hdir
    · exact hup hdir

lemma Sim.link (h : Sim f f') (hp : f.Dir p) : Sim (f.link p a n) (f'.link p a n) where
  used := h.used
  isDir := h.isDir
  up := h.up
  links d hd := by
    simp only [Forest.link]
    split_ifs
    · exact (h.links p hp).cons _
    · exact h.links d hd

lemma Full.alloc_link (h : f.Full root) (hp : f.Dir p) (hn : f.used n = false) {dir : Bool} :
    ((f.alloc n dir p).link p a n).Full root := by
  have hne : ∀ {d}, f.Dir d → d ≠ n := by
    rintro d hd rfl
    rw [hd.1] at hn
    cases hn
  have hatt : ∀ x, f.Attached root x → ((f.alloc n dir p).link p a n).Attached root x := by
    intro x hx
    induction hx with
    | root => exact .root
    | link _ hd he ih =>
      exact .link ih ((dir_alloc_of_ne (p := p) (hne hd)).mpr hd)
        (mem_links_link.mpr (.inl (mem_links_alloc.mpr ⟨hne hd, he⟩)))
  intro x hx
  by_cases hxn : x = n
  · subst hxn
    exact .link (e := (a, x)) (hatt p (h p hp.1)) ((dir_alloc_of_ne (p := p) (hne hp)).mpr hp)
      (mem_links_link.mpr (.inr ⟨rfl, rfl⟩))
  · have : f.used x = true := by simpa [Forest.alloc, Forest.link, hxn] using hx
    exact hatt x (h x this)

end link

section cut

variable {p t : α}

lemma mem_links_cut {d : α} {e : ν × α} : e ∈ (f.cut p t).links d ↔ e ∈ f.links d ∧ (d = p → e.2 ≠ t) := by
  by_cases hdp : d = p
  · subst hdp
    simp [cut]
  · simp [cut, hdp]

lemma targets_cut_sublist (d : α) : List.Sublist ((f.cut p t).targets d) (f.targets d) := by
  by_cases hdp : d = p
  · subst hdp
    simp only [targets, cut, if_true]
    exact filter_sublist.map _
  · simp [targets, cut, hdp]

lemma Ok.cut (h : f.Ok root) : (f.cut p t).Ok root where
  root_dir := h.root_dir
  root_up := h.root_up
  link_used d e hd he := h.link_used d e hd (mem_links_cut.mp he).1
  nodup d hd := (h.nodup d hd).sublist (targets_cut_sublist d)
  disjoint d d' hd hd' hne _ hx hx' := h.disjoint d d' hd hd' hne
    ((targets_cut_sublist d).subset hx) ((targets_cut_sublist d').subset hx')
  up_link d e hd he := h.up_link d e hd (mem_links_cut.mp he).1

lemma Ok.unlinked_cut (h : f.Ok root) (hp : f.Dir p) {a : ν} (ha : (a, t) ∈ f.links p) : (f.cut p t).Unlinked t := by
  intro d e hd he het
  rw [mem_links_cut] at he
  exact he.2 (h.linker_unique hd hp he.1 ha het) het

end cut

section drop

variable {t : α}

lemma dir_drop {d : α} : (f.drop t).Dir d ↔ d ≠ t ∧ f.Dir d := by
  simp [Dir, drop, and_assoc]

lemma Ok.drop (h : f.Ok root) (ht : t ≠ root) (hno : f.Unlinked t) : (f.drop t).Ok root where
  root_dir := dir_drop.mpr ⟨ht.symm, h.root_dir⟩
  root_up := h.root_up
  link_used d e hd he := by
    have hd := (dir_drop.mp hd).2
    have hu := h.link_used d e hd he
    exact ⟨by simp [Forest.drop, hu.1, hno d e hd he], hu.2⟩
  nodup d hd := h.nodup d (dir_drop.mp hd).2
  disjoint d d' hd hd' := h.disjoint d d' (dir_drop.mp hd).2 (dir_drop.mp hd').2
  up_link d e hd := h.up_link d e (dir_drop.mp hd).2

lemma Sim.drop (h : Sim f f') : Sim (f.drop t) (f'.drop t) where
  used x := by simp only [Forest.drop, h.used]
  isDir x hx := h.isDir x (by simpa using (Bool.and_eq_true _ _ ▸ hx : _ ∧ _).2)
  up d hd := h.up d (dir_drop.mp hd).2
  links d hd := h.links d (dir_drop.mp hd).2

lemma Full.cut_drop (h : f.Full root) {p : α} (ht : t ≠ root)
    (hleaf : f.isDir t → f.links t = []) : ((f.cut p t).drop t).Full root := by
  have hatt : ∀ x, f.Attached root x → x ≠ t → ((f.cut p t).drop t).Attached root x := by
    intro x hx
    induction hx with
    | root => exact fun _ => .root
    | @link d e _ hd he ih =>
      intro het
      have hdt : d ≠ t := by
        rintro rfl
        rw [hleaf hd.2] at he
        cases he
      exact .link (ih hdt) (dir_drop.mpr ⟨hdt, hd⟩) (mem_links_cut.mpr ⟨he, fun _ => het⟩)
  intro x hx
  have : x ≠ t ∧ f.used x = true := by simpa [Forest.drop, Forest.cut] using hx
  exact hatt x (h x this.2) this.1

end drop

end Forest

end VibeOS
