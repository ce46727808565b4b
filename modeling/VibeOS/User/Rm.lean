import Mathlib

/-!
# Removing a tree

`rm_recursive` on a directory as `readdir_at` lists it at each call. Every entry can be removed; `rmdir` is `unlink`,
which takes the name even of a directory that it then reports as not empty, so that what is left in it is in no
directory any more.

* `rm_removes`: exactly the trees without siblings are removed. Of two siblings the second is passed over
  (`sibling_left`).

Names are those of `user/rm.c`.
-/

namespace VibeOS.Rm

/-- A tree of files, as a name refers to it. -/
inductive Node where
  | file
  | dir (entries : List (List UInt8 × Node))

abbrev Entries := List (List UInt8 × Node)

/-- Whether `unlink` refuses a directory with the entries `left`: it counts those in the first block. -/
abbrev Refuses := Entries → Bool

/-- The status after `rmdir` of a directory with the entries `left`. -/
def rmdirStatus (refuses : Refuses) (force : Bool) (status : Nat) (left : Entries) : Nat :=
  if refuses left && !force then 1 else status

/-- The status, the entries that are left in the directory, and those that are in no directory any more. -/
abbrev Removal := Nat × Entries × Entries

/-- The loop over a directory whose path has `plen` bytes.
Source: `rm_recursive` -/
def rmLoop (refuses : Refuses) (force : Bool) : (fuel plen idx status : Nat) → Entries → Option Removal
  | 0, _, _, _, _ => none
  | fuel + 1, plen, idx, status, es =>
    match es[idx]? with
    | none => some (status, es, [])
    | some (name, node) =>
      if name = [46] ∨ name = [46, 46] then rmLoop refuses force fuel plen (idx + 1) status es
      else if plen + name.length + 2 > 512 then rmLoop refuses force fuel plen (idx + 1) 1 es
      else
        match node with
        | .file => rmLoop refuses force fuel plen (idx + 1) status (es.eraseIdx idx)
        | .dir sub =>
          (rmLoop refuses force fuel (plen + 1 + name.length) 0 0 sub).bind fun (result, left, lost) =>
            -- `rmdir` of the child takes its name in any case
            (rmLoop refuses force fuel plen (idx + 1) (if rmdirStatus refuses force result left = 0 then status else 1)
              (es.eraseIdx idx)).map fun (status, rest, more) => (status, rest, lost ++ left ++ more)

/-- The status, and the entries below `path` that were not removed. The name of `path` is gone in any case. -/
def rmRecursive (refuses : Refuses) (force : Bool) (fuel : Nat) (path : List UInt8) (es : Entries) :
    Option (Nat × Entries) :=
  (rmLoop refuses force fuel path.length 0 0 es).map fun (status, left, lost) =>
    (rmdirStatus refuses force status left, lost ++ left)

/-- A name other than `.` and `..` whose path has less than 512 bytes. -/
def NameOk (plen : Nat) (name : List UInt8) : Prop := ¬ (name = [46] ∨ name = [46, 46]) ∧ plen + name.length + 2 ≤ 512

/-- No directory has two entries. -/
inductive Narrow : Nat → Entries → Prop
  | empty (plen : Nat) : Narrow plen []
  | file {plen : Nat} {name : List UInt8} : NameOk plen name → Narrow plen [(name, .file)]
  | dir {plen : Nat} {name : List UInt8} {sub : Entries} : NameOk plen name → Narrow (plen + 1 + name.length) sub →
      Narrow plen [(name, .dir sub)]

variable {refuses : Refuses}

lemma rmLoop_narrow (hempty : refuses [] = false) (force : Bool) {plen : Nat} {es : Entries} (h : Narrow plen es) :
    ∃ n, ∀ fuel ≥ n, rmLoop refuses force fuel plen 0 0 es = some (0, [], []) := by
  induction h with
  | empty plen =>
    refine ⟨1, fun fuel hf => ?_⟩
    obtain _ | fuel := fuel
    · omega
    · rfl
  | @file plen name hname =>
    refine ⟨2, fun fuel hf => ?_⟩
    obtain _ | _ | fuel := fuel
    · omega
    · omega
    · simp [rmLoop, hname.1, hname.2]
  | @dir plen name sub hname _ ih =>
    obtain ⟨n, ih⟩ := ih
    refine ⟨n + 2, fun fuel hf => ?_⟩
    obtain _ | _ | fuel := fuel
    · omega
    · omega
    · have hsub := ih (fuel + 1) (by omega)
      have hrest : ∀ status, rmLoop refuses force (fuel + 1) plen 1 status [] = some (status, [], []) := fun _ => rfl
      rw [rmLoop]
      simp [hname.1, hname.2, hsub, hrest, rmdirStatus, hempty]

/-- The entries before the index are not looked at again. -/
lemma rmLoop_keeps {force : Bool} {fuel plen idx status st : Nat} {es left lost : Entries}
    (h : rmLoop refuses force fuel plen idx status es = some (st, left, lost)) : es.take idx <+: left := by
  induction fuel generalizing idx status es st lost with
  | zero => cases h
  | succ fuel ih =>
    have hskip {status : Nat} {lost : Entries}
        (h : rmLoop refuses force fuel plen (idx + 1) status es = some (st, left, lost)) :
        es.take idx <+: left := (List.take_prefix_take_left (Nat.le_succ idx)).trans (ih h)
    have herase {status : Nat} {lost : Entries}
        (h : rmLoop refuses force fuel plen (idx + 1) status (es.eraseIdx idx) = some (st, left, lost)) :
        es.take idx <+: left := by
      have hbefore := (List.take_prefix_take_left (Nat.le_succ idx)).trans (ih h)
      rwa [List.take_eraseIdx_eq_take_of_le _ _ _ le_rfl] at hbefore
    rw [rmLoop] at h
    split at h
    · cases h
      exact List.take_prefix idx _
    · split_ifs at h
      · exact hskip h
      · exact hskip h
      · split at h
        · exact herase h
        · obtain ⟨⟨result, left', lost'⟩, -, h⟩ := Option.bind_eq_some_iff.mp h
          obtain ⟨⟨st', rest, more⟩, hrest, heq⟩ := Option.map_eq_some_iff.mp h
          cases heq
          exact herase hrest

/-- A loop that starts behind the first entry leaves it. -/
lemma rmLoop_second {force : Bool} {fuel plen status st : Nat} {es lost : Entries}
    (h : rmLoop refuses force fuel plen 1 status es = some (st, [], lost)) : es = [] := by
  have := List.prefix_nil.mp (rmLoop_keeps h)
  simpa using this

lemma narrow_of_rmLoop {force : Bool} {fuel plen status st : Nat} {es : Entries}
    (h : rmLoop refuses force fuel plen 0 status es = some (st, [], [])) : Narrow plen es := by
  induction fuel generalizing plen status es st with
  | zero => cases h
  | succ fuel ih =>
    obtain _ | ⟨⟨name, node⟩, es⟩ := es
    · exact .empty plen
    rw [rmLoop] at h
    simp only [List.getElem?_cons_zero, List.eraseIdx_cons_zero] at h
    split_ifs at h with hdot hlong
    · cases rmLoop_second h
    · cases rmLoop_second h
    · have hname : NameOk plen name := ⟨hdot, by omega⟩
      cases node with
      | file =>
        obtain rfl := rmLoop_second h
        exact .file hname
      | dir sub =>
        obtain ⟨⟨result, left, lost⟩, hsub, h⟩ := Option.bind_eq_some_iff.mp h
        obtain ⟨⟨st', rest, more⟩, hrest, heq⟩ := Option.map_eq_some_iff.mp h
        simp only [Prod.mk.injEq, List.append_eq_nil_iff] at heq
        obtain ⟨-, rfl, ⟨rfl, rfl⟩, rfl⟩ := heq
        obtain rfl := rmLoop_second hrest
        exact .dir hname (ih hsub)

/-- Exactly the trees in which no directory has two entries are removed. -/
theorem rm_removes (refuses : Refuses) (hempty : refuses [] = false) (force : Bool) (path : List UInt8) (es : Entries) :
    (∃ n, ∀ fuel ≥ n, rmRecursive refuses force fuel path es = some (0, [])) ↔ Narrow path.length es := by
  refine ⟨fun ⟨n, hn⟩ => ?_, fun h => ?_⟩
  · obtain ⟨⟨status, left, lost⟩, hloop, heq⟩ := Option.map_eq_some_iff.mp (hn n le_rfl)
    simp only [Prod.mk.injEq, List.append_eq_nil_iff] at heq
    obtain ⟨-, rfl, rfl⟩ := heq
    exact narrow_of_rmLoop hloop
  · obtain ⟨n, hn⟩ := rmLoop_narrow hempty force h
    refine ⟨n, fun fuel hf => ?_⟩
    rw [rmRecursive, hn fuel hf]
    simp [rmdirStatus, hempty]

theorem rm_removes_nested :
    ∃ n, ∀ fuel ≥ n, rmRecursive (!·.isEmpty) false fuel [47, 97] [([98], .dir [([99], .file)])] = some (0, []) :=
  (rm_removes (!·.isEmpty) rfl false [47, 97] [([98], .dir [([99], .file)])]).mpr
    (.dir ⟨by decide, by decide⟩ (.file ⟨by decide, by decide⟩))

/-- With two files the index passes over the second: the status is 1 and the second file is in no directory. -/
theorem sibling_left :
    rmRecursive (!·.isEmpty) false 3 [47, 97] [([98], .file), ([99], .file)] = some (1, [([99], .file)]) ∧
    ∀ fuel, rmRecursive (!·.isEmpty) false fuel [47, 97] [([98], .file), ([99], .file)] ≠ some (0, []) := by
  refine ⟨rfl, fun fuel => ?_⟩
  obtain _ | _ | _ | fuel := fuel <;> nofun

end VibeOS.Rm
