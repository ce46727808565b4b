import VibeOS.Lib.Run
import Mathlib.Data.List.Nodup

/-!
# Exit handlers and the environment

The two tables of the C library's `stdlib.c`. `exit` walks the handlers down from the count it found, so what a handler
registers lands above the walk and is never called. The environment is a finite map at all times; its array has a null
pointer behind the last entry only while there is room for one.

Other names are those of `user/libc/stdlib.c`.
-/

namespace VibeOS.Stdlib

open List Option Function

/-! ### Exit handlers -/

def ATEXIT_MAX : Nat := 64

abbrev Handler := Nat

/-- The result and the handlers; a null pointer is `none`. -/
def atexit (handlers : List Handler) : Option Handler → Int × List Handler
  | none => (-1, handlers)
  | some func => if handlers.length ≥ ATEXIT_MAX then (-1, handlers) else (0, handlers ++ [func])

/-- The registrations of a part of the program, one after the other. -/
def atexits (handlers : List Handler) (funcs : List (Option Handler)) : List Handler :=
  funcs.foldl (fun handlers func => (atexit handlers func).2) handlers

/-- The loop of `exit`, with the handlers called so far; the program says what each call registers.
Source: `exit` -/
def exitLoop (program : List Handler → List (Option Handler)) : Nat → List Handler → List Handler →
    List Handler × List Handler
  | 0, handlers, called => (handlers, called)
  | i + 1, handlers, called =>
    match handlers[i]? with
    | some func => exitLoop program i (atexits handlers (program (called ++ [func]))) (called ++ [func])
    | none => exitLoop program i handlers called

/-- The handlers registered when `_exit` is called, and those called. -/
def exit (program : List Handler → List (Option Handler)) (handlers : List Handler) : List Handler × List Handler :=
  exitLoop program handlers.length handlers []

variable {handlers : List Handler} {program : List Handler → List (Option Handler)}

lemma atexits_append (handlers : List Handler) (funcs : List (Option Handler)) :
    ∃ more, atexits handlers funcs = handlers ++ more := by
  induction funcs generalizing handlers with
  | nil => exact ⟨[], (append_nil _).symm⟩
  | cons func funcs ih =>
    obtain ⟨more, hmore⟩ := ih (atexit handlers func).2
    change atexits (atexit handlers func).2 funcs = _ at hmore
    change ∃ more, atexits (atexit handlers func).2 funcs = _
    unfold atexit at hmore ⊢
    split at hmore
    · exact ⟨more, hmore⟩
    · split_ifs at hmore ⊢
      · exact ⟨more, hmore⟩
      · exact ⟨_, hmore.trans (append_assoc ..)⟩

lemma length_le_atexits (handlers : List Handler) (funcs : List (Option Handler)) :
    handlers.length ≤ (atexits handlers funcs).length := by
  obtain ⟨more, hmore⟩ := atexits_append handlers funcs
  rw [hmore, length_append]
  exact Nat.le_add_right _ _

/-- Registrations leave the table only if it is full or all of them are null pointers. -/
lemma atexits_eq_self_iff {funcs : List (Option Handler)} :
    atexits handlers funcs = handlers ↔ ATEXIT_MAX ≤ handlers.length ∨ ∀ func ∈ funcs, func = none := by
  induction funcs with
  | nil => simp [atexits]
  | cons func funcs ih =>
    rcases func with _ | func
    · simpa [atexits, atexit] using ih
    · by_cases hfull : ATEXIT_MAX ≤ handlers.length
      · simpa [atexits, atexit, hfull] using ih
      · have hgrow := length_le_atexits (handlers ++ [func]) funcs
        rw [length_append, length_singleton] at hgrow
        have hstep : atexits handlers (some func :: funcs) = atexits (handlers ++ [func]) funcs := by
          simp [atexits, atexit, hfull]
        refine ⟨fun heq => ?_, fun h => ?_⟩
        · rw [hstep] at heq
          rw [heq] at hgrow
          omega
        · cases (h.resolve_left hfull) _ mem_cons_self

lemma length_le_exitLoop (program : List Handler → List (Option Handler)) (handlers : List Handler) (i : Nat)
    (called : List Handler) :
    handlers.length ≤ (exitLoop program i handlers called).1.length := by
  induction i generalizing handlers called with
  | zero => exact le_rfl
  | succ i ih =>
    rw [exitLoop]
    split
    · exact (length_le_atexits _ _).trans (ih _ _)
    · exact ih _ _

/-- The walk down from `i`, when the handlers above it have been called, the last one first: nothing is registered
exactly if no call registers. -/
lemma exitLoop_eq_iff {i : Nat} (hi : i ≤ handlers.length) :
    exitLoop program i handlers (handlers.drop i).reverse = (handlers, handlers.reverse) ↔
      ATEXIT_MAX ≤ handlers.length ∨ ∀ k < i, ∀ func ∈ program (handlers.drop k).reverse, func = none := by
  induction i with
  | zero => simp [exitLoop]
  | succ i ih =>
    have hcalled : (handlers.drop (i + 1)).reverse ++ [handlers[i]] = (handlers.drop i).reverse := by
      rw [drop_eq_getElem_cons hi, reverse_cons]
    rw [exitLoop, getElem?_eq_getElem hi]
    dsimp only
    rw [hcalled]
    by_cases hsame : atexits handlers (program (handlers.drop i).reverse) = handlers
    · rw [hsame, ih (by omega)]
      have hnone := atexits_eq_self_iff.mp hsame
      refine ⟨fun h => ?_, fun h => h.imp_right fun h k hk => h k (by omega)⟩
      rcases h with h | h
      · exact .inl h
      · refine hnone.imp_right fun hnone k hk => ?_
        rcases Nat.lt_succ_iff_lt_or_eq.mp hk with hk | rfl
        · exact h k hk
        · exact hnone
    · have hmore : handlers.length < (atexits handlers (program (handlers.drop i).reverse)).length := by
        obtain ⟨more, hmore⟩ := atexits_append handlers (program (handlers.drop i).reverse)
        rw [hmore] at hsame ⊢
        rw [length_append]
        have := length_pos_iff.mpr fun h : more = [] => hsame (by rw [h, append_nil])
        omega
      refine ⟨fun heq => ?_, fun h => absurd (atexits_eq_self_iff.mpr (h.imp_right fun h => h i (by omega))) hsame⟩
      have hle := length_le_exitLoop program (atexits handlers (program (handlers.drop i).reverse)) i
        (handlers.drop i).reverse
      rw [heq] at hle
      exact absurd hle (not_le.mpr hmore)

/-- After any registrations: each registered handler is called once, the later ones first, and no other is registered,
exactly when no call registers another one or the table is full. -/
theorem exit_calls_each_once (funcs : List (Option Handler)) (program : List Handler → List (Option Handler)) :
    exit program (atexits [] funcs) = (atexits [] funcs, (atexits [] funcs).reverse) ↔
      ATEXIT_MAX ≤ (atexits [] funcs).length ∨
        ∀ k < (atexits [] funcs).length, ∀ func ∈ program ((atexits [] funcs).drop k).reverse, func = none := by
  have h := @exitLoop_eq_iff (atexits [] funcs) program _ le_rfl
  rwa [drop_length, reverse_nil] at h

theorem exit_calls_two : exit (fun _ => [none]) (atexits [] [some 1, none, some 2]) = ([1, 2], [2, 1]) :=
  (exit_calls_each_once [some 1, none, some 2] _).mpr (.inr fun _ _ _ hf => mem_singleton.mp hf)

/-- The handler registered by the first one is not called. -/
theorem exit_forgets_handler :
    exit (fun called => if called = [1] then [some 2] else []) (atexits [] [some 1]) = ([1, 2], [1]) := by
  decide

/-! ### The environment -/

/-- The array `environ` with its capacity, and `environ_count`. Before the first growth there is no array. -/
structure Environ where
  slots : List (Option (List UInt8)) := []
  count : Nat := 0

/-- The comparison of an entry with a name and `=`. -/
def nameMatches : List UInt8 → List UInt8 → Bool
  | [], e => e.head? = some 61
  | _ :: _, [] => false
  | n :: name, c :: e => c == n && nameMatches name e

/-- The index of the first of `n` entries that has the name. -/
def findEntry (name : List UInt8) : List (Option (List UInt8)) → Nat → Option Nat
  | some e :: l, n + 1 => if nameMatches name e then some 0 else (findEntry name l n).map (· + 1)
  | none :: l, n + 1 => (findEntry name l n).map (· + 1)
  | _, _ => none

def getenv (s : Environ) (name : List UInt8) : Option (List UInt8) :=
  (findEntry name s.slots s.count).bind fun i => (s.slots[i]?.join).map (·.drop (name.length + 1))

def setenv (s : Environ) (name value : List UInt8) (overwrite : Bool) : Int × Environ :=
  if name = [] then (-1, s)
  else if overwrite = false ∧ (getenv s name).isSome then (0, s)
  else
    let entry := name ++ 61 :: value
    match findEntry name s.slots s.count with
    | some i => (0, { s with slots := s.slots.set i (some entry) })
    | none =>
      let cap := s.slots.length
      let ncap := if cap ≠ 0 then cap * 2 else 8
      let slots := if s.count ≥ cap then s.slots ++ List.replicate (ncap - cap) none else s.slots
      (0, ⟨slots.set s.count (some entry), s.count + 1⟩)

def putenv (s : Environ) (string : List UInt8) : Int × Environ :=
  match string.dropWhile (· ≠ 61) with
  | [] => (-1, s)
  | _ :: value => setenv s (string.takeWhile (· ≠ 61)) value true

def unsetenv (s : Environ) (name : List UInt8) : Int × Environ :=
  if name = [] ∨ s.slots = [] then (-1, s)
  else
    match findEntry name s.slots s.count with
    | some i => (0, ⟨(s.slots.take s.count).eraseIdx i ++ none :: s.slots.drop s.count, s.count - 1⟩)
    | none => (0, s)

/-- What a program sees that walks `environ` up to the null pointer, unless it walks out of the array. -/
def walkEnviron : List (Option (List UInt8)) → Option (List (List UInt8))
  | [] => none
  | none :: _ => some []
  | some e :: l => (walkEnviron l).map (e :: ·)

def Name := { name : List UInt8 // name ≠ [] ∧ 61 ∉ name }

/-- The calls that change the environment; `getenv` changes nothing. -/
inductive EnvCall where
  | setenv (name : Name) (value : List UInt8) (overwrite : Bool)
  | putenv (name : Name) (value : List UInt8)
  | unsetenv (name : Name)

def EnvCall.step (s : Environ) : EnvCall → Environ
  | .setenv name value overwrite => (Stdlib.setenv s name.1 value overwrite).2
  | .putenv name value => (Stdlib.putenv s (name.1 ++ 61 :: value)).2
  | .unsetenv name => (Stdlib.unsetenv s name.1).2

def EnvCall.meaning (m : List UInt8 → Option (List UInt8)) : EnvCall → List UInt8 → Option (List UInt8)
  | .setenv name value overwrite =>
    if overwrite = false ∧ (m name.1).isSome then m else update m name.1 (some value)
  | .putenv name value => update m name.1 (some value)
  | .unsetenv name => update m name.1 none

/-- The names that are set after a call. -/
def EnvCall.names (ns : List (List UInt8)) : EnvCall → List (List UInt8)
  | .setenv name _ _ | .putenv name _ => if ns.any (· = name.1) then ns else ns ++ [name.1]
  | .unsetenv name => ns.erase name.1

/-- The places of an array with `cap` places that has to hold `n` entries. -/
def placesFor (n cap : Nat) : Nat := if n ≤ cap then cap else if cap = 0 then 8 else cap * 2

/-- The names that are set, and the places that their largest number so far has needed. -/
def EnvCall.fill (e : List (List UInt8) × Nat) (c : EnvCall) : List (List UInt8) × Nat :=
  (c.names e.1, placesFor (c.names e.1).length e.2)

/-! ### Entries -/

abbrev Entry := Name × List UInt8

def Entry.text (e : Entry) : List UInt8 := e.1.1 ++ 61 :: e.2

/-- The array holds the entries, each name once, and null pointers behind them. -/
structure Environ.Holds (s : Environ) (es : List Entry) : Prop where
  slots : ∃ room, s.slots = es.map (fun e => some e.text) ++ List.replicate room none
  count : s.count = es.length
  nodup : (es.map fun e => e.1.1).Nodup

def valueOf : List Entry → List UInt8 → Option (List UInt8)
  | [] => fun _ => none
  | e :: es => update (valueOf es) e.1.1 (some e.2)

def nameList (es : List Entry) : List (List UInt8) := es.map fun e => e.1.1

def indexOf (name : Name) (es : List Entry) : Option Nat := es.findIdx? fun e => e.1.1 = name.1

variable {s : Environ} {es : List Entry} {name : Name} {i : Nat} {value : List UInt8}

lemma nameMatches_text {n m v : List UInt8} (hn : 61 ∉ n) (hm : 61 ∉ m) : nameMatches n (m ++ 61 :: v) = (m = n) := by
  induction n generalizing m with
  | nil =>
    cases m with
    | nil => simp [nameMatches]
    | cons c m => simpa [nameMatches] using fun h : c = 61 => hm (h ▸ mem_cons_self)
  | cons c n ih =>
    cases m with
    | nil => simpa [nameMatches] using fun h : 61 = c => absurd (h ▸ mem_cons_self) hn
    | cons d m =>
      have hn' : 61 ∉ n := fun h => hn (mem_cons_of_mem _ h)
      have hm' : 61 ∉ m := fun h => hm (mem_cons_of_mem _ h)
      simp [nameMatches, ih hn' hm']

lemma indexOf_cons (e : Entry) :
    indexOf name (e :: es) = if e.1.1 = name.1 then some 0 else (indexOf name es).map (· + 1) := by
  simp [indexOf, findIdx?_cons]

lemma Environ.Holds.findEntry (h : s.Holds es) : findEntry name.1 s.slots s.count = indexOf name es := by
  obtain ⟨room, hroom⟩ := h.slots
  rw [hroom, h.count]
  clear h hroom
  induction es with
  | nil => cases room <;> rfl
  | cons e es ih =>
    rw [map_cons, cons_append, length_cons, Stdlib.findEntry, ih, indexOf_cons]
    simp [Entry.text, nameMatches_text name.2.2 e.1.2.2]

lemma valueOf_of_not_mem {n : List UInt8} (h : n ∉ es.map fun e => e.1.1) : valueOf es n = none := by
  induction es with
  | nil => rfl
  | cons e es ih =>
    rw [map_cons, mem_cons, not_or] at h
    exact (update_of_ne h.1 _ _).trans (ih h.2)

lemma indexOf_none (h : indexOf name es = none) : name.1 ∉ es.map fun e => e.1.1 := by
  intro hmem
  obtain ⟨e, he, heq⟩ := List.mem_map.mp hmem
  simpa [heq] using findIdx?_eq_none_iff.mp h e he

lemma indexOf_some (h : indexOf name es = some i) : ∃ es1 v es2, es = es1 ++ (name, v) :: es2 ∧ es1.length = i ∧
    indexOf name es1 = none := by
  induction es generalizing i with
  | nil => cases h
  | cons e es ih =>
    rw [indexOf_cons] at h
    split_ifs at h with he
    · cases h
      obtain ⟨n, v⟩ := e
      obtain rfl : n = name := Subtype.ext he
      exact ⟨[], v, es, rfl, rfl, rfl⟩
    · obtain ⟨j, hj, rfl⟩ := map_eq_some_iff.mp h
      obtain ⟨es1, v, es2, rfl, rfl, hnone⟩ := ih hj
      refine ⟨e :: es1, v, es2, rfl, rfl, ?_⟩
      rw [indexOf_cons, if_neg he, hnone]
      rfl

lemma valueOf_append (es1 es2 : List Entry) (h : indexOf name es1 = none) (v : Option (List UInt8)) (m : List Entry)
    (hm : valueOf m = update (valueOf es2) name.1 v) : valueOf (es1 ++ m) = update (valueOf (es1 ++ es2)) name.1 v := by
  induction es1 with
  | nil => exact hm
  | cons e es1 ih =>
    rw [indexOf_cons] at h
    split_ifs at h with he
    rw [cons_append, valueOf, ih (map_eq_none_iff.mp h), cons_append, valueOf, update_comm he]

lemma getenv_eq (h : s.Holds es) : getenv s name.1 = valueOf es name.1 := by
  rw [getenv, h.findEntry]
  rcases hi : indexOf name es with _ | i
  · exact (valueOf_of_not_mem (indexOf_none hi)).symm
  · obtain ⟨es1, v, es2, rfl, rfl, hnone⟩ := indexOf_some hi
    obtain ⟨room, hroom⟩ := h.slots
    rw [valueOf_append es1 ((name, v) :: es2) hnone (some v) _ (by rw [valueOf, update_idem]), update_self, hroom]
    simp [Entry.text]

/-! ### The calls -/

lemma Environ.Holds.length_le (h : s.Holds es) : es.length ≤ s.slots.length := by
  obtain ⟨room, hroom⟩ := h.slots
  rw [hroom, length_append, length_map]
  omega

/-- A call that leaves the number of entries within the array leaves its length. -/
lemma Environ.Holds.places (h : s.Holds es) {n : Nat} (hn : n ≤ es.length) :
    placesFor n s.slots.length = s.slots.length :=
  if_pos (hn.trans h.length_le)

/-- The array with room for one more entry. -/
lemma Environ.Holds.grow (h : s.Holds es) : ∃ room, (if s.count ≥ s.slots.length then s.slots ++ List.replicate
      ((if s.slots.length ≠ 0 then s.slots.length * 2 else 8) - s.slots.length) none else s.slots) =
        es.map (fun e => some e.text) ++ List.replicate (room + 1) none ∧
      es.length + (room + 1) = placesFor (es.length + 1) s.slots.length := by
  obtain ⟨room, hroom⟩ := h.slots
  have hlen : s.slots.length = es.length + room := by simp [hroom]
  rw [h.count, placesFor]
  by_cases hfull : es.length ≥ s.slots.length
  · obtain rfl : room = 0 := by omega
    have hgrow : s.slots.length < if s.slots.length ≠ 0 then s.slots.length * 2 else 8 := by split_ifs <;> omega
    obtain ⟨n, hn⟩ := Nat.exists_eq_add_of_lt hgrow
    rw [if_pos hfull, hn, Nat.add_assoc, Nat.add_sub_cancel_left, if_neg (by omega)]
    refine ⟨n, by rw [hroom, replicate_zero, append_nil], ?_⟩
    split_ifs at hn ⊢ <;> omega
  · rw [if_neg hfull, if_pos (by omega)]
    exact ⟨room - 1, by rw [hroom, Nat.sub_add_cancel (by omega)], by omega⟩

lemma names_of_mem {ns : List (List UInt8)} (h : name.1 ∈ ns) : (EnvCall.putenv name value).names ns = ns :=
  if_pos (any_eq_true.mpr ⟨_, h, decide_eq_true rfl⟩)

lemma names_of_not_mem {ns : List (List UInt8)} (h : name.1 ∉ ns) :
    (EnvCall.putenv name value).names ns = ns ++ [name.1] :=
  if_neg fun hany =>
    have ⟨_, hmem, heq⟩ := any_eq_true.mp hany
    h (of_decide_eq_true heq ▸ hmem)

lemma setenv_step (h : s.Holds es) (overwrite : Bool) : ∃ es', (setenv s name.1 value overwrite).2.Holds es' ∧
    (valueOf es' = if overwrite = false ∧ (valueOf es name.1).isSome then valueOf es
      else update (valueOf es) name.1 (some value)) ∧
    nameList es' = (EnvCall.putenv name value).names (nameList es) ∧
    (setenv s name.1 value overwrite).2.slots.length = placesFor es'.length s.slots.length := by
  rw [setenv, if_neg name.2.1, getenv_eq h]
  split_ifs with hkeep
  · have hmem : name.1 ∈ nameList es := by
      by_contra hnot
      rw [valueOf_of_not_mem hnot] at hkeep
      cases hkeep.2
    exact ⟨es, h, rfl, (names_of_mem hmem).symm, (h.places le_rfl).symm⟩
  · dsimp only
    rw [h.findEntry]
    rcases hi : indexOf name es with _ | i
    · obtain ⟨room, hslots, hplaces⟩ := h.grow
      refine ⟨es ++ [(name, value)], ⟨⟨room, ?_⟩, ?_, ?_⟩, ?_, ?_, ?_⟩
      · rw [hslots, h.count]
        simp [replicate_succ, Entry.text]
      · simp [h.count]
      · rw [map_append]
        refine nodup_append.mpr ⟨h.nodup, nodup_singleton _, fun n hn m hm heq => ?_⟩
        rw [heq, mem_singleton.mp hm] at hn
        exact indexOf_none hi hn
      · have := valueOf_append es [] hi (some value) [(name, value)] rfl
        rwa [append_nil] at this
      · exact (map_append ..).trans (names_of_not_mem (indexOf_none hi)).symm
      · rw [length_set, hslots, length_append, length_append, length_map, length_replicate]
        exact hplaces
    · obtain ⟨room, hroom⟩ := h.slots
      obtain ⟨es1, v, es2, rfl, rfl, hnone⟩ := indexOf_some hi
      have hmem : name.1 ∈ nameList (es1 ++ (name, v) :: es2) := by simp [nameList]
      refine ⟨es1 ++ (name, value) :: es2, ⟨⟨room, ?_⟩, ?_, ?_⟩, ?_, ?_, ?_⟩
      · rw [hroom]
        simp [Entry.text]
      · simpa using h.count
      · simpa using h.nodup
      · exact valueOf_append es1 _ hnone _ _ (by rw [valueOf, valueOf, update_idem])
      · refine Eq.trans ?_ (names_of_mem hmem).symm
        simp [nameList]
      · rw [length_set]
        exact (h.places (by simp)).symm

lemma unsetenv_step (h : s.Holds es) :
    ∃ es', (unsetenv s name.1).2.Holds es' ∧ valueOf es' = update (valueOf es) name.1 none ∧
      nameList es' = (EnvCall.unsetenv name).names (nameList es) ∧
      (unsetenv s name.1).2.slots.length = placesFor es'.length s.slots.length := by
  have hsame (hi : indexOf name es = none) : valueOf es = update (valueOf es) name.1 none :=
    (update_eq_self_iff.mpr (valueOf_of_not_mem (indexOf_none hi)).symm).symm
  have hnames (hi : indexOf name es = none) : nameList es = (nameList es).erase name.1 :=
    (erase_of_not_mem (indexOf_none hi)).symm
  rw [unsetenv]
  split_ifs with hempty
  · obtain ⟨room, hroom⟩ := h.slots
    have hes : es = [] := by
      rw [hempty.resolve_left name.2.1] at hroom
      simpa using (append_eq_nil_iff.mp hroom.symm).1
    have hi : indexOf name es = none := by rw [hes]; rfl
    exact ⟨es, h, hsame hi, hnames hi, (h.places le_rfl).symm⟩
  · rw [h.findEntry]
    rcases hi : indexOf name es with _ | i
    · exact ⟨es, h, hsame hi, hnames hi, (h.places le_rfl).symm⟩
    · obtain ⟨room, hroom⟩ := h.slots
      obtain ⟨es1, v, es2, rfl, rfl, hnone⟩ := indexOf_some hi
      have hslots : (s.slots.take s.count).eraseIdx es1.length ++ none :: s.slots.drop s.count =
          (es1 ++ es2).map (fun e => some (Entry.text e)) ++ List.replicate (room + 1) none := by
        have hlen : ((es1 ++ (name, v) :: es2).map fun e => some (Entry.text e)).length = s.count := by
          rw [length_map, h.count]
        rw [hroom, take_left' hlen, drop_left' hlen]
        simp [eraseIdx_append, replicate_succ]
      refine ⟨es1 ++ es2, ⟨⟨room + 1, hslots⟩, ?_, ?_⟩, ?_, ?_, ?_⟩
      · simp [h.count]
      · exact h.nodup.sublist (((sublist_cons_self _ _).append_left es1).map _)
      · have hnot : name.1 ∉ es2.map fun e => e.1.1 := by
          have := h.nodup
          rw [map_append, map_cons] at this
          exact (nodup_cons.mp (nodup_append.mp this).2.1).1
        refine valueOf_append es1 _ hnone _ _ ?_
        rw [valueOf, update_idem, ← valueOf_of_not_mem hnot, update_eq_self]
      · have hnot : name.1 ∉ nameList es1 := indexOf_none hnone
        change nameList (es1 ++ es2) = (nameList (es1 ++ (name, v) :: es2)).erase name.1
        unfold nameList at hnot ⊢
        rw [map_append, map_append, map_cons, erase_append_right _ hnot, erase_cons_head]
      · dsimp only
        rw [h.places (by simp), hslots, hroom]
        simp
        omega

lemma step_holds (h : s.Holds es) (c : EnvCall) :
    ∃ es', (c.step s).Holds es' ∧ valueOf es' = c.meaning (valueOf es) ∧
      (nameList es', (c.step s).slots.length) = c.fill (nameList es, s.slots.length) := by
  have hfill {es' : List Entry} {s' : Environ} (hn : nameList es' = c.names (nameList es))
      (hl : s'.slots.length = placesFor es'.length s.slots.length) :
      (nameList es', s'.slots.length) = c.fill (nameList es, s.slots.length) := by
    rw [EnvCall.fill, ← hn, hl, nameList, length_map]
  cases c with
  | setenv name value overwrite =>
    obtain ⟨es', h', hv, hn, hl⟩ := @setenv_step s es name value h overwrite
    exact ⟨es', h', hv, hfill hn hl⟩
  | putenv name value =>
    have hname : ∀ c ∈ name.1, decide (c ≠ 61) = true := fun c hc => decide_eq_true fun heq => name.2.2 (heq ▸ hc)
    have hput : EnvCall.step s (.putenv name value) = (setenv s name.1 value true).2 := by
      rw [EnvCall.step, putenv, dropWhile_append_of_pos hname, takeWhile_append_of_pos hname]
      simp
    obtain ⟨es', h', hv, hn, hl⟩ := @setenv_step s es name value h true
    rw [hput]
    exact ⟨es', h', hv, hfill hn hl⟩
  | unsetenv name =>
    obtain ⟨es', h', hv, hn, hl⟩ := @unsetenv_step s es name h
    exact ⟨es', h', hv, hfill hn hl⟩

lemma run_holds (h : s.Holds es) (calls : List EnvCall) :
    ∃ es', (run EnvCall.step s calls).Holds es' ∧ valueOf es' = run EnvCall.meaning (valueOf es) calls ∧
      (nameList es', (run EnvCall.step s calls).slots.length) =
        run EnvCall.fill (nameList es, s.slots.length) calls := by
  induction calls generalizing s es with
  | nil => exact ⟨es, h, rfl, rfl⟩
  | cons c calls ih =>
    obtain ⟨es1, h1, hv, hf⟩ := step_holds h c
    rw [run_cons, run_cons, run_cons, ← hv, ← hf]
    exact ih h1

lemma walkEnviron_entries (l : List (Option (List UInt8))) :
    walkEnviron (es.map (fun e => some e.text) ++ none :: l) = some (es.map Entry.text) := by
  induction es with
  | nil => rfl
  | cons e es ih => rw [map_cons, cons_append, walkEnviron, ih, map_cons, map_some]

lemma walkEnviron_full : walkEnviron (es.map fun e => some e.text) = none := by
  induction es with
  | nil => rfl
  | cons e es ih => rw [map_cons, walkEnviron, ih, map_none]

/-- After any calls the environment is the map they describe, with each name once, and a walk up to the null pointer
sees its entries exactly if the names that are set do not fill the places that were needed so far. -/
theorem environ_is_map (calls : List EnvCall) :
    (∀ name : Name, getenv (run EnvCall.step {} calls) name.1 = run EnvCall.meaning (fun _ => none) calls name.1) ∧
    ∃ es : List Entry, valueOf es = run EnvCall.meaning (fun _ => none) calls ∧ (es.map fun e => e.1.1).Nodup ∧
      (run EnvCall.step {} calls).slots.take (run EnvCall.step {} calls).count = es.map (fun e => some e.text) ∧
      (walkEnviron (run EnvCall.step {} calls).slots = some (es.map Entry.text) ↔
        (run EnvCall.fill ([], 0) calls).1.length ≠ (run EnvCall.fill ([], 0) calls).2) := by
  have h0 : ({} : Environ).Holds [] := ⟨⟨0, rfl⟩, rfl, nodup_nil⟩
  obtain ⟨es, h, hv, hfill⟩ := run_holds h0 calls
  obtain ⟨room, hroom⟩ := h.slots
  have hlen : (es.map fun e => some e.text).length = (run EnvCall.step {} calls).count := by rw [length_map, h.count]
  refine ⟨fun name => (getenv_eq h).trans (congrFun hv _), es, hv, h.nodup, ?_, ?_⟩
  · rw [hroom, take_left' hlen]
  · change (nameList es, _) = run EnvCall.fill ([], 0) calls at hfill
    rw [← hfill, hroom]
    cases room with
    | zero => simp [walkEnviron_full, nameList]
    | succ n => simp [replicate_succ, walkEnviron_entries, nameList]

/-- The variable `A` to `H` with the value `x`. -/
def setLetter (k : Fin 8) : EnvCall := .setenv ⟨[65 + k.val.toUInt8], by fin_cases k <;> decide⟩ [120] true

theorem environ_is_map_one : ∃ es : List Entry, valueOf es [65] = some [120] ∧
    walkEnviron (run EnvCall.step {} [setLetter 0]).slots = some (es.map Entry.text) :=
  have ⟨_, es, hv, _, _, hwalk⟩ := environ_is_map [setLetter 0]
  ⟨es, congrFun hv [65], hwalk.mpr (by decide)⟩

/-- Eight variables fill the array, and a walk leaves it. -/
theorem environ_without_end :
    (run EnvCall.step {} (List.ofFn setLetter)).count = 8 ∧
      (run EnvCall.step {} (List.ofFn setLetter)).slots.length = 8 ∧
      walkEnviron (run EnvCall.step {} (List.ofFn setLetter)).slots = none := by
  decide

end VibeOS.Stdlib
