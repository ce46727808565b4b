import VibeOS.Lib.Bytes
import VibeOS.Lib.CInt
import VibeOS.Lib.Ring
import VibeOS.Lib.Run

/-!
# Audio voices

The voices of `audio.c`: each process that writes audio has a ring, and `mix_voices` takes the next samples of all
rings that are ready and writes their mean for the device. The device itself is left out.

`Voice.contents` is the queue in a ring; `voiceWrite_spec` and `voiceRead_spec` say what the two copies of a write
and a read do to it. `run_audio` is the result for any calls.

Other names are those of `kernel/src/audio.c`.
-/

namespace VibeOS.Audio

open List Option Function

abbrev AUDIO_VOICES : Nat := 4

def AUDIO_RING_SIZE : Nat := 32768

def AC97_BD_BYTES : Nat := 512

def AUDIO_PRE_ROLL_BYTES : Nat := 8192

def AUDIO_PRE_ROLL_TIMEOUT_TICKS : Nat := 10

/-- The positions are inside the ring.
Source: `struct audio_voice` -/
structure Voice where
  pid : Nat
  ring : Buf
  head : Nat
  tail : Nat
  preRollActive : Bool
  lastWriteTick : Nat
  head_lt : head < AUDIO_RING_SIZE
  tail_lt : tail < AUDIO_RING_SIZE

def voiceAvailable (v : Voice) : Nat :=
  if v.head ≥ v.tail then v.head - v.tail else AUDIO_RING_SIZE - v.tail + v.head

def voiceFree (v : Voice) : Nat := AUDIO_RING_SIZE - 1 - voiceAvailable v

lemma ring_pos : 0 < AUDIO_RING_SIZE := by decide

def voiceWrite (v : Voice) (data : List UInt8) : Voice :=
  let first := AUDIO_RING_SIZE - v.head
  { v with
    ring :=
      if data.length > first then (v.ring.putList v.head (data.take first)).putList 0 (data.drop first)
      else v.ring.putList v.head data
    head := (v.head + data.length) % AUDIO_RING_SIZE
    head_lt := Nat.mod_lt _ ring_pos }

def Voice.skip (v : Voice) (bytes : Nat) : Voice :=
  { v with tail := (v.tail + bytes) % AUDIO_RING_SIZE, tail_lt := Nat.mod_lt _ ring_pos }

def voiceRead (v : Voice) (bytes : Nat) : List UInt8 × Voice :=
  let bytes := if bytes > voiceAvailable v then voiceAvailable v else bytes
  if bytes = 0 then ([], v)
  else
    let first := AUDIO_RING_SIZE - v.tail
    (if bytes > first then v.ring.slice v.tail first ++ v.ring.slice 0 (bytes - first) else v.ring.slice v.tail bytes,
      v.skip bytes)

abbrev Voices := Fin AUDIO_VOICES → Voice

def slotOf (g : Voices) (pid : Nat) : Option (Fin AUDIO_VOICES) :=
  (List.finRange AUDIO_VOICES).find? fun i => (g i).pid = pid

/-- The voice of a process, or a free one that is made its own. -/
def voiceForPid (g : Voices) (now pid : Nat) : Option (Fin AUDIO_VOICES × Voices) :=
  match slotOf g pid with
  | some i => some (i, g)
  | none => (slotOf g 0).map fun i =>
    (i, update g i { g i with
      pid := pid, head := 0, tail := 0, preRollActive := true, lastWriteTick := now,
      head_lt := ring_pos, tail_lt := ring_pos })

def audioWrite (present : Bool) (g : Voices) (now pid : Nat) (data : List UInt8) : Nat × Voices :=
  if !present || data.length = 0 then (0, g)
  else
    match voiceForPid g now pid with
    | none => (0, g)
    | some (i, g) =>
      let bytes := if data.length > voiceFree (g i) then voiceFree (g i) else data.length
      if bytes = 0 then (0, g)
      else (bytes, update g i { voiceWrite (g i) (data.take bytes) with lastWriteTick := now })

def audioReleaseVoice (g : Voices) (pid : Nat) : Voices :=
  match slotOf g pid with
  | none => g
  | some i => update g i { g i with
      pid := 0, head := 0, tail := 0, preRollActive := false, lastWriteTick := 0,
      head_lt := ring_pos, tail_lt := ring_pos }

/-! ### Mixing -/

/-- The voice holds back until enough is there, or nothing came for a while. -/
def buffering (now : Nat) (v : Voice) : Bool :=
  v.preRollActive && voiceAvailable v < AUDIO_PRE_ROLL_BYTES &&
    (now + 2 ^ 64 - v.lastWriteTick) % 2 ^ 64 < AUDIO_PRE_ROLL_TIMEOUT_TICKS

/-- Whole frames of four bytes, as many as there are and as fit into a buffer of the device. -/
def toRead (v : Voice) : Nat := min (voiceAvailable v) AC97_BD_BYTES / 4 * 4

/-- The bytes a voice contributes, if it does, and the voice after it. One pass of the loop over the voices.
Source: `mix_voices` -/
def mixVoice (now : Nat) (v : Voice) : Option (List UInt8) × Voice :=
  if v.pid = 0 then (none, v)
  else if voiceAvailable v = 0 then (none, { v with preRollActive := true })
  else if buffering now v then (none, v)
  else if toRead v = 0 then (none, { v with preRollActive := false })
  else
    let r := voiceRead { v with preRollActive := false } (toRead v)
    (some r.1, r.2)

/-- A signed 16-bit sample, low byte first; bytes that were not read are zero. -/
def sampleAt (bytes : List UInt8) (k : Nat) : Int :=
  let u : Int := (bytes.getD (2 * k) 0).toNat + 256 * (bytes.getD (2 * k + 1) 0).toNat
  if u ≥ 32768 then u - 65536 else u

/-- What the voices contribute, in the order of the voices. -/
def contributions (now : Nat) (g : Voices) : List (List UInt8) :=
  (List.finRange AUDIO_VOICES).filterMap fun i => (mixVoice now (g i)).1

/-- Source: `mix_voices` -/
def clampSample (s : Int) : Int := if s > 32767 then 32767 else if s < -32768 then -32768 else s

def mixVoices (now : Nat) (g : Voices) : List Int × Voices :=
  let tmps := contributions now g
  let acc (k : Nat) : Int := tmps.foldl (fun a tmp => a + sampleAt tmp k) 0
  ((List.range (AC97_BD_BYTES / 2)).map fun k =>
      clampSample (if tmps.length > 1 then (acc k).tdiv tmps.length else acc k), fun i => (mixVoice now (g i)).2)

/-! ### The queue in a ring -/

def Voice.contents (v : Voice) : List UInt8 := ringList v.ring AUDIO_RING_SIZE v.tail (voiceAvailable v)

lemma length_contents (v : Voice) : v.contents.length = voiceAvailable v := length_ringList _ _

lemma available_lt (v : Voice) : voiceAvailable v < AUDIO_RING_SIZE := by
  have := v.head_lt
  unfold voiceAvailable
  split_ifs <;> omega

lemma head_cell (v : Voice) : v.head = (v.tail + voiceAvailable v) % AUDIO_RING_SIZE := by
  have hh := v.head_lt
  have ht := v.tail_lt
  unfold voiceAvailable
  unfold AUDIO_RING_SIZE at *
  split_ifs <;> omega

lemma putList_at {b : Buf} {o k : Nat} {l : List UInt8} (h : k < l.length) : b.putList o l (o + k) = l[k] := by
  rw [Buf.putList, Buf.blit_add h, Buf.ofList, getD_eq_getElem _ _ h]

/-- One copy, or two around the end of the ring, store the bytes behind the head. -/
lemma voiceWrite_put (v : Voice) {data : List UInt8} (h : data.length < AUDIO_RING_SIZE) :
    RingPut v.ring (voiceWrite v data).ring AUDIO_RING_SIZE v.head data := by
  have hh := v.head_lt
  unfold voiceWrite
  dsimp only
  split
  · next hwrap =>
    have hlen : (data.take (AUDIO_RING_SIZE - v.head)).length = AUDIO_RING_SIZE - v.head := by
      rw [length_take]
      omega
    have hrest : (data.drop (AUDIO_RING_SIZE - v.head)).length = data.length - (AUDIO_RING_SIZE - v.head) :=
      length_drop
    refine ⟨fun i hi => ?_, fun j hj hne => ?_⟩
    · by_cases hlow : i < AUDIO_RING_SIZE - v.head
      · rw [Nat.mod_eq_of_lt (by omega), Buf.putList_of_not_mem (by omega), putList_at (by omega), getElem_take]
      · have hcell : (v.head + i) % AUDIO_RING_SIZE = 0 + (i - (AUDIO_RING_SIZE - v.head)) := by
          rw [Nat.mod_eq_sub_mod (by omega), Nat.mod_eq_of_lt (by omega)]
          omega
        rw [hcell, putList_at (by omega), getElem_drop]
        congr 1
        omega
    · have hhigh : ¬ (v.head ≤ j) := by
        intro hle
        refine hne (j - v.head) (by omega) ?_
        rw [Nat.add_sub_cancel' hle, Nat.mod_eq_of_lt hj]
      have hlow : ¬ (j < data.length - (AUDIO_RING_SIZE - v.head)) := by
        intro hlt
        refine hne (j + (AUDIO_RING_SIZE - v.head)) (by omega) ?_
        rw [Nat.mod_eq_sub_mod (by omega), Nat.mod_eq_of_lt (by omega)]
        omega
      rw [Buf.putList_of_not_mem (by omega), Buf.putList_of_not_mem (by omega)]
  · next hfit =>
    refine ⟨fun i hi => ?_, fun j hj hne => ?_⟩
    · rw [Nat.mod_eq_of_lt (by omega), putList_at hi]
    · refine Buf.putList_of_not_mem fun hmem => hne (j - v.head) (by omega) ?_
      rw [Nat.add_sub_cancel' hmem.1, Nat.mod_eq_of_lt hj]

lemma voiceWrite_spec {v : Voice} {data : List UInt8} (h : data.length ≤ voiceFree v) :
    (voiceWrite v data).contents = v.contents ++ data := by
  have havail := available_lt v
  have hfree : data.length ≤ AUDIO_RING_SIZE - 1 - voiceAvailable v := h
  have hsize : AUDIO_RING_SIZE = 32768 := rfl
  have hused : voiceAvailable (voiceWrite v data) = voiceAvailable v + data.length := by
    have hh := v.head_lt
    unfold voiceWrite
    unfold voiceAvailable at *
    unfold AUDIO_RING_SIZE at *
    dsimp only
    clear h hsize
    split_ifs at * <;> omega
  unfold Voice.contents
  rw [hused]
  refine ringList_put ((voiceWrite_put v (by omega)).congr ?_) (by omega)
  rw [Nat.mod_eq_of_lt v.head_lt]
  exact head_cell v

lemma slice_ring {b : Buf} {t n : Nat} (h : t + n ≤ AUDIO_RING_SIZE) :
    b.slice t n = ringList b AUDIO_RING_SIZE t n := by
  apply map_congr_left
  intro k hk
  have := mem_range.mp hk
  rw [Nat.mod_eq_of_lt (by omega)]

lemma voiceRead_spec (v : Voice) {n : Nat} (h : n ≤ voiceAvailable v) :
    (voiceRead v n).1 = v.contents.take n ∧ (voiceRead v n).2.contents = v.contents.drop n ∧
    (voiceRead v n).2.pid = v.pid := by
  have havail := available_lt v
  have ht := v.tail_lt
  obtain ⟨hfront, hback⟩ : ringList v.ring AUDIO_RING_SIZE v.tail n = v.contents.take n ∧
      ringList v.ring AUDIO_RING_SIZE (v.tail + n) (voiceAvailable v - n) = v.contents.drop n := ringList_take_drop h
  unfold voiceRead
  rw [if_neg (show ¬ n > voiceAvailable v by omega)]
  by_cases hn : n = 0
  · rw [if_pos hn, hn]
    exact ⟨rfl, rfl, rfl⟩
  rw [if_neg hn]
  refine ⟨?_, ?_, rfl⟩
  · dsimp only
    rw [← hfront]
    split
    · next hwrap =>
      have hsplit : n = (AUDIO_RING_SIZE - v.tail) + (n - (AUDIO_RING_SIZE - v.tail)) := by omega
      rw [slice_ring (by omega), slice_ring (by omega)]
      conv_rhs => rw [hsplit, ringList_add]
      congr 1
      refine ringList_congr _ ?_
      rw [Nat.add_sub_cancel' ht.le, Nat.mod_self, Nat.zero_mod]
    · next hfit => rw [slice_ring (by omega)]
  · rw [← hback]
    have hused : voiceAvailable (v.skip n) = voiceAvailable v - n := by
      have hh := v.head_lt
      clear hback hfront
      unfold Voice.skip
      unfold voiceAvailable at *
      unfold AUDIO_RING_SIZE at *
      dsimp only
      split_ifs at * <;> omega
    unfold Voice.contents
    rw [hused]
    exact ringList_congr _ (Nat.mod_mod _ _)

lemma mixVoice_spec (now : Nat) (v : Voice) :
    (mixVoice now v).2.pid = v.pid ∧ ((mixVoice now v).1.getD []).length % 4 = 0 ∧
    (mixVoice now v).1.getD [] ++ (mixVoice now v).2.contents = v.contents ∧
    ∀ bytes, (mixVoice now v).1 = some bytes → bytes = v.contents.take (toRead v) := by
  unfold mixVoice
  split_ifs
  · exact ⟨rfl, rfl, rfl, fun _ h => by cases h⟩
  · exact ⟨rfl, rfl, rfl, fun _ h => by cases h⟩
  · exact ⟨rfl, rfl, rfl, fun _ h => by cases h⟩
  · exact ⟨rfl, rfl, rfl, fun _ h => by cases h⟩
  · have hle : toRead v ≤ voiceAvailable v := by
      unfold toRead
      omega
    obtain ⟨hbytes, hrest, hpid⟩ := voiceRead_spec { v with preRollActive := false } hle
    refine ⟨hpid, ?_, ?_, fun bytes h => ?_⟩
    · rw [getD_some, hbytes, length_take, length_contents]
      have : voiceAvailable { v with preRollActive := false } = voiceAvailable v := rfl
      unfold toRead
      omega
    · rw [getD_some, hbytes, hrest, take_append_drop]
      rfl
    · cases h
      exact hbytes

/-! ### The mean -/

lemma sampleAt_range (bytes : List UInt8) (k : Nat) : -32768 ≤ sampleAt bytes k ∧ sampleAt bytes k ≤ 32767 := by
  have h0 := (bytes.getD (2 * k) 0).toNat_lt
  have h1 := (bytes.getD (2 * k + 1) 0).toNat_lt
  unfold sampleAt
  dsimp only
  split_ifs <;> omega

lemma foldl_sampleAt (tmps : List (List UInt8)) (k : Nat) (a : Int) :
    tmps.foldl (fun a tmp => a + sampleAt tmp k) a = a + (tmps.map fun tmp => sampleAt tmp k).sum := by
  induction tmps generalizing a with
  | nil => simp
  | cons tmp tmps ih =>
    rw [foldl_cons, ih, map_cons, sum_cons]
    ring

lemma sum_range (tmps : List (List UInt8)) (k : Nat) :
    -32768 * (tmps.length : Int) ≤ (tmps.map fun tmp => sampleAt tmp k).sum ∧
    (tmps.map fun tmp => sampleAt tmp k).sum ≤ 32767 * (tmps.length : Int) := by
  induction tmps with
  | nil => simp
  | cons tmp tmps ih =>
    obtain ⟨hlow, hhigh⟩ := sampleAt_range tmp k
    simp only [map_cons, sum_cons, length_cons]
    omega

lemma mean_range (tmps : List (List UInt8)) (k : Nat) :
    -32768 ≤ (tmps.map fun tmp => sampleAt tmp k).sum.tdiv tmps.length ∧
    (tmps.map fun tmp => sampleAt tmp k).sum.tdiv tmps.length ≤ 32767 := by
  obtain ⟨hlow, hhigh⟩ := sum_range tmps k
  rcases Nat.eq_zero_or_pos tmps.length with hz | hpos
  · rw [hz]
    simp
  · exact tdiv_between (by omega) (by decide) (by decide) (by omega) hhigh

lemma mixVoices_mean (now : Nat) (g : Voices) {k : Nat} (hk : k < AC97_BD_BYTES / 2) : (mixVoices now g).1[k]? =
      some (((contributions now g).map fun tmp => sampleAt tmp k).sum.tdiv (contributions now g).length) := by
  obtain ⟨hlow, hhigh⟩ := mean_range (contributions now g) k
  have hmean : (if (contributions now g).length > 1 then
      (((contributions now g).map fun tmp => sampleAt tmp k).sum).tdiv (contributions now g).length
      else ((contributions now g).map fun tmp => sampleAt tmp k).sum) =
      (((contributions now g).map fun tmp => sampleAt tmp k).sum).tdiv (contributions now g).length := by
    rcases htmps : contributions now g with _ | ⟨tmp, _ | ⟨tmp', tmps⟩⟩
    · rfl
    · simp
    · rw [if_pos (by simp)]
  unfold mixVoices
  rw [getElem?_map, getElem?_range hk, map_some]
  simp only [foldl_sampleAt, zero_add]
  rw [hmean]
  congr 1
  unfold clampSample
  rw [if_neg (by omega), if_neg (by omega)]

/-! ### Runs -/

/-- A call. Only processes write, and their pids are positive. -/
inductive Call where
  | write (now : Nat) (pid : ℕ+) (data : List UInt8)
  | mix (now : Nat)
  | release (pid : Nat)

/-- The voices, with a record that no definition reads: what was accepted from each pid since it has its voice, and
what was mixed from each voice since it was claimed. -/
structure State where
  present : Bool
  voices : Voices
  accepted : Nat → List UInt8
  consumed : Fin AUDIO_VOICES → List UInt8

/-- Static memory, with whatever is in the rings. -/
def boot (present : Bool) (ring : Fin AUDIO_VOICES → Buf) : State :=
  ⟨present, fun i => ⟨0, ring i, 0, 0, false, 0, ring_pos, ring_pos⟩, fun _ => [], fun _ => []⟩

/-- One call. The record starts again when a pid gets a voice. -/
def State.step (s : State) : Call → State
  | .write now pid data =>
    let r := audioWrite s.present s.voices now pid data
    match slotOf s.voices pid, slotOf r.2 pid with
    | none, some i => { s with
        voices := r.2
        accepted := update s.accepted pid (data.take r.1)
        consumed := update s.consumed i [] }
    | _, _ => { s with
        voices := r.2
        accepted := update s.accepted pid (s.accepted pid ++ data.take r.1) }
  | .mix now => { s with
      voices := (mixVoices now s.voices).2
      consumed := fun i => s.consumed i ++ (mixVoice now (s.voices i)).1.getD [] }
  | .release pid => { s with voices := audioReleaseVoice s.voices pid }

/-- One voice for a pid; what was mixed and what waits is what was accepted; frames are mixed whole. -/
structure Separate (s : State) : Prop where
  unique : ∀ i j, (s.voices i).pid ≠ 0 → (s.voices i).pid = (s.voices j).pid → i = j
  fifo : ∀ i, (s.voices i).pid ≠ 0 → s.consumed i ++ (s.voices i).contents = s.accepted (s.voices i).pid
  frames : ∀ i, (s.voices i).pid ≠ 0 → (s.consumed i).length % 4 = 0

lemma slotOf_some {g : Voices} {pid : Nat} {i : Fin AUDIO_VOICES} (h : slotOf g pid = some i) : (g i).pid = pid := by
  simpa using find?_some h

lemma slotOf_none {g : Voices} {pid : Nat} (h : slotOf g pid = none) (i : Fin AUDIO_VOICES) : (g i).pid ≠ pid := by
  simpa using find?_eq_none.mp h i (mem_finRange i)

lemma slotOf_unique {g : Voices} {pid : Nat} {i : Fin AUDIO_VOICES} (hpid : (g i).pid = pid)
    (hunique : ∀ j, (g j).pid = pid → j = i) : slotOf g pid = some i := by
  rcases h : slotOf g pid with _ | j
  · exact absurd hpid (slotOf_none h i)
  · rw [hunique j (slotOf_some h)]

/-- A write changes nothing, or the voice of its pid, which is an old one or a free one. -/
lemma audioWrite_cases (present : Bool) (g : Voices) (now pid : Nat) (data : List UInt8) :
    (audioWrite present g now pid data = (0, g)) ∨
    ∃ i v, (audioWrite present g now pid data).2 = update g i v ∧ v.pid = pid ∧
      ((slotOf g pid = some i ∧ v.contents = (g i).contents ++ data.take (audioWrite present g now pid data).1) ∨
        (slotOf g pid = none ∧ (g i).pid = 0 ∧ v.contents = data.take (audioWrite present g now pid data).1)) := by
  unfold audioWrite
  split
  · exact .inl rfl
  -- what is stored in the voice that was found
  have hstore : ∀ v : Voice, ∀ n ≤ voiceFree v, (voiceWrite v (data.take n)).contents = v.contents ++ data.take n :=
    fun v n hn => voiceWrite_spec (le_trans (length_take_le n data) hn)
  unfold voiceForPid
  rcases hslot : slotOf g pid with _ | i
  · rcases hfree : slotOf g 0 with _ | i
    · exact .inl rfl
    · dsimp only [map_some]
      rw [update_self]
      generalize hv : ({ g i with
        pid := pid, head := 0, tail := 0, preRollActive := true, lastWriteTick := now,
        head_lt := ring_pos, tail_lt := ring_pos } : Voice) = v
      have hempty : v.contents = [] := by
        rw [← hv]
        rfl
      have hpid : v.pid = pid := by rw [← hv]
      generalize hn : (if data.length > voiceFree v then voiceFree v else data.length) = n
      have hle : n ≤ voiceFree v := by
        rw [← hn]
        split_ifs <;> omega
      refine .inr ⟨i, ?_⟩
      by_cases hzero : n = 0
      · rw [if_pos hzero]
        exact ⟨v, rfl, hpid, .inr ⟨rfl, slotOf_some hfree, hempty⟩⟩
      · rw [if_neg hzero]
        refine ⟨_, update_idem _ _ _, hpid, .inr ⟨rfl, slotOf_some hfree, ?_⟩⟩
        refine (hstore v n hle).trans ?_
        rw [hempty, nil_append]
  · dsimp only
    generalize hn : (if data.length > voiceFree (g i) then voiceFree (g i) else data.length) = n
    have hle : n ≤ voiceFree (g i) := by
      rw [← hn]
      split_ifs <;> omega
    by_cases hzero : n = 0
    · rw [if_pos hzero]
      exact .inl rfl
    · rw [if_neg hzero]
      exact .inr ⟨i, _, rfl, slotOf_some hslot, .inl ⟨rfl, hstore (g i) n hle⟩⟩

variable {s : State}

lemma Separate.of_update {s' : State} (h : Separate s) (i : Fin AUDIO_VOICES) (v : Voice)
    (hv : s'.voices = update s.voices i v) (hpid : v.pid ≠ 0 → ∀ j ≠ i, (s.voices j).pid ≠ v.pid)
    (hself : v.pid ≠ 0 → s'.consumed i ++ v.contents = s'.accepted v.pid ∧ (s'.consumed i).length % 4 = 0)
    (hother : ∀ j ≠ i, (s.voices j).pid ≠ 0 →
      s'.consumed j = s.consumed j ∧ s'.accepted (s.voices j).pid = s.accepted (s.voices j).pid) : Separate s' := by
  have hi : s'.voices i = v := by rw [hv, update_self]
  have hj : ∀ j ≠ i, s'.voices j = s.voices j := fun j hne => by rw [hv, update_of_ne hne]
  refine ⟨fun j k hne hjk => ?_, fun j hne => ?_, fun j hne => ?_⟩
  · by_cases hji : j = i <;> by_cases hki : k = i
    · rw [hji, hki]
    · subst hji
      rw [hi] at hne hjk
      rw [hj k hki] at hjk
      exact absurd hjk.symm (hpid hne k hki)
    · subst hki
      rw [hj j hji, hi] at hjk
      rw [hj j hji] at hne
      exact absurd hjk (hpid (hjk ▸ hne) j hji)
    · rw [hj j hji] at hne hjk
      rw [hj k hki] at hjk
      exact h.unique j k hne hjk
  · by_cases hji : j = i
    · subst hji
      rw [hi] at hne ⊢
      exact (hself hne).1
    · rw [hj j hji] at hne ⊢
      rw [(hother j hji hne).1, (hother j hji hne).2]
      exact h.fifo j hne
  · by_cases hji : j = i
    · subst hji
      rw [hi] at hne
      exact (hself hne).2
    · rw [hj j hji] at hne
      rw [(hother j hji hne).1]
      exact h.frames j hne

lemma Separate.write (h : Separate s) (now : Nat) (pid : ℕ+) (data : List UInt8) :
    Separate (s.step (.write now pid data)) := by
  have hpos : (pid : Nat) ≠ 0 := pid.ne_zero
  rw [State.step]
  rcases audioWrite_cases s.present s.voices now pid data with hsame | ⟨i, v, hvoices, hpid, hcase⟩
  · rw [hsame]
    have hrecord : update s.accepted pid (s.accepted pid ++ data.take 0) = s.accepted := by
      rw [take_zero, append_nil, update_eq_self]
    rcases slotOf s.voices pid with _ | i
    · rw [hrecord]
      exact h
    · rw [hrecord]
      exact h
  · rcases hcase with ⟨hslot, hcontents⟩ | ⟨hslot, hfree, hcontents⟩
    · -- the voice the process has
      have hi := slotOf_some hslot
      have hother : ∀ j ≠ i, (s.voices j).pid ≠ pid := fun j hj hjp =>
        hj (h.unique j i (by rw [hjp]; exact hpos) (by rw [hjp, hi]))
      rw [hslot]
      refine h.of_update i v hvoices (fun _ => by rw [hpid]; exact hother) (fun _ => ?_) fun j hj _ => ⟨rfl, ?_⟩
      · have hfifo := h.fifo i (by rw [hi]; exact hpos)
        rw [hi] at hfifo
        refine ⟨?_, h.frames i (by rw [hi]; exact hpos)⟩
        dsimp only
        rw [hpid, update_self, hcontents, ← append_assoc, hfifo]
      · exact update_of_ne (hother j hj) _ _
    · -- a free voice, which is now the only one of this pid
      have hother : ∀ j, (s.voices j).pid ≠ pid := slotOf_none hslot
      have hfound : slotOf (audioWrite s.present s.voices now pid data).2 pid = some i := by
        rw [hvoices]
        refine slotOf_unique (by rw [update_self, hpid]) fun j hj => ?_
        by_contra hne
        rw [update_of_ne hne] at hj
        exact hother j hj
      rw [hslot, hfound]
      refine h.of_update i v hvoices (fun _ j _ => by rw [hpid]; exact hother j) (fun _ => ?_) fun j hj _ => ⟨?_, ?_⟩
      · dsimp only
        rw [hpid, update_self, update_self, hcontents]
        exact ⟨rfl, rfl⟩
      · exact update_of_ne hj _ _
      · exact update_of_ne (hother j) _ _

lemma Separate.mix (h : Separate s) (now : Nat) : Separate (s.step (.mix now)) := by
  have hpid : ∀ i, ((mixVoices now s.voices).2 i).pid = (s.voices i).pid := fun i => (mixVoice_spec now _).1
  refine ⟨fun i j hi hij => ?_, fun i hi => ?_, fun i hi => ?_⟩
  · rw [State.step] at hi hij
    rw [hpid] at hi hij
    rw [hpid] at hij
    exact h.unique i j hi hij
  · rw [State.step] at hi ⊢
    rw [hpid] at hi ⊢
    obtain ⟨-, -, hcontents, -⟩ := mixVoice_spec now (s.voices i)
    rw [append_assoc]
    exact (congrArg (s.consumed i ++ ·) hcontents).trans (h.fifo i hi)
  · rw [State.step] at hi ⊢
    rw [hpid] at hi
    obtain ⟨-, hframes, -, -⟩ := mixVoice_spec now (s.voices i)
    have hold := h.frames i hi
    rw [length_append]
    omega

lemma Separate.release (h : Separate s) (pid : Nat) : Separate (s.step (.release pid)) := by
  rw [State.step]
  rcases hslot : slotOf s.voices pid with _ | i
  · have hsame : audioReleaseVoice s.voices pid = s.voices := by
      unfold audioReleaseVoice
      rw [hslot]
    rw [hsame]
    exact h
  · have hvoices : audioReleaseVoice s.voices pid = update s.voices i { s.voices i with
        pid := 0, head := 0, tail := 0, preRollActive := false, lastWriteTick := 0,
        head_lt := ring_pos, tail_lt := ring_pos } := by
      unfold audioReleaseVoice
      rw [hslot]
    exact h.of_update i _ hvoices (fun hne => absurd rfl hne) (fun hne => absurd rfl hne) fun j _ _ => ⟨rfl, rfl⟩

lemma Separate.step (h : Separate s) (c : Call) : Separate (s.step c) := by
  cases c with
  | write now pid data => exact h.write now pid data
  | mix now => exact h.mix now
  | release pid => exact h.release pid

/-- The voices that contribute to a mix: claimed, not holding back, with a whole frame. -/
def contributing (now : Nat) (g : Voices) : List (Fin AUDIO_VOICES) :=
  (List.finRange AUDIO_VOICES).filter fun i => (g i).pid ≠ 0 ∧ buffering now (g i) = false ∧ 4 ≤ voiceAvailable (g i)

/-- The mean of the next samples of the contributing voices, rounded towards zero. -/
def mean (now : Nat) (g : Voices) (k : Nat) : Int :=
  ((contributing now g).map fun i => sampleAt ((g i).contents.take (toRead (g i))) k).sum.tdiv
    (contributing now g).length

lemma mixVoice_contributes (now : Nat) (v : Voice) : (mixVoice now v).1 =
    if v.pid ≠ 0 ∧ buffering now v = false ∧ 4 ≤ voiceAvailable v then some (v.contents.take (toRead v)) else none := by
  have hread := (mixVoice_spec now v).2.2.2
  have hwhole : toRead v = 0 ↔ ¬ 4 ≤ voiceAvailable v := by
    have hbytes : AC97_BD_BYTES = 512 := rfl
    unfold toRead
    omega
  by_cases h : v.pid ≠ 0 ∧ buffering now v = false ∧ 4 ≤ voiceAvailable v
  · rw [if_pos h]
    have hsome : ∃ bytes, (mixVoice now v).1 = some bytes := by
      unfold mixVoice
      rw [if_neg h.1, if_neg (by omega), if_neg (by rw [h.2.1]; decide), if_neg (by rw [hwhole]; omega)]
      exact ⟨_, rfl⟩
    obtain ⟨bytes, hbytes⟩ := hsome
    rw [hbytes, hread bytes hbytes]
  · unfold mixVoice
    split_ifs with h1 h2 h3 h4
    · rfl
    · rfl
    · rfl
    · rfl
    · exact absurd ⟨h1, by simpa using h3, by rw [hwhole] at h4; omega⟩ h

lemma contributions_eq (now : Nat) (g : Voices) :
    contributions now g = (contributing now g).map fun i => (g i).contents.take (toRead (g i)) := by
  unfold contributions contributing
  simp only [mixVoice_contributes]
  induction List.finRange AUDIO_VOICES with
  | nil => rfl
  | cons i is ih =>
    by_cases h : (g i).pid ≠ 0 ∧ buffering now (g i) = false ∧ 4 ≤ voiceAvailable (g i)
    · rw [filterMap_cons, if_pos h, filter_cons_of_pos (by simpa using h), map_cons, ih]
    · rw [filterMap_cons, if_neg h, filter_cons_of_neg (by simpa using h), ih]

/-- After any calls: one voice for a process, each voice a queue of whole frames, and every mixed sample the truncated
mean of the voices that have one. Source: `audio_write`, `mix_voices`, `audio_release_voice` -/
theorem run_audio (present : Bool) (ring : Fin AUDIO_VOICES → Buf) (calls : List Call) :
    let s := run State.step (boot present ring) calls
    (∀ i j, (s.voices i).pid ≠ 0 → (s.voices i).pid = (s.voices j).pid → i = j) ∧
    (∀ i, (s.voices i).pid ≠ 0 → s.consumed i <+: s.accepted (s.voices i).pid ∧ (s.consumed i).length % 4 = 0 ∧
      (s.accepted (s.voices i).pid).length - (s.consumed i).length = voiceAvailable (s.voices i) ∧
      voiceAvailable (s.voices i) ≤ AUDIO_RING_SIZE - 1) ∧
    ∀ now, ∀ k < AC97_BD_BYTES / 2, (mixVoices now s.voices).1[k]? = some (mean now s.voices k) ∧
      -32768 ≤ mean now s.voices k ∧ mean now s.voices k ≤ 32767 := by
  intro s
  have hs : Separate s := by
    have hboot : Separate (boot present ring) :=
      ⟨fun i _ hi => absurd rfl hi, fun i hi => absurd rfl hi, fun i hi => absurd rfl hi⟩
    exact List.foldlRecOn calls State.step hboot fun s hs c _ => hs.step c
  refine ⟨hs.unique, fun i hi => ?_, fun now k hk => ?_⟩
  · have hfifo := hs.fifo i hi
    have havail := available_lt (s.voices i)
    refine ⟨⟨_, hfifo⟩, hs.frames i hi, ?_, by omega⟩
    rw [← hfifo, length_append, length_contents]
    omega
  · have hmean : ((contributions now s.voices).map fun tmp => sampleAt tmp k).sum.tdiv
        (contributions now s.voices).length = mean now s.voices k := by
      rw [contributions_eq, List.map_map, length_map]
      rfl
    have hrange := mean_range (contributions now s.voices) k
    rw [mixVoices_mean now s.voices hk, hmean]
    rw [hmean] at hrange
    exact ⟨rfl, hrange⟩

end VibeOS.Audio
