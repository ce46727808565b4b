import VibeOS.Vfs.RamFiles

/-!
# The settings file

`settings.c` keeps four numbers in `/etc/vibeos.conf`, one `key=value` line each. `settings_save` formats
them and rewrites the file; `settings_init` runs once at boot and is meant to load them.

The text is right: parsing what was formatted gives the numbers back, whatever they were before
(`loadSettings_format`). The load is never reached, though. `vfs_stat_path` returns 1 for a path that
exists, and `settings_init` goes on only if it returns 0; so a boot sets the defaults (`settingsInit_eq`)
and saves them over the file.

Other names are those of `kernel/src/settings.c`.
-/

namespace VibeOS

open List Option

/-! ### The text -/

/-- The fields the file holds.
Source: `kernel/include/settings.h` `struct os_settings` -/
@[ext]
structure OsSettings where
  audioSampleRate : UInt32
  audioBufferSize : UInt32
  dmaBufferCount : UInt32
  masterVolume : UInt32
deriving DecidableEq

def SETTINGS_PATH : List UInt8 := cstring "/etc/vibeos.conf"

/-- The string from the first `c` on. -/
def myStrchr (s : List UInt8) (c : UInt8) : Option (List UInt8) :=
  match s.dropWhile (· != c) with
  | [] => none
  | rest => some rest

def isDigit (c : UInt8) : Bool := 48 ≤ c && c ≤ 57

/-- The `int` wraps; its bits are what the caller keeps. -/
def myAtoi (nptr : List UInt8) : UInt32 :=
  (nptr.takeWhile isDigit).foldl (fun val c => val * 10 + (c - 48).toUInt32) 0

/-- One token, and what the static pointer `last` is left at. -/
def myStrtok (last : Option (List UInt8)) (delim : List UInt8) : Option (List UInt8) × Option (List UInt8) :=
  match last with
  | none => (none, none)
  | some s =>
    match s.dropWhile (delim.contains ·) with
    | [] => (none, none)
    | start =>
      (some (start.takeWhile fun c => !delim.contains c), match start.dropWhile fun c => !delim.contains c with
        | [] => none
        | _ :: rest => some rest)

/-- The digits, least first as the loop finds them, then reversed. -/
def intToStr (val : UInt32) : List UInt8 :=
  ((if val = 0 then [0] else Nat.digits 10 val.toNat).map fun d => UInt8.ofNat d + 48).reverse

/-- Append as much as fits below `size`. -/
def appendText (size : Nat) (buf text : List UInt8) : List UInt8 := buf ++ text.take (size - buf.length)

def writeLine (size : Nat) (buf : List UInt8) (key : String) (val : UInt32) : List UInt8 :=
  if buf.length ≥ size then buf
  else
    let buf := appendText size buf (cstring key)
    let buf := appendText size buf (cstring "=")
    let buf := appendText size buf (intToStr val)
    appendText size buf [10]

/-- The bytes before the terminating zero. -/
def formatSettings (g : OsSettings) (size : Nat) : List UInt8 :=
  let buf := writeLine size [] "sample_rate" g.audioSampleRate
  let buf := writeLine size buf "buffer_size" g.audioBufferSize
  let buf := writeLine size buf "buffer_count" g.dmaBufferCount
  writeLine size buf "master_vol" g.masterVolume

def parseLine (g : OsSettings) (line : List UInt8) : OsSettings :=
  match myStrchr line 61 with
  | none => g
  | some val =>
    let key := line.takeWhile (· != 61)
    let n := myAtoi val.tail
    if key = cstring "sample_rate" then { g with audioSampleRate := n }
    else if key = cstring "buffer_size" then { g with audioBufferSize := n }
    else if key = cstring "buffer_count" then { g with dmaBufferCount := n }
    else if key = cstring "master_vol" then { g with masterVolume := n }
    else g

/-- The loop over the lines; every token takes at least one byte, so the length of the text bounds the
rounds.
Source: `settings_init` -/
def parseLines : Nat → Option (List UInt8) → OsSettings → OsSettings
  | 0, _, g => g
  | fuel + 1, last, g =>
    match myStrtok last [10] with
    | (none, _) => g
    | (some line, last) => parseLines fuel last (parseLine g line)

/-- Parse a text: a string ends at its first zero.
Source: `settings_init` -/
def loadSettings (g : OsSettings) (text : List UInt8) : OsSettings :=
  parseLines (text.length + 1) (some (text.takeWhile (· != 0))) g

/-! ### Saving and loading -/

def defaultSettings : OsSettings := ⟨48000, 512, 32, 100⟩

def settingsSave (v : Vfs) (uid : Nat) (g : OsSettings) : Option Vfs :=
  (vfsWriteAll v uid SETTINGS_PATH (formatSettings g 512)).map Prod.snd

/-- `g` is `g_settings` before the call and `garbage` the size in the uninitialised `stat`. With
`garbage = SIZE_MAX` a failed read equals the size, and the zero is stored before the buffer: `none`. -/
def settingsInit (v : Vfs) (uid : Nat) (g : OsSettings) (garbage : UInt64) : Option (OsSettings × Vfs) :=
  let defaults := (settingsSave v uid defaultSettings).map fun v' => (defaultSettings, v')
  match vfsStatPath v SETTINGS_PATH with
  | some _ => defaults
  | none =>
    if garbage.toNat > 0 then
      (vfsRead v SETTINGS_PATH 0 garbage.toNat).bind fun r =>
        if r.1 = garbage.toBitVec.toInt then
          if r.1 < 0 then none else some (loadSettings g r.2, v)
        else defaults
    else defaults

/-- The kernel after a reboot: no RAM files, and the disk mounted again. -/
def reboot (heap : Heap) (v : Vfs) : Vfs where
  files := v.files
  userFiles := fun _ => ⟨[], Buf.zero, 0, false⟩
  ext2 := v.ext2.map fun fs => ext2Mount heap fs.device

/-! ### The round trip of the text -/

section

variable {line rest buf : List UInt8} {key : String} {val : UInt32}

lemma intToStr_eq_map (val : UInt32) : ∃ ds : List Nat, (∀ d ∈ ds, d < 10) ∧ ds.length ≤ 10 ∧
    Nat.ofDigits 10 ds = val.toNat ∧ intToStr val = (ds.map fun d => UInt8.ofNat d + 48).reverse := by
  by_cases h : val = 0
  · exact ⟨[0], by simp, by simp, by simp [h], by rw [intToStr, if_pos h]⟩
  · refine ⟨Nat.digits 10 val.toNat, fun d hd => Nat.digits_lt_base (by omega) hd, ?_,
      Nat.ofDigits_digits 10 _, by rw [intToStr, if_neg h]⟩
    rw [Nat.digits_length_le_iff (by omega)]
    have := val.toNat_lt
    omega

lemma digit_spec : ∀ d < 10, isDigit (UInt8.ofNat d + 48) ∧
    (UInt8.ofNat d + 48 - 48).toUInt32 = UInt32.ofNat d ∧ UInt8.ofNat d + 48 ≠ 10 ∧ UInt8.ofNat d + 48 ≠ 0 := by
  decide

lemma intToStr_digits (val : UInt32) : ∀ c ∈ intToStr val, isDigit c ∧ c ≠ 10 ∧ c ≠ 0 := by
  obtain ⟨ds, hlt, -, -, h⟩ := intToStr_eq_map val
  intro c hc
  rw [h, mem_reverse, List.mem_map] at hc
  obtain ⟨d, hd, rfl⟩ := hc
  obtain ⟨h1, -, h2, h3⟩ := digit_spec d (hlt d hd)
  exact ⟨h1, h2, h3⟩

lemma intToStr_length (val : UInt32) : (intToStr val).length ≤ 10 := by
  obtain ⟨ds, -, hlen, -, h⟩ := intToStr_eq_map val
  rw [h, length_reverse, length_map]
  exact hlen

/-- Reading the digits, most significant first, is the value of the digit list modulo `2^32`. -/
lemma foldr_digits (ds : List Nat) (h : ∀ d ∈ ds, d < 10) :
    ds.foldr (fun d val => val * 10 + (UInt8.ofNat d + 48 - 48).toUInt32) 0 = UInt32.ofNat (Nat.ofDigits 10 ds) := by
  induction ds with
  | nil => rfl
  | cons d ds ih =>
    rw [foldr_cons, ih fun d hd => h d (mem_cons_of_mem _ hd), (digit_spec d (h d mem_cons_self)).2.1,
      Nat.ofDigits_cons, UInt32.ofNat_add, UInt32.ofNat_mul, UInt32.add_comm, UInt32.mul_comm]
    rfl

lemma myAtoi_intToStr (val : UInt32) : myAtoi (intToStr val) = val := by
  have hall : (intToStr val).takeWhile isDigit = intToStr val :=
    takeWhile_eq_self_iff.mpr fun c hc => (intToStr_digits val c hc).1
  obtain ⟨ds, hlt, -, hval, h⟩ := intToStr_eq_map val
  rw [myAtoi, hall, h, foldl_reverse, foldr_map, foldr_digits ds hlt, hval, UInt32.ofNat_toNat]

def lineOf (key : String) (val : UInt32) : List UInt8 := cstring key ++ 61 :: intToStr val

lemma writeLine_eq (key : String) {size : Nat} (h : buf.length + (cstring key).length + 12 ≤ size) :
    writeLine size buf key val = buf ++ lineOf key val ++ [10] := by
  have hlen := intToStr_length val
  have heq : (cstring "=").length = 1 := rfl
  rw [writeLine, if_neg (by omega)]
  dsimp only [appendText]
  simp only [length_append]
  rw [take_of_length_le (by omega), take_of_length_le (by omega),
    take_of_length_le (by omega), take_of_length_le (by simp; omega), lineOf]
  simp [cstring]

abbrev settingsKeys : List String := ["sample_rate", "buffer_size", "buffer_count", "master_vol"]

lemma keys_plain : ∀ key ∈ settingsKeys,
    (∀ c ∈ cstring key, c ≠ 10 ∧ c ≠ 0 ∧ c ≠ 61) ∧ (cstring key).length ≤ 12 := by
  simp [cstring]

lemma formatSettings_eq (g : OsSettings) : formatSettings g 512 =
    lineOf "sample_rate" g.audioSampleRate ++ 10 :: (lineOf "buffer_size" g.audioBufferSize ++
      10 :: (lineOf "buffer_count" g.dmaBufferCount ++ 10 :: (lineOf "master_vol" g.masterVolume ++ [10]))) := by
  have hline : ∀ key ∈ settingsKeys, ∀ val,
      (lineOf key val).length ≤ 23 := by
    intro key hkey val
    have h1 := (keys_plain key hkey).2
    have h2 := intToStr_length val
    rw [lineOf, length_append, length_cons]
    omega
  have h1 := hline "sample_rate" (by decide) g.audioSampleRate
  have h2 := hline "buffer_size" (by decide) g.audioBufferSize
  have h3 := hline "buffer_count" (by decide) g.dmaBufferCount
  have k1 : (cstring "buffer_size").length = 11 := by decide
  have k2 : (cstring "buffer_count").length = 12 := by decide
  have k3 : (cstring "master_vol").length = 10 := by decide
  have e1 : writeLine 512 [] "sample_rate" g.audioSampleRate = _ := writeLine_eq _ (by decide)
  rw [formatSettings, e1, writeLine_eq "buffer_size", writeLine_eq "buffer_count", writeLine_eq "master_vol"]
  · simp only [nil_append, append_assoc, cons_append]
  all_goals
    simp only [nil_append, length_append, length_singleton]
    omega

lemma formatSettings_length (g : OsSettings) : (formatSettings g 512).length ≤ 512 := by
  have happend : ∀ buf text : List UInt8, buf.length ≤ 512 → (appendText 512 buf text).length ≤ 512 := by
    intro buf text h
    rw [appendText, length_append, length_take]
    omega
  have hwrite : ∀ (buf : List UInt8) (key : String) (val : UInt32), buf.length ≤ 512 →
      (writeLine 512 buf key val).length ≤ 512 := by
    intro buf key val h
    rw [writeLine]
    split_ifs
    · exact h
    · exact happend _ _ (happend _ _ (happend _ _ (happend _ _ h)))
  exact hwrite _ _ _ (hwrite _ _ _ (hwrite _ _ _ (hwrite _ _ _ (Nat.zero_le _))))

lemma lineOf_plain (hkey : key ∈ settingsKeys) :
    ∀ c ∈ lineOf key val, c ≠ 10 ∧ c ≠ 0 := by
  intro c hc
  rw [lineOf, mem_append, mem_cons] at hc
  rcases hc with hc | rfl | hc
  · obtain ⟨h1, h2, -⟩ := (keys_plain key hkey).1 c hc
    exact ⟨h1, h2⟩
  · decide
  · exact (intToStr_digits val c hc).2

lemma myStrtok_line (hne : line ≠ []) (hplain : ∀ c ∈ line, c ≠ 10) :
    myStrtok (some (line ++ 10 :: rest)) [10] = (some line, some rest) := by
  obtain ⟨c, cs, rfl⟩ := exists_cons_of_ne_nil hne
  have hall : ∀ d ∈ c :: cs, (!([10] : List UInt8).contains d) = true := by
    intro d hd
    simp [hplain d hd]
  have hstart : ((c :: cs) ++ 10 :: rest).dropWhile (([10] : List UInt8).contains ·) = c :: (cs ++ 10 :: rest) := by
    rw [cons_append, dropWhile_cons_of_neg (by simpa using hplain c mem_cons_self)]
  have htake : (c :: (cs ++ 10 :: rest)).takeWhile (fun d => !([10] : List UInt8).contains d) = c :: cs := by
    rw [← cons_append, takeWhile_append_of_pos hall, takeWhile_cons_of_neg (by decide), append_nil]
  have hdrop : (c :: (cs ++ 10 :: rest)).dropWhile (fun d => !([10] : List UInt8).contains d) = 10 :: rest := by
    rw [← cons_append, dropWhile_append_of_pos hall, dropWhile_cons_of_neg (by decide)]
  simp only [myStrtok, hstart, htake, hdrop]

def OsSettings.set (g : OsSettings) (key : String) (val : UInt32) : OsSettings :=
  if cstring key = cstring "sample_rate" then { g with audioSampleRate := val }
  else if cstring key = cstring "buffer_size" then { g with audioBufferSize := val }
  else if cstring key = cstring "buffer_count" then { g with dmaBufferCount := val }
  else if cstring key = cstring "master_vol" then { g with masterVolume := val }
  else g

lemma parseLine_lineOf (g : OsSettings) (val : UInt32)
    (hkey : key ∈ settingsKeys) :
    parseLine g (lineOf key val) = g.set key val := by
  have hpos : ∀ c ∈ cstring key, (c != 61) = true := fun c hc => by
    simp [((keys_plain key hkey).1 c hc).2.2]
  have hfind : myStrchr (lineOf key val) 61 = some (61 :: intToStr val) := by
    rw [myStrchr, lineOf, dropWhile_append_of_pos hpos, dropWhile_cons_of_neg (by decide)]
  have hcut : (lineOf key val).takeWhile (· != 61) = cstring key := by
    rw [lineOf, takeWhile_append_of_pos hpos, takeWhile_cons_of_neg (by decide), append_nil]
  simp only [parseLine, hfind, hcut, tail_cons, myAtoi_intToStr, OsSettings.set]

lemma parseLines_line (fuel : Nat) (g : OsSettings)
    (hkey : key ∈ settingsKeys) :
    parseLines (fuel + 1) (some (lineOf key val ++ 10 :: rest)) g = parseLines fuel (some rest) (g.set key val) := by
  have hne : lineOf key val ≠ [] := by simp [lineOf]
  rw [parseLines, myStrtok_line hne fun c hc => (lineOf_plain hkey c hc).1]
  dsimp only
  rw [parseLine_lineOf g val hkey]

/-- Parsing what was formatted gives the four numbers back, whatever was there before. -/
theorem loadSettings_format (g s : OsSettings) : loadSettings g (formatSettings s 512) = s := by
  have hplain : (formatSettings s 512).takeWhile (· != 0) = formatSettings s 512 := by
    rw [takeWhile_eq_self_iff, formatSettings_eq]
    intro c hc
    have hline : ∀ key ∈ settingsKeys, ∀ val,
        c ∈ lineOf key val → (c != 0) = true := fun key hkey val h => by
      simp [(lineOf_plain hkey c h).2]
    simp only [mem_append, mem_cons, not_mem_nil, or_false] at hc
    rcases hc with h | rfl | h | rfl | h | rfl | h | rfl
    · exact hline _ (by decide) _ h
    · decide
    · exact hline _ (by decide) _ h
    · decide
    · exact hline _ (by decide) _ h
    · decide
    · exact hline _ (by decide) _ h
    · decide
  have hfuel : ∃ k, (formatSettings s 512).length + 1 = k + 1 + 1 + 1 + 1 + 1 := by
    refine ⟨(formatSettings s 512).length - 4, ?_⟩
    rw [formatSettings_eq]
    simp only [length_append, length_cons]
    omega
  obtain ⟨k, hk⟩ := hfuel
  rw [loadSettings, hplain, hk, formatSettings_eq, parseLines_line _ _ (by decide),
    parseLines_line _ _ (by decide), parseLines_line _ _ (by decide), parseLines_line _ _ (by decide)]
  rfl

end

/-! ### A boot -/

section

variable (v : Vfs) (uid : Nat) (path : List UInt8) {data : List UInt8} (h : data.length ≤ VFS_USER_MAX_SIZE)

include h

lemma writeUserFile_isSome : ∃ r, writeUserFile v uid path 0 data = some r := by
  have hmax : VFS_USER_MAX_SIZE = 8192 := rfl
  have hclamp : clampWrite 0 data.length = data.length := by
    rw [clampWrite, if_neg (by omega)]
  rw [writeUserFile]
  rcases (openUserFile v uid path).1 with _ | i
  · exact ⟨_, rfl⟩
  · dsimp only
    rw [storeUserFile, hclamp, if_neg (by omega)]
    exact ⟨_, rfl⟩

lemma vfsWrite_isSome : ∃ r, vfsWrite v uid path 0 data = some r := by
  rw [vfsWrite]
  rcases v.ext2 with _ | fs
  · exact writeUserFile_isSome v uid path h
  · dsimp only
    split_ifs
    · exact ⟨_, rfl⟩
    · exact writeUserFile_isSome _ uid path h
    · exact writeUserFile_isSome _ uid path h

/-- A rewrite that fits a RAM file stays in its array, whichever branch it takes. -/
lemma vfsWriteAll_isSome : ∃ r, vfsWriteAll v uid path data = some r := by
  have hram : ∀ v' : Vfs, ∃ r, writeAllUserFile v' uid path data = some r := by
    intro v'
    rw [writeAllUserFile]
    dsimp only
    rcases (openUserFile v' uid path).1 with _ | i
    · exact ⟨_, rfl⟩
    · exact vfsWrite_isSome _ uid path h
  rw [vfsWriteAll]
  rcases v.ext2 with _ | fs
  · exact hram v
  · dsimp only
    split_ifs
    · exact ⟨_, rfl⟩
    · exact hram _

end

section

variable {v : Vfs} {path data : List UInt8}

lemma settingsSave_isSome (v : Vfs) (uid : Nat) (g : OsSettings) : ∃ v', settingsSave v uid g = some v' := by
  have hmax : VFS_USER_MAX_SIZE = 8192 := rfl
  have hlen := formatSettings_length g
  obtain ⟨r, hr⟩ := vfsWriteAll_isSome v uid SETTINGS_PATH (show (formatSettings g 512).length ≤ _ by omega)
  exact ⟨r.2, by rw [settingsSave, hr]; rfl⟩

/-- With no RAM file, what `vfs_stat_path` does not find `vfs_read` does not read. -/
lemma vfsRead_of_stat (hram : findUserFile v path = none) (hlast : path.getLast? ≠ some slash)
    (hlen : path.length < 64) (h : vfsStatPath v path = none) (count : Nat) :
    vfsRead v path 0 count = some (-1, []) := by
  rw [vfsStatPath, if_neg (by omega), if_neg (by tauto)] at h
  dsimp only at h
  rw [vfsRead]
  rcases hlook : vfsLookup v path with _ | file
  · rw [hlook] at h
    dsimp only at h ⊢
    rw [hram]
    rcases hstat : ext2VfsStat v path with _ | st
    · rcases hext : v.ext2 with _ | fs
      · rfl
      · rw [ext2VfsStat, hext, bind_some] at hstat
        dsimp only at hstat ⊢
        by_cases h0 : ext2LookupInode fs path = 0
        · rw [if_neg (by simp), if_neg (not_not.mpr h0)]
        · rw [if_neg h0, map_eq_none_iff, ext2Stat] at hstat
          have hge : ext2LookupInode fs path ≥ fs.inodesCount := by
            by_contra hlt
            rw [if_neg hlt] at hstat
            cases hstat
          rw [if_neg (by simp), if_pos h0, ext2Read, if_pos hge]
    · rw [hstat] at h
      cases h
  · rw [hlook] at h
    cases h

lemma findUserFile_reboot (heap : Heap) (v : Vfs) (path : List UInt8) : findUserFile (reboot heap v) path = none := by
  rw [findUserFile, find?_eq_none]
  intro i _
  simp [reboot]

lemma settingsInit_eq (heap : Heap) (v : Vfs) (uid : Nat) (g : OsSettings) {garbage : UInt64}
    (h : vfsStatPath (reboot heap v) SETTINGS_PATH ≠ none ∨ garbage.toBitVec.toInt ≠ -1) :
    ∃ v', settingsInit (reboot heap v) uid g garbage = some (defaultSettings, v') := by
  obtain ⟨v', hv'⟩ := settingsSave_isSome (reboot heap v) uid defaultSettings
  refine ⟨v', ?_⟩
  rw [settingsInit, hv']
  rcases hstat : vfsStatPath (reboot heap v) SETTINGS_PATH with _ | st
  · dsimp only
    rw [vfsRead_of_stat (findUserFile_reboot heap v _) (by decide) (by decide) hstat, bind_some,
      if_neg (h.resolve_left (not_not.mpr hstat)).symm]
    exact ite_self _
  · rfl

/-- A sequence of saves.
Source: `settings_save` -/
def settingsSaves (v : Vfs) (uid : Nat) : List OsSettings → Option Vfs
  | [] => some v
  | g :: gs => (settingsSave v uid g).bind fun v' => settingsSaves v' uid gs

lemma settingsSaves_isSome (uid : Nat) (gs : List OsSettings) : ∀ v, ∃ v', settingsSaves v uid gs = some v' := by
  induction gs with
  | nil => exact fun v => ⟨v, rfl⟩
  | cons g gs ih =>
    intro v
    obtain ⟨v1, h1⟩ := settingsSave_isSome v uid g
    rw [settingsSaves, h1]
    exact ih v1

end

set_option maxRecDepth 8192 in
/-- After any saves, a reboot gives the values that were saved last exactly if they are the defaults. The condition
on `garbage` leaves out a stack on which an unfound path is taken for a read of `SIZE_MAX` bytes. -/
theorem settings_survive (heap : Heap) (v : Vfs) (uid : Nat) (earlier : List OsSettings) (s g : OsSettings)
    (garbage : UInt64) : ∃ v₁, settingsSaves v uid (earlier ++ [s]) = some v₁ ∧
      ((vfsStatPath (reboot heap v₁) SETTINGS_PATH).isSome = true ∨ garbage ≠ 2 ^ 64 - 1 →
        ((∃ v₂, settingsInit (reboot heap v₁) uid g garbage = some (s, v₂)) ↔ s = ⟨48000, 512, 32, 100⟩)) := by
  obtain ⟨v₁, h1⟩ := settingsSaves_isSome uid (earlier ++ [s]) v
  refine ⟨v₁, h1, fun h => ?_⟩
  obtain ⟨v₂, h2⟩ := settingsInit_eq heap v₁ uid g (h.imp (fun hfound => isSome_iff_ne_none.mp hfound)
    fun hne htop => hne (UInt64.toBitVec_inj.mp (BitVec.eq_of_toInt_eq (htop.trans (by decide)))))
  rw [h2]
  constructor
  · rintro ⟨v₃, h3⟩
    exact (Prod.mk.inj (Option.some.inj h3)).1.symm
  · rintro rfl
    exact ⟨v₂, rfl⟩

/-- The small device with the directory `/etc`. -/
def freshDisk : Vfs :=
  { bootVfs with ext2 := some (run Op.apply (ext2Format zeroHeap smallDevice)
      [.mkdir (.ofString "//etc") 0o755]) }

set_option maxRecDepth 8192 in
theorem settings_survive_defaults :
    ∃ v₁, settingsSaves freshDisk 0 ([⟨44100, 256, 16, 50⟩] ++ [⟨48000, 512, 32, 100⟩]) = some v₁ ∧
      ∃ v₂, settingsInit (reboot zeroHeap v₁) 0 ⟨0, 0, 0, 0⟩ 0 = some (⟨48000, 512, 32, 100⟩, v₂) := by
  obtain ⟨v₁, h1, h2⟩ := settings_survive zeroHeap freshDisk 0 [⟨44100, 256, 16, 50⟩]
    ⟨48000, 512, 32, 100⟩ ⟨0, 0, 0, 0⟩ 0
  exact ⟨v₁, h1, (h2 (.inr (by decide))).mpr rfl⟩

/-- A save of another rate succeeds, and the next boot has the default rate. -/
theorem settings_lost : (formatSettings ⟨44100, 512, 32, 100⟩ 512).length = 65 ∧
      (vfsWriteAll freshDisk 0 SETTINGS_PATH (formatSettings ⟨44100, 512, 32, 100⟩ 512)).map Prod.fst = some 65 ∧
      ∃ v₁, settingsSave freshDisk 0 ⟨44100, 512, 32, 100⟩ = some v₁ ∧
        ∃ v₂, settingsInit (reboot zeroHeap v₁) 0 ⟨0, 0, 0, 0⟩ 0 = some (⟨48000, 512, 32, 100⟩, v₂) := by
  have htext : formatSettings ⟨44100, 512, 32, 100⟩ 512 =
      cstring "sample_rate=44100\nbuffer_size=512\nbuffer_count=32\nmaster_vol=100\n" := by decide
  obtain ⟨v₁, h1⟩ := settingsSave_isSome freshDisk 0 ⟨44100, 512, 32, 100⟩
  have h2 := settingsInit_eq zeroHeap v₁ 0 ⟨0, 0, 0, 0⟩ (.inr (show (0 : UInt64).toBitVec.toInt ≠ -1 by decide))
  rw [htext]
  exact ⟨by decide, by decide, v₁, h1, h2⟩

end VibeOS
