import VibeOS.Ext2.Layout

/-!
# Directories: entries, lookup, insertion and listing

The four walks over a directory block (`find_entry_in_dir`, `add_entry_to_dir`, the removal and
counting loops of `ext2_unlink`, `ext2_readdir`) are separate loops in the source and separate
functions here. Each runs on `fuel`, the number of entries it may still visit; an entry with
`rec_len = 0` stops the walk and any other one advances the offset, so one unit of fuel for each
byte of the block is always enough.

Other names are those of `kernel/src/ext2_fs.c`.
-/

namespace VibeOS

open Buf Ext2Filesystem

def slash : UInt8 := 47

def cstring (s : String) : List UInt8 := s.toList.map fun c => UInt8.ofNat c.toNat

/-- A directory entry.
Source: `kernel/include/ext2_fs.h` `struct ext2_dir_entry` -/
structure DirEntry where
  inode : UInt32
  recLen : UInt16
  nameLen : UInt8
  fileType : UInt8
  /-- The `name_len` bytes after the header. -/
  name : List UInt8
  deriving DecidableEq

def dirEntryAt (block : Buf) (off : Nat) : DirEntry where
  inode := block.getU32 off
  recLen := block.getU16 (off + 4)
  nameLen := block (off + 6)
  fileType := block (off + 7)
  name := block.slice (off + 8) (block (off + 6)).toNat

def entryLen (nameLen : Nat) : Nat := (8 + nameLen + 3) / 4 * 4

/-- A C string: the bytes before the first NUL. -/
def cstr (l : List UInt8) : List UInt8 := l.takeWhile (· ≠ 0)

/-! ### Lookup -/

/-- The inner loop of `find_entry_in_dir`.
Source: `find_entry_in_dir` -/
def findInBlock (block : Buf) (size bs : Nat) (name : List UInt8) : (fuel off : Nat) → Nat
  | 0, _ => 0
  | fuel + 1, off =>
    if off < size ∧ off < bs then
      let entry := dirEntryAt block off
      if entry.inode ≠ 0 ∧ entry.nameLen > 0 ∧ cstr entry.name = name then entry.inode.toNat
      else if entry.recLen = 0 then 0
      else findInBlock block size bs name fuel (off + entry.recLen.toNat)
    else 0

/-- The outer loop of `find_entry_in_dir`, over the direct pointers.
Source: `find_entry_in_dir` -/
def findInBlocks (fs : Ext2Filesystem) (dirInode : Inode) (name : List UInt8) : List Nat → Nat
  | [] => 0
  | i :: is =>
    if dirInode.ptr i = 0 then 0
    else
      let found := findInBlock (ext2ReadBlock fs (dirInode.ptr i)) dirInode.size.toNat fs.bs name
        fs.bs 0
      if found ≠ 0 then found else findInBlocks fs dirInode name is

/-- The inode number of `name` in a directory, `0` when it is not there. -/
def findEntryInDir (fs : Ext2Filesystem) (dirInodeNum : Nat) (name : List UInt8) : Nat :=
  if dirInodeNum ≥ fs.inodesCount then 0
  else if ¬ (fs.inode dirInodeNum).isDir then 0
  else findInBlocks fs (fs.inode dirInodeNum) name (List.range 12)

/-- The next component of a path and what follows it; the component buffer holds 255 bytes. -/
def parsePathComponent (path : List UInt8) : List UInt8 × List UInt8 :=
  let p := path.dropWhile (· = slash)
  let component := (p.takeWhile (· ≠ slash)).take 255
  (component, p.drop component.length)

/-- The loop of `ext2_lookup_inode`.
Source: `ext2_lookup_inode` -/
def lookupGo (fs : Ext2Filesystem) : (fuel : Nat) → List UInt8 → Nat → Nat
  | 0, _, current => current
  | fuel + 1, path, current =>
    let (component, rest) := parsePathComponent path
    if component = [] then current
    else
      let next := findEntryInDir fs current component
      if next = 0 then 0 else lookupGo fs fuel rest next

/-- The inode a path names, `0` when there is none. Every component takes at least one byte, so
the path's length is enough fuel. -/
def ext2LookupInode (fs : Ext2Filesystem) (path : List UInt8) : Nat :=
  if path = [] then 0
  else if path = [slash] then EXT2_ROOT_INODE
  else lookupGo fs path.length path EXT2_ROOT_INODE

/-! ### Insertion -/

/-- Fill in an entry's inode, name and type, leaving its `rec_len`. -/
def fillEntry (block : Buf) (off inodeNum : Nat) (name : List UInt8) (fileType : UInt8) : Buf :=
  (((block.putU32 off (UInt32.ofNat inodeNum)).putU8 (off + 6) (UInt8.ofNat name.length)).putU8
    (off + 7) fileType).putList (off + 8) name

/-- The scan of one block for room: reuse a dead entry or split a live one.
Source: `add_entry_to_dir` -/
def addInBlock (block : Buf) (bs newInodeNum : Nat) (name : List UInt8) (fileType : UInt8) :
    (fuel off : Nat) → Option Buf
  | 0, _ => none
  | fuel + 1, off =>
    if off < bs then
      let entry := dirEntryAt block off
      let usedLen := entryLen entry.nameLen.toNat
      let neededLen := entryLen name.length
      if entry.inode = 0 ∧ entry.recLen.toNat ≥ neededLen then
        some (fillEntry block off newInodeNum name fileType)
      else if entry.inode ≠ 0 ∧ entry.recLen.toNat ≥ usedLen + neededLen then
        let block1 := block.putU16 (off + 4) (UInt16.ofNat usedLen)
        let block2 := block1.putU16 (off + usedLen + 4)
          (UInt16.ofNat (entry.recLen.toNat - usedLen))
        some (fillEntry block2 (off + usedLen) newInodeNum name fileType)
      else if entry.recLen = 0 then none
      else addInBlock block bs newInodeNum name fileType fuel (off + entry.recLen.toNat)
    else none

/-- A fresh directory block holding one entry.
Source: `add_entry_to_dir` -/
def newEntryBlock (bs newInodeNum : Nat) (name : List UInt8) (fileType : UInt8) : Buf :=
  fillEntry (Buf.zero.putU16 4 (UInt16.ofNat bs)) 0 newInodeNum name fileType

/-- The loop of `add_entry_to_dir` over the direct pointers; `none` is the result `-1`.
Source: `add_entry_to_dir` -/
def addInBlocks (fs : Ext2Filesystem) (dirInodeNum newInodeNum : Nat) (name : List UInt8)
    (fileType : UInt8) : List Nat → Option Ext2Filesystem
  | [] => none
  | i :: is =>
    let dirInode := fs.inode dirInodeNum
    if dirInode.ptr i = 0 then
      let (newBlock, fs1) := ext2AllocBlock fs
      if newBlock = 0 then none
      else
        let dirInode1 := { dirInode.setPtr i newBlock with
          size := dirInode.size + fs.superblock.blockSize
          blocks := dirInode.blocks + fs.superblock.blockSize / 512 }
        let fs2 := fs1.setInode dirInodeNum dirInode1
        let fs3 := ext2WriteBlock fs2 newBlock (newEntryBlock fs.bs newInodeNum name fileType)
        some (ext2WriteInode fs3 dirInodeNum)
    else
      match addInBlock (ext2ReadBlock fs (dirInode.ptr i)) fs.bs newInodeNum name fileType
          fs.bs 0 with
      | some block => some (ext2WriteBlock fs (dirInode.ptr i) block)
      | none => addInBlocks fs dirInodeNum newInodeNum name fileType is

/-- Add an entry to a directory; `none` is the result `-1`. -/
def addEntryToDir (fs : Ext2Filesystem) (dirInodeNum newInodeNum : Nat) (name : List UInt8)
    (fileType : UInt8) : Option Ext2Filesystem :=
  if dirInodeNum = 0 ∨ dirInodeNum ≥ fs.inodesCount then none
  else if ¬ (fs.inode dirInodeNum).isDir then none
  else addInBlocks fs dirInodeNum newInodeNum name fileType (List.range 12)

/-! ### Removal -/

/-- The scan of one block for `name`: the inode it named and the block without the entry, which is
merged into its predecessor or, at the start of the block, marked dead.
Source: `ext2_unlink` -/
def removeInBlock (block : Buf) (bs : Nat) (name : List UInt8) :
    (fuel off : Nat) → (prev : Option Nat) → Option (Nat × Buf)
  | 0, _, _ => none
  | fuel + 1, off, prev =>
    if off < bs then
      let e := dirEntryAt block off
      if e.recLen = 0 then none
      else if e.inode ≠ 0 ∧ e.nameLen.toNat = name.length ∧ e.name = name then
        match prev with
        | some p => some (e.inode.toNat, block.putU16 (p + 4) ((dirEntryAt block p).recLen + e.recLen))
        | none => some (e.inode.toNat, block.putU32 off 0)
      else removeInBlock block bs name fuel (off + e.recLen.toNat) (some off)
    else none

/-- The removal loop of `ext2_unlink` over the direct pointers of the parent.
Source: `ext2_unlink` -/
def removeInBlocks (fs : Ext2Filesystem) (dir : Inode) (name : List UInt8) : List Nat → Option (Nat × Ext2Filesystem)
  | [] => none
  | i :: is =>
    if dir.ptr i = 0 then removeInBlocks fs dir name is
    else
      match removeInBlock (ext2ReadBlock fs (dir.ptr i)) fs.bs name fs.bs 0 none with
      | some (target, block) => some (target, ext2WriteBlock fs (dir.ptr i) block)
      | none => removeInBlocks fs dir name is

/-- The number of live entries of a block.
Source: `ext2_unlink` -/
def countEntries (block : Buf) (bs : Nat) : (fuel off : Nat) → Nat
  | 0, _ => 0
  | fuel + 1, off =>
    if off < bs then
      let e := dirEntryAt block off
      if e.recLen = 0 then 0
      else (if e.inode ≠ 0 then 1 else 0) + countEntries block bs fuel (off + e.recLen.toNat)
    else 0

/-! ### Listing -/

/-- The inner loop of `ext2_readdir`; `room` is the space left in the caller's array.
Source: `ext2_readdir` -/
def readdirBlock (block : Buf) (size bs : Nat) : (fuel off room : Nat) → List DirEntry
  | 0, _, _ => []
  | fuel + 1, off, room =>
    if off < size ∧ off < bs ∧ 0 < room then
      let entry := dirEntryAt block off
      if entry.recLen = 0 then []
      else if entry.inode ≠ 0 ∧ entry.nameLen > 0 then
        entry :: readdirBlock block size bs fuel (off + entry.recLen.toNat) (room - 1)
      else readdirBlock block size bs fuel (off + entry.recLen.toNat) room
    else []

/-- The outer loop of `ext2_readdir`.
Source: `ext2_readdir` -/
def readdirBlocks (fs : Ext2Filesystem) (inode : Inode) : List Nat → Nat → List DirEntry
  | [], _ => []
  | i :: is, room =>
    if inode.ptr i = 0 ∨ room = 0 then []
    else
      let found := readdirBlock (ext2ReadBlock fs (inode.ptr i)) inode.size.toNat fs.bs fs.bs 0
        room
      found ++ readdirBlocks fs inode is (room - found.length)

/-- The entries of a directory, at most `maxEntries` of them. -/
def ext2Readdir (fs : Ext2Filesystem) (inodeNum maxEntries : Nat) : List DirEntry :=
  if inodeNum ≥ fs.inodesCount ∨ maxEntries = 0 then []
  else if ¬ (fs.inode inodeNum).isDir then []
  else readdirBlocks fs (fs.inode inodeNum) (List.range 12) maxEntries

end VibeOS
