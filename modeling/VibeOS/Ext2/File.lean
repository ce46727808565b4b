import VibeOS.Ext2.Dir

/-!
# Regular files: block mapping, reading, writing and truncation

`ext2BmapAlloc` is the writer's block map, which allocates on the way; `readBlockMap` is the
reader's own one, with its cached tables. The loops of `ext2_read` and `ext2_write` handle one
block for each step and stop at the first unmapped one. Past the double-indirect range every
block is unmapped, so `mapLimit + 1` steps are always enough.

Other names are those of `kernel/src/ext2_fs.c`.
-/

namespace VibeOS

open Buf Ext2Filesystem

/-! ### Pointer tables -/

def Ext2Filesystem.ptrs (fs : Ext2Filesystem) : Nat := fs.bs / 4

/-- One past the last block index of the double-indirect range. -/
def mapLimit (fs : Ext2Filesystem) : Nat := 12 + fs.ptrs + fs.ptrs * fs.ptrs

def ext2PtrGet (fs : Ext2Filesystem) (tableBlock idx : Nat) : Nat :=
  ((ext2ReadBlock fs tableBlock).getU32 (4 * idx)).toNat

def ext2PtrSet (fs : Ext2Filesystem) (tableBlock idx val : Nat) : Ext2Filesystem :=
  ext2WriteBlock fs tableBlock
    ((ext2ReadBlock fs tableBlock).putU32 (4 * idx) (UInt32.ofNat val))

def addSectors (fs : Ext2Filesystem) (inodeNum : Nat) : Ext2Filesystem :=
  let inode := fs.inode inodeNum
  fs.setInode inodeNum
    { inode with blocks := inode.blocks + fs.superblock.blockSize / 512 }

def zeroBlock (fs : Ext2Filesystem) (blockNum : Nat) : Ext2Filesystem :=
  ext2WriteBlock fs blockNum Buf.zero

/-- Make sure `inode->block[k]` is allocated; a table (`table = true`) starts out zeroed. The
result is `0` when no block is free.
Source: `ext2_bmap_alloc` -/
def ensureRoot (fs : Ext2Filesystem) (inodeNum k : Nat) (table : Bool) : Nat × Ext2Filesystem :=
  if (fs.inode inodeNum).ptr k = 0 then
    let (nb, fs1) := ext2AllocBlock fs
    if nb = 0 then (0, fs1)
    else
      let fs2 := if table then zeroBlock fs1 nb else fs1
      let fs3 := fs2.setInode inodeNum ((fs2.inode inodeNum).setPtr k nb)
      (nb, addSectors fs3 inodeNum)
  else ((fs.inode inodeNum).ptr k, fs)

/-- Make sure entry `idx` of a table block is allocated.
Source: `ext2_bmap_alloc` -/
def ensureEntry (fs : Ext2Filesystem) (inodeNum tableBlock idx : Nat) (table : Bool) : Nat × Ext2Filesystem :=
  if ext2PtrGet fs tableBlock idx = 0 then
    let (db, fs1) := ext2AllocBlock fs
    if db = 0 then (0, fs1)
    else
      let fs2 := if table then zeroBlock fs1 db else fs1
      (db, addSectors (ext2PtrSet fs2 tableBlock idx db) inodeNum)
  else (ext2PtrGet fs tableBlock idx, fs)

/-- Map a logical block index to a physical block, allocating data and table blocks on the way;
`0` on failure. -/
def ext2BmapAlloc (fs : Ext2Filesystem) (inodeNum bi : Nat) : Nat × Ext2Filesystem :=
  let ptrs := fs.ptrs
  if bi < 12 then ensureRoot fs inodeNum bi false
  else if bi < 12 + ptrs then
    let (table, fs1) := ensureRoot fs inodeNum 12 true
    if table = 0 then (0, fs1) else ensureEntry fs1 inodeNum table (bi - 12) false
  else if bi < 12 + ptrs + ptrs * ptrs then
    let di := bi - 12 - ptrs
    let (table, fs1) := ensureRoot fs inodeNum 13 true
    if table = 0 then (0, fs1)
    else
      let (l2blk, fs2) := ensureEntry fs1 inodeNum table (di / ptrs) true
      if l2blk = 0 then (0, fs2) else ensureEntry fs2 inodeNum l2blk (di % ptrs) false
  else (0, fs)

/-! ### Writing -/

/-- The loop of `ext2_write`.
Source: `ext2_write` -/
def writeLoop (inodeNum offset : Nat) (data : List UInt8) :
    (fuel : Nat) → Ext2Filesystem → (bytesWritten : Nat) → Nat × Ext2Filesystem
  | 0, fs, bytesWritten => (bytesWritten, fs)
  | fuel + 1, fs, bytesWritten =>
    if bytesWritten < data.length then
      let blockIndex := (offset + bytesWritten) / fs.bs % 2 ^ 32
      let blockOffset := (offset + bytesWritten) % fs.bs
      let (dataBlock, fs1) := ext2BmapAlloc fs inodeNum blockIndex
      if dataBlock = 0 then (bytesWritten, fs1)
      else
        -- a whole block is overwritten entirely, so what the buffer held does not matter
        let blockBuffer :=
          if blockOffset ≠ 0 ∨ data.length - bytesWritten < fs.bs then
            ext2ReadBlock fs1 dataBlock
          else Buf.zero
        let chunk := min (data.length - bytesWritten) (fs.bs - blockOffset)
        let fs2 := ext2WriteBlock fs1 dataBlock
          (blockBuffer.blit blockOffset chunk fun k => data.getD (bytesWritten + k) 0)
        writeLoop inodeNum offset data fuel fs2 (bytesWritten + chunk)
    else (bytesWritten, fs)

/-- Write `data` at `offset`; the number of bytes written, or `-1`. -/
def ext2Write (fs : Ext2Filesystem) (inodeNum : Nat) (offset : UInt32) (data : List UInt8) : Int × Ext2Filesystem :=
  if inodeNum ≥ fs.inodesCount then (-1, fs)
  else if (fs.inode inodeNum).isDir then (-1, fs)
  else
    let (bytesWritten, fs1) := writeLoop inodeNum offset.toNat data (mapLimit fs + 1) fs 0
    let inode := fs1.inode inodeNum
    let fs2 :=
      if offset.toNat + bytesWritten > inode.size.toNat then
        fs1.setInode inodeNum { inode with size := UInt32.ofNat (offset.toNat + bytesWritten) }
      else fs1
    (bytesWritten, ext2WriteBitmaps (ext2WriteSuperblock (ext2WriteInode fs2 inodeNum)))

def ext2Truncate (fs : Ext2Filesystem) (path : List UInt8) : Int × Ext2Filesystem :=
  let inodeNum := ext2LookupInode fs path
  if inodeNum = 0 ∨ inodeNum ≥ fs.inodesCount then (-1, fs)
  else
    let fs1 := fs.setInode inodeNum { fs.inode inodeNum with size := 0 }
    (0, ext2WriteInode fs1 inodeNum)

/-! ### Reading -/

/-- The table buffers `ext2_read` keeps across its loop.
Source: `ext2_read` -/
structure ReadCache where
  indirectBuffer : Option Buf
  dindBuffer : Option Buf
  dindL2Cached : Nat
  dindL2Buffer : Buf

def ReadCache.empty : ReadCache := ⟨none, none, 0, Buf.zero⟩

/-- The reader's block map: the physical block (`0` for a hole) and the buffers after it. `none`
is an access outside the first-level table: with `block[12] = 0` the single-indirect range falls
through to the double-indirect branch, whose index then wraps below zero.
Source: `ext2_read` -/
def readBlockMap (fs : Ext2Filesystem) (inode : Inode) (cache : ReadCache) (blockIndex : Nat) :
    Option (Nat × ReadCache) :=
  let ptrs := fs.ptrs
  if blockIndex < 12 then some (inode.ptr blockIndex, cache)
  else if blockIndex < 12 + ptrs ∧ inode.ptr 12 ≠ 0 then
    let indirect := cache.indirectBuffer.getD (ext2ReadBlock fs (inode.ptr 12))
    some ((indirect.getU32 (4 * (blockIndex - 12))).toNat, { cache with indirectBuffer := some indirect })
  else if blockIndex < 12 + ptrs + ptrs * ptrs ∧ inode.ptr 13 ≠ 0 then
    let di := (blockIndex + 2 ^ 32 - 12 - ptrs) % 2 ^ 32
    let dind := cache.dindBuffer.getD (ext2ReadBlock fs (inode.ptr 13))
    let cache1 := { cache with dindBuffer := some dind }
    if di / ptrs ≥ ptrs then none
    else
      let l2Block := (dind.getU32 (4 * (di / ptrs))).toNat
      if l2Block = 0 then some (0, cache1)
      else
        let l2 := if cache.dindL2Cached ≠ l2Block then ext2ReadBlock fs l2Block
          else cache.dindL2Buffer
        some ((l2.getU32 (4 * (di % ptrs))).toNat, { cache1 with dindL2Cached := l2Block, dindL2Buffer := l2 })
  else some (0, cache)

/-- The loop of `ext2_read`: the byte count and what was stored in the caller's buffer. At a hole
the rest of the buffer is zeroed and the loop ends.
Source: `ext2_read` -/
def readLoop (fs : Ext2Filesystem) (inode : Inode) (offset size : Nat) :
    (fuel : Nat) → ReadCache → (buffer : List UInt8) → Option (Nat × List UInt8)
  | 0, _, buffer => some (buffer.length, buffer)
  | fuel + 1, cache, buffer =>
    if buffer.length < size then
      let blockIndex := (offset + buffer.length) / fs.bs % 2 ^ 32
      let blockOffset := (offset + buffer.length) % fs.bs
      match readBlockMap fs inode cache blockIndex with
      | none => none
      | some (dataBlock, cache1) =>
        if dataBlock = 0 then
          some (buffer.length, buffer ++ List.replicate (size - buffer.length) 0)
        else
          let chunk := min (size - buffer.length) (fs.bs - blockOffset)
          readLoop fs inode offset size fuel cache1
            (buffer ++ (ext2ReadBlock fs dataBlock).slice blockOffset chunk)
    else some (buffer.length, buffer)

/-- Read up to `size` bytes at `offset`: the result and the caller's buffer. The end of the range
is computed in `size_t`. -/
def ext2Read (fs : Ext2Filesystem) (inodeNum : Nat) (offset : UInt32) (size : Nat) : Option (Int × List UInt8) :=
  if inodeNum ≥ fs.inodesCount then some (-1, [])
  else
    let inode := fs.inode inodeNum
    if offset.toNat ≥ inode.size.toNat then some (0, [])
    else
      let size := if (offset.toNat + size) % 2 ^ 64 > inode.size.toNat then
        inode.size.toNat - offset.toNat else size
      (readLoop fs inode offset.toNat size (mapLimit fs + 1) ReadCache.empty []).map
        fun r => ((r.1 : Int), r.2)

def ext2Stat (fs : Ext2Filesystem) (inodeNum : Nat) : Option Inode :=
  if inodeNum ≥ fs.inodesCount then none else some (fs.inode inodeNum)

end VibeOS
