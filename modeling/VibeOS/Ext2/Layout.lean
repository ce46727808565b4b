import VibeOS.Lib.Bitmap

/-!
# The ext2 layer: device, on-disk structures and block I/O

`Ramdisk` is the block device of `ramdisk.c`; every transfer is assumed to succeed. `Inode` and
`Superblock` keep the fields that some modelled function reads or writes; the remaining fields of
the C structures are zeroed by `ext2_format` and never touched again, so their bytes on disk are
zero. `Ext2Filesystem` is the mounted instance: the in-memory copies of the superblock, the two
bitmaps and the inode table, and the device below them.

Inode numbers are 1-based; `inodeIdx` is the C index `inode_num - 1` in `uint32_t` arithmetic.

Other names are those of `kernel/src/ext2_fs.c`.
-/

namespace VibeOS

open Buf

/-! ### The block device -/

/-- A block device.
Source: `kernel/include/ramdisk.h` `struct ramdisk_device` -/
structure Ramdisk where
  data : Buf
  size : Nat
  blockSize : Nat

/-- A successful transfer of `count` bytes from device block `blockNum`.
Source: `kernel/src/ramdisk.c` -/
def ramdiskRead (dev : Ramdisk) (blockNum count : Nat) : Buf := fun k =>
  if k < count then dev.data (blockNum * dev.blockSize + k) else 0

/-- A successful transfer of `count` bytes to device block `blockNum`.
Source: `kernel/src/ramdisk.c` -/
def ramdiskWrite (dev : Ramdisk) (blockNum : Nat) (buffer : Buf) (count : Nat) : Ramdisk :=
  { dev with data := dev.data.blit (blockNum * dev.blockSize) count buffer }

/-! ### Inodes -/

/-- An inode.
Source: `kernel/include/ext2_fs.h` `struct ext2_inode` -/
structure Inode where
  mode : UInt16
  uid : UInt16
  size : UInt32
  gid : UInt16
  linksCount : UInt16
  blocks : UInt32
  /-- Twelve direct pointers, then the single-, double- and triple-indirect ones. -/
  block : Fin 15 → UInt32

def Inode.zero : Inode := ⟨0, 0, 0, 0, 0, 0, fun _ => 0⟩

def Inode.ptr (ino : Inode) (i : Nat) : Nat := if h : i < 15 then (ino.block ⟨i, h⟩).toNat else 0

def Inode.setPtr (ino : Inode) (i p : Nat) : Inode :=
  { ino with block := fun j => if j.val = i then UInt32.ofNat p else ino.block j }

def EXT2_S_IFMT : UInt16 := 0o170000
def EXT2_S_IFREG : UInt16 := 0o100000
def EXT2_S_IFDIR : UInt16 := 0o040000

def Inode.isDir (ino : Inode) : Bool := ino.mode &&& EXT2_S_IFMT == EXT2_S_IFDIR

/-- The 256 bytes of an inode on disk.
Source: `kernel/include/ext2_fs.h` `struct ext2_inode` (packed) -/
def Inode.encode (ino : Inode) : Buf :=
  (((((((Buf.zero.putU16 0 ino.mode).putU16 2 ino.uid).putU32 4 ino.size).putU16 24 ino.gid).putU16
    26 ino.linksCount).putU32 28 ino.blocks).blit 40 60 fun k =>
      le32 (UInt32.ofNat (ino.ptr (k / 4))) (k % 4))

/-- The inode stored in 256 bytes. -/
def Inode.decode (b : Buf) : Inode where
  mode := b.getU16 0
  uid := b.getU16 2
  size := b.getU32 4
  gid := b.getU16 24
  linksCount := b.getU16 26
  blocks := b.getU32 28
  block := fun i => b.getU32 (40 + 4 * i.val)

/-! ### The superblock -/

/-- The superblock.
Source: `kernel/include/ext2_fs.h` `struct ext2_superblock` -/
structure Superblock where
  inodesCount : UInt32
  blocksCount : UInt32
  freeBlocks : UInt32
  freeInodes : UInt32
  firstDataBlock : UInt32
  logBlockSize : UInt32
  blocksPerGroup : UInt32
  inodesPerGroup : UInt32
  magic : UInt16
  /-- Computed: `1024 << log_block_size`. -/
  blockSize : UInt32
  version : UInt32

def Superblock.zero : Superblock := ⟨0, 0, 0, 0, 0, 0, 0, 0, 0, 0, 0⟩

/-- The bytes of the superblock on disk.
Source: `kernel/include/ext2_fs.h` `struct ext2_superblock` -/
def Superblock.encode (sb : Superblock) : Buf :=
  ((((((((((Buf.zero.putU32 0 sb.inodesCount).putU32 4 sb.blocksCount).putU32 12
    sb.freeBlocks).putU32 16 sb.freeInodes).putU32 20 sb.firstDataBlock).putU32 24
    sb.logBlockSize).putU32 28 sb.blocksPerGroup).putU32 32 sb.inodesPerGroup).putU16 56
    sb.magic).putU32 112 sb.blockSize).putU32 116 sb.version

def Superblock.decode (b : Buf) : Superblock where
  inodesCount := b.getU32 0
  blocksCount := b.getU32 4
  freeBlocks := b.getU32 12
  freeInodes := b.getU32 16
  firstDataBlock := b.getU32 20
  logBlockSize := b.getU32 24
  blocksPerGroup := b.getU32 28
  inodesPerGroup := b.getU32 32
  magic := b.getU16 56
  blockSize := b.getU32 112
  version := b.getU32 116

/-! ### The mounted filesystem -/

/-- A mounted filesystem.
Source: `kernel/include/ext2_fs.h` `struct ext2_filesystem` -/
structure Ext2Filesystem where
  device : Ramdisk
  superblock : Superblock
  blockBitmap : Buf
  inodeBitmap : Buf
  /-- The inode table, by index; past `inodes_count` it is the memory behind the allocation. -/
  inodeTable : Nat → Inode

def EXT2_MAGIC : UInt16 := 0xEF53
def EXT2_BLOCK_SIZE : Nat := 1024
def EXT2_ROOT_INODE : Nat := 2

/-- `inode_num - 1` in `uint32_t`. -/
def inodeIdx (n : Nat) : Nat := if n = 0 then 0xFFFFFFFF else n - 1

namespace Ext2Filesystem

variable (fs : Ext2Filesystem)

def bs : Nat := fs.superblock.blockSize.toNat

def inodesCount : Nat := fs.superblock.inodesCount.toNat

def blocksCount : Nat := fs.superblock.blocksCount.toNat

def firstDataBlock : Nat := fs.superblock.firstDataBlock.toNat

def inode (n : Nat) : Inode := fs.inodeTable (inodeIdx n)

def setInode (n : Nat) (ino : Inode) : Ext2Filesystem :=
  { fs with inodeTable := fun i => if i = inodeIdx n then ino else fs.inodeTable i }

def blockUsed (i : Nat) : Bool := Bitmap.bit fs.blockBitmap i

/-- Inode `n` is marked used in `fs->inode_bitmap`. -/
def inodeUsed (n : Nat) : Bool :=
  decide (1 ≤ n ∧ n ≤ fs.inodesCount) && Bitmap.bit fs.inodeBitmap (n - 1)

end Ext2Filesystem

open Ext2Filesystem

variable (fs : Ext2Filesystem)

def ext2ReadBlock (blockNum : Nat) : Buf :=
  ramdiskRead fs.device (blockNum * fs.bs / fs.device.blockSize) fs.bs

def ext2WriteBlock (blockNum : Nat) (buffer : Buf) : Ext2Filesystem :=
  { fs with
    device := ramdiskWrite fs.device (blockNum * fs.bs / fs.device.blockSize) buffer fs.bs }

/-! ### Allocation -/

/-- Take the first clear block at or after `first_data_block`; `0` when there is none. -/
def ext2AllocBlock : Nat × Ext2Filesystem :=
  let start := if fs.firstDataBlock < 1 then 1 else fs.firstDataBlock
  match Bitmap.firstClear fs.blockBitmap start (fs.blocksCount - start) with
  | some i =>
    (i, { fs with
      blockBitmap := Bitmap.setBit fs.blockBitmap i
      superblock := { fs.superblock with freeBlocks := fs.superblock.freeBlocks - 1 } })
  | none => (0, fs)

def ext2FreeBlock (blockNum : Nat) : Ext2Filesystem :=
  if blockNum < fs.blocksCount then
    { fs with
      blockBitmap := Bitmap.clearBit fs.blockBitmap blockNum
      superblock := { fs.superblock with freeBlocks := fs.superblock.freeBlocks + 1 } }
  else fs

/-- Take the first clear inode past the ten reserved ones; `0` when there is none. -/
def ext2AllocInodeNum : Nat × Ext2Filesystem :=
  match Bitmap.firstClear fs.inodeBitmap 11 (fs.inodesCount - 11) with
  | some i =>
    (i + 1, { fs with
      inodeBitmap := Bitmap.setBit fs.inodeBitmap i
      superblock := { fs.superblock with freeInodes := fs.superblock.freeInodes - 1 } })
  | none => (0, fs)

def ext2FreeInodeNum (inodeNum : Nat) : Ext2Filesystem :=
  if 0 < inodeNum ∧ inodeNum ≤ fs.inodesCount then
    { fs with
      inodeBitmap := Bitmap.clearBit fs.inodeBitmap (inodeNum - 1)
      superblock := { fs.superblock with freeInodes := fs.superblock.freeInodes + 1 } }
  else fs

/-! ### Write-back -/

/-- The number of blocks of the block bitmap, in `uint32_t` arithmetic.
Source: `bb_blks` in `ext2_write_inode`, `ext2_write_bitmaps`,
`ext2_format` and `ext2_mount` -/
def bbBlks : Nat :=
  (fs.blocksCount + 8 * fs.bs - 1) % 2 ^ 32 / (8 * fs.bs)

def INODE_SIZE : Nat := 256

def inodeBlockNum (n : Nat) : Nat :=
  2 + bbBlks fs + 1 + inodeIdx n * INODE_SIZE / fs.bs

def inodeOffset (n : Nat) : Nat := inodeIdx n * INODE_SIZE % fs.bs

/-- Write the in-memory inode back to its place in the table on disk. -/
def ext2WriteInode (inodeNum : Nat) : Ext2Filesystem :=
  if inodeNum = 0 ∨ inodeNum > fs.inodesCount then fs
  else
    let block := ext2ReadBlock fs (inodeBlockNum fs inodeNum)
    ext2WriteBlock fs (inodeBlockNum fs inodeNum)
      (block.blit (inodeOffset fs inodeNum) INODE_SIZE (fs.inode inodeNum).encode)

def ext2WriteSuperblock : Ext2Filesystem :=
  ext2WriteBlock fs 1 fs.superblock.encode

/-- The `i`-th block of the block bitmap, zero-padded. -/
def blockBitmapBlock (i : Nat) : Buf :=
  let off := i * fs.bs
  let blockBitmapSize := (fs.blocksCount + 7) / 8
  let len := if off + fs.bs > blockBitmapSize then blockBitmapSize - off else fs.bs
  Buf.zero.blit 0 len fun k => fs.blockBitmap (off + k)

/-- The inode bitmap's block, zero-padded. -/
def inodeBitmapBlock : Buf :=
  Buf.zero.blit 0 ((fs.inodesCount + 7) / 8) fs.inodeBitmap

def ext2WriteBitmaps : Ext2Filesystem :=
  let fs1 := (List.range (bbBlks fs)).foldl
    (fun f i => ext2WriteBlock f (2 + i) (blockBitmapBlock fs i)) fs
  ext2WriteBlock fs1 (2 + bbBlks fs) (inodeBitmapBlock fs)

end VibeOS
