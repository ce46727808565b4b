import VibeOS.Ext2.File

/-!
# Creating, removing, formatting and mounting

The path-level operations of `ext2_fs.c`. A path is the list of its bytes, without the final NUL.
`Heap` is what `kmalloc` returns before the caller initialises it; `ext2Format` and `ext2Mount`
read it only where the source leaves memory uninitialised.

Other names are those of `kernel/src/ext2_fs.c`.
-/

namespace VibeOS

open Buf Ext2Filesystem

/-! ### Splitting paths -/

def strrchr (l : List UInt8) (c : UInt8) : Nat := l.length - 1 - l.reverse.idxOf c

/-- The parent path and the last component of an absolute path.
Source: `ext2_create`, `ext2_unlink` -/
def splitParent (path : List UInt8) : List UInt8 × List UInt8 :=
  let last := strrchr path slash
  if last = 0 then ([slash], path.drop 1) else (path.take last, path.drop (last + 1))

/-- The same split as `ext2_mkdir` makes it, in its own copy of the path: for `/dir` it ends the copy behind the
first byte and then takes the name from it, which is empty.
Source: `ext2_mkdir` -/
def splitDir (path : List UInt8) : List UInt8 × List UInt8 :=
  let last := strrchr path slash
  if last = 0 then ([slash], []) else (path.take last, path.drop (last + 1))

/-- `ext2_mkdir` splits a path as the other calls do, or loses the name. -/
lemma splitDir_cases (path : List UInt8) : splitDir path = splitParent path ∨ (splitDir path).2 = [] := by
  unfold splitDir splitParent
  dsimp only
  split_ifs
  · exact .inr rfl
  · exact .inl rfl

/-- Drop trailing slashes, but never the first byte. Works on the reversed path.
Source: `ext2_mkdir` -/
def stripGo : List UInt8 → List UInt8
  | c :: d :: l => if c = slash then stripGo (d :: l) else c :: d :: l
  | l => l

/-- Drop trailing slashes.
Source: `ext2_mkdir` -/
def stripTrailing (path : List UInt8) : List UInt8 := (stripGo path.reverse).reverse

/-! ### Creation -/

/-- `(mode & ~EXT2_S_IFMT) | type`. -/
def withType (mode type : UInt16) : UInt16 := (mode &&& ~~~ EXT2_S_IFMT) ||| type

/-- Create an empty regular file; its inode number, `0` on failure. -/
def ext2Create (fs : Ext2Filesystem) (path : List UInt8) (mode : UInt16) : Nat × Ext2Filesystem :=
  if path.head? ≠ some slash then (0, fs)
  else
    let (parentPath, name) := splitParent path
    if name = [] then (0, fs)
    else
      let parentInode := ext2LookupInode fs parentPath
      if parentInode = 0 then (0, fs)
      else if findEntryInDir fs parentInode name ≠ 0 then (0, fs)
      else
        let (newInodeNum, fs1) := ext2AllocInodeNum fs
        if newInodeNum = 0 then (0, fs1)
        else
          let newInode := { (fs1.inode newInodeNum).setPtr 0 0 with
            mode := withType mode EXT2_S_IFREG
            uid := 0
            gid := 0
            size := 0
            linksCount := 1
            blocks := 0 }
          let fs2 := fs1.setInode newInodeNum newInode
          match addEntryToDir fs2 parentInode newInodeNum name 1 with
          | none => (0, ext2FreeInodeNum fs2 newInodeNum)
          | some fs3 =>
            (newInodeNum, ext2WriteBitmaps (ext2WriteSuperblock (ext2WriteInode fs3 newInodeNum)))

/-- The first block of a directory: `.` and `..`.
Source: `ext2_mkdir`, `ext2_format` -/
def dotBlock (bs self parent : Nat) : Buf :=
  let dot := fillEntry (Buf.zero.putU16 4 12) 0 self [46] 2
  fillEntry (dot.putU16 (12 + 4) (UInt16.ofNat (bs - 12))) 12 parent [46, 46] 2

/-- Create a directory; its inode number, `0` on failure. -/
def ext2Mkdir (fs : Ext2Filesystem) (path : List UInt8) (mode : UInt16) : Nat × Ext2Filesystem :=
  if path.head? ≠ some slash then (0, fs)
  else if (stripTrailing path).length ≥ 256 then (0, fs)
  else
    let (parentPath, name) := splitDir (stripTrailing path)
    if name = [] then (0, fs)
    else
      let parentInode := ext2LookupInode fs parentPath
      if parentInode = 0 then (0, fs)
      else if findEntryInDir fs parentInode name ≠ 0 then (0, fs)
      else
        let (newInodeNum, fs1) := ext2AllocInodeNum fs
        if newInodeNum = 0 then (0, fs1)
        else
          let (newBlock, fs2) := ext2AllocBlock fs1
          if newBlock = 0 then (0, ext2FreeInodeNum fs2 newInodeNum)
          else
            let newInode := { (fs2.inode newInodeNum).setPtr 0 newBlock with
              mode := withType mode EXT2_S_IFDIR
              uid := 0
              gid := 0
              size := fs.superblock.blockSize
              linksCount := 2
              blocks := fs.superblock.blockSize / 512 }
            let fs3 := fs2.setInode newInodeNum newInode
            let fs4 := ext2WriteBlock fs3 newBlock (dotBlock fs.bs newInodeNum parentInode)
            match addEntryToDir fs4 parentInode newInodeNum name 2 with
            | none => (0, ext2FreeInodeNum (ext2FreeBlock fs4 newBlock) newInodeNum)
            | some fs5 =>
              let parent := fs5.inode parentInode
              let fs6 := fs5.setInode parentInode
                { parent with linksCount := parent.linksCount + 1 }
              let fs7 := ext2WriteInode (ext2WriteInode fs6 newInodeNum) parentInode
              (newInodeNum, ext2WriteBitmaps (ext2WriteSuperblock fs7))

/-! ### Removal -/

/-- Free the direct blocks of an inode and clear its direct pointers.
Source: `ext2_unlink` -/
def freeDirect (fs : Ext2Filesystem) (inodeNum : Nat) : List Nat → Ext2Filesystem
  | [] => fs
  | i :: is =>
    let ti := fs.inode inodeNum
    if ti.ptr i ≠ 0 then
      freeDirect ((ext2FreeBlock fs (ti.ptr i)).setInode inodeNum (ti.setPtr i 0)) inodeNum is
    else freeDirect fs inodeNum is

/-- The directory is too full to be removed: its first block has more than two live entries.
Source: `ext2_unlink` -/
def dirNotEmpty (fs : Ext2Filesystem) (ti : Inode) : Bool :=
  ti.isDir && decide (ti.ptr 0 ≠ 0) && decide (countEntries (ext2ReadBlock fs (ti.ptr 0)) fs.bs
    fs.bs 0 > 2)

/-- Free the target of a removed entry.
Source: `ext2_unlink` -/
def unlinkTarget (fs : Ext2Filesystem) (target : Nat) : Ext2Filesystem :=
  let fs1 := freeDirect fs target (List.range 12)
  let fs2 := fs1.setInode target
    { fs1.inode target with linksCount := 0, size := 0, blocks := 0 }
  let fs3 := ext2FreeInodeNum (ext2WriteInode fs2 target) target
  ext2WriteBitmaps (ext2WriteSuperblock fs3)

/-- Remove a directory entry and free its inode; `-1` when it is not there, `-2` for a directory
that is not empty. -/
def ext2Unlink (fs : Ext2Filesystem) (path : List UInt8) : Int × Ext2Filesystem :=
  if path.head? ≠ some slash then (-1, fs)
  else
    let (parentPath, name) := splitParent path
    if name = [] then (-1, fs)
    else
      let parentInode := ext2LookupInode fs parentPath
      if parentInode = 0 then (-1, fs)
      else
        match removeInBlocks fs (fs.inode parentInode) name (List.range 12) with
        | none => (-1, fs)
        | some (target, fs1) =>
          if dirNotEmpty fs1 (fs1.inode target) then (-2, fs1)
          else (0, unlinkTarget fs1 target)

/-! ### Formatting -/

/-- What `kmalloc` returns before it is initialised. -/
structure Heap where
  bytes : Buf
  inodes : Nat → Inode

/-- The superblock `ext2_format` computes for a device.
Source: `ext2_format` -/
def formatSuperblock (device : Ramdisk) : Superblock :=
  let blocksCount := UInt32.ofNat (device.size / EXT2_BLOCK_SIZE)
  let inodesCount := if 1024 > blocksCount / 4 then blocksCount / 4 else 1024
  let inodeTableBlocks := (inodesCount * 256 + 1024 - 1) / 1024
  let bbBlks := (blocksCount + 8 * 1024 - 1) / (8 * 1024)
  { Superblock.zero with
    magic := EXT2_MAGIC
    version := 1
    blockSize := 1024
    blocksCount := blocksCount
    inodesCount := inodesCount
    firstDataBlock := 2 + bbBlks + 1 + inodeTableBlocks
    freeBlocks := blocksCount - (2 + bbBlks + 1 + inodeTableBlocks)
    freeInodes := inodesCount
    blocksPerGroup := 8192
    inodesPerGroup := 2048 }

/-- The number of blocks of the inode table.
Source: `ext2_format` -/
def inodeTableBlocks (fs : Ext2Filesystem) : Nat :=
  (fs.inodesCount * INODE_SIZE + fs.bs - 1) / fs.bs

def inodeTableBlock (fs : Ext2Filesystem) (i : Nat) : Buf := fun k =>
  (fs.inodeTable ((i * fs.bs + k) / INODE_SIZE)).encode ((i * fs.bs + k) % INODE_SIZE)

variable (heap : Heap)

/-- The filesystem before its root directory exists: metadata blocks marked, everything else
free.
Source: `ext2_format` -/
def formatEmpty (device : Ramdisk) : Ext2Filesystem :=
  let superblock := formatSuperblock device
  { device := device
    superblock := superblock
    blockBitmap := (List.range superblock.firstDataBlock.toNat).foldl Bitmap.setBit Buf.zero
    inodeBitmap := Buf.zero
    inodeTable := fun i => if i < superblock.inodesCount.toNat then Inode.zero else heap.inodes i }

/-- The root directory's inode, before its block is allocated.
Source: `ext2_format` -/
def rootInode (fs : Ext2Filesystem) : Inode :=
  { fs.inode EXT2_ROOT_INODE with
    mode := EXT2_S_IFDIR ||| 0o755
    uid := 0
    gid := 0
    size := fs.superblock.blockSize
    linksCount := 2
    blocks := fs.superblock.blockSize / 512 }

/-- The filesystem with its root directory, written out to the device.
Source: `ext2_format` -/
def formatRoot (device : Ramdisk) : Ext2Filesystem :=
  let fs := formatEmpty heap device
  let fs1 := { fs with
    inodeBitmap := Bitmap.setBit fs.inodeBitmap (EXT2_ROOT_INODE - 1)
    superblock := { fs.superblock with freeInodes := fs.superblock.freeInodes - 1 } }
  let (rootBlock, fs2) := ext2AllocBlock fs1
  let fs3 := fs2.setInode EXT2_ROOT_INODE ((rootInode fs).setPtr 0 rootBlock)
  let fs4 := ext2WriteBlock fs3 rootBlock (dotBlock fs.bs EXT2_ROOT_INODE EXT2_ROOT_INODE)
  let fs5 := ext2WriteBitmaps (ext2WriteSuperblock fs4)
  (List.range (inodeTableBlocks fs)).foldl
    (fun f i => ext2WriteBlock f (2 + bbBlks fs + 1 + i) (inodeTableBlock fs5 i)) fs5

/-- The identity files of a fresh system.
Source: `ext2_format` (`seeds`) -/
def seeds : List (List UInt8 × List UInt8 × UInt16) :=
  [(cstring "/etc/passwd", cstring "root:x:0:0:Root:/root:/bin/sh\n", 0o644),
   (cstring "/etc/shadow", cstring "root:\n", 0o600), (cstring "/etc/group", cstring "root:x:0:\n", 0o644),
   (cstring "/etc/hostname", cstring "vibeos\n", 0o644),
   (cstring "/etc/issue", cstring "VibeOS \\r (kernel \\v)\\\n\\n", 0o644)]

/-- Create one seed file and write its contents.
Source: `ext2_format` -/
def writeSeed (fs : Ext2Filesystem) (seed : List UInt8 × List UInt8 × UInt16) : Ext2Filesystem :=
  let (ino, fs1) := ext2Create fs seed.1 seed.2.2
  if ino ≠ 0 then (ext2Write fs1 ino 0 seed.2.1).2 else fs1

def ext2Format (device : Ramdisk) : Ext2Filesystem :=
  let fs := formatRoot heap device
  let fs1 := (ext2Mkdir fs (cstring "/home") 0o755).2
  let fs2 := (ext2Mkdir fs1 (cstring "/bin") 0o755).2
  let fs3 := (ext2Mkdir fs2 (cstring "/etc") 0o755).2
  seeds.foldl writeSeed fs3

/-! ### Mounting -/

/-- Load the block bitmap from the device.
Source: `ext2_mount` -/
def mountBlockBitmap (fs : Ext2Filesystem) : Buf :=
  let size := (fs.blocksCount + 7) / 8
  (List.range (bbBlks fs)).foldl (fun bm i =>
    let off := i * fs.bs
    let len := if off + fs.bs > size then size - off else fs.bs
    bm.blit off len
      (ramdiskRead fs.device ((2 + i) * fs.bs % 2 ^ 32 / fs.device.blockSize) fs.bs)) heap.bytes

/-- Load the inode bitmap from the device.
Source: `ext2_mount` -/
def mountInodeBitmap (fs : Ext2Filesystem) : Buf :=
  heap.bytes.blit 0 ((fs.inodesCount + 7) / 8)
    (ramdiskRead fs.device ((2 + bbBlks fs) * fs.bs % 2 ^ 32 / fs.device.blockSize) fs.bs)

/-- Load one inode from the device. The source keeps the last block it read, which the device
still holds.
Source: `ext2_mount` -/
def mountInode (fs : Ext2Filesystem) (i : Nat) : Inode :=
  let inodeBlockNum := 2 + bbBlks fs + 1 + i * INODE_SIZE / fs.bs
  let block := ramdiskRead fs.device (inodeBlockNum * fs.bs % 2 ^ 32 / fs.device.blockSize) fs.bs
  Inode.decode fun k => block (i * INODE_SIZE % fs.bs + k)

/-- Mount a device, formatting it when it has no superblock. -/
def ext2Mount (device : Ramdisk) : Ext2Filesystem :=
  let sbBlock := if 1024 / device.blockSize = 0 then 1 else 1024 / device.blockSize
  let sb := Superblock.decode (ramdiskRead device sbBlock EXT2_BLOCK_SIZE)
  if sb.magic ≠ EXT2_MAGIC then ext2Format heap device
  else
    let superblock := { sb with blockSize := UInt32.ofNat (1024 <<< sb.logBlockSize.toNat), version := 1 }
    let fs : Ext2Filesystem := ⟨device, superblock, heap.bytes, heap.bytes, heap.inodes⟩
    { fs with
      blockBitmap := mountBlockBitmap heap fs
      inodeBitmap := mountInodeBitmap heap fs
      inodeTable := fun i =>
        if i < fs.inodesCount then mountInode fs i else heap.inodes i }

end VibeOS
