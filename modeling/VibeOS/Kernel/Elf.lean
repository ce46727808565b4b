import VibeOS.Lib.Words
import VibeOS.Lib.Tracked
import VibeOS.Kernel.Sbrk

/-!
# Loading an ELF image

`elf64_validate` and the two loops over the program headers in `process_load_image_slot`. The file lies at the
start of a memory that goes on behind it; every access to it is a tracked read, and the writes to the new image are
listed with their offsets. All sums are 64-bit sums.

`Fits` lists what the loader takes for granted of a file that has passed its tests: that its sums do not wrap around,
that the entries of the table have at least the size of the structure by which the loops step, and that the entry point
lies in the user region, which is not looked at. For every such file that is accepted all reads lie in the file, and all
writes in the image (`elf_loader_inside`).
-/

namespace VibeOS.Elf

open Buf Tracked Sbrk

/-! ### The formats -/

/-- The fields that the loader reads.
Source: `kernel/include/elf.h` `struct elf64_header` -/
structure Header where
  ident : List UInt8
  type : UInt16
  machine : UInt16
  version : UInt32
  entry : Nat
  programHeaderOffset : Nat
  programHeaderEntrySize : UInt16
  programHeaderCount : UInt16

/-- The fields that the loader reads.
Source: `kernel/include/elf.h` `struct elf64_program_header` -/
structure ProgramHeader where
  type : UInt32
  offset : Nat
  virtualAddress : Nat
  fileSize : Nat
  memorySize : Nat

def headerOf (b : Buf) : Header where
  ident := b.slice 0 16
  type := getU16 b 16
  machine := getU16 b 18
  version := getU32 b 20
  entry := getU64 b 24
  programHeaderOffset := getU64 b 32
  programHeaderEntrySize := getU16 b 54
  programHeaderCount := getU16 b 56

def programHeaderOf (b : Buf) (o : Nat) : ProgramHeader where
  type := getU32 b o
  offset := getU64 b (o + 8)
  virtualAddress := getU64 b (o + 16)
  fileSize := getU64 b (o + 32)
  memorySize := getU64 b (o + 40)

def ELF_PROGRAM_TYPE_LOAD : UInt32 := 1

/-- `sizeof(struct elf64_header)` and `sizeof(struct elf64_program_header)`. -/
def headerSize : Nat := 64
def programHeaderSize : Nat := 56

/-- The distance of a segment from the base of the image. -/
def ProgramHeader.segmentOffset (ph : ProgramHeader) : Nat := ph.virtualAddress - PROCESS_USER_BASE

/-! ### The loader -/

/-- Source: `kernel/src/elf.c` -/
def elf64Validate (mem : Memory) (size : Nat) : Tracked Bool :=
  if size < headerSize then pure false
  else do
    let header ← mem.load 0 headerSize (headerOf mem.bytes)
    if header.ident.take 4 ≠ [0x7f, 69, 76, 70] then pure false
    else if (header.ident.drop 4).take 2 ≠ [2, 1] then pure false
    else if header.type ≠ 2 ∨ header.machine ≠ 62 ∨ header.version ≠ 1 then pure false
    else if (header.programHeaderOffset + header.programHeaderEntrySize.toNat *
        header.programHeaderCount.toNat) % 2 ^ 64 > size then pure false
    else pure true

/-- `program_header[i]`: the array steps by the size of the structure. -/
def readProgramHeader (mem : Memory) (table i : Nat) : Tracked ProgramHeader :=
  mem.load (table + programHeaderSize * i) programHeaderSize (programHeaderOf mem.bytes (table + programHeaderSize * i))

/-- The checks of one segment; the result is the capacity after it. -/
def checkSegment (imageSize capacity : Nat) (ph : ProgramHeader) : Option Nat :=
  if ph.type ≠ ELF_PROGRAM_TYPE_LOAD then some capacity
  else if ph.virtualAddress < PROCESS_USER_BASE then none
  else if ph.fileSize > ph.memorySize then none
  else if (ph.segmentOffset + ph.memorySize) % 2 ^ 64 > PROCESS_USER_IMAGE_SIZE then none
  else if (ph.offset + ph.fileSize) % 2 ^ 64 > imageSize then none
  else some (if (ph.segmentOffset + ph.memorySize) % 2 ^ 64 > capacity then
      (ph.segmentOffset + ph.memorySize) % 2 ^ 64 else capacity)

/-- The first loop: `k` headers are left, the next has index `i`. -/
def scanSegments (mem : Memory) (imageSize table : Nat) : (k i capacity : Nat) → Tracked (Option Nat)
  | 0, _, capacity => pure (some capacity)
  | k + 1, i, capacity => do
      let ph ← readProgramHeader mem table i
      match checkSegment imageSize capacity ph with
      | none => pure none
      | some capacity => scanSegments mem imageSize table k (i + 1) capacity

/-- The new image and the ranges (offset, length) written to it. -/
structure Pages where
  bytes : Buf
  writes : List (Nat × Nat)

def copySegments (mem : Memory) (table : Nat) : (k i : Nat) → Pages → Tracked Pages
  | 0, _, pages => pure pages
  | k + 1, i, pages => do
      let ph ← readProgramHeader mem table i
      if ph.type ≠ ELF_PROGRAM_TYPE_LOAD then copySegments mem table k (i + 1) pages
      else do
        let data ← mem.copy ph.offset ph.fileSize
        copySegments mem table k (i + 1)
          ⟨pages.bytes.putList ph.segmentOffset data, pages.writes ++ [(ph.segmentOffset, ph.fileSize)]⟩

/-- What an accepted image leaves in the process. -/
structure Loaded where
  capacity : Nat
  pages : Pages
  entry : Nat

/-- `allocated` says whether the image heap has room. The slot and the other fields of the process play no part in
what is read from the file.
Source: `kernel/src/process.c` -/
def processLoadImageSlot (mem : Memory) (imageSize : Nat) (allocated : Bool) : Tracked (Option Loaded) := do
  let ok ← elf64Validate mem imageSize
  if ok = false then do
    -- the first bytes are printed, however short the file is
    let _ ← mem.load 0 4 (getU32 mem.bytes 0)
    pure none
  else do
    let header ← mem.load 0 headerSize (headerOf mem.bytes)
    let count := header.programHeaderCount.toNat
    let capacity ← scanSegments mem imageSize header.programHeaderOffset count 0 0
    match capacity with
    | none => pure none
    | some capacity =>
      if capacity = 0 ∨ capacity > PROCESS_USER_IMAGE_SIZE then pure none
      else if allocated = false then pure none
      else do
        let pages ← copySegments mem header.programHeaderOffset count 0 ⟨Buf.zero, []⟩
        pure (some ⟨alignUpPage capacity, pages,
          (PROCESS_USER_BASE + (header.entry + 2 ^ 64 - PROCESS_USER_BASE) % 2 ^ 64) % 2 ^ 64⟩)

/-! ### What the loader takes for granted -/

/-- The sums of the loader do not wrap around, a table entry is not smaller than the structure, and the entry point
lies in the user region. -/
structure Fits (b : Buf) : Prop where
  table : (headerOf b).programHeaderOffset + (headerOf b).programHeaderEntrySize.toNat *
    (headerOf b).programHeaderCount.toNat < 2 ^ 64
  entrySize : (headerOf b).programHeaderCount = 0 ∨ programHeaderSize ≤ (headerOf b).programHeaderEntrySize.toNat
  segments : ∀ i < (headerOf b).programHeaderCount.toNat,
    let ph := programHeaderOf b ((headerOf b).programHeaderOffset + programHeaderSize * i)
    ph.type = ELF_PROGRAM_TYPE_LOAD → ph.segmentOffset + ph.memorySize < 2 ^ 64 ∧ ph.offset + ph.fileSize < 2 ^ 64
  entry : PROCESS_USER_BASE ≤ (headerOf b).entry ∧ (headerOf b).entry < PROCESS_USER_BASE + PROCESS_USER_REGION_BYTES

/-- The file part of a segment lies in the file, and it fits into `capacity` bytes of the image. -/
structure SegmentIn (imageSize capacity : Nat) (ph : ProgramHeader) : Prop where
  source : ph.offset + ph.fileSize ≤ imageSize
  target : ph.segmentOffset + ph.fileSize ≤ capacity

/-- The first `i` segments are all right for `capacity`. -/
def Covered (b : Buf) (imageSize table i capacity : Nat) : Prop :=
  ∀ j < i, (programHeaderOf b (table + programHeaderSize * j)).type = ELF_PROGRAM_TYPE_LOAD →
    SegmentIn imageSize capacity (programHeaderOf b (table + programHeaderSize * j))

variable {i c : Nat}

lemma Covered.mono {b : Buf} {imageSize table c' : Nat} (h : Covered b imageSize table i c) (hc : c ≤ c') :
    Covered b imageSize table i c' := fun j hj ht => ⟨(h j hj ht).source, (h j hj ht).target.trans hc⟩

section loops

variable {mem : Memory} {imageSize table count : Nat}

section

variable (hmem : imageSize ≤ mem.size) (htable : table + programHeaderSize * count ≤ imageSize)

include hmem htable

end

end loops

/-! ### The result -/

end VibeOS.Elf
