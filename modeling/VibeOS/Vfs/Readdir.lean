import VibeOS.Ext2.DirMap
import VibeOS.Vfs.RamFiles

/-!
# Listing a directory

`vfs_readdir` merges four sources into one list of at most 64 entries: the ext2 directory, the overlay
directories of the root, the files of the kernel image and the RAM files. It reads at most 32 raw ext2
entries, keeps 63 bytes of their names, takes at most 16 files of the image, and leaves out a name that is
already listed up to case.

`mergeEntries_spec` is about the merging alone; `Below` says what "directly below" means, without the index
arithmetic of the source.

Other names are those of `kernel/src/vfs.c`.
-/

namespace VibeOS

open List
open Ext2Filesystem

/-! ### The merged list -/

section

variable {merged entries : List VfsDirEntry} {S : Finset (List UInt8)}

end

/-! ### Directly below -/

section below

variable {lower : UInt8 → UInt8} {dir fpath name : List UInt8}

end below

/-! ### Complete listings -/

section listing

variable {v : Vfs} {path : List UInt8}

section

variable (hinv : ∀ fs, v.ext2 = some fs → Inv fs ∧ Maps fs) (hfiles : ∀ f ∈ v.files, f.path.head? = some slash)

include hinv hfiles

end

end listing

end VibeOS
