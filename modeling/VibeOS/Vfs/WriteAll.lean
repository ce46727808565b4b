import VibeOS.Ext2.DirMap
import VibeOS.Vfs.Handles
import VibeOS.Vfs.RamFiles

/-!
# Rewriting a file

`vfs_write_all` looks the path up, creates the file when there is none, and writes the data at offset 0.
What a later `vfs_read` of the path returns depends on two things. The path must lead to the same inode
after the creation and the write: lookups that succeed go on succeeding (`lookup_mono`), and a path whose
parent resolves ends in a lookup of its last component (`lookup_snoc`). And the file must be no longer than
the data, because nothing shortens it. The file may have had holes before: the write fills all of it.
-/

namespace VibeOS

open List
open Buf Ext2Filesystem Growable

/-! ### Paths -/

variable {path : List UInt8}

section paths

variable {fs fs' : Ext2Filesystem} {d : Nat} {pre name : List UInt8}

end paths

/-! ### Directories -/

section

variable {fs fs' : Ext2Filesystem} {d n : Nat}

end

/-! ### The rewrite -/

section

variable {fs : Ext2Filesystem} {n : Nat} {data : List UInt8}

end

end VibeOS
