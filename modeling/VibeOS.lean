import VibeOS.Ext2.Safety
import VibeOS.Ext2.BlockMap
import VibeOS.Kernel.Uid
import VibeOS.Kernel.Waiting
import VibeOS.Kernel.Paging
import VibeOS.Kernel.Settings
import VibeOS.Kernel.Sleep
import VibeOS.Kernel.Elf
import VibeOS.Kernel.AllocSizes
import VibeOS.Kernel.Cpus
import VibeOS.Vfs.WriteAll
import VibeOS.Vfs.Readdir
import VibeOS.User.Stdio
import VibeOS.Net.Resolve
import VibeOS.Net.Handshake
import VibeOS.Net.StreamEnd
import VibeOS.Net.KeepAlive
import VibeOS.Desktop.Isolation
import VibeOS.Desktop.Order
import VibeOS.Tty.Readers
import VibeOS.Tty.Keyboard
import VibeOS.Tty.PtyRings
import VibeOS.Tty.Screen
import VibeOS.Kernel.Audio
import VibeOS.Kernel.Journal
import VibeOS.User.Calendar
import VibeOS.User.PrintfFloat
import VibeOS.User.Stdlib
import VibeOS.User.OrderedMap
import VibeOS.User.Strtol
import VibeOS.User.TextGrid
import VibeOS.User.Shell
import VibeOS.User.Rm
import VibeOS.User.CssVars
import VibeOS.User.Rotate
import VibeOS.Desktop.Rounded
