import SpriteKernel.Fsconsist.Exclusion
import SpriteKernel.Fsconsist.LastWriter
import SpriteKernel.Fsconsist.Tracked
import SpriteKernel.Fsio.Lock
import SpriteKernel.Fsio.File
import SpriteKernel.Fsio.PipeClose
import SpriteKernel.Lfs.Counters
import SpriteKernel.Lfs.FreedSpace
import SpriteKernel.Lfs.CrashLoad
import SpriteKernel.Lfs.CheckPointOrder
import SpriteKernel.Lfs.LayoutChain
import SpriteKernel.DevRaid.ArrayLock
import SpriteKernel.DevRaid.StripeLog
import SpriteKernel.DevRaid.ArrayContents
import SpriteKernel.Rpc.Batch
import SpriteKernel.Rpc.NegAck
import SpriteKernel.Rpc.Safety
import SpriteKernel.Rpc.ChanSound
import SpriteKernel.Rpc.AckTruthful
import SpriteKernel.Rpc.AtMostOnce
import SpriteKernel.Ofs.Held
import SpriteKernel.Ofs.Hints
import SpriteKernel.Vm.Geometry
import SpriteKernel.Vm.CowReach
import SpriteKernel.Fslcl.Corrupted
import SpriteKernel.Fslcl.DirRun
import SpriteKernel.Fslcl.FailedWrite
import SpriteKernel.Fslcl.ExpandLink
import SpriteKernel.Fslcl.Permission
import SpriteKernel.Vm.PageCleanSystem
import SpriteKernel.Vm.CodeSegSystem
import SpriteKernel.Recov.RebootRounds
import SpriteKernel.Recov.Pings
import SpriteKernel.Fsutil.HandleRun
import SpriteKernel.Fsutil.ReopenRun
import SpriteKernel.Mem.LargeList
import SpriteKernel.Fscache.FileArray
import SpriteKernel.Fscache.CloseWriteBack
import SpriteKernel.Lfs.CleanCandidates
import SpriteKernel.Lfs.CleanProgress
import SpriteKernel.Lfs.GrowFile
import SpriteKernel.Fsio.PipeViews
import SpriteKernel.Sig.HoldMask
import SpriteKernel.Sig.PauseMask
import SpriteKernel.Timer.Queue
