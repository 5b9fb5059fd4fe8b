import RegisterWindows.Window
import RegisterWindows.Machine
import RegisterWindows.Core
import RegisterWindows.Port.Context
import RegisterWindows.Port.Asm
import RegisterWindows.Port.Frame
import RegisterWindows.Port.Save
import RegisterWindows.Port.Restore
import RegisterWindows.Port.Start
import RegisterWindows.Port.Api
import RegisterWindows.Lib.Run
import RegisterWindows.System
import RegisterWindows.Wf
import RegisterWindows.Trip
import RegisterWindows.Ownership
import RegisterWindows.Cva6.Regfile
import RegisterWindows.Cva6.CsrRegfile
import RegisterWindows.Cva6.Hart
import RegisterWindows.Cva6.Core
import RegisterWindows.Spike.Regfile
import RegisterWindows.Spike.Processor
import RegisterWindows.FullContext
import RegisterWindows.MinimalContext
import RegisterWindows.Retarget
import RegisterWindows.Entry
import RegisterWindows.Integrity
import RegisterWindows.Agreement
import RegisterWindows.Lib.View
import RegisterWindows.Cva6.Interference
import RegisterWindows.Trace
import RegisterWindows.Spike.Shadow
import RegisterWindows.Conformance
import RegisterWindows.Cva6.Return
import RegisterWindows.Isolation
import RegisterWindows.LiveStack
import RegisterWindows.Cva6.User
import RegisterWindows.Startup
import RegisterWindows.Lib.Ring
import RegisterWindows.Cva6.Pipeline
import RegisterWindows.Cva6.Precise
import RegisterWindows.Lib.Observe
import RegisterWindows.Cva6.RegfileFpga
import RegisterWindows.Spike.RegfileT
import RegisterWindows.Cva6.ZeroWrites
import RegisterWindows.RegfileConformance
import RegisterWindows.FprConformance
import RegisterWindows.Cva6.Forwarding
import RegisterWindows.Borrowing
import RegisterWindows.PathChoice
import RegisterWindows.Preemption
import RegisterWindows.Port.Fpu
import RegisterWindows.Port.FpuFrame
import RegisterWindows.Port.FpuSave
import RegisterWindows.Port.FpuRestore
import RegisterWindows.FpuSystem
import RegisterWindows.FpuContext
import RegisterWindows.Cva6.RegfileAltera
import RegisterWindows.Spike.Dump
import RegisterWindows.Bench.Report
import RegisterWindows.Bench.Accounting
import RegisterWindows.Bench.Slots
import RegisterWindows.Research.Cooperative
import RegisterWindows.Research.EndToEnd
import RegisterWindows.Lib.Links
import RegisterWindows.Lib.Turns
import RegisterWindows.Scheduler.Core
import RegisterWindows.Scheduler.Create
import RegisterWindows.Scheduler.Run
import RegisterWindows.Scheduler.Wake
import RegisterWindows.Scheduler.Fair
import RegisterWindows.Scheduler.Delay
import RegisterWindows.Scheduler.Sequences
import RegisterWindows.Port.Timer
