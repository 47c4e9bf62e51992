import RiscvProc.Basic
import RiscvProc.Signal
import RiscvProc.Step
import RiscvProc.Wf
import RiscvProc.WfStep
import RiscvProc.Sched
import RiscvProc.Run
import RiscvProc.Kill
import RiscvProc.Pid
import RiscvProc.Parent
import RiscvProc.Frame
import RiscvProc.Wait
import RiscvProc.Reap
import RiscvProc.Wakeup
import RiscvProc.Pass
import RiscvProc.Pending
import RiscvProc.Initproc
import RiscvProc.Handler
import RiscvProc.Reuse
import RiscvProc.Mask
import RiscvProc.Delivery
import RiscvProc.Ownership
import RiscvProc.Fork
import RiscvProc.Grow
import RiscvProc.Progress
import RiscvProc.Locking
import RiscvProc.Exit
import RiscvProc.Lifecycle
