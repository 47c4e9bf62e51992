import Mathlib.Data.BitVec
import Mathlib.Logic.Function.Basic

/-!
# The process table of the RISC-V kernel

`kernel/proc.c` keeps `NPROC` slots of `struct proc`, one `struct cpu` per hart,
a global pid counter and three kinds of spinlock. This file fixes the state every
other module runs on: a slot record with each field `proc.c` reads or writes, the
per-CPU record of the scheduler loop, the lock table, and the boot state that
`procinit` leaves behind. Pointers into the table are `Fin np`, so a parent link,
a channel or a lock can only name a slot that exists.

A slot's kernel thread is represented by its program point `Pc`. For a process
switched out in `sched()` it is the point `swtch` will resume (what `p->context`
and the kernel stack encode); for a running process it is the point its code has
reached. Every step of the machine (`RiscvProc.Step`) runs one lock-protected
section of one CPU.
-/

namespace RiscvProc

/-- Header constants `proc.c` uses but does not define: the handler sentinels
`SIG_DFL`/`SIG_IGN`, the three signal numbers with a built-in meaning, `PGSIZE`,
`NOFILE`, `sizeof(struct trapframe)` and the length `endcallsigret - callsigret`
of the return stub that `usersignalhandler` copies to the user stack. -/
structure Param where
  SIG_DFL : Nat
  SIG_IGN : Nat
  SIGKILL : Fin 32
  SIGSTOP : Fin 32
  SIGCONT : Fin 32
  PGSIZE : Nat
  NOFILE : Nat
  tfSize : Nat
  stubSize : Nat

/-- One choice of the header constants, at which results proved for every choice
are instantiated. -/
def Param.std : Param := ⟨0, 1, 9, 17, 19, 4096, 16, 288, 8⟩

/-- `enum procstate`. -/
inductive Procstate
  | UNUSED | USED | SLEEPING | RUNNABLE | RUNNING | ZOMBIE
  deriving DecidableEq, Repr

/-- A sleep channel (`void *chan`), only ever compared for equality: null, the
`struct proc` of a slot (what `wait` sleeps on), or another kernel object. -/
inductive Chan (np : Nat)
  | null
  | proc (i : Fin np)
  | obj (a : Nat)
  deriving DecidableEq, Repr

/-- The channel of a possibly null `struct proc *`, as `wakeup(p->parent)` and
`wakeup(initproc)` pass it. -/
def Chan.ofProc {np : Nat} : Option (Fin np) → Chan np
  | none => .null
  | some i => .proc i

/-- Spinlocks: `pid_lock`, `wait_lock`, each slot's `p->lock`, and the locks of
kernel code outside this file, which that code may hand to `sleep`. -/
inductive Lk (np : Nat)
  | pidLock
  | waitLock
  | proc (i : Fin np)
  | ext (k : Nat)
  deriving DecidableEq, Repr

/-- The saved user registers that `proc.c` touches by name; `regs` stands for the
others, which are only ever copied as a whole. -/
structure Trapframe where
  epc : BitVec 64
  sp : BitVec 64
  a0 : BitVec 64
  ra : BitVec 64
  regs : List (BitVec 64)
  deriving DecidableEq, Repr

/-- Program point of a slot's kernel thread. A point with a continuation `k` is
inside a call (`yield`, `sleep`, `wakeup`, `sigkill_func`, `turnoff_sigbit`) that
returns to `k`. -/
inductive Pc (np : Nat)
  | user                                            -- in user space
  | forkret                                         -- fresh context from allocproc
  | yieldRet (k : Pc np)                            -- switched out in yield
  | sleepCall (chan : Chan np) (lk : Lk np) (k : Pc np)  -- about to call sleep, holding lk
  | sleepRet (chan : Chan np) (lk : Lk np) (k : Pc np)   -- switched out in sleep
  | sleepReacq (lk : Lk np) (k : Pc np)             -- back from sched, re-acquiring lk
  | wakeupScan (chan : Chan np) (i : Nat) (k : Pc np)
  | extHeld (k : Nat)                               -- outside code holding its lock
  | allocScan (i : Nat)                             -- fork: allocproc at slot i
  | forkParent (child : Fin np) (pid : Int)
  | forkRunnable (child : Fin np) (pid : Int)
  | exitStart (status : Int)                        -- files closed, wait_lock next
  | reparentScan (status : Int) (i : Nat)
  | exitZombie (status : Int)
  | exited (status : Int)                           -- switched out for good in exit
  | waitStart (addr : Nat)
  | waitScan (addr : Nat) (i : Nat) (havekids : Bool)
  | killScan (pid : Int) (signum : Fin 32) (i : Nat)
  | sigEntry                                        -- signalhandler()
  | sigLoop (i : Nat)                               -- top of the loop body for i
  | sigStop (i : Fin 32)                            -- while(p->stopped)
  | searchCont (i : Fin 32)                         -- search_cont_signals phases
  | searchKill (i : Fin 32)
  | searchLoop (i : Fin 32) (j : Nat)
  | sigTest (i : Fin 32)                            -- is_pending_and_not_masked(i)
  | sigKill (k : Pc np)                             -- sigkill_func()
  | sigUser (i : Fin 32)                            -- usersignalhandler(p, i)
  | sigTurnoff (i : Fin 32) (k : Pc np)             -- turnoff_sigbit(p, i)
  deriving DecidableEq, Repr

/-- One slot of `proc[NPROC]` (`struct proc`). `pc` stands for `context` and the
kernel stack; `tf` is the content of the trap-frame page `trapframe`. -/
structure Proc (np : Nat) where
  state : Procstate
  chan : Chan np
  killed : Int
  xstate : Int
  pid : Int
  parent : Option (Fin np)
  sz : BitVec 64
  pagetable : Nat
  trapframe : Nat
  tf : Trapframe
  ofile : List Nat
  cwd : Nat
  name : String
  signalHandlers : Fin 32 → Nat
  signalsMask : BitVec 32
  pendingSignals : BitVec 32
  stopped : Int
  signalHandling : Int
  userTfBackup : BitVec 64
  signalsMaskBackup : BitVec 32
  pc : Pc np

/-- `struct cpu`: the process it runs (`c->proc`) and where its `scheduler()` loop
stands, the slot it looks at next or the one it switched into. -/
structure Cpu (np : Nat) where
  proc : Option (Fin np)
  next : Nat
  deriving DecidableEq, Repr

/-- The whole kernel state `proc.c` works on. `lock l` is the CPU holding `l`
(`lk->cpu` while `lk->locked`). `intr c` is the `wakeup(chan)` of an interrupt handler
that CPU `c` took inside `scheduler()`: the kernel object it wakes and the slot its
scan looks at next. -/
structure Sys (np nc : Nat) where
  proc : Fin np → Proc np
  cpus : Fin nc → Cpu np
  lock : Lk np → Option (Fin nc)
  nextpid : Int
  initproc : Option (Fin np)
  intr : Fin nc → Option (Nat × Nat)

/-- C `int` arithmetic on the target: the sum wrapped to 32-bit two's complement. -/
def intAdd (a b : Int) : Int := Int.bmod (a + b) (2 ^ 32)

variable {np nc : Nat}

/-! ## Updates -/

namespace Sys

def setProc (σ : Sys np nc) (i : Fin np) (p : Proc np) : Sys np nc :=
  { σ with proc := Function.update σ.proc i p }

def setCpu (σ : Sys np nc) (c : Fin nc) (x : Cpu np) : Sys np nc :=
  { σ with cpus := Function.update σ.cpus c x }

def setLock (σ : Sys np nc) (l : Lk np) (h : Option (Fin nc)) : Sys np nc :=
  { σ with lock := Function.update σ.lock l h }

def setIntr (σ : Sys np nc) (c : Fin nc) (x : Option (Nat × Nat)) : Sys np nc :=
  { σ with intr := Function.update σ.intr c x }

/-- The thread of slot `i` moves to point `k`, in the record as it stands. -/
def setPc (σ : Sys np nc) (i : Fin np) (k : Pc np) : Sys np nc :=
  σ.setProc i { σ.proc i with pc := k }

/-- `sched()` from the process running on `c`: `swtch` back into `scheduler()`,
which clears `c->proc`, releases the process lock and goes on with the next slot. -/
def switchOut (σ : Sys np nc) (c : Fin nc) : Sys np nc :=
  σ.setCpu c ⟨none, (σ.cpus c).next + 1⟩

/-- CPU `c` holds no lock other than `l`: what `sched()` checks with `noff == 1`
once the caller's `p->lock` is the lock `l` it holds. -/
def HoldsOnly (σ : Sys np nc) (c : Fin nc) (l : Lk np) : Prop :=
  ∀ l', σ.lock l' = some c → l' = l

/-- CPU `c` holds no lock at all (`noff == 0`): interrupts may be on. -/
def HoldsNone (σ : Sys np nc) (c : Fin nc) : Prop :=
  ∀ l, σ.lock l ≠ some c

variable (σ : Sys np nc)

@[simp] theorem setProc_proc (i j : Fin np) (p : Proc np) :
    (σ.setProc i p).proc j = if j = i then p else σ.proc j := by
  simp [setProc, Function.update_apply]

@[simp] theorem setProc_self (i : Fin np) : σ.setProc i (σ.proc i) = σ := by
  simp [setProc]

@[simp] theorem setProc_setProc (i : Fin np) (p q : Proc np) :
    (σ.setProc i p).setProc i q = σ.setProc i q := by
  simp [setProc]

theorem setProc_comm {i j : Fin np} (h : i ≠ j) (p q : Proc np) :
    (σ.setProc i p).setProc j q = (σ.setProc j q).setProc i p := by
  simp [setProc, Function.update_comm h]

theorem setLock_setProc (l : Lk np) (h : Option (Fin nc)) (i : Fin np) (p : Proc np) :
    (σ.setLock l h).setProc i p = (σ.setProc i p).setLock l h := rfl

@[simp] theorem setPc_eq (i : Fin np) (k : Pc np) :
    σ.setPc i k = σ.setProc i { σ.proc i with pc := k } := rfl

@[simp] theorem setProc_cpus (i : Fin np) (p : Proc np) : (σ.setProc i p).cpus = σ.cpus := rfl
@[simp] theorem setProc_lock (i : Fin np) (p : Proc np) : (σ.setProc i p).lock = σ.lock := rfl
@[simp] theorem setProc_nextpid (i : Fin np) (p : Proc np) :
    (σ.setProc i p).nextpid = σ.nextpid := rfl
@[simp] theorem setProc_initproc (i : Fin np) (p : Proc np) :
    (σ.setProc i p).initproc = σ.initproc := rfl
@[simp] theorem setProc_intr (i : Fin np) (p : Proc np) : (σ.setProc i p).intr = σ.intr := rfl

@[simp] theorem setCpu_cpus (c d : Fin nc) (x : Cpu np) :
    (σ.setCpu c x).cpus d = if d = c then x else σ.cpus d := by
  simp [setCpu, Function.update_apply]

@[simp] theorem setCpu_proc (c : Fin nc) (x : Cpu np) : (σ.setCpu c x).proc = σ.proc := rfl
@[simp] theorem setCpu_lock (c : Fin nc) (x : Cpu np) : (σ.setCpu c x).lock = σ.lock := rfl
@[simp] theorem setCpu_nextpid (c : Fin nc) (x : Cpu np) :
    (σ.setCpu c x).nextpid = σ.nextpid := rfl
@[simp] theorem setCpu_initproc (c : Fin nc) (x : Cpu np) :
    (σ.setCpu c x).initproc = σ.initproc := rfl
@[simp] theorem setCpu_intr (c : Fin nc) (x : Cpu np) : (σ.setCpu c x).intr = σ.intr := rfl

@[simp] theorem setLock_lock (l l' : Lk np) (h : Option (Fin nc)) :
    (σ.setLock l h).lock l' = if l' = l then h else σ.lock l' := by
  simp [setLock, Function.update_apply]

@[simp] theorem setLock_proc (l : Lk np) (h : Option (Fin nc)) :
    (σ.setLock l h).proc = σ.proc := rfl
@[simp] theorem setLock_cpus (l : Lk np) (h : Option (Fin nc)) :
    (σ.setLock l h).cpus = σ.cpus := rfl
@[simp] theorem setLock_nextpid (l : Lk np) (h : Option (Fin nc)) :
    (σ.setLock l h).nextpid = σ.nextpid := rfl
@[simp] theorem setLock_initproc (l : Lk np) (h : Option (Fin nc)) :
    (σ.setLock l h).initproc = σ.initproc := rfl
@[simp] theorem setLock_intr (l : Lk np) (h : Option (Fin nc)) :
    (σ.setLock l h).intr = σ.intr := rfl

@[simp] theorem switchOut_cpus (c d : Fin nc) :
    (σ.switchOut c).cpus d = if d = c then ⟨none, (σ.cpus c).next + 1⟩ else σ.cpus d := by
  simp [switchOut]

@[simp] theorem switchOut_proc (c : Fin nc) : (σ.switchOut c).proc = σ.proc := rfl
@[simp] theorem switchOut_lock (c : Fin nc) : (σ.switchOut c).lock = σ.lock := rfl
@[simp] theorem switchOut_nextpid (c : Fin nc) : (σ.switchOut c).nextpid = σ.nextpid := rfl
@[simp] theorem switchOut_initproc (c : Fin nc) :
    (σ.switchOut c).initproc = σ.initproc := rfl
@[simp] theorem switchOut_intr (c : Fin nc) : (σ.switchOut c).intr = σ.intr := rfl

theorem switchOut_setLock (l : Lk np) (h : Option (Fin nc)) (c : Fin nc) :
    (σ.setLock l h).switchOut c = (σ.switchOut c).setLock l h := rfl

@[simp] theorem setIntr_intr (c d : Fin nc) (x : Option (Nat × Nat)) :
    (σ.setIntr c x).intr d = if d = c then x else σ.intr d := by
  simp [setIntr, Function.update_apply]

@[simp] theorem setIntr_proc (c : Fin nc) (x : Option (Nat × Nat)) :
    (σ.setIntr c x).proc = σ.proc := rfl
@[simp] theorem setIntr_cpus (c : Fin nc) (x : Option (Nat × Nat)) :
    (σ.setIntr c x).cpus = σ.cpus := rfl
@[simp] theorem setIntr_lock (c : Fin nc) (x : Option (Nat × Nat)) :
    (σ.setIntr c x).lock = σ.lock := rfl
@[simp] theorem setIntr_nextpid (c : Fin nc) (x : Option (Nat × Nat)) :
    (σ.setIntr c x).nextpid = σ.nextpid := rfl
@[simp] theorem setIntr_initproc (c : Fin nc) (x : Option (Nat × Nat)) :
    (σ.setIntr c x).initproc = σ.initproc := rfl

theorem setIntr_setProc (c : Fin nc) (x : Option (Nat × Nat)) (i : Fin np) (p : Proc np) :
    (σ.setIntr c x).setProc i p = (σ.setProc i p).setIntr c x := rfl

end Sys

/-! ## Boot state and `freeproc` -/

/-- A slot as the zero-filled static `proc[]` array holds it before first use. -/
def Proc.zero (K : Param) : Proc np where
  state := .UNUSED
  chan := .null
  killed := 0
  xstate := 0
  pid := 0
  parent := none
  sz := 0
  pagetable := 0
  trapframe := 0
  tf := ⟨0, 0, 0, 0, []⟩
  ofile := List.replicate K.NOFILE 0
  cwd := 0
  name := ""
  signalHandlers := fun _ => 0
  signalsMask := 0
  pendingSignals := 0
  stopped := 0
  signalHandling := 0
  userTfBackup := 0
  signalsMaskBackup := 0
  pc := .user

/-- The state `procinit` leaves: every slot zero and UNUSED, every lock free, no
CPU running a process or an interrupt handler, `nextpid = 1`, no `initproc` yet. -/
def procinit (K : Param) : Sys np nc where
  proc := fun _ => Proc.zero K
  cpus := fun _ => ⟨none, 0⟩
  lock := fun _ => none
  nextpid := 1
  initproc := none
  intr := fun _ => none

/-- `freeproc`: the trap-frame page and the page table go back to their
allocators, the identity fields are cleared, and the slot is UNUSED again. The
signal fields, the files and the kernel context are left as they were. -/
def freeproc (p : Proc np) : Proc np :=
  { p with trapframe := 0, pagetable := 0, sz := 0, pid := 0, parent := none, name := "",
           chan := .null, killed := 0, xstate := 0, state := .UNUSED }

@[simp] theorem freeproc_state (p : Proc np) : (freeproc p).state = .UNUSED := rfl
@[simp] theorem freeproc_pid (p : Proc np) : (freeproc p).pid = 0 := rfl
@[simp] theorem freeproc_parent (p : Proc np) : (freeproc p).parent = none := rfl

end RiscvProc
