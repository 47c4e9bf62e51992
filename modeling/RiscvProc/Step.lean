import RiscvProc.Signal

/-!
# The interleaved machine

Any number of CPUs run `scheduler()` or a process's kernel thread. A step is one
CPU running one lock-protected section, from the acquire that opens it to the
release that closes it (a scan over the table takes one step per slot). An
acquire of a lock that another CPU holds spins, and one of a lock the CPU already
holds panics: in both cases the step is not enabled, as it is not when a check of
`sched()` would panic. Outside this file's code, a process in user space may trap
into any system call, kernel code of other files may take a lock of its own,
sleep on it and wake channels (`extAcquire`, `extSleep`, `callWakeup`), and the
file layer's `open` and `close` change the caller's descriptor table (`fileCall`).

`scheduler()` runs with interrupts on and `c->proc = 0` between slots, so an idle
CPU may take an interrupt whose handler calls `wakeup(chan)` on a kernel object
with `myproc() == 0`; its scan is kept in `Sys.intr` and goes one slot per step
(`intrCall`, `intrSlot`, `intrDone`). `acquire` turns interrupts off before it
spins, so a loop waiting for the lock of its next slot takes none. The model lets
the loop's own steps run between those of the handler, which the hardware does not.

Results of the collaborators (page allocation, `uvmcopy`, `copyout`, `copyin`, the
user memory a `copyin` reads) are arguments of the step that calls them; the calls
into the page allocator and the file layer are part of what the step shows.
-/

namespace RiscvProc

variable {np nc : Nat} (K : Param)

/-- A call `proc.c` makes into the page allocator, the page-table code or the file
layer, with the page, page table, file or inode it passes or gets back (0 for
none); a `mappages` also says whether it succeeded. -/
inductive Call
  | kalloc (pa : Nat)
  | kfree (pa : Nat)
  | uvmcreate (pt : Nat)
  | uvmfree (pt : Nat)
  | mapTrampoline (pt : Nat) (ok : Bool)
  | mapTrapframe (pt pa : Nat) (ok : Bool)
  | unmapTrampoline (pt : Nat)
  | unmapTrapframe (pt : Nat)
  | filealloc (f : Nat)
  | filedup (f : Nat)
  | fileclose (f : Nat)
  | idup (ip : Nat)
  | iput (ip : Nat)
  | namei (ip : Nat)
  deriving DecidableEq, Repr

/-- What a step shows outside the kernel state: the value a system call returns
to user space, a status `wait` copied to user memory, the locks the section
acquired and the calls it made into the allocator and the file layer. -/
structure Out (np : Nat) where
  ret : Option Int := none
  wrote : Option (Nat × Int) := none
  acq : List (Lk np) := []
  calls : List Call := []

/-- The allocations `fork` depends on: `kalloc()` for the trap frame and
`uvmcreate()` for the page table (0 when out of memory), whether the two
`mappages` of `proc_pagetable` succeeded, and whether `uvmcopy` did. -/
structure ForkEnv where
  tfPage : Nat
  pagetable : Nat
  trampolineOk : Bool
  trapframeOk : Bool
  copyOk : Bool

/-- `proc_pagetable(p)` for a process whose trap frame is at `pa`: an empty page
table, the trampoline mapped into it, then the trap frame; when a step fails, what
it built is taken down again and the result is 0. The page table and the calls. -/
def procPagetable (e : ForkEnv) (pa : Nat) : Nat × List Call :=
  let pt := e.pagetable
  if pt = 0 then (0, [.uvmcreate 0])
  else if !e.trampolineOk then (0, [.uvmcreate pt, .mapTrampoline pt false, .uvmfree pt])
  else if !e.trapframeOk then
    (0, [.uvmcreate pt, .mapTrampoline pt true, .mapTrapframe pt pa false, .unmapTrampoline pt,
      .uvmfree pt])
  else (pt, [.uvmcreate pt, .mapTrampoline pt true, .mapTrapframe pt pa true])

/-- `proc_freepagetable(pagetable, sz)`: the two mappings, then the page table with
the user memory. -/
def procFreepagetable (pt : Nat) : List Call :=
  [.unmapTrampoline pt, .unmapTrapframe pt, .uvmfree pt]

/-! ## Sections -/

/-- `allocproc` from the moment it holds an UNUSED slot `q`, given the pid
`allocpid` drew: pid, USED and default signal state, then the trap-frame page and
the page table. A failed allocation is `.error` with the slot freed again. -/
def allocproc (q : Proc np) (pid : Int) (e : ForkEnv) : Except (Proc np) (Proc np) :=
  let q := { q with pid := pid, state := .USED, signalHandlers := fun _ => K.SIG_DFL,
                    signalsMask := 0, pendingSignals := 0, stopped := 0, signalHandling := 0 }
  if e.tfPage = 0 then .error (freeproc { q with trapframe := 0 })
  else if (procPagetable e e.tfPage).1 = 0 then
    .error (freeproc { q with trapframe := e.tfPage, pagetable := 0 })
  else .ok { q with trapframe := e.tfPage, pagetable := (procPagetable e e.tfPage).1,
                    pc := .forkret }

/-- The calls `freeproc` makes: `kfree` of the trap-frame page and
`proc_freepagetable` of the page table, each only when it is set. -/
def freeprocCalls (p : Proc np) : List Call :=
  (if p.trapframe ≠ 0 then [.kfree p.trapframe] else []) ++
    (if p.pagetable ≠ 0 then procFreepagetable p.pagetable else [])

/-- The calls `allocproc` makes on the UNUSED slot `q`: `kalloc`, then
`proc_pagetable`'s once it has a page, and `freeproc`'s when either fails. -/
def allocprocCalls (q : Proc np) (e : ForkEnv) : List Call :=
  .kalloc e.tfPage ::
    if e.tfPage = 0 then freeprocCalls { q with trapframe := 0 }
    else (procPagetable e e.tfPage).2 ++
      if (procPagetable e e.tfPage).1 = 0 then
        freeprocCalls { q with trapframe := e.tfPage, pagetable := 0 }
      else []

theorem allocproc_ok {q q' : Proc np} {pid : Int} {e : ForkEnv}
    (h : allocproc K q pid e = .ok q') :
    q'.state = .USED ∧ q'.pc = .forkret ∧ q'.pid = pid ∧ q'.parent = q.parent := by
  unfold allocproc at h; split_ifs at h; cases h; exact ⟨rfl, rfl, rfl, rfl⟩

theorem allocproc_error {q q' : Proc np} {pid : Int} {e : ForkEnv}
    (h : allocproc K q pid e = .error q') : q'.state = .UNUSED ∧ q'.parent = none ∧ q'.pc = q.pc := by
  unfold allocproc at h; split_ifs at h <;> cases h <;> exact ⟨rfl, rfl, rfl⟩

/-- `fork`'s copy of the descriptor table: `filedup` of each open parent entry into
the child's entry of the same index; the child's other entries stay as they were. -/
def dupFiles (parent child : List Nat) : List Nat :=
  List.zipWith (fun f g => if f ≠ 0 then f else g) parent child

/-- The calls `fork` makes once the child is built: `filedup` of every open file of
the parent, then `idup` of its cwd. -/
def forkCalls (par : Proc np) : List Call :=
  (par.ofile.filter (· ≠ 0)).map .filedup ++ [.idup par.cwd]

/-- The calls `exit` makes: `fileclose` of every open file, then `iput` of the cwd. -/
def exitCalls (p : Proc np) : List Call :=
  (p.ofile.filter (· ≠ 0)).map .fileclose ++ [.iput p.cwd]

/-- `fork` after `allocproc` and `uvmcopy` succeeded: the parent's size, handlers,
mask, saved registers with `a0 = 0`, files, cwd and name; no pending signals. -/
def forkCopy (par child : Proc np) : Proc np :=
  { child with sz := par.sz, signalHandlers := par.signalHandlers,
               signalsMask := par.signalsMask, pendingSignals := 0,
               tf := { par.tf with a0 := 0 }, ofile := dupFiles par.ofile child.ofile,
               cwd := par.cwd, name := par.name }

/-- `userinit` after `allocproc`: one page of `initcode`, entry 0, stack at the top
of the page, name "initcode", cwd from `namei("/")`, RUNNABLE. -/
def userinitProc (q : Proc np) (cwd : Nat) : Proc np :=
  { q with sz := BitVec.ofNat 64 K.PGSIZE,
           tf := { q.tf with epc := 0, sp := BitVec.ofNat 64 K.PGSIZE },
           name := "initcode", cwd := cwd, state := .RUNNABLE }

/-- What a switched-out kernel thread does once `swtch` lands in it, up to its
`release(&p->lock)`: `forkret` returns to user space, `yield` to its caller, and
`sleep` clears `chan` and goes on to re-acquire its lock. -/
def resume (p : Proc np) : Option (Proc np) :=
  match p.pc with
  | .forkret => some { p with pc := .user }
  | .yieldRet k => some { p with pc := k }
  | .sleepRet _ lk k => some { p with chan := .null, pc := .sleepReacq lk k }
  | _ => none

/-- The body of `wakeup(chan)`'s loop for a slot other than the caller's. -/
def wakeup1 (q : Proc np) (chan : Chan np) : Proc np :=
  if q.state = .SLEEPING ∧ q.chan = chan then { q with state := .RUNNABLE } else q

/-! ## The descriptor table -/

/-- What a system call of the file layer does to the caller's descriptor table: the
value it returns, the table it leaves and its calls into the file layer. -/
structure FdResult where
  ret : Int
  ofile : List Nat
  calls : List Call

/-- `fdalloc(f)`: the first null descriptor. -/
def fdalloc : List Nat → Option Nat
  | [] => none
  | f :: fs => if f = 0 then some 0 else (fdalloc fs).map (· + 1)

/-- `sys_open` once the path is resolved: `filealloc` returns `f` (0 when the file
table is full), and `fdalloc` puts it into the first null descriptor; with none
free the file is closed again. -/
def sysOpen (ofile : List Nat) (f : Nat) : FdResult :=
  if f = 0 then ⟨-1, ofile, [.filealloc 0]⟩
  else match fdalloc ofile with
    | some fd => ⟨fd, ofile.set fd f, [.filealloc f]⟩
    | none => ⟨-1, ofile, [.filealloc f, .fileclose f]⟩

/-- `sys_close(fd)`: an open descriptor is cleared and its file closed. -/
def sysClose (ofile : List Nat) (fd : Nat) : FdResult :=
  match ofile[fd]? with
  | some f => if f = 0 then ⟨-1, ofile, []⟩ else ⟨0, ofile.set fd 0, [.fileclose f]⟩
  | none => ⟨-1, ofile, []⟩

/-- The calls of the file layer that write the caller's descriptor table. -/
inductive FileCall (ofile : List Nat) : FdResult → Prop
  | openFile (f : Nat) : FileCall ofile (sysOpen ofile f)
  | close (fd : Nat) : FileCall ofile (sysClose ofile fd)

/-- `fdalloc` returns a null descriptor. -/
theorem fdalloc_some {l : List Nat} {fd : Nat} (h : fdalloc l = some fd) : l[fd]? = some 0 := by
  induction l generalizing fd with
  | nil => cases h
  | cons x xs ih =>
    simp only [fdalloc] at h
    split_ifs at h with hx
    · cases h; simp [hx]
    · obtain ⟨fd', h', rfl⟩ := Option.map_eq_some'.1 h
      simpa using ih h'

/-- The file layer keeps the size of the descriptor table. -/
theorem FileCall.length {ofile : List Nat} {r : FdResult} (h : FileCall ofile r) :
    r.ofile.length = ofile.length := by
  cases h with
  | openFile f => unfold sysOpen; split_ifs <;> [rfl; split <;> simp]
  | close fd => unfold sysClose; split <;> [split_ifs <;> simp; rfl]

/-! ## Steps -/

/-- One step of the kernel thread of process `p`, running on CPU `c`. -/
inductive PStep : Sys np nc → Fin nc → Fin np → Out np → Sys np nc → Prop
  /- Scheduling: a timer interrupt with no lock held; `sleep`. -/
  | yield {σ c p} (hs : (σ.proc p).state = .RUNNING) (hn : σ.HoldsNone c)
      (hl : σ.lock (.proc p) = none) :
      PStep σ c p { acq := [.proc p] } ((σ.setProc p
        { σ.proc p with state := .RUNNABLE, pc := .yieldRet (σ.proc p).pc }).switchOut c)
  | sleep {σ c p chan lk k} (hpc : (σ.proc p).pc = .sleepCall chan lk k)
      (hl : σ.lock (.proc p) = none) (hlk : σ.lock lk = some c) (ho : σ.HoldsOnly c lk) :
      PStep σ c p { acq := [.proc p] } (((σ.setLock lk none).setProc p
        { σ.proc p with chan := chan, state := .SLEEPING, pc := .sleepRet chan lk k }).switchOut c)
  | sleepReacq {σ c p lk k} (hpc : (σ.proc p).pc = .sleepReacq lk k) (hl : σ.lock lk = none) :
      PStep σ c p { acq := [lk] } ((σ.setLock lk (some c)).setProc p { σ.proc p with pc := k })
  /- `wakeup(chan)`. -/
  | wakeupSelf {σ c p chan i k} (hpc : (σ.proc p).pc = .wakeupScan chan i k) (hi : i = p.val) :
      PStep σ c p {} (σ.setProc p { σ.proc p with pc := .wakeupScan chan (i + 1) k })
  | wakeupSlot {σ c p chan i k} (hpc : (σ.proc p).pc = .wakeupScan chan i k) (hi : i < np)
      (hne : i ≠ p.val) (hl : σ.lock (.proc ⟨i, hi⟩) = none) :
      PStep σ c p { acq := [.proc ⟨i, hi⟩] }
        ((σ.setProc ⟨i, hi⟩ (wakeup1 (σ.proc ⟨i, hi⟩) chan)).setProc p
          { σ.proc p with pc := .wakeupScan chan (i + 1) k })
  | wakeupDone {σ c p chan i k} (hpc : (σ.proc p).pc = .wakeupScan chan i k) (hi : np ≤ i) :
      PStep σ c p {} (σ.setProc p { σ.proc p with pc := k })
  /- Kernel code of other files. -/
  | extAcquire {σ c p} (k : Nat) (hpc : (σ.proc p).pc = .user) (hl : σ.lock (.ext k) = none) :
      PStep σ c p { acq := [.ext k] }
        ((σ.setLock (.ext k) (some c)).setProc p { σ.proc p with pc := .extHeld k })
  | extRelease {σ c p k} (hpc : (σ.proc p).pc = .extHeld k) (hl : σ.lock (.ext k) = some c) :
      PStep σ c p {} ((σ.setLock (.ext k) none).setProc p { σ.proc p with pc := .user })
  | extSleep {σ c p k} (chan : Chan np) (hpc : (σ.proc p).pc = .extHeld k) :
      PStep σ c p {} (σ.setProc p { σ.proc p with pc := .sleepCall chan (.ext k) (.extHeld k) })
  | callWakeup {σ c p} (chan : Chan np)
      (hpc : (σ.proc p).pc = .user ∨ ∃ k, (σ.proc p).pc = .extHeld k) :
      PStep σ c p {} (σ.setProc p { σ.proc p with pc := .wakeupScan chan 0 (σ.proc p).pc })
  | fileCall {σ c p r} (hpc : (σ.proc p).pc = .user) (h : FileCall (σ.proc p).ofile r) :
      PStep σ c p { ret := some r.ret, calls := r.calls }
        (σ.setProc p { σ.proc p with ofile := r.ofile })
  /- `fork`. -/
  | forkCall {σ c p} (hpc : (σ.proc p).pc = .user) :
      PStep σ c p {} (σ.setProc p { σ.proc p with pc := .allocScan 0 })
  | allocBusy {σ c p i} (hpc : (σ.proc p).pc = .allocScan i) (hi : i < np)
      (hl : σ.lock (.proc ⟨i, hi⟩) = none) (hu : (σ.proc ⟨i, hi⟩).state ≠ .UNUSED) :
      PStep σ c p { acq := [.proc ⟨i, hi⟩] }
        (σ.setProc p { σ.proc p with pc := .allocScan (i + 1) })
  | allocFail {σ c p i q} (e : ForkEnv) (hpc : (σ.proc p).pc = .allocScan i) (hi : i < np)
      (hl : σ.lock (.proc ⟨i, hi⟩) = none) (hpl : σ.lock .pidLock = none)
      (hu : (σ.proc ⟨i, hi⟩).state = .UNUSED)
      (ha : allocproc K (σ.proc ⟨i, hi⟩) σ.nextpid e = .error q) :
      PStep σ c p { ret := some (-1), acq := [.proc ⟨i, hi⟩, .pidLock],
                    calls := allocprocCalls (σ.proc ⟨i, hi⟩) e }
        { (σ.setProc p { σ.proc p with pc := .user }).setProc ⟨i, hi⟩ q with
          nextpid := intAdd σ.nextpid 1 }
  | copyFail {σ c p i q} (e : ForkEnv) (hpc : (σ.proc p).pc = .allocScan i) (hi : i < np)
      (hl : σ.lock (.proc ⟨i, hi⟩) = none) (hpl : σ.lock .pidLock = none)
      (hu : (σ.proc ⟨i, hi⟩).state = .UNUSED)
      (ha : allocproc K (σ.proc ⟨i, hi⟩) σ.nextpid e = .ok q) (hc : e.copyOk = false) :
      PStep σ c p { ret := some (-1), acq := [.proc ⟨i, hi⟩, .pidLock],
                    calls := allocprocCalls (σ.proc ⟨i, hi⟩) e ++ freeprocCalls q }
        { (σ.setProc p { σ.proc p with pc := .user }).setProc ⟨i, hi⟩ (freeproc q) with
          nextpid := intAdd σ.nextpid 1 }
  | allocOk {σ c p i q} (e : ForkEnv) (hpc : (σ.proc p).pc = .allocScan i) (hi : i < np)
      (hl : σ.lock (.proc ⟨i, hi⟩) = none) (hpl : σ.lock .pidLock = none)
      (hu : (σ.proc ⟨i, hi⟩).state = .UNUSED)
      (ha : allocproc K (σ.proc ⟨i, hi⟩) σ.nextpid e = .ok q) (hc : e.copyOk = true) :
      PStep σ c p { acq := [.proc ⟨i, hi⟩, .pidLock],
                    calls := allocprocCalls (σ.proc ⟨i, hi⟩) e ++ forkCalls (σ.proc p) }
        { (σ.setProc p { σ.proc p with pc := .forkParent ⟨i, hi⟩ σ.nextpid }).setProc ⟨i, hi⟩
            (forkCopy (σ.proc p) q) with nextpid := intAdd σ.nextpid 1 }
  | allocNone {σ c p i} (hpc : (σ.proc p).pc = .allocScan i) (hi : np ≤ i) :
      PStep σ c p { ret := some (-1) } (σ.setProc p { σ.proc p with pc := .user })
  | forkParent {σ c p ch pid} (hpc : (σ.proc p).pc = .forkParent ch pid)
      (hl : σ.lock .waitLock = none) :
      PStep σ c p { acq := [.waitLock] } ((σ.setProc ch { σ.proc ch with parent := some p }).setProc
        p { σ.proc p with pc := .forkRunnable ch pid })
  | forkRunnable {σ c p ch pid} (hpc : (σ.proc p).pc = .forkRunnable ch pid)
      (hl : σ.lock (.proc ch) = none) :
      PStep σ c p { ret := some pid, acq := [.proc ch] }
        ((σ.setProc ch { σ.proc ch with state := .RUNNABLE }).setProc p
          { σ.proc p with pc := .user })
  /- `exit(status)`. -/
  | exitCall {σ c p} (status : Int) (hpc : (σ.proc p).pc = .user) (hi : σ.initproc ≠ some p) :
      PStep σ c p { calls := exitCalls (σ.proc p) } (σ.setProc p
        { σ.proc p with ofile := (σ.proc p).ofile.map (fun _ => 0), cwd := 0,
                        pc := .exitStart status })
  | exitStart {σ c p status} (hpc : (σ.proc p).pc = .exitStart status)
      (hl : σ.lock .waitLock = none) :
      PStep σ c p { acq := [.waitLock] } ((σ.setLock .waitLock (some c)).setProc p
        { σ.proc p with pc := .reparentScan status 0 })
  | reparentHit {σ c p status i} (hpc : (σ.proc p).pc = .reparentScan status i) (hi : i < np)
      (hp : (σ.proc ⟨i, hi⟩).parent = some p) :
      PStep σ c p {} ((σ.setProc ⟨i, hi⟩ { σ.proc ⟨i, hi⟩ with parent := σ.initproc }).setProc p
        { σ.proc p with pc := .wakeupScan (.ofProc σ.initproc) 0 (.reparentScan status (i + 1)) })
  | reparentMiss {σ c p status i} (hpc : (σ.proc p).pc = .reparentScan status i) (hi : i < np)
      (hp : (σ.proc ⟨i, hi⟩).parent ≠ some p) :
      PStep σ c p {} (σ.setProc p { σ.proc p with pc := .reparentScan status (i + 1) })
  | reparentDone {σ c p status i} (hpc : (σ.proc p).pc = .reparentScan status i) (hi : np ≤ i) :
      PStep σ c p {} (σ.setProc p
        { σ.proc p with pc := .wakeupScan (.ofProc (σ.proc p).parent) 0 (.exitZombie status) })
  | exitZombie {σ c p status} (hpc : (σ.proc p).pc = .exitZombie status)
      (hl : σ.lock (.proc p) = none) (hw : σ.lock .waitLock = some c)
      (ho : σ.HoldsOnly c .waitLock) :
      PStep σ c p { acq := [.proc p] } (((σ.setLock .waitLock none).setProc p
        { σ.proc p with xstate := status, state := .ZOMBIE, pc := .exited status }).switchOut c)
  /- `wait(addr)`. -/
  | waitCall {σ c p} (addr : Nat) (hpc : (σ.proc p).pc = .user) :
      PStep σ c p {} (σ.setProc p { σ.proc p with pc := .waitStart addr })
  | waitStart {σ c p addr} (hpc : (σ.proc p).pc = .waitStart addr)
      (hl : σ.lock .waitLock = none) :
      PStep σ c p { acq := [.waitLock] } ((σ.setLock .waitLock (some c)).setProc p
        { σ.proc p with pc := .waitScan addr 0 false })
  | waitSkip {σ c p addr i hk} (hpc : (σ.proc p).pc = .waitScan addr i hk) (hi : i < np)
      (hp : (σ.proc ⟨i, hi⟩).parent ≠ some p) :
      PStep σ c p {} (σ.setProc p { σ.proc p with pc := .waitScan addr (i + 1) hk })
  | waitChild {σ c p addr i hk} (hpc : (σ.proc p).pc = .waitScan addr i hk) (hi : i < np)
      (hp : (σ.proc ⟨i, hi⟩).parent = some p) (hl : σ.lock (.proc ⟨i, hi⟩) = none)
      (hz : (σ.proc ⟨i, hi⟩).state ≠ .ZOMBIE) :
      PStep σ c p { acq := [.proc ⟨i, hi⟩] }
        (σ.setProc p { σ.proc p with pc := .waitScan addr (i + 1) true })
  | waitCopyFail {σ c p addr i hk} (hpc : (σ.proc p).pc = .waitScan addr i hk) (hi : i < np)
      (hp : (σ.proc ⟨i, hi⟩).parent = some p) (hl : σ.lock (.proc ⟨i, hi⟩) = none)
      (hz : (σ.proc ⟨i, hi⟩).state = .ZOMBIE) (ha : addr ≠ 0) :
      PStep σ c p { ret := some (-1), acq := [.proc ⟨i, hi⟩] }
        ((σ.setLock .waitLock none).setProc p { σ.proc p with pc := .user })
  | waitReap {σ c p addr i hk} (hpc : (σ.proc p).pc = .waitScan addr i hk) (hi : i < np)
      (hp : (σ.proc ⟨i, hi⟩).parent = some p) (hl : σ.lock (.proc ⟨i, hi⟩) = none)
      (hz : (σ.proc ⟨i, hi⟩).state = .ZOMBIE) :
      PStep σ c p { ret := some (σ.proc ⟨i, hi⟩).pid, acq := [.proc ⟨i, hi⟩],
                    wrote := if addr = 0 then none else some (addr, (σ.proc ⟨i, hi⟩).xstate),
                    calls := freeprocCalls (σ.proc ⟨i, hi⟩) }
        (((σ.setLock .waitLock none).setProc ⟨i, hi⟩ (freeproc (σ.proc ⟨i, hi⟩))).setProc p
          { σ.proc p with pc := .user })
  | waitNone {σ c p addr i hk} (hpc : (σ.proc p).pc = .waitScan addr i hk) (hi : np ≤ i)
      (hk : hk = false ∨ (σ.proc p).killed ≠ 0) :
      PStep σ c p { ret := some (-1) }
        ((σ.setLock .waitLock none).setProc p { σ.proc p with pc := .user })
  | waitSleep {σ c p addr i} (hpc : (σ.proc p).pc = .waitScan addr i true) (hi : np ≤ i)
      (hk : (σ.proc p).killed = 0) :
      PStep σ c p {} (σ.setProc p
        { σ.proc p with pc := .sleepCall (.proc p) .waitLock (.waitScan addr 0 false) })
  /- `kill(pid, signum)`. -/
  | killRange {σ c p} (pid signum : Int) (hpc : (σ.proc p).pc = .user)
      (hs : signum < 0 ∨ 31 < signum) :
      PStep σ c p { ret := some (-1) } σ
  | killCall {σ c p} (pid : Int) (s : Fin 32) (hpc : (σ.proc p).pc = .user) :
      PStep σ c p {} (σ.setProc p { σ.proc p with pc := .killScan pid s 0 })
  | killMiss {σ c p pid s i} (hpc : (σ.proc p).pc = .killScan pid s i) (hi : i < np)
      (hl : σ.lock (.proc ⟨i, hi⟩) = none) (hne : (σ.proc ⟨i, hi⟩).pid ≠ pid) :
      PStep σ c p { acq := [.proc ⟨i, hi⟩] }
        (σ.setProc p { σ.proc p with pc := .killScan pid s (i + 1) })
  | killRefused {σ c p pid s i} (hpc : (σ.proc p).pc = .killScan pid s i) (hi : i < np)
      (hl : σ.lock (.proc ⟨i, hi⟩) = none) (heq : (σ.proc ⟨i, hi⟩).pid = pid)
      (hbad : (σ.proc ⟨i, hi⟩).killed ≠ 0 ∨ (σ.proc ⟨i, hi⟩).state = .ZOMBIE ∨
        (σ.proc ⟨i, hi⟩).state = .UNUSED) :
      PStep σ c p { ret := some (-1), acq := [.proc ⟨i, hi⟩] }
        ((σ.setLock (.proc ⟨i, hi⟩) (some c)).setProc p { σ.proc p with pc := .user })
  /- The target may be the caller itself, which returns with its own bit raised. -/
  | killHit {σ c p pid s i} (hpc : (σ.proc p).pc = .killScan pid s i) (hi : i < np)
      (hl : σ.lock (.proc ⟨i, hi⟩) = none) (heq : (σ.proc ⟨i, hi⟩).pid = pid)
      (hok : ¬((σ.proc ⟨i, hi⟩).killed ≠ 0 ∨ (σ.proc ⟨i, hi⟩).state = .ZOMBIE ∨
        (σ.proc ⟨i, hi⟩).state = .UNUSED)) :
      PStep σ c p { ret := some 0, acq := [.proc ⟨i, hi⟩] }
        ((σ.setProc ⟨i, hi⟩ { σ.proc ⟨i, hi⟩ with
            pendingSignals := (σ.proc ⟨i, hi⟩).pendingSignals ||| sigBit s }).setPc p .user)
  | killDone {σ c p pid s i} (hpc : (σ.proc p).pc = .killScan pid s i) (hi : np ≤ i) :
      PStep σ c p { ret := some (-1) } (σ.setProc p { σ.proc p with pc := .user })
  /- Signal calls and the delivery pass. -/
  | sigprocmask {σ c p} (mask : BitVec 32) (hpc : (σ.proc p).pc = .user) :
      PStep σ c p { ret := some (σ.proc p).signalsMask.toNat }
        (σ.setProc p { σ.proc p with signalsMask := maskOf K mask })
  | sigactionCall {σ c p} (signum : Int) (act actAddr : Nat) (hpc : (σ.proc p).pc = .user) :
      PStep σ c p { ret := some (sigaction K (σ.proc p) signum act actAddr).1 }
        (σ.setProc p (sigaction K (σ.proc p) signum act actAddr).2)
  | sigretCall {σ c p} (tf' : Trapframe) (hpc : (σ.proc p).pc = .user)
      (hl : σ.lock (.proc p) = none) :
      PStep σ c p { acq := [.proc p] } (σ.setProc p (sigret (σ.proc p) tf'))
  | sigCall {σ c p} (hpc : (σ.proc p).pc = .user) :
      PStep σ c p {} (σ.setProc p { σ.proc p with pc := .sigEntry })
  | sigPriv {σ c p q} (h : sigStep K (σ.proc p) = some q) :
      PStep σ c p {} (σ.setProc p q)
  | sigKill {σ c p k} (hpc : (σ.proc p).pc = .sigKill k) (hl : σ.lock (.proc p) = none) :
      PStep σ c p { acq := [.proc p] } (σ.setProc p { sigkillFunc (σ.proc p) with pc := k })
  | sigTurnoff {σ c p i k} (hpc : (σ.proc p).pc = .sigTurnoff i k)
      (hl : σ.lock (.proc p) = none) :
      PStep σ c p { acq := [.proc p] }
        (σ.setProc p { turnoffSigbit (σ.proc p) i with pc := k })
  | sigUser {σ c p i} (m : UMem) (mapped : BitVec 64 → Bool) (dst₀ : BitVec 64)
      (sigmask₀ : BitVec 32) (hpc : (σ.proc p).pc = .sigUser i) (hl : σ.lock (.proc p) = none) :
      PStep σ c p { acq := [.proc p] } (σ.setProc p
        { usersignalhandler K (σ.proc p) i (readSigaction (σ.proc p) i m mapped dst₀ sigmask₀).1
            (readSigaction (σ.proc p) i m mapped dst₀ sigmask₀).2 with
          pc := .sigTurnoff i (.sigLoop (i.val + 1)) })
  | stopYield {σ c p i j} (hpc : (σ.proc p).pc = .searchLoop i j) (hj : 32 ≤ j)
      (hn : σ.HoldsNone c) (hl : σ.lock (.proc p) = none) :
      PStep σ c p { acq := [.proc p] } ((σ.setProc p
        { σ.proc p with state := .RUNNABLE, pc := .yieldRet (.sigStop i) }).switchOut c)

/-- One step of CPU `c`: its process's kernel thread, or its `scheduler()` loop
(looking at one slot, or starting over), or the boot processor's `userinit`, or the
`wakeup` of an interrupt handler it took in `scheduler()`. -/
inductive Step : Sys np nc → Fin nc → Out np → Sys np nc → Prop
  | proc {σ c p o σ'} (hc : (σ.cpus c).proc = some p) (h : PStep K σ c p o σ') : Step σ c o σ'
  | schedSkip {σ c} (i : Fin np) (hc : (σ.cpus c).proc = none) (hi : (σ.cpus c).next = i.val)
      (hl : σ.lock (.proc i) = none) (hs : (σ.proc i).state ≠ .RUNNABLE) :
      Step σ c { acq := [.proc i] } (σ.setCpu c ⟨none, i.val + 1⟩)
  | schedRun {σ c q} (i : Fin np) (hc : (σ.cpus c).proc = none) (hi : (σ.cpus c).next = i.val)
      (hl : σ.lock (.proc i) = none) (hs : (σ.proc i).state = .RUNNABLE)
      (hr : resume (σ.proc i) = some q) :
      Step σ c { acq := [.proc i] } ((σ.setProc i { q with state := .RUNNING }).setCpu c
        ⟨some i, i.val⟩)
  | schedWrap {σ c} (hc : (σ.cpus c).proc = none) (hi : np ≤ (σ.cpus c).next) :
      Step σ c {} (σ.setCpu c ⟨none, 0⟩)
  | userinit {σ c q} (i : Fin np) (e : ForkEnv) (cwd : Nat) (hc : (σ.cpus c).proc = none)
      (h0 : σ.initproc = none) (hfirst : ∀ j : Fin np, j < i → (σ.proc j).state ≠ .UNUSED)
      (hu : (σ.proc i).state = .UNUSED) (hl : σ.lock (.proc i) = none)
      (hpl : σ.lock .pidLock = none) (ha : allocproc K (σ.proc i) σ.nextpid e = .ok q) :
      Step σ c { acq := [.proc i, .pidLock], calls := allocprocCalls (σ.proc i) e ++ [.namei cwd] }
        { σ.setProc i (userinitProc K q cwd) with
          nextpid := intAdd σ.nextpid 1, initproc := some i }
  | intrCall {σ c} (a : Nat) (hc : (σ.cpus c).proc = none) (hn : σ.intr c = none)
      (hl : ∀ h : (σ.cpus c).next < np, σ.lock (.proc ⟨_, h⟩) = none) :
      Step σ c {} (σ.setIntr c (some (a, 0)))
  | intrSlot {σ c a i} (hc : (σ.cpus c).proc = none) (hn : σ.intr c = some (a, i)) (hi : i < np)
      (hl : σ.lock (.proc ⟨i, hi⟩) = none) :
      Step σ c { acq := [.proc ⟨i, hi⟩] }
        ((σ.setProc ⟨i, hi⟩ (wakeup1 (σ.proc ⟨i, hi⟩) (.obj a))).setIntr c (some (a, i + 1)))
  | intrDone {σ c a i} (hn : σ.intr c = some (a, i)) (hi : np ≤ i) :
      Step σ c {} (σ.setIntr c none)

/-- The states the kernel can reach from `procinit`. -/
inductive Reachable : Sys np nc → Prop
  | init : Reachable (procinit K)
  | step {σ c o σ'} : Reachable σ → Step K σ c o σ' → Reachable σ'

end RiscvProc
