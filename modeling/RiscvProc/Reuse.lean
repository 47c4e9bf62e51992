import RiscvProc.Handler
import RiscvProc.Pid

/-!
# What a new process inherits

`allocproc` resets the handlers, the mask, the pending set, the stop flag and the
in-flight flag of the slot it hands out, but not `user_tf_backup` or
`signals_mask_backup`, and `fork` copies neither from the parent. `sigret` reads both,
with no check that a handler is in flight. A forked child therefore takes these two
fields from its slot's previous occupant, not from its parent.

`slot_leftovers_reach_child` starts from two reachable states that differ only in the
leftovers of an UNUSED slot: in one, the previous child died inside a user handler.
The same `fork`, `sigret` and `sigprocmask` run from each return different masks.
`fork_drops_inflight_handler` forks from inside a user handler: the parent's `sigret`
gives back its mask, the child's gives back what its slot left.

The runs are built from lemmas over every state of their shape: a child that enters
its handler (`ChildExits.enter`), a child that exits and is reaped (`ChildExits.reap`),
and a fork whose child returns by `sigret` (`fork_child_sigret`).
-/

namespace RiscvProc

variable {K : Param} {σ : Sys 2 1}

/-! ## A child that runs while its parent waits -/

/-- Slot 1 is a child of slot 0 running in user space on CPU 0, while slot 0, the init
process, sleeps in `wait` on its own channel; no lock is held. -/
structure ChildExits (σ : Sys 2 1) : Prop where
  cpu : σ.cpus 0 = ⟨some 1, 1⟩
  user : (σ.proc 1).pc = .user
  parent : (σ.proc 1).parent = some 0
  root : (σ.proc 0).parent = none
  asleep : (σ.proc 0).pc = .sleepRet (.proc 0) .waitLock (.waitScan 0 0 false)
  sleeping : (σ.proc 0).state = .SLEEPING
  chan : (σ.proc 0).chan = .proc 0
  free : ∀ l, σ.lock l = none
  init : σ.initproc = some 0

/-- The child sends itself `s`, whose handler is a user descriptor, and its delivery
pass enters that handler: the slot's backups now hold the mask it had and the frame
address below its stack. -/
theorem ChildExits.enter (hr : Reachable K σ) (h : ChildExits σ) {s : Fin 32}
    (hpid : (σ.proc 0).pid ≠ (σ.proc 1).pid) (hk : (σ.proc 1).killed = 0)
    (hs : (σ.proc 1).stopped = 0) (hh : (σ.proc 1).signalHandling = 0)
    (hp : (σ.proc 1).pendingSignals = 0) (hm : (σ.proc 1).signalsMask.getLsbD s = false)
    (hu : handlerAct K ((σ.proc 1).signalHandlers s) s = .user) :
    ∃ σ' : Sys 2 1, Reachable K σ' ∧ ChildExits σ' ∧ σ'.proc 0 = σ.proc 0 ∧
      σ'.nextpid = σ.nextpid ∧ (σ'.proc 1).signalsMaskBackup = (σ.proc 1).signalsMask ∧
      (σ'.proc 1).userTfBackup = (σ.proc 1).tf.sp - BitVec.ofNat 64 K.tfSize := by
  have hc : (σ.cpus 0).proc = some 1 := by rw [h.cpu]
  have hrun := hr.wf.running hc
  have h1 := hr.step (Step.proc hc (PStep.killCall (p := 1) (σ.proc 1).pid s h.user))
  have h2 := h1.step (Step.proc (by simpa using hc) (PStep.killMiss (p := 1) (i := 0) rfl
    (by decide) (by simp [h.free]) (by simpa using hpid)))
  have h3 := h2.step (Step.proc (by simpa using hc) (PStep.killHit (p := 1) (i := 1) rfl
    (by decide) (by simp [h.free]) (by simp) (by simp [hk, hrun])))
  have h4 := h3.step (Step.proc (by simpa using hc) (PStep.sigCall (p := 1) (by simp)))
  have h5 := h4.run (PassRun.run (c := 0) (p := 1) (PassRun.userOnly (s := s) (by simp)
    (by simp [hk]) (by simp [hs]) (by simp [hh]) (by simp [hp]) (by simpa using hm)
    (by simpa using hu) 0 0) (by simpa using hc) (by simp [h.free]))
  refine ⟨_, h5, ⟨?_, ?_, ?_, ?_, ?_, ?_, ?_, ?_, ?_⟩, by simp, by simp, ?_, ?_⟩
  all_goals simp [turnoffSigbit, usersignalhandler, h.cpu, h.parent, h.root, h.asleep,
    h.sleeping, h.chan, h.free, h.init]

/-- The child calls `exit(0)` and the parent's `wait` reaps it: the slot is UNUSED
again with what `exit` and `freeproc` left in it, and the parent is back in user space
able to fork. -/
theorem ChildExits.reap (hr : Reachable K σ) (h : ChildExits σ) :
    ∃ σ' : Sys 2 1, Reachable K σ' ∧ ForkReady σ' ∧
      σ'.proc 0 = { σ.proc 0 with chan := .null, state := .RUNNING, pc := .user } ∧
      σ'.proc 1 = freeproc { σ.proc 1 with
        ofile := (σ.proc 1).ofile.map (fun _ => 0), cwd := 0, xstate := 0, state := .ZOMBIE,
        pc := .exited 0 } ∧
      σ'.cpus 0 = ⟨some 0, 0⟩ ∧ (∀ l, σ'.lock l = none) ∧ σ'.nextpid = σ.nextpid ∧
      σ'.initproc = σ.initproc := by
  have hc : (σ.cpus 0).proc = some 1 := by rw [h.cpu]
  have h1 := hr.step (Step.proc hc (PStep.exitCall (p := 1) 0 h.user (by rw [h.init]; decide)))
  have h2 := h1.step (Step.proc (by simpa using hc) (PStep.exitStart (p := 1) rfl
    (by simp [h.free])))
  have h3 := h2.step (Step.proc (by simpa using hc) (PStep.reparentMiss (p := 1) (i := 0)
    rfl (by decide) (by simp [h.root])))
  have h4 := h3.step (Step.proc (by simpa using hc) (PStep.reparentMiss (p := 1) (i := 1)
    rfl (by decide) (by simp [h.parent])))
  have h5 := h4.step (Step.proc (by simpa using hc) (PStep.reparentDone (p := 1) (i := 2)
    rfl le_rfl))
  have h6 := h5.step (Step.proc (by simpa using hc) (PStep.wakeupSlot (p := 1) (i := 0)
    rfl (by decide) (by decide) (by simp [h.free])))
  have h7 := h6.step (Step.proc (by simpa using hc) (PStep.wakeupSelf (p := 1) (i := 1)
    rfl rfl))
  have h8 := h7.step (Step.proc (by simpa using hc) (PStep.wakeupDone (p := 1) (i := 2)
    rfl le_rfl))
  have h9 := h8.step (Step.proc (by simpa using hc) (PStep.exitZombie (p := 1) rfl
    (by simp [h.free]) (by simp) (fun l hl => by by_contra hne; simp [hne, h.free] at hl)))
  have h10 := h9.step (Step.schedWrap (c := 0) (by simp) (by simp [h.cpu]))
  have h11 := h10.step (Step.schedRun (c := 0) 0 (by simp) (by simp) (by simp [h.free])
    (by simp [wakeup1, h.sleeping, h.chan, h.parent, Chan.ofProc])
    (q := { σ.proc 0 with
      state := .RUNNABLE, chan := .null, pc := .sleepReacq .waitLock (.waitScan 0 0 false) })
    (by simp [resume, wakeup1, h.sleeping, h.chan, h.asleep, h.parent, Chan.ofProc]))
  have h12 := h11.step (Step.proc (c := 0) (p := 0) (by simp) (PStep.sleepReacq
    rfl (by simp [h.free])))
  have h13 := h12.step (Step.proc (c := 0) (p := 0) (by simp) (PStep.waitSkip (i := 0)
    rfl (by decide) (by simp [h.root])))
  have h14 := h13.step (Step.proc (c := 0) (p := 0) (by simp) (PStep.waitReap (i := 1)
    rfl (by decide) (by simp [h.parent]) (by simp [h.free]) (by simp)))
  obtain ⟨τ, hτ, e⟩ : ∃ τ, Reachable K τ ∧ τ = _ := ⟨_, h14, rfl⟩
  have e0 : τ.proc 0 = { σ.proc 0 with chan := .null, state := .RUNNING, pc := .user } := by
    subst e; simp
  have e1 : (τ.proc 1).state = .UNUSED := by subst e; simp
  have ec : τ.cpus 0 = ⟨some 0, 0⟩ := by subst e; simp
  have el : ∀ l, τ.lock l = none := fun l => by
    subst e; by_cases hl : l = .waitLock <;> simp [hl, h.free]
  refine ⟨τ, hτ, ⟨by rw [ec], by rw [e0], by rw [e0]; nofun, e1, el _, el _, el _⟩, e0, ?_, ec, el,
    by rw [e]; rfl, by rw [e]; rfl⟩
  subst e; simp

/-! ## A fork into a used slot -/

/-- A `fork` whose allocations succeed, a `yield` of the parent, the scheduler's
switch to the child, the child's `sigret` and its `sigprocmask(0)`. The child starts
with its slot's old backups, so `sigprocmask` returns the slot's old
`signals_mask_backup`. -/
theorem fork_child_sigret (h : ForkReady σ) (hfree : ∀ l, σ.lock l = none)
    (hcpu : σ.cpus 0 = ⟨some 0, 0⟩) (hrun : (σ.proc 0).state = .RUNNING) (tf : Trapframe) :
    ∃ σ₁ σ₂ σ₃ σ₄ : Sys 2 1, Run K σ σ₁ ∧ (σ₁.proc 1).state = .RUNNABLE ∧
      (σ₁.proc 1).parent = some 0 ∧ (σ₁.proc 1).signalsMaskBackup = (σ.proc 1).signalsMaskBackup ∧
      (σ₁.proc 1).userTfBackup = (σ.proc 1).userTfBackup ∧ Run K σ₁ σ₂ ∧
      Sigrets σ₂ σ₃ 1 tf ∧ Step K σ₃ 0 { ret := some (σ.proc 1).signalsMaskBackup.toNat } σ₄ := by
  have h1 := Run.single (K := K) (Step.proc h.cpu (PStep.forkCall h.user))
  have h2 := h1.tail ⟨0, _, Step.proc (by simpa using h.cpu) (PStep.allocBusy (i := 0)
    (by simp) (by decide) (by simpa using h.lock0) (by simpa using h.used))⟩
  have h3 := h2.tail ⟨0, _, Step.proc (by simpa using h.cpu) (PStep.allocOk (i := 1)
    ⟨1, 1, true, true, true⟩ (by simp) (by decide) (by simpa using h.lock1) (by simpa using h.pidLock)
    (by simpa using h.free) rfl rfl)⟩
  have h4 := h3.tail ⟨0, _, Step.proc (by simpa using h.cpu) (PStep.forkParent (p := 0) rfl
    (by simp [hfree]))⟩
  have h5 := h4.tail ⟨0, _, Step.proc (by simpa using h.cpu) (PStep.forkRunnable (p := 0) rfl
    (by simp [hfree]))⟩
  refine ⟨_, _, _, _, h5, by simp, by simp, by simp [forkCopy], by simp [forkCopy],
    (Run.single (Step.proc (c := 0) (p := 0) (by simpa using h.cpu)
      (PStep.yield (by simpa using hrun) (fun l => by simp [hfree]) (by simp [hfree])))).tail
      ⟨0, _, Step.schedRun 1 (by simp) (by simp [hcpu]) (by simp [hfree]) (by simp) rfl⟩,
    ⟨0, by simp, by simp, by simp [hfree], rfl⟩,
    Step.proc (c := 0) (p := 1) (by simp) (PStep.sigprocmask 0 (by simp [sigret]))⟩

/-! ## Two histories of one slot -/

/-- initcode masks signal 3, installs a user handler for 31, forks and waits; the
scheduler runs the child. -/
theorem child_scheduled_boot :
    ∃ σ : Sys 2 1, Reachable Param.std σ ∧ ChildExits σ ∧ (σ.proc 0).pid ≠ (σ.proc 1).pid ∧
      (σ.proc 1).killed = 0 ∧ (σ.proc 1).stopped = 0 ∧ (σ.proc 1).signalHandling = 0 ∧
      (σ.proc 1).pendingSignals = 0 ∧ (σ.proc 1).signalsMask = 8 ∧
      handlerAct Param.std ((σ.proc 1).signalHandlers 31) 31 = .user ∧
      (σ.proc 1).signalsMaskBackup = 0 ∧ (σ.proc 1).userTfBackup = 0 ∧
      (σ.proc 1).tf.sp = 4096 := by
  have h0 := bootSys_reachable (K := Param.std)
  have h1 := h0.step (Step.proc (c := 0) rfl (PStep.sigprocmask (p := 0) 8 rfl))
  have h2 := h1.step (Step.proc (c := 0) rfl (PStep.sigactionCall (p := 0) 31 4096 0 rfl))
  have h3 := h2.step (Step.proc (c := 0) rfl (PStep.forkCall (p := 0) (by rfl)))
  have h4 := h3.step (Step.proc (c := 0) rfl (PStep.allocBusy (p := 0) (i := 0) (by rfl)
    (by decide) (by rfl) (by decide)))
  have h5 := h4.step (Step.proc (c := 0) rfl (PStep.allocOk (p := 0) (i := 1) ⟨1, 1, true, true, true⟩
    (by rfl) (by decide) (by rfl) (by rfl) (by rfl) (by rfl) rfl))
  have h6 := h5.step (Step.proc (c := 0) rfl (PStep.forkParent (p := 0) (by rfl) (by rfl)))
  have h7 := h6.step (Step.proc (c := 0) rfl (PStep.forkRunnable (p := 0) (by rfl) (by rfl)))
  have h8 := h7.step (Step.proc (c := 0) rfl (PStep.waitCall (p := 0) 0 (by rfl)))
  have h9 := h8.step (Step.proc (c := 0) rfl (PStep.waitStart (p := 0) (by rfl) (by rfl)))
  have h10 := h9.step (Step.proc (c := 0) rfl (PStep.waitSkip (p := 0) (i := 0) (by rfl)
    (by decide) (by decide)))
  have h11 := h10.step (Step.proc (c := 0) rfl (PStep.waitChild (p := 0) (i := 1) (by rfl)
    (by decide) (by rfl) (by rfl) (by decide)))
  have h12 := h11.step (Step.proc (c := 0) rfl (PStep.waitSleep (p := 0) (by rfl) (by decide)
    (by rfl)))
  have h13 := h12.step (Step.proc (c := 0) (p := 0) rfl (PStep.sleep (by rfl) (by rfl) (by rfl)
    fun l h => by
      by_contra hne
      exact absurd h (by
        show Function.update (fun _ => none) Lk.waitLock (some (0 : Fin 1)) l ≠ some 0
        simp [hne])))
  have hfree : ∀ l, Function.update (Function.update (fun _ => none) Lk.waitLock
      (some (0 : Fin 1))) (Lk.waitLock : Lk 2) none l = none := fun l => by
    by_cases hl : l = .waitLock <;> simp [hl]
  exact ⟨_, h13.step (Step.schedRun (c := 0) 1 rfl rfl rfl rfl rfl),
    ⟨rfl, rfl, rfl, rfl, rfl, rfl, rfl, hfree, rfl⟩, by decide, rfl, rfl, rfl, rfl, rfl,
    by decide, rfl, rfl, rfl⟩

/-- Two reachable states agree on every slot's state, every field of every slot in
use, the CPUs, the locks, `nextpid` and `initproc`. They differ in slot 1, UNUSED,
whose last occupant died inside a user handler in `σA` and never ran one in `σB`. The
same `fork`, `yield`, switch to the child, `sigret` and `sigprocmask(0)` run from each
return 8 from `σA` and 0 from `σB`. -/
theorem slot_leftovers_reach_child (tf : Trapframe) :
    ∃ σA σB : Sys 2 1, Reachable Param.std σA ∧ Reachable Param.std σB ∧
      σA.cpus = σB.cpus ∧ σA.lock = σB.lock ∧ σA.nextpid = σB.nextpid ∧
      σA.initproc = σB.initproc ∧ (∀ j, (σA.proc j).state = (σB.proc j).state) ∧
      (∀ j, (σA.proc j).state ≠ .UNUSED → σA.proc j = σB.proc j) ∧
      (σA.proc 1).signalsMaskBackup = 8 ∧ (σB.proc 1).signalsMaskBackup = 0 ∧
      (σA.proc 1).userTfBackup ≠ (σB.proc 1).userTfBackup ∧
      ∀ σ, σ = σA ∨ σ = σB → ∃ σ₁ σ₂ σ₃ σ₄ : Sys 2 1, Run Param.std σ σ₁ ∧
        (σ₁.proc 1).state = .RUNNABLE ∧ (σ₁.proc 1).parent = some 0 ∧
        (σ₁.proc 1).signalsMaskBackup = (σ.proc 1).signalsMaskBackup ∧
        (σ₁.proc 1).userTfBackup = (σ.proc 1).userTfBackup ∧ Run Param.std σ₁ σ₂ ∧
        Sigrets σ₂ σ₃ 1 tf ∧
        Step Param.std σ₃ 0 { ret := some (σ.proc 1).signalsMaskBackup.toNat } σ₄ := by
  obtain ⟨σp, hp, he, hpid, hk, hs, hh, hpe, hm, hu, hb, ht, hsp⟩ := child_scheduled_boot
  obtain ⟨σa, ha, hea, ha0, han, hab, hat⟩ := he.enter hp (s := 31) hpid hk hs hh hpe
    (by rw [hm]; decide) hu
  obtain ⟨σA, hA, hfA, hA0, hA1, hAc, hAl, hAn, hAi⟩ := hea.reap ha
  obtain ⟨σB, hB, hfB, hB0, hB1, hBc, hBl, hBn, hBi⟩ := he.reap hp
  refine ⟨σA, σB, hA, hB, funext fun c => by rw [Subsingleton.elim c 0, hAc, hBc],
    funext fun l => by rw [hAl, hBl], by rw [hAn, han, hBn], by rw [hAi, hBi, hea.init, he.init],
    Fin.forall_fin_two.2 ⟨by rw [hA0, hB0], by simp [hA1, hB1]⟩,
    Fin.forall_fin_two.2 ⟨fun _ => by rw [hA0, hB0, ha0], fun h => by simp [hA1] at h⟩,
    by rw [hA1, ← hm]; exact hab, by rw [hB1, ← hb]; rfl, ?_, ?_⟩
  · rw [hA1, hB1]
    show (σa.proc 1).userTfBackup ≠ (σp.proc 1).userTfBackup
    rw [hat, ht, hsp]
    decide
  rintro σ (rfl | rfl)
  · exact fork_child_sigret hfA (fun l => hAl l) hAc (by rw [hA0]) tf
  · exact fork_child_sigret hfB (fun l => hBl l) hBc (by rw [hB0]) tf

/-! ## Forking inside a handler -/

/-- initcode masks signal 3, enters a user handler for 31 (`signal_handling = 1`, the
mask 8 in `signals_mask_backup`) and forks from inside it. The child has no handler in
flight and a different `user_tf_backup`. After each returns by `sigret` with the same
frame, the parent has mask 8 again and the child mask 0. -/
theorem fork_drops_inflight_handler (tf : Trapframe) :
    ∃ σ σ₁ σ₂ σ₃ : Sys 2 1, Reachable Param.std σ ∧ (σ.proc 0).signalHandling = 1 ∧
      (σ.proc 0).signalsMaskBackup = 8 ∧ (σ.proc 1).parent = some 0 ∧
      (σ.proc 1).state = .RUNNABLE ∧ (σ.proc 1).signalHandling = 0 ∧
      (σ.proc 1).userTfBackup ≠ (σ.proc 0).userTfBackup ∧
      Sigrets σ σ₁ 0 tf ∧ Run Param.std σ₁ σ₂ ∧ Sigrets σ₂ σ₃ 1 tf ∧
      (σ₃.proc 0).signalsMask = 8 ∧ (σ₃.proc 1).signalsMask = 0 := by
  have h0 := bootSys_reachable (K := Param.std)
  have h1 := h0.step (Step.proc (c := 0) rfl (PStep.sigprocmask (p := 0) 8 rfl))
  have h2 := h1.step (Step.proc (c := 0) rfl (PStep.sigactionCall (p := 0) 31 4096 0 rfl))
  have h3 := h2.step (Step.proc (c := 0) rfl (PStep.killCall (p := 0) 1 31 (by rfl)))
  have h4 := h3.step (Step.proc (c := 0) rfl
    (PStep.killHit (p := 0) (i := 0) (by rfl) (by decide) (by rfl) (by rfl) (by decide)))
  have h5 := h4.step (Step.proc (c := 0) rfl (PStep.sigCall (p := 0) (by rfl)))
  have h6 := h5.run (PassRun.run (c := 0) (p := 0) (PassRun.userOnly (s := 31) (by rfl) (by rfl)
    (by rfl) (by rfl) (by decide) (by decide) (by decide) 0 0) rfl rfl)
  have h7 := h6.step (Step.proc (c := 0) rfl (PStep.forkCall (p := 0) (by rfl)))
  have h8 := h7.step (Step.proc (c := 0) rfl (PStep.allocBusy (p := 0) (i := 0) (by rfl)
    (by decide) (by rfl) (by decide)))
  have h9 := h8.step (Step.proc (c := 0) rfl (PStep.allocOk (p := 0) (i := 1) ⟨1, 1, true, true, true⟩
    (by rfl) (by decide) (by rfl) (by rfl) (by rfl) (by rfl) rfl))
  have h10 := h9.step (Step.proc (c := 0) rfl (PStep.forkParent (p := 0) (by rfl) (by rfl)))
  have h11 := h10.step (Step.proc (c := 0) rfl (PStep.forkRunnable (p := 0) (by rfl) (by rfl)))
  refine ⟨_, _, _, _, h11, rfl, rfl, rfl, rfl, rfl, by decide, ⟨0, rfl, rfl, rfl, rfl⟩,
    ((Run.single (Step.proc (c := 0) rfl (PStep.yield (p := 0) (by rfl)
      (fun _ h => Option.noConfusion h) (by rfl)))).tail
      ⟨0, _, Step.schedRun 1 (by rfl) (by rfl) (by rfl) (by rfl) rfl⟩),
    ⟨0, rfl, rfl, rfl, rfl⟩, rfl, rfl⟩

end RiscvProc
