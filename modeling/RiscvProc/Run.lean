import RiscvProc.WfStep
import Mathlib.Logic.Relation

/-!
# Runs

A run is finitely many steps of any CPUs (`Run`). What holds along a whole run
follows from one step lemma each: `initproc`, once set, never changes, and a slot
lock held past its section (only `kill` does that) is never released, so a
scheduler loop that reaches that slot, running no interrupt handler, never steps
again.

The last section builds the boot run: `userinit` on the boot table and the first
pass of the scheduler, which leaves initcode RUNNING in user space on CPU 0.
-/

namespace RiscvProc

variable {np nc : Nat} (K : Param)

/-- Finitely many steps of any CPUs. -/
def Run : Sys np nc → Sys np nc → Prop :=
  Relation.ReflTransGen fun σ σ' => ∃ c o, Step K σ c o σ'

variable {K} {σ σ' : Sys np nc} {c : Fin nc} {p i : Fin np} {o : Out np}

theorem Run.single (h : Step K σ c o σ') : Run K σ σ' := .single ⟨c, o, h⟩

theorem Reachable.run (hr : Reachable K σ) (h : Run K σ σ') : Reachable K σ' := by
  induction h with
  | refl => exact hr
  | tail _ hs ih => obtain ⟨c, o, hs⟩ := hs; exact ih.step hs

/-! ## `initproc` -/

theorem pstep_initproc (h : PStep K σ c p o σ') : σ'.initproc = σ.initproc := by
  cases h <;> rfl

theorem pstep_intr (h : PStep K σ c p o σ') : σ'.intr = σ.intr := by
  cases h <;> rfl

/-- A thread's step leaves its CPU as it was, or `sched()` switches back to the
scheduler loop, which goes on with the next slot. -/
theorem pstep_cpu (h : PStep K σ c p o σ') :
    σ'.cpus c = σ.cpus c ∨ σ'.cpus c = ⟨none, (σ.cpus c).next + 1⟩ := by
  cases h <;> simp

/-- Only `userinit` sets `initproc`, and only while it is null. -/
theorem step_initproc (h : Step K σ c o σ') (hi : σ.initproc = some i) :
    σ'.initproc = some i := by
  cases h with
  | proc _ h => rw [pstep_initproc h, hi]
  | userinit _ _ _ _ h0 => rw [hi] at h0; cases h0
  | schedSkip | schedRun | schedWrap | intrCall | intrSlot | intrDone => exact hi

/-! ## Slot locks -/

/-- No step releases a slot lock held past its section. -/
theorem pstep_slot_lock (hw : Wf σ) (hc : (σ.cpus c).proc = some p) (h : PStep K σ c p o σ')
    {d : Fin nc} (hl : σ.lock (.proc i) = some d) : σ'.lock (.proc i) = some d := by
  cases h
  case sleep chan lk k hpc _ _ _ =>
    have ha := hw.active hc
    rw [hpc] at ha
    have : Lk.proc i ≠ lk := by rintro rfl; exact Pc.Active.not_slot ha.1 ((ha.2 _).2 rfl) trivial
    simp [this, hl]
  case sleepReacq lk k _ hl' =>
    have : Lk.proc i ≠ lk := by rintro rfl; rw [hl] at hl'; cases hl'
    simp [this, hl]
  case killRefused pid s j _ hj hl' _ _ =>
    have : Lk.proc i ≠ .proc ⟨j, hj⟩ := by rintro e; rw [e, hl'] at hl; cases hl
    simp [this, hl]
  all_goals simpa using hl

theorem step_slot_lock (hw : Wf σ) (h : Step K σ c o σ') {d : Fin nc}
    (hl : σ.lock (.proc i) = some d) : σ'.lock (.proc i) = some d := by
  cases h with
  | proc hc h => exact pstep_slot_lock hw hc h hl
  | _ => exact hl

theorem run_slot_lock (hr : Reachable K σ) (h : Run K σ σ') {d : Fin nc}
    (hl : σ.lock (.proc i) = some d) : σ'.lock (.proc i) = some d := by
  induction h with
  | refl => exact hl
  | tail hrun hs ih => obtain ⟨c, o, hs⟩ := hs; exact step_slot_lock (hr.run hrun).wf hs ih

/-- A scheduler loop at a slot whose lock is held cannot step, nor take an interrupt,
while it runs no handler (once `userinit` has run, which is the boot CPU's only other
move). -/
theorem sched_blocked (hc : (σ.cpus c).proc = none) (hn : (σ.cpus c).next = i.val)
    (hl : σ.lock (.proc i) ≠ none) (hi : σ.initproc ≠ none) (hin : σ.intr c = none)
    {σ' : Sys np nc} : ¬ Step K σ c o σ' := by
  intro h
  cases h with
  | proc hc' _ => rw [hc] at hc'; cases hc'
  | schedSkip j _ hj hl' _ | schedRun j _ hj hl' _ _ =>
    exact hl (by rwa [Fin.ext (hn.symm.trans hj)])
  | schedWrap _ hj => have := i.isLt; omega
  | userinit _ _ _ _ h0 => exact hi h0
  | intrCall _ _ _ hl' => exact hl (by rw [← hl' (hn ▸ i.isLt)]; congr 2; exact Fin.ext hn.symm)
  | intrSlot _ h | intrDone h => rw [hin] at h; cases h

/-! ## The boot run -/

/-- What `allocproc` makes of the boot table's first slot for `userinit`, with
the trap-frame page and the page table at 1. -/
def bootAlloc (K : Param) : Proc 2 :=
  { Proc.zero K with pid := 1, state := .USED, signalHandlers := fun _ => K.SIG_DFL,
                     trapframe := 1, pagetable := 1, pc := .forkret }

/-- The boot table after `userinit`. -/
def bootInit (K : Param) : Sys 2 1 :=
  { (procinit K).setProc 0 (userinitProc K (bootAlloc K) 0) with
    nextpid := intAdd 1 1, initproc := some 0 }

/-- The boot table after `userinit` and the scheduler's first switch: initcode is
RUNNING in user space on CPU 0, and slot 1 is as `procinit` left it. -/
def bootSys (K : Param) : Sys 2 1 :=
  ((bootInit K).setProc 0 { { (bootInit K).proc 0 with pc := .user } with state := .RUNNING }).setCpu
    0 ⟨some 0, 0⟩

theorem bootSys_reachable : Reachable K (bootSys K) :=
  (Reachable.init.step (Step.userinit (c := 0) 0 ⟨1, 1, true, true, true⟩ 0 rfl rfl (fun j hj => absurd hj
    (Fin.not_lt_zero j)) rfl rfl rfl rfl)).step (Step.schedRun (c := 0) 0 rfl rfl rfl rfl rfl)

/-- `initcode` forks and yields, and the scheduler runs the child in slot 1. -/
theorem child_running_boot : ∃ σ : Sys 2 1, Reachable Param.std σ ∧
    (σ.cpus 0).proc = some 1 ∧ (σ.proc 1).pc = .user ∧ (σ.proc 1).state = .RUNNING ∧
    (σ.proc 1).parent = some 0 ∧ σ.initproc = some 0 ∧ σ.lock .waitLock = none := by
  have h0 := bootSys_reachable (K := Param.std)
  have h1 := h0.step (Step.proc (c := 0) rfl (PStep.forkCall rfl))
  have h2 := h1.step (Step.proc (c := 0) rfl (PStep.allocBusy (i := 0) rfl (by decide) rfl
    (by decide)))
  have h3 := h2.step (Step.proc (c := 0) rfl (PStep.allocOk (i := 1) ⟨1, 1, true, true, true⟩ rfl
    (by decide) rfl rfl rfl rfl rfl))
  have h4 := h3.step (Step.proc (c := 0) rfl (PStep.forkParent rfl rfl))
  have h5 := h4.step (Step.proc (c := 0) rfl (PStep.forkRunnable rfl rfl))
  have h6 := h5.step (Step.proc (c := 0) (p := 0) rfl (PStep.yield rfl (fun _ h => by cases h) rfl))
  exact ⟨_, h6.step (Step.schedRun (c := 0) 1 (by rfl) (by rfl) (by rfl) (by rfl) (by rfl)),
    by rfl, by rfl, by rfl, by rfl, by rfl, by rfl⟩

/-- initcode forks and waits; the child runs and calls `exit(7)`, which wakes initcode,
and becomes a ZOMBIE; the scheduler runs initcode again, whose `wait` finds the ZOMBIE
while holding `wait_lock`, and the last step, from `σ` to `σ'`, reaps it. -/
theorem child_reaped_boot : ∃ (σ σ' : Sys 2 1) (o : Out 2), Reachable Param.std σ ∧
    Step Param.std σ 0 o σ' ∧ (σ.proc 1).state = .ZOMBIE ∧ (σ.proc 1).parent = some 0 ∧
    (σ.proc 1).xstate = 7 ∧ σ.lock .waitLock = some 0 ∧ (∀ j, σ.lock (.proc j) = none) ∧
    (σ'.proc 1).state = .UNUSED ∧ o.ret = some 2 ∧ σ'.nextpid = 3 ∧ ∀ l, σ'.lock l = none := by
  have h0 := bootSys_reachable (K := Param.std)
  have h1 := h0.step (Step.proc (c := 0) (by rfl) (PStep.forkCall (p := 0) (by rfl)))
  have h2 := h1.step (Step.proc (c := 0) (by rfl) (PStep.allocBusy (p := 0) (i := 0) (by rfl)
    (by decide) (by rfl) (by decide)))
  have h3 := h2.step (Step.proc (c := 0) (by rfl) (PStep.allocOk (p := 0) (i := 1)
    ⟨1, 1, true, true, true⟩ (by rfl) (by decide) (by rfl) (by rfl) (by rfl) (by rfl) (by rfl)))
  have h4 := h3.step (Step.proc (c := 0) (by rfl) (PStep.forkParent (p := 0) (by rfl) (by rfl)))
  have h5 := h4.step (Step.proc (c := 0) (by rfl) (PStep.forkRunnable (p := 0) (by rfl) (by rfl)))
  have h6 := h5.step (Step.proc (c := 0) (by rfl) (PStep.waitCall (p := 0) 0 (by rfl)))
  have h7 := h6.step (Step.proc (c := 0) (by rfl) (PStep.waitStart (p := 0) (by rfl) (by rfl)))
  have h8 := h7.step (Step.proc (c := 0) (by rfl) (PStep.waitSkip (p := 0) (i := 0) (by rfl)
    (by decide) (by decide)))
  have h9 := h8.step (Step.proc (c := 0) (by rfl) (PStep.waitChild (p := 0) (i := 1) (by rfl)
    (by decide) (by rfl) (by rfl) (by decide)))
  have h10 := h9.step (Step.proc (c := 0) (by rfl) (PStep.waitSleep (p := 0) (by rfl) (by decide) (by rfl)))
  have h11 := h10.step (Step.proc (c := 0) (p := 0) (by rfl) (PStep.sleep (by rfl) (by rfl) (by rfl)
    fun l h => by
      by_contra hne
      exact absurd h (by
        show Function.update (fun _ => none) Lk.waitLock (some (0 : Fin 1)) l ≠ some 0
        simp [hne])))
  have h12 := h11.step (Step.schedRun (c := 0) 1 (by rfl) (by rfl) (by rfl) (by rfl) (by rfl))
  have h13 := h12.step (Step.proc (c := 0) (by rfl) (PStep.exitCall (p := 1) 7 (by rfl) (by decide)))
  have h14 := h13.step (Step.proc (c := 0) (by rfl) (PStep.exitStart (p := 1) (by rfl) (by rfl)))
  have h15 := h14.step (Step.proc (c := 0) (by rfl) (PStep.reparentMiss (p := 1) (i := 0) (by rfl)
    (by decide) (by decide)))
  have h16 := h15.step (Step.proc (c := 0) (by rfl) (PStep.reparentMiss (p := 1) (i := 1) (by rfl)
    (by decide) (by decide)))
  have h17 := h16.step (Step.proc (c := 0) (by rfl) (PStep.reparentDone (p := 1) (i := 2) (by rfl) le_rfl))
  have h18 := h17.step (Step.proc (c := 0) (by rfl) (PStep.wakeupSlot (p := 1) (i := 0) (by rfl)
    (by decide) (by decide) (by rfl)))
  have h19 := h18.step (Step.proc (c := 0) (by rfl) (PStep.wakeupSelf (p := 1) (i := 1) (by rfl) (by rfl)))
  have h20 := h19.step (Step.proc (c := 0) (by rfl) (PStep.wakeupDone (p := 1) (i := 2) (by rfl) le_rfl))
  have h21 := h20.step (Step.proc (c := 0) (by rfl) (PStep.exitZombie (p := 1) (by rfl) (by rfl) (by rfl)
    fun l h => by
      by_contra hne
      exact absurd h (by
        show Function.update (Function.update (Function.update (fun _ => none) Lk.waitLock
          (some (0 : Fin 1))) Lk.waitLock none) Lk.waitLock (some 0) l ≠ some 0
        simp [hne])))
  have h22 := h21.step (Step.schedWrap (c := 0) (by rfl) (by rfl))
  have h23 := h22.step (Step.schedRun (c := 0) 0 (by rfl) (by rfl) (by rfl) (by rfl) (by rfl))
  have h24 := h23.step (Step.proc (c := 0) (p := 0) (by rfl) (PStep.sleepReacq (by rfl) (by rfl)))
  have h25 := h24.step (Step.proc (c := 0) (p := 0) (by rfl) (PStep.waitSkip (i := 0) (by rfl)
    (by decide) (by decide)))
  exact ⟨_, _, _, h25, Step.proc (c := 0) (p := 0) (by rfl) (PStep.waitReap (i := 1) (by rfl) (by decide)
    (by rfl) (by rfl) (by rfl)), by rfl, by rfl, by rfl, by rfl, fun _ => by rfl, by rfl, by rfl, by rfl,
    fun l => by cases l <;> rfl⟩

end RiscvProc
