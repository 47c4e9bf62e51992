import RiscvProc.Ownership

/-!
# `fork`'s child

`fork` builds its child in one step, the one in which `allocproc` and `uvmcopy`
succeed (`PStep.allocOk`). In a reachable state the slot it takes is cleared, so the
child gets exactly the parent's open files and nothing left over from the slot's last
user; `allocproc` has cleared its pending signals and stop. The child's parent link
and RUNNABLE come in the next two steps, under `wait_lock` and the child's lock, and
the last of them returns the pid the first drew from `nextpid`.

That pid need not be free. `allocpid` wraps, and a `fork` that fails still uses a pid
up, so after 2^32 - 1 failed forks from the boot table the next `fork` returns 1, the
pid initcode still holds.
-/

namespace RiscvProc

variable {np nc : Nat} {K : Param} {σ σ' : Sys np nc} {c : Fin nc} {p : Fin np} {o : Out np}

/-- What the step of `fork` that builds the child in slot `ch` leaves, for a parent `p`
that will return `k`: the child has pid `k`, drawn from `nextpid`, no parent yet, the
parent's size, saved registers with `a0 = 0`, handlers, mask, open files (the step
`filedup`s each non-null one), cwd (`idup`ed) and name, and no pending signal and no
stop; the parent's own slot only moves on. -/
structure ChildCopy (σ σ' : Sys np nc) (p ch : Fin np) (k : Int) (o : Out np) : Prop where
  pid : k = σ.nextpid ∧ (σ'.proc ch).pid = k
  state : (σ'.proc ch).state = .USED
  parent : (σ'.proc ch).parent = none
  sz : (σ'.proc ch).sz = (σ.proc p).sz
  tf : (σ'.proc ch).tf = { (σ.proc p).tf with a0 := 0 }
  handlers : (σ'.proc ch).signalHandlers = (σ.proc p).signalHandlers
  mask : (σ'.proc ch).signalsMask = (σ.proc p).signalsMask
  pending : (σ'.proc ch).pendingSignals = 0
  stopped : (σ'.proc ch).stopped = 0
  ofile : (σ'.proc ch).ofile = (σ.proc p).ofile
  cwd : (σ'.proc ch).cwd = (σ.proc p).cwd
  name : (σ'.proc ch).name = (σ.proc p).name
  calls : ∃ e, o.calls = allocprocCalls (σ.proc ch) e ++ forkCalls (σ.proc p)
  self : σ'.proc p = { σ.proc p with pc := .forkParent ch k }

/-- In a reachable state the step that builds `fork`'s child is a faithful copy: the
slot it takes is cleared, so nothing of its last user is left. -/
theorem fork_child_copy (hr : Reachable K σ) (hc : (σ.cpus c).proc = some p) {i : Nat}
    (hpc : (σ.proc p).pc = .allocScan i) (hs : PStep K σ c p o σ') {ch : Fin np} {k : Int}
    (hk : (σ'.proc p).pc = .forkParent ch k) : ChildCopy σ σ' p ch k o := by
  have hrun := hr.wf.cpu.running hc
  cases hs
  case allocOk i q e _ hi _ _ hu ha _ =>
    have hne : p ≠ ⟨i, hi⟩ := by rintro rfl; exact absurd (hu.symm.trans hrun) nofun
    simp only [Sys.setProc_proc, if_neg hne, if_true] at hk
    obtain ⟨rfl, rfl⟩ := Pc.forkParent.inj hk
    obtain ⟨-, -, rfl⟩ := allocproc_ok_eq ha
    obtain ⟨-, -, -, -, hcl⟩ := (hr.ownOk _).unused hu
    have hd := dupFiles_of_null hcl.1 ((hr.ownOk p).nofile.trans ((hr.ownOk _).nofile).symm)
    constructor <;> simp [hne, forkCopy, hd, hr.parentOk.free _ hu]
  case allocBusy | allocFail | copyFail | allocNone | yield =>
    simp only [Sys.setProc_proc, Sys.setPc_eq, Sys.switchOut_proc] at hk
    split_ifs at hk <;> subst_vars <;> simp_all
  case sigPriv q hq => simp [sigStep, hpc] at hq
  case callWakeup _ h => rcases h with h | ⟨_, h⟩ <;> rw [hpc] at h <;> cases h
  all_goals simp only [hpc, reduceCtorEq] at *

/-- With one CPU running a thread in user space, `wait_lock` is free. -/
theorem ForkReady.waitLock {σ : Sys 2 1} (hr : Reachable K σ) (h : ForkReady σ) : σ.lock .waitLock = none := by
  cases hl : σ.lock .waitLock with
  | none => rfl
  | some d =>
    obtain rfl : d = 0 := Subsingleton.elim d 0
    have := (hr.wf.holds_iff h.cpu (l := .waitLock) id).2 hl
    rw [h.user] at this
    exact this.elim

/-- The three steps of a `fork` that succeeds into slot 1, the last of which returns. -/
theorem fork_returns {σ : Sys 2 1} (hr : Reachable K σ) (h : ForkReady σ) :
    ∃ (τ τ' : Sys 2 1) (o : Out 2), Reachable K τ ∧ PStep K τ 0 0 o τ' ∧ o.ret = some σ.nextpid ∧
      (τ'.proc 1).pid = σ.nextpid ∧ (τ'.proc 1).state = .RUNNABLE ∧ (τ'.proc 1).parent = some 0 ∧
      (τ'.proc 0).state ≠ .UNUSED ∧ (τ'.proc 0).pid = (σ.proc 0).pid := by
  obtain ⟨q, hq⟩ : ∃ q, allocproc K (σ.proc 1) σ.nextpid ⟨1, 2, true, true, true⟩ = .ok q := ⟨_, rfl⟩
  have hq' := allocproc_ok K hq
  obtain ⟨τ, hτ, hc, hpc, h0, h1, hw, hl⟩ : ∃ τ : Sys 2 1, Reachable K τ ∧ (τ.cpus 0).proc = some 0 ∧
      (τ.proc 0).pc = .forkParent 1 σ.nextpid ∧ τ.proc 0 = { σ.proc 0 with pc := .forkParent 1 σ.nextpid } ∧
      (τ.proc 1).pid = σ.nextpid ∧ τ.lock .waitLock = none ∧ τ.lock (.proc 1) = none :=
    ⟨_, (fork_scan hr h).step (Step.proc (by exact h.cpu) (PStep.allocOk (i := 1)
      ⟨1, 2, true, true, true⟩ (by simp) (by decide) (by exact h.lock1) (by exact h.pidLock)
      (by simpa using h.free) (by simpa using hq) rfl)), h.cpu, by simp, by simp,
      by simp [forkCopy, hq'.2.2.1],
      by simpa using h.waitLock hr, h.lock1⟩
  obtain ⟨τ', hτ', hc', hpc', h0', h1', hl'⟩ : ∃ τ' : Sys 2 1, Reachable K τ' ∧
      (τ'.cpus 0).proc = some 0 ∧ (τ'.proc 0).pc = .forkRunnable 1 σ.nextpid ∧
      τ'.proc 0 = { τ.proc 0 with pc := .forkRunnable 1 σ.nextpid } ∧
      τ'.proc 1 = { τ.proc 1 with parent := some 0 } ∧ τ'.lock (.proc 1) = none :=
    ⟨_, hτ.step (Step.proc hc (PStep.forkParent hpc hw)), hc, by simp, by simp, by simp, by simpa using hl⟩
  refine ⟨τ', _, _, hτ', PStep.forkRunnable hpc' hl', rfl, ?_⟩
  simp [h0', h1', h0, h1, h.used]

/-- **`fork`'s child.** From every reachable state, the step of `fork` that builds the
child makes it a faithful copy of its parent (`ChildCopy`). But its pid need not be
free: initcode (pid 1) forks from the boot table 2^32 - 1 times with the trap-frame
`kalloc` failing, then once with everything succeeding. That `fork` returns 1: its child
in slot 1 is RUNNABLE with pid 1 while initcode, live in slot 0, still has pid 1. -/
theorem fork_returns_initproc_pid :
    (∀ {np nc : Nat} {K : Param} {σ σ' : Sys np nc} {c : Fin nc} {p ch : Fin np} {o : Out np}
        {i : Nat} {k : Int}, Reachable K σ → (σ.cpus c).proc = some p →
        (σ.proc p).pc = .allocScan i → PStep K σ c p o σ' → (σ'.proc p).pc = .forkParent ch k →
        ChildCopy σ σ' p ch k o) ∧
    ∃ (σ σ' : Sys 2 1) (o : Out 2), Reachable Param.std σ ∧ PStep Param.std σ 0 0 o σ' ∧
      o.ret = some 1 ∧ (σ'.proc 1).pid = 1 ∧ (σ'.proc 1).state = .RUNNABLE ∧
      (σ'.proc 1).parent = some 0 ∧ (σ'.proc 0).state ≠ .UNUSED ∧ (σ'.proc 0).pid = 1 := by
  refine ⟨fun hr hc hpc hs hk => fork_child_copy hr hc hpc hs hk, ?_⟩
  obtain ⟨σ, hr, h, hp, hn⟩ := fork_fails_iterate bootSys_reachable
    (bootSys_forkReady (K := Param.std)) (2 ^ 32 - 1)
  have hn1 : σ.nextpid = 1 := by
    rw [hn, show (bootSys Param.std).nextpid = intAdd 1 1 from rfl, intAdd_iterate]
    decide
  obtain ⟨τ, τ', o, hτ, hs, hret, hpid, hst, hpar, hu, hp0⟩ := fork_returns hr h
  exact ⟨τ, τ', o, hτ, hs, hn1 ▸ hret, hn1 ▸ hpid, hst, hpar, hu, hp0.trans (hp.trans rfl)⟩

end RiscvProc
