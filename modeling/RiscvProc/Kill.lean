import RiscvProc.Run

/-!
# `kill` leaves a slot lock held

`kill(pid, signum)` takes each slot's lock in turn. When the pid matches a slot
that is already killed, a ZOMBIE or UNUSED, it returns -1 without
`release(&p->lock)`. The CPU goes back to user space holding that lock; no step
ever releases it, and a scheduler loop that reaches that slot spins there for good,
with interrupts off.
The unused slots of the boot table all have pid 0, so `kill(0, s)` from initcode
is such a call.
-/

namespace RiscvProc

variable {np nc : Nat} {K : Param}

/-- The step of CPU `c` returns -1 to user space in the thread of `p` with slot
`i`'s lock taken and not released; that lock stays with `c` in every later state,
and there no scheduler loop at slot `i` can step. -/
def LeaksSlotLock (K : Param) (σ : Sys np nc) (c : Fin nc) (p i : Fin np) : Prop :=
  ∃ o σ', Step K σ c o σ' ∧ o.ret = some (-1) ∧ (σ'.proc p).pc = .user ∧
    ∀ σ'', Run K σ' σ'' → σ''.lock (.proc i) = some c ∧
      (σ''.initproc ≠ none → ∀ d, (σ''.cpus d).proc = none → (σ''.cpus d).next = i.val →
        ∀ o' τ, ¬ Step K σ'' d o' τ)

/-- CPU `c` keeps slot `i`'s lock and runs no interrupt handler, `initproc` is set,
and the scheduler loop of `c` stands at slot `i`, or will once the thread it runs
calls `sched()`. -/
def Stuck (σ : Sys np nc) (c : Fin nc) (i : Fin np) : Prop :=
  σ.lock (.proc i) = some c ∧ σ.intr c = none ∧ σ.initproc ≠ none ∧
    ((σ.cpus c).proc = none → (σ.cpus c).next = i.val) ∧
    ∀ p, (σ.cpus c).proc = some p → (σ.cpus c).next + 1 = i.val

/-- On one CPU, a stuck loop never steps again, and a thread running there reaches
it in the end: every step keeps the CPU stuck. -/
theorem Stuck.step {σ σ' : Sys np 1} {i : Fin np} {o : Out np} (hr : Reachable K σ)
    (h : Stuck σ 0 i) (hs : Step K σ 0 o σ') : Stuck σ' 0 i := by
  obtain ⟨hl, hin, hi, hidle, hrun⟩ := h
  cases hc : (σ.cpus 0).proc with
  | none => exact absurd hs (sched_blocked hc (hidle hc) (by simp [hl]) hi hin)
  | some p =>
    cases hs with
    | proc hc' h =>
      have hnext := hrun p hc
      refine ⟨pstep_slot_lock hr.wf hc' h hl, by rw [pstep_intr h, hin],
        by rw [pstep_initproc h]; exact hi, ?_⟩
      rcases pstep_cpu h with e | e <;> rw [e]
      · exact ⟨fun h' => absurd (hc.symm.trans h') nofun, fun _ _ => hnext⟩
      · exact ⟨fun _ => hnext, fun _ h' => nomatch h'⟩
    | schedSkip _ h | schedRun _ h | schedWrap h | userinit _ _ _ h | intrCall _ h | intrSlot h =>
      rw [hc] at h; cases h
    | intrDone h => rw [hin] at h; cases h

/-- `kill`'s scan at a slot whose pid matches but whose process is killed, a
ZOMBIE or UNUSED leaks that slot's lock: on a machine of one CPU that runs no
interrupt handler, and whose loop goes on at that slot once the caller gives up
the CPU. -/
theorem kill_refused_leaks {σ : Sys np 1} {p i : Fin np} {pid : Int} {s : Fin 32}
    (hr : Reachable K σ) (hc : (σ.cpus 0).proc = some p) (hnext : (σ.cpus 0).next + 1 = i.val)
    (hin : σ.intr 0 = none) (hi : σ.initproc ≠ none)
    (hpc : (σ.proc p).pc = .killScan pid s i.val) (hl : σ.lock (.proc i) = none)
    (heq : (σ.proc i).pid = pid)
    (hbad : (σ.proc i).killed ≠ 0 ∨ (σ.proc i).state = .ZOMBIE ∨ (σ.proc i).state = .UNUSED) :
    LeaksSlotLock K σ 0 p i := by
  have h := Step.proc hc (PStep.killRefused (K := K) hpc i.isLt hl heq hbad)
  refine ⟨_, _, h, rfl, by simp, fun σ'' hrun => ?_⟩
  have hst : Stuck σ'' 0 i := by
    have h₀ : Stuck ((σ.setLock (.proc i) (some 0)).setProc p { σ.proc p with pc := .user }) 0 i :=
      ⟨by simp, hin, hi, fun h' => absurd (hc.symm.trans h') nofun, fun _ _ => hnext⟩
    induction hrun with
    | refl => exact h₀
    | tail hrun' hs ih =>
      obtain ⟨d, o', hs⟩ := hs
      obtain rfl : d = 0 := Subsingleton.elim d 0
      exact ih.step ((hr.step h).run hrun') hs
  obtain ⟨hl', hin', -, -, -⟩ := hst
  refine ⟨hl', fun hi' d hd hn _ _ => ?_⟩
  obtain rfl : d = 0 := Subsingleton.elim d 0
  exact sched_blocked hd hn (by simp [hl']) hi' hin'

/-- The failing input: initcode calls `kill(0, 9)` on the boot table. Slot 0
(pid 1) does not match; slot 1 is UNUSED with pid 0, and the call returns -1
holding its lock. -/
theorem kill_zero_leaks_at_boot :
    ∃ σ : Sys 2 1, Reachable Param.std σ ∧ (σ.cpus 0).proc = some 0 ∧
      (σ.proc 0).pc = .killScan 0 9 1 ∧ (σ.proc 1).state = .UNUSED ∧
      LeaksSlotLock Param.std σ 0 0 1 := by
  have h0 := bootSys_reachable (K := Param.std)
  have h1 := h0.step (Step.proc (c := 0) rfl (PStep.killCall 0 9 rfl))
  have h2 := h1.step (Step.proc (c := 0) rfl (PStep.killMiss (i := 0) rfl (by decide) rfl
    (by decide)))
  exact ⟨_, h2, rfl, rfl, rfl,
    kill_refused_leaks h2 rfl rfl rfl (by decide) rfl rfl rfl (.inr (.inr rfl))⟩

/-- Two inputs on which `kill` misses its contract. From the boot table, initcode's
`kill(0, 5)` returns -1 at the UNUSED slot 1 with that slot's lock taken, where it
stays. And in a table whose UNUSED slot 0 still carries pid 7 while the caller in slot 1,
live and not killed, has pid 7 as well, `kill(7, 5)` stops at slot 0 and returns -1. -/
theorem kill_misses_contract :
    (∃ (σ σ' : Sys 2 1) (o : Out 2), Reachable Param.std σ ∧ (σ.proc 0).pc = .killScan 0 5 1 ∧
      PStep Param.std σ 0 0 o σ' ∧ o.ret = some (-1) ∧ σ.lock (.proc 1) = none ∧
      σ'.lock (.proc 1) = some 0) ∧
    (∃ (σ σ' : Sys 2 1) (o : Out 2), (σ.proc 0).state = .UNUSED ∧ (σ.proc 0).pid = 7 ∧
      (σ.proc 1).state = .RUNNING ∧ (σ.proc 1).pid = 7 ∧ (σ.proc 1).killed = 0 ∧
      (σ.proc 1).pc = .killScan 7 5 0 ∧ PStep Param.std σ 0 1 o σ' ∧ o.ret = some (-1)) := by
  refine ⟨?_, ?_⟩
  · have h0 := bootSys_reachable (K := Param.std)
    have h1 := h0.step (Step.proc (c := 0) rfl (PStep.killCall 0 5 rfl))
    have h2 := h1.step (Step.proc (c := 0) rfl (PStep.killMiss (i := 0) rfl (by decide) rfl
      (by decide)))
    exact ⟨_, _, _, h2, rfl, PStep.killRefused (i := 1) rfl (by decide) rfl rfl (.inr (.inr rfl)),
      rfl, rfl, by simp⟩
  · let σ : Sys 2 1 := { procinit Param.std with
      proc := fun j => if j = 0 then { Proc.zero Param.std with pid := 7 }
        else { Proc.zero Param.std with state := .RUNNING, pid := 7, pc := .killScan 7 5 0 }
      cpus := fun _ => ⟨some 1, 1⟩ }
    exact ⟨σ, _, _, rfl, rfl, rfl, rfl, rfl, rfl,
      PStep.killRefused (i := 0) rfl (by decide) rfl rfl (.inr (.inr rfl)), rfl⟩

/-! ## Only `kill` leaks -/

/-- **Only `kill` leaks a slot lock.** Every section releases the slot locks it takes,
except `kill`'s refused branch: a step after which the lock of slot `j` is held, where
it was free before, is CPU `c`'s `kill` scan reaching slot `j` with a matching pid on a
process that is killed, a ZOMBIE or UNUSED, and returning -1 with the lock still held by
`c`. -/
theorem slot_lock_leak {σ σ' : Sys np nc} {c : Fin nc} {o : Out np} {j : Fin np} (hw : Wf σ)
    (hs : Step K σ c o σ') (hl : σ.lock (.proc j) = none) (hl' : σ'.lock (.proc j) ≠ none) :
    ∃ p pid s, (σ.cpus c).proc = some p ∧ (σ.proc p).pc = .killScan pid s j.val ∧
      (σ.proc j).pid = pid ∧ ((σ.proc j).killed ≠ 0 ∨ (σ.proc j).state = .ZOMBIE ∨
        (σ.proc j).state = .UNUSED) ∧ o.ret = some (-1) ∧ σ'.lock (.proc j) = some c := by
  cases hs with
  | proc hc h =>
    cases h
    case sleepReacq lk k hpc _ =>
      have ha := hw.active hc
      rw [hpc] at ha
      have : Lk.proc j ≠ lk := by rintro rfl; exact Pc.Active.not_slot ha.1 ((ha.2 _).2 rfl) trivial
      simp [this, hl] at hl'
    case killRefused pid s i hpc hi _ heq hbad =>
      by_cases hj : j = ⟨i, hi⟩
      · subst hj; exact ⟨_, pid, s, hc, hpc, heq, hbad, rfl, by simp⟩
      · simp [hj, hl] at hl'
    all_goals simp [hl] at hl'
  | _ => simp [hl] at hl'

theorem slot_lock_leak_boot :
    ∃ (σ σ' : Sys 2 1) (o : Out 2), Wf σ ∧ Step Param.std σ 0 o σ' ∧ σ.lock (.proc 1) = none ∧
      σ'.lock (.proc 1) ≠ none ∧ ∃ p pid s, (σ.cpus 0).proc = some p ∧
        (σ.proc p).pc = .killScan pid s 1 ∧ (σ.proc 1).pid = pid ∧ ((σ.proc 1).killed ≠ 0 ∨
          (σ.proc 1).state = .ZOMBIE ∨ (σ.proc 1).state = .UNUSED) ∧ o.ret = some (-1) ∧
        σ'.lock (.proc 1) = some 0 := by
  obtain ⟨σ, hr, hc, hpc, hpid, hu, hl⟩ : ∃ σ : Sys 2 1, Reachable Param.std σ ∧
      (σ.cpus 0).proc = some 0 ∧ (σ.proc 0).pc = .killScan 0 9 1 ∧ (σ.proc 1).pid = 0 ∧
      (σ.proc 1).state = .UNUSED ∧ σ.lock (.proc 1) = none :=
    ⟨_, (bootSys_reachable.step (Step.proc (c := 0) rfl (PStep.killCall 0 9 rfl))).step
      (Step.proc (c := 0) rfl (PStep.killMiss (i := 0) rfl (by decide) rfl (by decide))),
      rfl, rfl, rfl, rfl, rfl⟩
  have hs := Step.proc hc (PStep.killRefused (K := Param.std) (i := 1) hpc (by decide) hl hpid
    (.inr (.inr hu)))
  exact ⟨σ, _, _, hr.wf, hs, hl, by simp, slot_lock_leak hr.wf hs hl (by simp)⟩

end RiscvProc
