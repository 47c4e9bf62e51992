import RiscvProc.Handler

/-!
# What a delivery pass carries out

Three ways in which `signalhandler()` and `sigaction()` carry out other actions than
the installed handlers call for.

* A stop ends the pass when it comes at the last index: `sigstop_func` only sets
  `stopped`, and the stop-wait loop runs at the top of the next iteration, of which
  there is none after 31 (`stop_at_last_returns`).
* A SIGKILL found by the stop-wait loop runs `sigkill_func` and then goes back to the
  pending test of the current index, which dispatches as if nothing had happened: a
  user handler is entered with `killed = 1` (`killed_pass_enters_handler`).
* `sigaction` refuses `act == 0` before it tests for SIG_DFL, which is 0, so the
  default cannot be installed again; its `memmove(&oldact, ...)` writes the kernel's
  own copy of the pointer, so no call shows the old handler to the caller
  (`sigaction_default_refused`).

The passes are built over every record of their shape, as in `RiscvProc.Pass`, and
run on the boot machine.
-/

namespace RiscvProc

variable {np nc : Nat} {K : Param} {r : Proc np}

/-! ## Stopping at the last index -/

/-- A pass that finds only 31 pending, whose action is stop, sets `stopped` at the
last index; the loop ends before it could wait, and the pass returns stopped. -/
theorem PassRun.stopLast (hpc : r.pc = .sigEntry) (hk : r.killed = 0) (hs : r.stopped = 0)
    (hh : r.signalHandling = 0) (hp : r.pendingSignals = sigBit 31)
    (hm : r.signalsMask.getLsbD 31 = false) (ha : handlerAct K (r.signalHandlers 31) 31 = .stop) :
    PassRun K r [.act 31 .stop, .turnoff 31]
      { turnoffSigbit { r with stopped := 1 } 31 with pc := .user } := by
  refine PassRun.of_pc hpc ?_
  have h1 := (PassRun.toOnly (K := K) hk hs hh hp).tail
    (PassStep.dispatched (by simp [isPendingAndNotMasked_eq, hp]; exact .inl (.inl hm)) hh)
  rw [dispatch_eq, ha] at h1
  simpa using (h1.tail (.turnoff (by rfl))).tail_nil (.priv_nil (sigStep_loopEnd rfl) (by rfl))

/-- initcode installs the handler value SIGSTOP for signal 31 and sends itself 31. Its
next pass returns to user space with `stopped = 1` and `killed = 0`. -/
theorem stop_at_last_returns :
    ∃ σ σ' : Sys 2 1, Reachable Param.std σ ∧ (σ.proc 0).pc = .sigEntry ∧
      (σ.proc 0).signalHandling = 0 ∧ Run Param.std σ σ' ∧
      PassRun Param.std (σ.proc 0) [.act 31 .stop, .turnoff 31] (σ'.proc 0) ∧
      (σ'.proc 0).pc = .user ∧ (σ'.proc 0).stopped = 1 ∧ (σ'.proc 0).killed = 0 := by
  have h1 := (bootSys_reachable (K := Param.std)).step (Step.proc (c := 0) rfl
    (PStep.sigactionCall (p := 0) 31 17 0 rfl))
  have h2 := h1.step (Step.proc (c := 0) rfl (PStep.killCall (p := 0) 1 31 (by rfl)))
  have h3 := h2.step (Step.proc (c := 0) rfl
    (PStep.killHit (p := 0) (i := 0) (by rfl) (by decide) (by rfl) (by rfl) (by decide)))
  have h4 := h3.step (Step.proc (c := 0) rfl (PStep.sigCall (p := 0) (by rfl)))
  exact ⟨_, _, h4, rfl, rfl, PassRun.run (c := 0) (p := 0) (PassRun.stopLast (by rfl) (by rfl)
    (by rfl) (by rfl) (by rfl) (by decide) (by decide)) rfl rfl, PassRun.stopLast (by rfl)
    (by rfl) (by rfl) (by rfl) (by rfl) (by decide) (by decide), rfl, rfl, rfl⟩

/-! ## A kill in the stop-wait loop -/

/-- The stop-wait loop of a stopped process that finds no SIGCONT but a pending
SIGKILL runs `sigkill_func`, clears SIGKILL and goes back to the pending test. -/
theorem PassRun.waitKill {i : Nat} (hk : r.killed = 0) (hs : r.stopped ≠ 0) (hi : i < 32)
    (hc : isPendingAndNotMasked K r K.SIGCONT = false)
    (hkl : isPendingAndNotMasked K r K.SIGKILL = true) :
    PassRun K { r with pc := .sigLoop i } [.act K.SIGKILL .kill, .turnoff K.SIGKILL]
      { turnoffSigbit (sigkillFunc r) K.SIGKILL with pc := .sigTest ⟨i, hi⟩ } := by
  have h1 := (PassRun.refl (K := K)).tail_nil (.priv_nil (p := { r with pc := .sigLoop i })
    (q := { r with pc := .sigStop ⟨i, hi⟩ }) (by simp [sigStep, hi, hk]) (by rfl))
  have h2 := h1.tail_nil (.priv_nil (q := { r with pc := .searchCont ⟨i, hi⟩ })
    (by simp [sigStep, hs]) (by rfl))
  have h3 := h2.tail_nil (.priv_nil (q := { r with pc := .searchKill ⟨i, hi⟩ })
    (by simp [sigStep, hc]) (by simp [passEv, hc]))
  have h4 := h3.tail (.priv
    (q := { r with pc := .sigKill (.sigTurnoff K.SIGKILL (.sigTest ⟨i, hi⟩)) })
    (by simp [sigStep, hkl]))
  simpa [passEv, hkl] using (h4.tail_nil (.kill rfl)).tail (.turnoff rfl)

/-- With 5, 6 and SIGKILL pending, 5's action stop and 6's a user handler: the pass
stops at 5, its stop-wait loop kills the process, and the pending test of 6 then
dispatches 6 to its user handler. -/
theorem PassRun.killInWait (hpc : r.pc = .sigEntry) (hk : r.killed = 0) (hs : r.stopped = 0)
    (hh : r.signalHandling = 0) (hp : r.pendingSignals = sigBit 5 ||| sigBit 6 ||| sigBit 9)
    (hm : r.signalsMask = 0) (h5 : handlerAct Param.std (r.signalHandlers 5) 5 = .stop)
    (h6 : handlerAct Param.std (r.signalHandlers 6) 6 = .user) :
    PassRun Param.std r [.act 5 .stop, .turnoff 5, .act 9 .kill, .turnoff 9, .act 6 .user]
      { turnoffSigbit (sigkillFunc { r with
          stopped := 1, pendingSignals := r.pendingSignals &&& ~~~(sigBit 5) }) 9 with
        pc := .sigUser 6 } := by
  have h1 := ((PassRun.enter (K := Param.std) hh).trans
    ((PassRun.skip hk hs (Nat.zero_le 5) (by omega) fun l _ hl => by simp [hp]; omega).trans
      (PassRun.toTest hk hs (i := 5) (by omega)))).tail
    (PassStep.dispatched (by simp [isPendingAndNotMasked_eq, hp, hm]) hh)
  rw [show (⟨5, by omega⟩ : Fin 32) = 5 from rfl, dispatch_eq, h5] at h1
  have h2 := h1.tail (.turnoff (by rfl))
  let r₃ : Proc np := { r with stopped := 1, pendingSignals := r.pendingSignals &&& ~~~(sigBit 5) }
  have h3 := h2.trans (PassRun.waitKill (r := r₃) (i := 6) hk (by simp [r₃]) (by omega)
    (by simp [r₃, isPendingAndNotMasked_eq, hp, hm]; decide)
    (by simp [r₃, isPendingAndNotMasked_eq, hp, hm]; decide))
  let r₅ : Proc np := turnoffSigbit (sigkillFunc r₃) Param.std.SIGKILL
  have h4 := h3.tail (PassStep.dispatched (r := r₅) (i := 6)
    (by simp [r₅, r₃, isPendingAndNotMasked_eq, hp, hm, sigkillFunc, turnoffSigbit]; decide)
    (by simp [r₅, r₃, hh, sigkillFunc, turnoffSigbit]))
  rw [dispatch_eq, show r₅.signalHandlers 6 = r.signalHandlers 6 from rfl, h6] at h4
  exact PassRun.of_pc hpc (by simpa [show Param.std.SIGKILL = 9 from rfl] using h4)

/-- initcode gives signal 5 the handler value SIGSTOP and signal 6 a user handler, and
sends itself 5, 6 and SIGKILL. Its pass stops at 5, its stop-wait loop runs
`sigkill_func`, and the pass then dispatches 6 and enters `usersignalhandler` with
`killed = 1`. -/
theorem killed_pass_enters_handler :
    ∃ σ σ' σ'' : Sys 2 1, Reachable Param.std σ ∧ (σ.proc 0).pc = .sigEntry ∧
      (σ.proc 0).killed = 0 ∧ Run Param.std σ σ' ∧
      PassRun Param.std (σ.proc 0)
        [.act 5 .stop, .turnoff 5, .act 9 .kill, .turnoff 9, .act 6 .user] (σ'.proc 0) ∧
      (σ'.proc 0).killed = 1 ∧ EntersHandler Param.std σ' σ'' 0 6 (fun _ => 0) initMapped := by
  have h1 := (bootSys_reachable (K := Param.std)).step (Step.proc (c := 0) rfl
    (PStep.sigactionCall (p := 0) 5 17 0 rfl))
  have h2 := h1.step (Step.proc (c := 0) rfl (PStep.sigactionCall (p := 0) 6 4096 0 rfl))
  have h3 := h2.step (Step.proc (c := 0) rfl (PStep.killCall (p := 0) 1 5 (by rfl)))
  have h4 := h3.step (Step.proc (c := 0) rfl
    (PStep.killHit (p := 0) (i := 0) (by rfl) (by decide) (by rfl) (by rfl) (by decide)))
  have h5 := h4.step (Step.proc (c := 0) rfl (PStep.killCall (p := 0) 1 6 (by rfl)))
  have h6 := h5.step (Step.proc (c := 0) rfl
    (PStep.killHit (p := 0) (i := 0) (by rfl) (by decide) (by rfl) (by rfl) (by decide)))
  have h7 := h6.step (Step.proc (c := 0) rfl (PStep.killCall (p := 0) 1 9 (by rfl)))
  have h8 := h7.step (Step.proc (c := 0) rfl
    (PStep.killHit (p := 0) (i := 0) (by rfl) (by decide) (by rfl) (by rfl) (by decide)))
  have h9 := h8.step (Step.proc (c := 0) rfl (PStep.sigCall (p := 0) (by rfl)))
  exact ⟨_, _, _, h9, rfl, rfl, PassRun.run (c := 0) (p := 0) (PassRun.killInWait (by rfl) (by rfl)
    (by rfl) (by rfl) (by decide) (by rfl) (by decide) (by decide)) rfl rfl,
    PassRun.killInWait (by rfl) (by rfl) (by rfl) (by rfl) (by decide) (by rfl) (by decide)
      (by decide), rfl, ⟨0, 0, 0, rfl, rfl, rfl, rfl⟩⟩

/-! ## Installing SIG_DFL -/

/-- With SIG_DFL = 0 the `act == 0` test refuses SIG_DFL for every signal: the call
returns -1 and leaves the record as it was. -/
theorem sigaction_dfl_refused (p : Proc np) (signum : Int) (actAddr : Nat) :
    sigaction Param.std p signum Param.std.SIG_DFL actAddr = (-1, p) := by
  simp [sigaction, Param.std]

/-- initcode installs a user handler for 31: the call returns 0 and writes no user
memory. `sigaction(31, SIG_DFL, oldact)` then returns -1 and changes nothing, so the
next pass that finds 31 enters the user handler instead of the default kill. -/
theorem sigaction_default_refused :
    (∀ (p : Proc np) (signum : Int) (actAddr : Nat),
      sigaction Param.std p signum Param.std.SIG_DFL actAddr = (-1, p)) ∧
    ∃ σ₀ σ₁ σ₂ : Sys 2 1, Reachable Param.std σ₀ ∧
      Step Param.std σ₀ 0 { ret := some 0 } σ₁ ∧
      handlerAct Param.std ((σ₁.proc 0).signalHandlers 31) 31 = .user ∧
      Step Param.std σ₁ 0 { ret := some (-1) } σ₁ ∧ Run Param.std σ₁ σ₂ ∧
      ∃ q, PassRun Param.std (σ₂.proc 0) [.act 31 .user, .turnoff 31] q := by
  refine ⟨sigaction_dfl_refused, ?_⟩
  have h0 := bootSys_reachable (K := Param.std)
  have s1 := Step.proc (c := 0) (p := 0) rfl (PStep.sigactionCall (K := Param.std)
    (σ := bootSys Param.std) 31 4096 0 rfl)
  have s2 := Step.proc (c := 0) (p := 0) rfl (PStep.sigactionCall (K := Param.std) 31 Param.std.SIG_DFL 4000
    (σ := (bootSys Param.std).setProc 0 (sigaction Param.std ((bootSys Param.std).proc 0) 31 4096 0).2) rfl)
  rw [sigaction_dfl_refused, Sys.setProc_self] at s2
  exact ⟨_, _, _, h0, s1, by decide, s2,
    ((Run.single (Step.proc (c := 0) (p := 0) (by rfl) (PStep.killCall 1 31 (by rfl)))).tail
      ⟨0, _, Step.proc (c := 0) (by rfl) (PStep.killHit (p := 0) (i := 0) (by rfl) (by decide) (by rfl)
        (by rfl) (by decide))⟩).tail ⟨0, _, Step.proc (c := 0) (by rfl) (PStep.sigCall (p := 0) (by rfl))⟩,
    _, PassRun.userOnly (s := 31) (by rfl) (by rfl) (by rfl) (by rfl) (by rfl) (by decide)
      (by decide) 0 0⟩

end RiscvProc
