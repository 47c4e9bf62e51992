import RiscvProc.Reap
import RiscvProc.Wakeup

/-!
# `exit` does not return

`exit(status)` closes the files, then under `wait_lock` hands the children to
`initproc`, wakes the parent, turns ZOMBIE and calls `sched()` a last time. On the
way its thread may be switched out by `yield` before it takes `wait_lock`, and it
runs `wakeup`; neither returns anywhere but into `exit`.

`Pc.exitStatus` reads the status of the `exit` a thread is in off its point, through
the calls it is inside (`Pc.base`). No step of any thread changes it while the slot
is in use (`step_exitStatus`): `exit` only moves on to its next point with the same
status, and a ZOMBIE's thread stays at `exited`, which no step leaves. So from the
call on the thread is never in user space again and makes no system call, and once
the slot is a ZOMBIE its `xstate` is the status passed to `exit`
(`exit_never_returns`).

`reparent` is the one step that rewrites the parent link of a live process: `fork`
links a child that is still USED, and `wait` clears the link of the slot it frees.
So once a process has been made RUNNABLE, its parent stays the one `fork` gave it
until its parent exits, and is then `initproc`, which never exits
(`parent_changes_only_to_initproc`).
-/

namespace RiscvProc

variable {np nc : Nat} {K : Param}

/-- The status of the `exit` a point is in. -/
def Pc.exitStatus : Pc np → Option Int
  | .exitStart s | .reparentScan s _ | .exitZombie s | .exited s => some s
  | _ => none

variable {σ σ' : Sys np nc} {c : Fin nc} {p P : Fin np} {o : Out np} {s : Int}

/-- The delivery pass runs at none of the points of `exit`. -/
theorem sigStep_exitStatus {q r : Proc np} (h : sigStep K q = some r) :
    q.pc.base.exitStatus = none := by
  unfold sigStep at h
  split at h <;> first | (rename_i hpc; rw [hpc]; rfl) | cases h

/-- A step of a thread inside `exit(s)` moves on within the same `exit`: every other
step starts at a point outside `exit`. -/
theorem pstep_exitStatus_self (hs : PStep K σ c p o σ')
    (hx : (σ.proc p).pc.base.exitStatus = some s) : (σ'.proc p).pc.base.exitStatus = some s := by
  cases hs
  case sigPriv q h => rw [sigStep_exitStatus h] at hx; cases hx
  case callWakeup chan hpc => rcases hpc with h | ⟨k, h⟩ <;> rw [h] at hx <;> cases hx
  -- a step from a point outside `exit`, or one that moves on within it
  all_goals first
    | (rw [‹(σ.proc p).pc = _›] at hx; cases hx; done)
    | (try simp only [Sys.setProc_proc, Sys.setLock_proc, Sys.switchOut_proc, Sys.setPc_eq, if_pos rfl]
       first | exact hx | (rw [‹(σ.proc p).pc = _›] at hx; exact hx))

theorem pstep_exitStatus (hw : Wf σ) (hc : (σ.cpus c).proc = some p) (hs : PStep K σ c p o σ')
    (hu : (σ.proc P).state ≠ .UNUSED) (hx : (σ.proc P).pc.base.exitStatus = some s) :
    (σ'.proc P).pc.base.exitStatus = some s := by
  by_cases hP : P = p
  · subst hP; exact pstep_exitStatus_self hs hx
  · rw [(pstep_other hw hc hs hP hu).1]; exact hx

/-- While its slot is in use, no step takes a thread out of the `exit` it is in:
the scheduler resumes it where `yield` left it. -/
theorem step_exitStatus (hw : Wf σ) (hs : Step K σ c o σ') (hu : (σ.proc P).state ≠ .UNUSED)
    (hx : (σ.proc P).pc.base.exitStatus = some s) : (σ'.proc P).pc.base.exitStatus = some s := by
  cases hs with
  | proc hc hs => exact pstep_exitStatus hw hc hs hu hx
  | schedSkip | schedWrap | intrCall | intrDone => exact hx
  | intrSlot => exact (setProc_wakeup1_pc (σ := σ)).symm ▸ hx
  | schedRun i _ _ _ _ hr =>
    simp only [Sys.setCpu_proc, Sys.setProc_proc]
    split_ifs with hP
    · subst hP
      unfold resume at hr
      split at hr <;> cases hr <;> rename_i hpc <;> rw [hpc] at hx <;> exact hx
    · exact hx
  | userinit i _ _ _ _ _ hi =>
    simp only [Sys.setProc_proc]
    split_ifs with hP
    · subst hP; exact absurd hi hu
    · exact hx

/-- **`exit` does not return.** Once the thread of `P` is inside `exit(s)`, in every
later state of the run up to the one in which its slot is freed it is still inside
`exit(s)`: it is never in user space again, so it makes no system call, and while
the slot is a ZOMBIE its `xstate` is `s`. -/
theorem exit_never_returns {τ : Nat → Sys np nc} {n : Nat} (htr : Trace K τ n)
    (hr : Reachable K (τ 0)) (hx : ((τ 0).proc P).pc.base.exitStatus = some s)
    (hu : ∀ t < n, ((τ t).proc P).state ≠ .UNUSED) :
    ∀ t ≤ n, ((τ t).proc P).pc.base.exitStatus = some s ∧ ((τ t).proc P).pc ≠ .user ∧
      (((τ t).proc P).state = .ZOMBIE → ((τ t).proc P).xstate = s) := by
  have hrun : ∀ t ≤ n, ((τ t).proc P).pc.base.exitStatus = some s := by
    intro t ht
    induction t with
    | zero => exact hx
    | succ t ih =>
      obtain ⟨c, o, hs⟩ := htr t (by omega)
      exact step_exitStatus (htr.reachable hr t (by omega)).wf hs (hu t (by omega)) (ih (by omega))
  intro t ht
  have h := hrun t ht
  refine ⟨h, fun hU => (by rw [hU] at h; cases h), fun hz => ?_⟩
  rw [((htr.reachable hr t ht).wf.cpu.slot P).zombie hz] at h
  exact Option.some.inj h

/-- The child calls `exit(7)` and takes `wait_lock`. -/
theorem exit_never_returns_child :
    ∃ τ : Nat → Sys 2 1, Trace Param.std τ 1 ∧ Reachable Param.std (τ 0) ∧
      ((τ 0).proc 1).pc.base.exitStatus = some 7 ∧ (∀ t < 1, ((τ t).proc 1).state ≠ .UNUSED) ∧
      ∀ t ≤ 1, ((τ t).proc 1).pc.base.exitStatus = some 7 ∧ ((τ t).proc 1).pc ≠ .user ∧
        (((τ t).proc 1).state = .ZOMBIE → ((τ t).proc 1).xstate = 7) := by
  obtain ⟨σ₀, h₀, hc, hpc, hR, -, hi, hl⟩ := child_running_boot
  obtain ⟨σ, σ', o, hr, hs, hx, hR⟩ : ∃ (σ σ' : Sys 2 1) (o : Out 2), Reachable Param.std σ ∧
      Step Param.std σ 0 o σ' ∧ (σ.proc 1).pc.base.exitStatus = some 7 ∧
      (σ.proc 1).state = .RUNNING :=
    ⟨_, _, _, h₀.step (Step.proc hc (PStep.exitCall 7 hpc (by rw [hi]; decide))),
      Step.proc hc (PStep.exitStart (by rfl) hl), rfl, hR⟩
  let τ : Nat → Sys 2 1 := fun t => if t = 0 then σ else σ'
  have htr : Trace Param.std τ 1 := fun t ht => by
    obtain rfl : t = 0 := by omega
    exact ⟨0, o, hs⟩
  have hu : ∀ t < 1, ((τ t).proc 1).state ≠ .UNUSED := fun t ht => by
    obtain rfl : t = 0 := by omega
    show (σ.proc 1).state ≠ .UNUSED
    rw [hR]; decide
  exact ⟨τ, htr, hr, hx, hu, exit_never_returns htr hr hx hu⟩

/-! ## Adoption -/

/-- A process made RUNNABLE is never USED again: until its slot is freed its state
stays among RUNNABLE, RUNNING, SLEEPING and ZOMBIE. -/
theorem step_kind_two (hw : Wf σ) (hs : Step K σ c o σ') (hk : 2 ≤ (σ.proc P).state.kind)
    (hu : (σ'.proc P).state ≠ .UNUSED) : 2 ≤ (σ'.proc P).state.kind := by
  revert hk hu
  rcases step_moves hw hs P with h | ⟨he, -⟩ | ⟨he, -⟩
  · rw [h]; exact fun hk _ => hk
  · generalize (σ.proc P).state = a at he ⊢
    generalize (σ'.proc P).state = b at he ⊢
    cases he <;> decide
  · generalize (σ.proc P).state = a at he ⊢
    cases he; exact fun hk => absurd hk (by decide)

/-- A step rewrites the parent link of a process made RUNNABLE that lives on only in
`reparent`, to `initproc`: the child `fork` links is still USED. -/
theorem pstep_parent_adopt (hw : Wf σ) (hpo : ParentOk σ) (hc : (σ.cpus c).proc = some p)
    (hs : PStep K σ c p o σ') (hk : 2 ≤ (σ.proc P).state.kind) (hu : (σ'.proc P).state ≠ .UNUSED)
    (hne : (σ'.proc P).parent ≠ (σ.proc P).parent) : (σ'.proc P).parent = σ.initproc := by
  rcases pstep_parent_cases hpo hs hne with ⟨_, hpc, -⟩ | ⟨_, -, h⟩ | ⟨_, _, -, h⟩
  · have hU := (hw.child p P ⟨by rw [hw.cpu.running hc]; decide, by rw [hpc]; rfl⟩).1
    rw [hU] at hk; exact absurd hk (by decide)
  · exact h
  · exact absurd h hu

theorem step_parent_adopt (hw : Wf σ) (hpo : ParentOk σ) (hs : Step K σ c o σ')
    (hk : 2 ≤ (σ.proc P).state.kind) (hu : (σ'.proc P).state ≠ .UNUSED)
    (hne : (σ'.proc P).parent ≠ (σ.proc P).parent) : (σ'.proc P).parent = σ.initproc := by
  cases hs with
  | proc hc hs => exact pstep_parent_adopt hw hpo hc hs hk hu hne
  | schedSkip | schedWrap | intrCall | intrDone => exact absurd rfl hne
  | intrSlot => exact absurd (setProc_parent_of (wakeup1_parent _ _) P) hne
  | schedRun i _ _ _ _ hr =>
    refine absurd ?_ hne
    simp only [Sys.setCpu_proc, Sys.setProc_proc]
    split_ifs with h
    · rw [h]; exact (resume_parent hr).1
    · rfl
  | userinit i _ _ _ _ _ hi =>
    refine absurd ?_ hne
    simp only [Sys.setProc_proc]
    split_ifs with h
    · subst h; rw [hi] at hk; exact absurd hk (by decide)
    · rfl

/-- **Only `initproc` adopts.** Along any run, while the slot of a process made
RUNNABLE stays in use, its parent link is the one it had or `initproc`: the only step
that rewrites it is `reparent` in the `exit` of its parent. -/
theorem parent_changes_only_to_initproc {τ : Nat → Sys np nc} {n : Nat} (htr : Trace K τ n)
    (hr : Reachable K (τ 0)) (hk : 2 ≤ ((τ 0).proc P).state.kind)
    (hu : ∀ t ≤ n, ((τ t).proc P).state ≠ .UNUSED) :
    ∀ t ≤ n, ((τ t).proc P).parent = ((τ 0).proc P).parent ∨
      ((τ t).proc P).parent = (τ 0).initproc := by
  obtain ⟨r, hr0⟩ : ∃ r, (τ 0).initproc = some r := by
    cases h : (τ 0).initproc with
    | none => exact absurd (hr.parentOk.boot h P) (hu 0 (Nat.zero_le _))
    | some r => exact ⟨r, rfl⟩
  suffices h : ∀ t ≤ n, 2 ≤ ((τ t).proc P).state.kind ∧ (τ t).initproc = some r ∧
      (((τ t).proc P).parent = ((τ 0).proc P).parent ∨ ((τ t).proc P).parent = some r) by
    intro t ht; rw [hr0]; exact (h t ht).2.2
  intro t ht
  induction t with
  | zero => exact ⟨hk, hr0, .inl rfl⟩
  | succ t ih =>
    obtain ⟨hk', hi, hp⟩ := ih (by omega)
    obtain ⟨c, o, hs⟩ := htr t (by omega)
    have hrt := htr.reachable hr t (by omega)
    refine ⟨step_kind_two hrt.wf hs hk' (hu _ ht), step_initproc hs hi, ?_⟩
    by_cases hne : ((τ (t + 1)).proc P).parent = ((τ t).proc P).parent
    · rwa [hne]
    · exact .inr ((step_parent_adopt hrt.wf hrt.parentOk hs hk' (hu _ ht) hne).trans hi)

/-- The child of `initcode` runs and calls `exit(7)`; its link to `initcode` stays. -/
theorem parent_changes_only_to_initproc_child :
    ∃ τ : Nat → Sys 2 1, Trace Param.std τ 1 ∧ Reachable Param.std (τ 0) ∧
      2 ≤ ((τ 0).proc 1).state.kind ∧ (∀ t ≤ 1, ((τ t).proc 1).state ≠ .UNUSED) ∧
      ∀ t ≤ 1, ((τ t).proc 1).parent = ((τ 0).proc 1).parent ∨
        ((τ t).proc 1).parent = (τ 0).initproc := by
  obtain ⟨σ, hr, hc, hpc, hR, -, hi, -⟩ := child_running_boot
  obtain ⟨σ', o, hs, hR'⟩ : ∃ (σ' : Sys 2 1) (o : Out 2), Step Param.std σ 0 o σ' ∧
      (σ'.proc 1).state = .RUNNING :=
    ⟨_, _, Step.proc hc (PStep.exitCall 7 hpc (by rw [hi]; decide)), hR⟩
  let τ : Nat → Sys 2 1 := fun t => if t = 0 then σ else σ'
  have htr : Trace Param.std τ 1 := fun t ht => by
    obtain rfl : t = 0 := by omega
    exact ⟨0, o, hs⟩
  have hk : 2 ≤ ((τ 0).proc 1).state.kind := by
    show 2 ≤ (σ.proc 1).state.kind
    rw [hR]; decide
  have hu : ∀ t ≤ 1, ((τ t).proc 1).state ≠ .UNUSED := fun t ht => by
    rcases Nat.le_one_iff_eq_zero_or_eq_one.1 ht with rfl | rfl
    · show (σ.proc 1).state ≠ .UNUSED
      rw [hR]; decide
    · show (σ'.proc 1).state ≠ .UNUSED
      rw [hR']; decide
  exact ⟨τ, htr, hr, hk, hu, parent_changes_only_to_initproc htr hr hk hu⟩

end RiscvProc
