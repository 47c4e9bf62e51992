import RiscvProc.Pass
import RiscvProc.Wakeup

/-!
# `nextpid` wraps

`allocpid` hands out `nextpid` and adds one to it, an `int` with no check, and
`allocproc` draws the pid before it asks for any page, so a `fork` whose `kalloc`
fails still uses a pid up. Nothing bounds how often initcode calls `fork`: after
2^31 - 2 failed forks from the boot table `nextpid` has wrapped to -2^31, and the
next child gets that pid; after 2^32 - 1 failed forks it is back at 1, and the
child gets initcode's own pid.

`failed_forks` is the run behind both: from a state where process 0 can fork into
slot 1, any number of failed forks and then one that succeeds.

Before the wrap, pids are unique. A step keeps `nextpid` and the pid of every slot in
use, or draws `nextpid` for the one slot `allocproc` takes and adds one (`PidStep`).
As long as `nextpid` stays positive that addition has not wrapped, so the drawn pid lies
above every pid in use, and along a run from `procinit` the slots in use keep distinct
pids in `[1, nextpid)` (`pids_unique_before_wrap`).
-/

namespace RiscvProc

variable {K : Param} {σ : Sys 2 1}

/-- Adding one `m` times with `intAdd` adds `m` modulo 2^32. -/
theorem intAdd_iterate (a b : Int) (m : Nat) :
    (fun x => intAdd x 1)^[m] (intAdd a b) = intAdd a (b + m) := by
  induction m with
  | zero => simp
  | succ m ih =>
    rw [Function.iterate_succ_apply', ih]
    simp only [intAdd, Int.bmod_add_bmod_congr]
    congr 1
    push_cast
    omega

theorem intAdd_lt (a b : Int) : intAdd a b < 2 ^ 31 := by
  have := Int.bmod_lt (x := a + b) (m := 2 ^ 32) (by decide)
  unfold intAdd; omega

theorem intAdd_one_of_pos {n : Int} (h0 : 0 < n) (hb : n < 2 ^ 31) (h : 0 < intAdd n 1) :
    intAdd n 1 = n + 1 := by
  unfold intAdd at *
  rw [Int.bmod_def, Int.emod_eq_of_lt (by omega) (by omega)] at *
  split_ifs at * <;> omega

/-- Process 0 is in user space on CPU 0 and can fork into slot 1: slot 1 is free,
and neither slot lock nor `pid_lock` is held. -/
structure ForkReady (σ : Sys 2 1) : Prop where
  cpu : (σ.cpus 0).proc = some 0
  user : (σ.proc 0).pc = .user
  used : (σ.proc 0).state ≠ .UNUSED
  free : (σ.proc 1).state = .UNUSED
  lock0 : σ.lock (.proc 0) = none
  lock1 : σ.lock (.proc 1) = none
  pidLock : σ.lock .pidLock = none

theorem bootSys_forkReady : ForkReady (bootSys K) :=
  ⟨rfl, rfl, nofun, rfl, rfl, rfl, rfl⟩

/-- The first two steps of `fork`: the call, and `allocproc`'s scan past slot 0. -/
theorem fork_scan (hr : Reachable K σ) (h : ForkReady σ) :
    Reachable K ((σ.setProc 0 { σ.proc 0 with pc := .allocScan 0 }).setProc 0
      { σ.proc 0 with pc := .allocScan 1 }) := by
  have h1 := hr.step (Step.proc h.cpu (PStep.forkCall h.user))
  exact h1.step (Step.proc (by exact h.cpu) (PStep.allocBusy (i := 0) (by simp) (by decide)
    (by exact h.lock0) (by simpa using h.used)))

/-- A `fork` whose trap-frame `kalloc` fails returns -1 having only drawn a pid. -/
theorem fork_fails (hr : Reachable K σ) (h : ForkReady σ) :
    ∃ σ', Reachable K σ' ∧ ForkReady σ' ∧ (σ'.proc 0).pid = (σ.proc 0).pid ∧
      σ'.nextpid = intAdd σ.nextpid 1 := by
  obtain ⟨q, hq⟩ : ∃ q, allocproc K (σ.proc 1) σ.nextpid ⟨0, 0, true, true, false⟩ = .error q := ⟨_, rfl⟩
  have h3 := (fork_scan hr h).step (Step.proc (by exact h.cpu) (PStep.allocFail (i := 1)
    ⟨0, 0, true, true, false⟩ (by simp) (by decide) (by exact h.lock1) (by exact h.pidLock)
    (by simpa using h.free) (by simpa using hq)))
  refine ⟨_, h3, ⟨h.cpu, by simp, by simpa using h.used, ?_, h.lock0, h.lock1, h.pidLock⟩,
    by simp, rfl⟩
  simpa using (allocproc_error K hq).1

/-- `m` failed forks in a row. -/
theorem fork_fails_iterate (hr : Reachable K σ) (h : ForkReady σ) (m : Nat) :
    ∃ σ', Reachable K σ' ∧ ForkReady σ' ∧ (σ'.proc 0).pid = (σ.proc 0).pid ∧
      σ'.nextpid = (fun x => intAdd x 1)^[m] σ.nextpid := by
  induction m with
  | zero => exact ⟨σ, hr, h, rfl, rfl⟩
  | succ m ih =>
    obtain ⟨σ1, hr1, h1, hp1, hn1⟩ := ih
    obtain ⟨σ2, hr2, h2, hp2, hn2⟩ := fork_fails hr1 h1
    exact ⟨σ2, hr2, h2, hp2.trans hp1, by rw [hn2, hn1, Function.iterate_succ_apply']⟩

/-- A `fork` whose allocations succeed gives the child the pid `nextpid` held. -/
theorem fork_succeeds (hr : Reachable K σ) (h : ForkReady σ) :
    ∃ σ' : Sys 2 1, Reachable K σ' ∧ (σ'.proc 0).pid = (σ.proc 0).pid ∧
      (σ'.proc 0).state ≠ .UNUSED ∧ (σ'.proc 1).state = .USED ∧
      (σ'.proc 1).pid = σ.nextpid := by
  obtain ⟨q, hq⟩ : ∃ q, allocproc K (σ.proc 1) σ.nextpid ⟨1, 1, true, true, true⟩ = .ok q := ⟨_, rfl⟩
  have h3 := (fork_scan hr h).step (Step.proc (by exact h.cpu) (PStep.allocOk (i := 1)
    ⟨1, 1, true, true, true⟩ (by simp) (by decide) (by exact h.lock1) (by exact h.pidLock)
    (by simpa using h.free) (by simpa using hq) rfl))
  have hq' := allocproc_ok K hq
  exact ⟨_, h3, by simp, by simpa using h.used, by simpa [forkCopy] using hq'.1,
    by simpa [forkCopy] using hq'.2.2.1⟩

/-- **Failed forks use pids up.** From a state where process 0 can fork into slot 1,
`m` forks whose `kalloc` fails and then one that succeeds leave a child whose pid
is `nextpid` advanced `m` times by `allocpid`'s unchecked `+ 1`. -/
theorem failed_forks (hr : Reachable K σ) (h : ForkReady σ) (m : Nat) :
    ∃ σ' : Sys 2 1, Reachable K σ' ∧ (σ'.proc 0).pid = (σ.proc 0).pid ∧
      (σ'.proc 0).state ≠ .UNUSED ∧ (σ'.proc 1).state = .USED ∧
      (σ'.proc 1).pid = (fun x => intAdd x 1)^[m] σ.nextpid := by
  obtain ⟨σ1, hr1, h1, hp1, hn1⟩ := fork_fails_iterate hr h m
  obtain ⟨σ2, hr2, hp2, hu2, hs2, hpid⟩ := fork_succeeds hr1 h1
  exact ⟨σ2, hr2, hp2.trans hp1, hu2, hs2, hpid.trans hn1⟩

/-- The failing input: initcode (pid 1) forks from the boot table, where `nextpid`
is 2. After 2^31 - 2 failed forks the next child gets pid -2^31; after 2^32 - 1
failed forks it gets pid 1, initcode's own. -/
theorem nextpid_wraps :
    (∃ σ : Sys 2 1, Reachable Param.std σ ∧ (σ.proc 1).state = .USED ∧
      (σ.proc 1).pid = -2 ^ 31) ∧
    (∃ σ : Sys 2 1, Reachable Param.std σ ∧ (σ.proc 0).state ≠ .UNUSED ∧
      (σ.proc 1).state = .USED ∧ (σ.proc 0).pid = 1 ∧ (σ.proc 1).pid = 1) := by
  have hn : (bootSys Param.std).nextpid = intAdd 1 1 := rfl
  obtain ⟨σ, hr, -, -, hu, hp⟩ := failed_forks bootSys_reachable bootSys_forkReady (2 ^ 31 - 2)
  obtain ⟨σ', hr', hp0', hu0', hu', hp'⟩ :=
    failed_forks bootSys_reachable bootSys_forkReady (2 ^ 32 - 1)
  rw [hn, intAdd_iterate] at hp hp'
  exact ⟨⟨σ, hr, hu, hp.trans (by decide)⟩, ⟨σ', hr', hu0', hu', hp0', hp'.trans (by decide)⟩⟩

/-! ## Before the wrap -/

section Unique

variable {np nc : Nat} {K : Param} {σ σ' : Sys np nc} {c : Fin nc} {p : Fin np} {o : Out np}

/-- The pids of the slots in use are distinct, at least 1 and below `nextpid`; `nextpid`,
an `int`, is below 2^31. -/
structure PidsOk (σ : Sys np nc) : Prop where
  small : σ.nextpid < 2 ^ 31
  range : ∀ j, (σ.proc j).state ≠ .UNUSED → 0 < (σ.proc j).pid ∧ (σ.proc j).pid < σ.nextpid
  inj : ∀ i j, (σ.proc i).state ≠ .UNUSED → (σ.proc j).state ≠ .UNUSED →
    (σ.proc i).pid = (σ.proc j).pid → i = j

/-- Slot `j` is in use after a step only if it was before, with the same pid. -/
def KeepsPid (σ σ' : Sys np nc) (j : Fin np) : Prop :=
  (σ'.proc j).state ≠ .UNUSED → (σ.proc j).state ≠ .UNUSED ∧ (σ'.proc j).pid = (σ.proc j).pid

/-- What a step does to pids: it keeps `nextpid` and the pid of every slot in use, or
`allocpid` draws `nextpid` for one slot `i` and the step keeps the others. -/
def PidStep (σ σ' : Sys np nc) : Prop :=
  (σ'.nextpid = σ.nextpid ∧ ∀ j, KeepsPid σ σ' j) ∨
    (σ'.nextpid = intAdd σ.nextpid 1 ∧ ∃ i, ((σ'.proc i).state ≠ .UNUSED →
      (σ'.proc i).pid = σ.nextpid) ∧ ∀ j, j ≠ i → KeepsPid σ σ' j)

@[simp] theorem wakeup1_pid (q : Proc np) (ch : Chan np) : (wakeup1 q ch).pid = q.pid := by
  unfold wakeup1; split_ifs <;> rfl

@[simp] theorem wakeup1_eq_unused (q : Proc np) (ch : Chan np) :
    (wakeup1 q ch).state = .UNUSED ↔ q.state = .UNUSED := by
  rw [← Procstate.kind_eq_zero, wakeup1_kind, Procstate.kind_eq_zero]

theorem resume_pid {q q' : Proc np} (h : resume q = some q') : q'.pid = q.pid := by
  unfold resume at h; split at h <;> cases h <;> rfl

theorem pstep_pidStep (hw : Wf σ) (hc : (σ.cpus c).proc = some p) (h : PStep K σ c p o σ') :
    PidStep σ σ' := by
  have hrun := hw.running hc
  cases h
  case allocFail i q e _ hi _ _ _ ha | copyFail i q e _ hi _ _ _ ha _ | allocOk i q e _ hi _ _ _ ha _ =>
    refine .inr ⟨rfl, ⟨i, hi⟩, fun h' => ?_, fun j hj h' => ?_⟩
    · simp only [Sys.setProc_proc, if_true] at h' ⊢
      first
        | exact absurd (allocproc_error K ha).1 h'
        | exact absurd rfl h'
        | simpa [forkCopy] using (allocproc_ok K ha).2.2.1
    · simp only [Sys.setProc_proc, if_neg hj] at h' ⊢
      split_ifs at h' ⊢ <;> simp_all
  case sigPriv q hq =>
    refine .inl ⟨rfl, fun j h' => ?_⟩
    simp only [Sys.setProc_proc] at h' ⊢
    split_ifs at h' ⊢ with hj
    · subst hj; rw [sigStep_frame hq]; simp [hrun]
    · exact ⟨h', rfl⟩
  case sigactionCall signum act actAddr _ =>
    obtain ⟨hd, e⟩ := sigaction_snd K (σ.proc p) signum act actAddr
    refine .inl ⟨rfl, fun j h' => ?_⟩
    simp only [Sys.setProc_proc, e] at h' ⊢
    split_ifs at h' ⊢ <;> simp_all
  case forkRunnable ch _ hpc _ =>
    have hU := (hw.child p ch ⟨by rw [hrun]; nofun, by rw [hpc]; rfl⟩).1
    refine .inl ⟨rfl, fun j h' => ?_⟩
    simp only [Sys.setProc_proc] at h' ⊢
    split_ifs at h' ⊢ <;> simp_all
  all_goals refine .inl ⟨rfl, fun j h' => ?_⟩
  all_goals simp only [Sys.setProc_proc, Sys.setLock_proc, Sys.switchOut_proc, Sys.setPc_eq] at h' ⊢
  all_goals (try split_ifs at h' ⊢) <;> simp_all [sigkillFunc, turnoffSigbit, usersignalhandler,
    sigret]

theorem step_pidStep (hw : Wf σ) (h : Step K σ c o σ') : PidStep σ σ' := by
  cases h with
  | proc hc h => exact pstep_pidStep hw hc h
  | schedSkip | schedWrap | intrCall | intrDone => exact .inl ⟨rfl, fun j h' => ⟨h', rfl⟩⟩
  | intrSlot =>
    refine .inl ⟨rfl, fun j h' => ?_⟩
    simp only [Sys.setIntr_proc, Sys.setProc_proc] at h' ⊢
    split_ifs at h' ⊢ <;> simp_all
  | schedRun i _ _ _ hs hr =>
    refine .inl ⟨rfl, fun j h' => ?_⟩
    simp only [Sys.setCpu_proc, Sys.setProc_proc] at h' ⊢
    split_ifs at h' ⊢ with hj
    · subst hj
      have hp := resume_pid hr
      exact ⟨by rw [hs]; nofun, hp⟩
    · exact ⟨h', rfl⟩
  | userinit i e cwd _ _ _ _ _ _ ha =>
    refine .inr ⟨rfl, i, fun _ => by simpa [userinitProc] using (allocproc_ok K ha).2.2.1,
      fun j hj h' => ?_⟩
    simp only [Sys.setProc_proc, if_neg hj] at h' ⊢
    exact ⟨h', trivial⟩

theorem pidsOk_procinit (K : Param) : PidsOk (procinit K : Sys np nc) :=
  ⟨show (1 : Int) < 2 ^ 31 by decide, fun _ h => absurd rfl h, fun _ _ h => absurd rfl h⟩

/-- A step that leaves `nextpid` positive keeps the pids of the slots in use distinct
and in range: a drawn pid is the old `nextpid`, above every pid in use, and the new
`nextpid` is one more, since a positive `nextpid + 1` has not wrapped. -/
theorem PidsOk.of_pidStep (h : PidsOk σ) (hs : PidStep σ σ') (hpos : 0 < σ.nextpid)
    (hpos' : 0 < σ'.nextpid) : PidsOk σ' := by
  rcases hs with ⟨hn, hk⟩ | ⟨hn, i, hi, hk⟩
  · refine ⟨hn ▸ h.small, fun j hj => ?_, fun a b ha hb e => ?_⟩
    · obtain ⟨hu, hp⟩ := hk j hj
      rw [hp, hn]; exact h.range j hu
    · obtain ⟨hua, hpa⟩ := hk a ha
      obtain ⟨hub, hpb⟩ := hk b hb
      exact h.inj a b hua hub (by rw [← hpa, ← hpb, e])
  · have hn1 : σ'.nextpid = σ.nextpid + 1 := by
      rw [hn] at hpos' ⊢; exact intAdd_one_of_pos hpos h.small hpos'
    -- A slot in use other than `i` keeps a pid below the old `nextpid`.
    have old : ∀ j, j ≠ i → (σ'.proc j).state ≠ .UNUSED →
        0 < (σ'.proc j).pid ∧ (σ'.proc j).pid < σ.nextpid := fun j hj hu => by
      obtain ⟨hu0, hp⟩ := hk j hj hu
      rw [hp]; exact h.range j hu0
    refine ⟨hn ▸ intAdd_lt _ _, fun j hj => ?_, fun a b ha hb e => ?_⟩
    · by_cases hji : j = i
      · subst hji; rw [hi hj, hn1]; omega
      · have := old j hji hj; omega
    · by_cases hai : a = i <;> by_cases hbi : b = i
      · rw [hai, hbi]
      · subst hai; have := old b hbi hb; rw [hi ha] at e; omega
      · subst hbi; have := old a hai ha; rw [hi hb] at e; omega
      · obtain ⟨hua, hpa⟩ := hk a hai ha
        obtain ⟨hub, hpb⟩ := hk b hbi hb
        exact h.inj a b hua hub (by rw [← hpa, ← hpb, e])

end Unique

/-- **Pids are unique until `nextpid` wraps.** Along a run from `procinit` in which
`nextpid` stays positive, so that fewer than 2^31 - 1 pids have been drawn, the slots in
use have distinct pids, each at least 1 and below `nextpid`, in every state. -/
theorem pids_unique_before_wrap {np nc : Nat} {K : Param} {τ : Nat → Sys np nc} {n : Nat}
    (htr : Trace K τ n) (h0 : τ 0 = procinit K) (hpos : ∀ t, t ≤ n → 0 < (τ t).nextpid) :
    ∀ t, t ≤ n → PidsOk (τ t) := by
  have hr := htr.reachable (h0 ▸ .init)
  intro t ht
  induction t with
  | zero => rw [h0]; exact pidsOk_procinit K
  | succ t ih =>
    obtain ⟨c, o, hs⟩ := htr t (by omega)
    exact (ih (by omega)).of_pidStep (step_pidStep (hr t (by omega)).wf hs) (hpos t (by omega))
      (hpos (t + 1) ht)

/-- Boot, then a `fork` whose child draws pid 2 and is made RUNNABLE. -/
theorem pids_unique_boot :
    ∃ τ : Nat → Sys 2 1, Trace Param.std τ 7 ∧ τ 0 = procinit Param.std ∧
      ((τ 7).proc 0).pid = 1 ∧ ((τ 7).proc 1).pid = 2 ∧ ((τ 7).proc 1).parent = some 0 ∧
      ((τ 7).proc 1).state = .RUNNABLE ∧ (∀ t, t ≤ 7 → 0 < (τ t).nextpid) ∧
      ∀ t, t ≤ 7 → PidsOk (τ t) := by
  have hl := List.Chain.cons (R := fun x y => ∃ c o, Step Param.std x c o y)
    ⟨0, _, Step.userinit (σ := (procinit Param.std : Sys 2 1)) 0 ⟨1, 1, true, true, true⟩ 0 rfl rfl
      (fun j hj => absurd hj (Fin.not_lt_zero j)) rfl rfl rfl rfl⟩ <|
    .cons ⟨0, _, Step.schedRun 0 (by rfl) (by rfl) (by rfl) (by rfl) (by rfl)⟩ <|
    .cons ⟨0, _, Step.proc (by rfl) (PStep.forkCall (p := 0) (by rfl))⟩ <|
    .cons ⟨0, _, Step.proc (by rfl) (PStep.allocBusy (p := 0) (i := 0) (by rfl) (by decide)
      (by rfl) (by decide))⟩ <|
    .cons ⟨0, _, Step.proc (by rfl) (PStep.allocOk (p := 0) (i := 1) ⟨1, 1, true, true, true⟩
      (by rfl) (by decide) (by rfl) (by rfl) (by rfl) (by rfl) (by rfl))⟩ <|
    .cons ⟨0, _, Step.proc (by rfl) (PStep.forkParent (p := 0) (by rfl) (by rfl))⟩ <|
    .cons ⟨0, _, Step.proc (by rfl) (PStep.forkRunnable (p := 0) (by rfl) (by rfl))⟩ .nil
  have htr := Trace.of_chain (procinit Param.std) hl
  refine ⟨_, htr, rfl, by rfl, by rfl, by rfl, by rfl, ?hpos, pids_unique_before_wrap htr rfl ?hpos⟩
  decide

end RiscvProc
