import RiscvProc.Run

/-!
# The scheduler's state machine

`enum procstate` moves along nine edges. Every step of the machine moves each
slot along at most one of them, except `userinit`, whose one section under
`p->lock` takes its slot UNUSED → USED in `allocproc` and USED → RUNNABLE before
the release. Only the scheduler loop moves a slot from RUNNABLE to RUNNING, and a
slot is RUNNING exactly when it is `c->proc` of exactly one CPU.
-/

namespace RiscvProc

variable {np nc : Nat} {K : Param}

/-- The transitions of a slot's `state` that `proc.c` makes. -/
inductive Edge : Procstate → Procstate → Prop
  | alloc : Edge .UNUSED .USED           -- allocproc
  | ready : Edge .USED .RUNNABLE         -- fork, userinit
  | rollback : Edge .USED .UNUSED        -- freeproc after a failed allocation
  | dispatch : Edge .RUNNABLE .RUNNING   -- scheduler
  | yield : Edge .RUNNING .RUNNABLE      -- yield
  | sleep : Edge .RUNNING .SLEEPING      -- sleep
  | exit : Edge .RUNNING .ZOMBIE         -- exit
  | wake : Edge .SLEEPING .RUNNABLE      -- wakeup
  | reap : Edge .ZOMBIE .UNUSED          -- freeproc in wait

variable {σ σ' : Sys np nc} {c : Fin nc} {p : Fin np} {o : Out np}

theorem setProc_state_of {j : Fin np} {q : Proc np} (hs : q.state = (σ.proc j).state)
    (i : Fin np) : ((σ.setProc j q).proc i).state = (σ.proc i).state := by
  by_cases h : i = j <;> simp [h, hs]

theorem setProc_setProc_state_of {j p : Fin np} {x y : Proc np} (hx : x.state = (σ.proc j).state)
    (hy : y.state = (σ.proc p).state) (i : Fin np) :
    (((σ.setProc j x).setProc p y).proc i).state = (σ.proc i).state :=
  (setProc_state_of (by rw [setProc_state_of hx]; exact hy) i).trans (setProc_state_of hx i)

/-- What a step of a kernel thread does to a slot's state: nothing, or one edge
that does not end in RUNNING. -/
theorem pstep_state (hw : Wf σ) (hc : (σ.cpus c).proc = some p) (h : PStep K σ c p o σ')
    (i : Fin np) : (σ'.proc i).state = (σ.proc i).state ∨
      (Edge (σ.proc i).state (σ'.proc i).state ∧ (σ'.proc i).state ≠ .RUNNING) := by
  have hrun := hw.running hc
  cases h
  case yield | stopYield =>
    by_cases hi : i = p <;> simp [hi, hrun, Edge.yield]
  case sleep => by_cases hi : i = p <;> simp [hi, hrun, Edge.sleep]
  case exitZombie => by_cases hi : i = p <;> simp [hi, hrun, Edge.exit]
  case wakeupSlot chan k kk hpc hk hne hl =>
    by_cases hi : i = p
    · simp [hi]
    · simp only [Sys.setProc_proc, hi, if_false]
      split_ifs with hij
      · subst hij; unfold wakeup1; split_ifs with hs
        · simp [hs.1, Edge.wake]
        · simp
      · simp
  case allocFail k q e hpc hk hl hpl hu ha =>
    left
    by_cases hij : i = ⟨k, hk⟩
    · subst hij; simp [allocproc_error K ha, hu]
    · by_cases hi : i = p
      · subst hi; simp [hij]
      · simp [hij, hi]
  case copyFail k q e hpc hk hl hpl hu ha hok =>
    left
    by_cases hij : i = ⟨k, hk⟩
    · subst hij; simp [hu]
    · by_cases hi : i = p
      · subst hi; simp [hij]
      · simp [hij, hi]
  case allocOk k q e hpc hk hl hpl hu ha hok =>
    by_cases hij : i = ⟨k, hk⟩
    · subst hij; right; simp [forkCopy, (allocproc_ok K ha).1, hu, Edge.alloc]
    · left
      by_cases hi : i = p
      · subst hi; simp [hij]
      · simp [hij, hi]
  case forkRunnable ch pid hpc hl =>
    obtain ⟨hU, hne, -⟩ := hw.child p ch ⟨by simp [hrun], by simp [hpc, Pc.forkChild]⟩
    by_cases hi : i = p
    · left; simp [hi]
    · by_cases hich : i = ch
      · subst hich; right; simp [hi, hU, Edge.ready]
      · left; simp [hi, hich]
  case waitReap addr k hkid hpc hk hp hl hz =>
    have hne : (⟨k, hk⟩ : Fin np) ≠ p := by rintro rfl; rw [hrun] at hz; cases hz
    by_cases hi : i = p
    · left; simp [hi]
    · by_cases hij : i = ⟨k, hk⟩
      · subst hij; right; simp [hi, hz, Edge.reap]
      · left; simp [hi, hij]
  case sigKill => exact .inl (by by_cases hi : i = p <;> simp [hi, sigkillFunc, hrun])
  case sigPriv q h => exact .inl (setProc_state_of (sigStep_wf h).1 i)
  case sigactionCall signum act actAddr hpc =>
    obtain ⟨hd, e⟩ := sigaction_snd K (σ.proc p) signum act actAddr
    exact .inl (by rw [e]; exact setProc_state_of (by rfl) i)
  case forkParent | reparentHit =>
    exact .inl (setProc_setProc_state_of (by rfl) (by rfl) i)
  case killHit => exact .inl ((setProc_state_of (by rfl) i).trans (setProc_state_of (by rfl) i))
  case killRange => exact .inl rfl
  all_goals exact .inl (setProc_state_of (by rfl) i)

/-- A slot is RUNNING exactly when it is `c->proc` of exactly one CPU. -/
theorem Wf.running_iff (hw : Wf σ) (i : Fin np) :
    (σ.proc i).state = .RUNNING ↔ ∃! c, (σ.cpus c).proc = some i :=
  ⟨fun h => let ⟨c, hc⟩ := hw.cpu.run_cpu i h; ⟨c, hc, fun d hd => hw.cpu.cpu_inj d c i hd hc⟩,
    fun ⟨_, hc, _⟩ => hw.cpu.running hc⟩

/-- What a step of CPU `c` does to slot `i`'s state: nothing; or one edge, a move
into RUNNING being `c`'s scheduler loop switching into `i`; or `userinit`'s section,
which takes the first slot through USED to RUNNABLE and makes it `initproc`. -/
def StepMoves (σ σ' : Sys np nc) (c : Fin nc) (i : Fin np) : Prop :=
  (σ'.proc i).state = (σ.proc i).state ∨
  (Edge (σ.proc i).state (σ'.proc i).state ∧
    ((σ'.proc i).state = .RUNNING → (σ.cpus c).proc = none ∧ (σ'.cpus c).proc = some i)) ∨
  (Edge (σ.proc i).state .USED ∧ Edge .USED (σ'.proc i).state ∧
    σ.initproc = none ∧ σ'.initproc = some i)

theorem step_moves (hw : Wf σ) (h : Step K σ c o σ') (i : Fin np) : StepMoves σ σ' c i := by
  cases h with
  | proc hc h =>
    rcases pstep_state hw hc h i with h | ⟨he, hr⟩
    · exact .inl h
    · exact .inr (.inl ⟨he, fun h => absurd h hr⟩)
  | schedSkip | schedWrap | intrCall | intrDone => exact .inl rfl
  | intrSlot _ _ hk =>
    unfold StepMoves
    by_cases hij : i = ⟨_, hk⟩
    · subst hij; unfold wakeup1; split_ifs with hs
      · exact .inr (.inl ⟨by simp [hs.1, Edge.wake], by simp⟩)
      · simp
    · simp [hij]
  | schedRun j hc hi hl hs hr =>
    by_cases hij : i = j
    · subst hij; exact .inr (.inl ⟨by simpa [hs] using Edge.dispatch, fun _ => ⟨hc, by simp⟩⟩)
    · exact .inl (by simp [hij])
  | userinit j e cwd hc h0 hfirst hu hl hpl ha =>
    by_cases hij : i = j
    · subst hij
      exact .inr (.inr ⟨by simpa [hu] using Edge.alloc, by simpa [userinitProc] using Edge.ready,
        h0, rfl⟩)
    · exact .inl (by simp [hij])

/-- The scheduler's state machine: in every reachable state a slot is RUNNING
exactly when it is `c->proc` of exactly one CPU, and every step moves every slot
only along the edges of `Edge`, the move RUNNABLE → RUNNING only by the scheduler
loop of the CPU taking the step. -/
theorem scheduler_state_machine {σ : Sys np nc} (hr : Reachable K σ) :
    (∀ i, (σ.proc i).state = .RUNNING ↔ ∃! c, (σ.cpus c).proc = some i) ∧
    ∀ c o σ', Step K σ c o σ' → ∀ i, StepMoves σ σ' c i :=
  ⟨hr.wf.running_iff, fun _ _ _ h i => step_moves hr.wf h i⟩

theorem scheduler_state_machine_boot :
    ∃ σ : Sys 2 1, Reachable Param.std σ ∧ (σ.proc 1).state = .ZOMBIE ∧
      (σ.proc 1).parent = some 0 ∧
      (∀ i, (σ.proc i).state = .RUNNING ↔ ∃! c, (σ.cpus c).proc = some i) ∧
      ∀ c o σ', Step Param.std σ c o σ' → ∀ i, StepMoves σ σ' c i := by
  obtain ⟨σ, -, -, hr, -, hz, hp, -⟩ := child_reaped_boot
  exact ⟨σ, hr, hz, hp, scheduler_state_machine hr⟩

end RiscvProc
