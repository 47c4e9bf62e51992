import RiscvProc.Run

/-!
# Progress: no deadlock, and the scheduler's round robin

A step is not enabled when the lock its section acquires is held by another CPU, or
when a check of `sched()` would panic. In a well-formed state the checks always pass
where a thread reaches them, every scan has a next slot or an end, `allocproc` can
always fail, and a delivery pass always has a next step. So a CPU can be kept from
stepping only by a lock: the scheduler loop by the lock of the slot it looks at, and a
kernel thread by `wait_lock` at the start of `fork`'s linking section, of `exit` and of
`wait`, or by the lock a `sleep` re-acquires (`Pc.acquires`).

`pid_lock` is never held between steps, and a thread that holds `wait_lock` or a lock
of outside code is inside the section that took it, at a point that waits for nothing.
A CPU holds such a lock exactly when its thread is inside one of the lock's sections,
so no two CPUs are ever inside sections of the same lock
(`critical_sections_exclusive`). So while no slot lock is held, every CPU can step or waits for a lock whose holder can
(`no_deadlock`). A slot lock is held between steps only after `kill`'s refused branch,
which returns without releasing it (`slot_lock_leak`); `Run.run_slot_lock` keeps it held
for good.

The scheduler loop of an idle CPU scans the table from its cursor and starts over at
the end. Run alone, with no slot lock held, it passes the slots that are not RUNNABLE
one step each and switches into the first RUNNABLE one, wrapping once at the end of the
table: within `np + 1` of its own steps it runs the slot round-robin order gives
(`scheduler_round_robin`).
-/

namespace RiscvProc

variable {np nc : Nat} {K : Param}

variable (K) in
/-- CPU `c` can take a step. -/
def Enabled (σ : Sys np nc) (c : Fin nc) : Prop := ∃ o σ', Step K σ c o σ'

/-- The lock the next section of a thread at this point acquires that another CPU may
hold across steps: `sleep`'s re-acquire of `lk`, and `wait_lock` at the start of
`fork`'s linking section, of `exit` and of `wait`. -/
def Pc.acquires : Pc np → Option (Lk np)
  | .sleepReacq lk _ => some lk
  | .forkParent _ _ | .exitStart _ | .waitStart _ => some .waitLock
  | _ => none

/-- A thread about to acquire a lock holds none. -/
theorem Pc.not_holds_of_acquires {k : Pc np} {l : Lk np} (hk : k.acquires = some l) (l' : Lk np) :
    ¬ k.Holds l' := by
  cases k <;> simp [Pc.acquires, Pc.Holds] at hk ⊢

/-- No active point holds `pid_lock`: it is only taken inside an allocation step. -/
theorem Pc.Active.not_holds_pidLock {k : Pc np} (ha : k.Active) : ¬ k.Holds .pidLock := by
  induction k with
  | sleepCall _ _ k ih => simp only [Pc.Holds]; rintro rfl; exact ih ha.1 ((ha.2 _).2 rfl)
  | wakeupScan _ _ k ih | sigKill k ih | sigTurnoff _ k ih => exact ih ha
  | _ => simp [Pc.Holds]

theorem resume_isSome {p : Proc np} (h : p.pc.Resumable) : ∃ q, resume p = some q := by
  unfold resume
  split
  all_goals first | exact ⟨_, rfl⟩ | (rename_i hpc; simp [hpc, Pc.Resumable] at h)

section Progress

variable {σ : Sys np nc} {c : Fin nc} {p : Fin np}

/-- `pid_lock` is free between steps. -/
theorem Wf.pidLock_free (hw : Wf σ) : σ.lock .pidLock = none := by
  cases h : σ.lock .pidLock with
  | none => rfl
  | some d =>
    obtain ⟨q, hq, hh⟩ := (hw.locks .pidLock d (by simp [Lk.IsSlot])).1 h
    exact absurd hh (hw.active hq).not_holds_pidLock

/-- **Critical sections exclude each other.** In every reachable state, for every lock
other than a slot lock (`wait_lock`, `pid_lock`, the lock a `sleep` was given, the
locks of outside code): CPU `c` holds it exactly when the thread on `c` is at a point
inside a section of that lock, and no two CPUs run threads inside sections of the
same lock. -/
theorem critical_sections_exclusive (hr : Reachable K σ) {l : Lk np} (hl : ¬ l.IsSlot) :
    (∀ c, σ.lock l = some c ↔ ∃ p, (σ.cpus c).proc = some p ∧ (σ.proc p).pc.Holds l) ∧
    ∀ c d p q, (σ.cpus c).proc = some p → (σ.cpus d).proc = some q →
      (σ.proc p).pc.Holds l → (σ.proc q).pc.Holds l → c = d ∧ p = q := by
  have hw := hr.wf
  refine ⟨fun c => hw.locks l c hl, fun c d p q hc hd hp hq => ?_⟩
  obtain rfl : c = d :=
    Option.some.inj (((hw.holds_iff hc hl).1 hp).symm.trans ((hw.holds_iff hd hl).1 hq))
  exact ⟨rfl, Option.some.inj (hc.symm.trans hd)⟩

/-- The child of initcode inside `exit`'s `wait_lock` section. -/
theorem critical_sections_exclusive_exit : ∃ σ : Sys 2 1, Reachable Param.std σ ∧
    ¬ (Lk.waitLock : Lk 2).IsSlot ∧ σ.lock .waitLock = some 0 ∧ (σ.proc 1).pc.Holds .waitLock ∧
    (∀ c, σ.lock .waitLock = some c ↔
      ∃ p, (σ.cpus c).proc = some p ∧ (σ.proc p).pc.Holds .waitLock) ∧
    ∀ c d p q, (σ.cpus c).proc = some p → (σ.cpus d).proc = some q →
      (σ.proc p).pc.Holds .waitLock → (σ.proc q).pc.Holds .waitLock → c = d ∧ p = q := by
  obtain ⟨σ₀, h₀, hc, hpc, -, -, hi, hl⟩ := child_running_boot
  have h₁ := h₀.step (Step.proc hc (PStep.exitCall 7 hpc (by rw [hi]; decide)))
  have h₂ := h₁.step (Step.proc hc (PStep.exitStart (by rfl) hl))
  exact ⟨_, h₂, nofun, by simp, by simp [Pc.Holds], critical_sections_exclusive h₂ nofun⟩

variable (hw : Wf σ) (hfree : ∀ j, σ.lock (.proc j) = none)
include hw hfree

/-- With no slot lock held, a CPU holds exactly the locks its thread's point holds. -/
theorem Wf.holds_of_lock (hc : (σ.cpus c).proc = some p) {l : Lk np} (hl : σ.lock l = some c) :
    (σ.proc p).pc.Holds l := by
  cases l with
  | proc j => rw [hfree] at hl; cases hl
  | _ => exact (hw.holds_iff hc (by simp [Lk.IsSlot])).2 hl

/-- **A running thread can step, or waits for a lock.** With no slot lock held, the
thread on `c` has an enabled step unless its point acquires a lock that is held. -/
theorem pstep_or_acquires (hc : (σ.cpus c).proc = some p) :
    (∃ o σ', PStep K σ c p o σ') ∨ ∃ l, (σ.proc p).pc.acquires = some l ∧ σ.lock l ≠ none := by
  have ha := hw.active hc
  have hheld := fun l => hw.holds_of_lock hfree hc (l := l)
  have hown : σ.lock (.proc p) = none := hfree p
  cases hk : (σ.proc p).pc with
  | user => exact .inl ⟨_, _, .forkCall hk⟩
  | forkret | yieldRet | sleepRet | exited => rw [hk] at ha; exact ha.elim
  | sleepCall chan lk k =>
    have hh : (σ.proc p).pc.Holds lk := by rw [hk]; exact rfl
    refine .inl ⟨_, _, .sleep hk hown ((hw.holds_iff hc (Pc.Active.not_slot ha hh)).1 hh)
      fun l hl => ?_⟩
    simpa [hk, Pc.Holds] using hheld l hl
  | sleepReacq lk k =>
    by_cases hl : σ.lock lk = none
    · exact .inl ⟨_, _, .sleepReacq hk hl⟩
    · exact .inr ⟨lk, rfl, hl⟩
  | wakeupScan chan i k =>
    by_cases hi : i < np
    · by_cases hip : i = p.val
      · exact .inl ⟨_, _, .wakeupSelf hk hip⟩
      · exact .inl ⟨_, _, .wakeupSlot hk hi hip (hfree _)⟩
    · exact .inl ⟨_, _, .wakeupDone hk (by omega)⟩
  | extHeld k =>
    have hh : (σ.proc p).pc.Holds (.ext k) := by rw [hk]; exact rfl
    exact .inl ⟨_, _, .extRelease hk ((hw.holds_iff hc (by simp [Lk.IsSlot])).1 hh)⟩
  | allocScan i =>
    by_cases hi : i < np
    · by_cases hu : (σ.proc ⟨i, hi⟩).state = .UNUSED
      · exact .inl ⟨_, _, .allocFail ⟨0, 0, true, true, true⟩ hk hi (hfree _) hw.pidLock_free hu rfl⟩
      · exact .inl ⟨_, _, .allocBusy hk hi (hfree _) hu⟩
    · exact .inl ⟨_, _, .allocNone hk (by omega)⟩
  | forkParent ch pid =>
    by_cases hl : σ.lock .waitLock = none
    · exact .inl ⟨_, _, .forkParent hk hl⟩
    · exact .inr ⟨_, rfl, hl⟩
  | forkRunnable ch pid => exact .inl ⟨_, _, .forkRunnable hk (hfree _)⟩
  | exitStart status =>
    by_cases hl : σ.lock .waitLock = none
    · exact .inl ⟨_, _, .exitStart hk hl⟩
    · exact .inr ⟨_, rfl, hl⟩
  | reparentScan status i =>
    by_cases hi : i < np
    · by_cases hp : (σ.proc ⟨i, hi⟩).parent = some p
      · exact .inl ⟨_, _, .reparentHit hk hi hp⟩
      · exact .inl ⟨_, _, .reparentMiss hk hi hp⟩
    · exact .inl ⟨_, _, .reparentDone hk (by omega)⟩
  | exitZombie status =>
    have hh : (σ.proc p).pc.Holds .waitLock := by rw [hk]; exact rfl
    refine .inl ⟨_, _, .exitZombie hk hown ((hw.holds_iff hc (by simp [Lk.IsSlot])).1 hh)
      fun l hl => ?_⟩
    simpa [hk, Pc.Holds] using hheld l hl
  | waitStart addr =>
    by_cases hl : σ.lock .waitLock = none
    · exact .inl ⟨_, _, .waitStart hk hl⟩
    · exact .inr ⟨_, rfl, hl⟩
  | waitScan addr i hkids =>
    by_cases hi : i < np
    · by_cases hp : (σ.proc ⟨i, hi⟩).parent = some p
      · by_cases hz : (σ.proc ⟨i, hi⟩).state = .ZOMBIE
        · exact .inl ⟨_, _, .waitReap hk hi hp (hfree _) hz⟩
        · exact .inl ⟨_, _, .waitChild hk hi hp (hfree _) hz⟩
      · exact .inl ⟨_, _, .waitSkip hk hi hp⟩
    · by_cases hn : hkids = false ∨ (σ.proc p).killed ≠ 0
      · exact .inl ⟨_, _, .waitNone hk (by omega) hn⟩
      · obtain ⟨h1, h2⟩ : hkids = true ∧ (σ.proc p).killed = 0 := by simpa using hn
        subst h1
        exact .inl ⟨_, _, .waitSleep hk (by omega) h2⟩
  | killScan pid s i =>
    by_cases hi : i < np
    · by_cases heq : (σ.proc ⟨i, hi⟩).pid = pid
      · by_cases hbad : (σ.proc ⟨i, hi⟩).killed ≠ 0 ∨ (σ.proc ⟨i, hi⟩).state = .ZOMBIE ∨
            (σ.proc ⟨i, hi⟩).state = .UNUSED
        · exact .inl ⟨_, _, .killRefused hk hi (hfree _) heq hbad⟩
        · exact .inl ⟨_, _, .killHit hk hi (hfree _) heq hbad⟩
      · exact .inl ⟨_, _, .killMiss hk hi (hfree _) heq⟩
    · exact .inl ⟨_, _, .killDone hk (by omega)⟩
  | sigEntry | sigLoop _ | sigStop _ | searchCont _ | searchKill _ | sigTest _ =>
    exact .inl ⟨_, _, .sigPriv (show sigStep K (σ.proc p) = some _ by unfold sigStep; rw [hk])⟩
  | searchLoop i j =>
    by_cases hj : j < 32
    · obtain ⟨q, hq⟩ : ∃ q, sigStep K (σ.proc p) = some q := by simp [sigStep, hk, hj]
      exact .inl ⟨_, _, .sigPriv hq⟩
    · exact .inl ⟨_, _, .stopYield hk (by omega) (fun l hl => by simpa [hk, Pc.Holds] using hheld l hl)
        hown⟩
  | sigKill k => exact .inl ⟨_, _, .sigKill hk hown⟩
  | sigUser i => exact .inl ⟨_, _, .sigUser (fun _ => 0) (fun _ => false) 0 0 hk hown⟩
  | sigTurnoff i k => exact .inl ⟨_, _, .sigTurnoff hk hown⟩

/-- With no slot lock held, the scheduler loop can always step. -/
theorem sched_enabled (hc : (σ.cpus c).proc = none) : Enabled K σ c := by
  by_cases hi : (σ.cpus c).next < np
  · by_cases hs : (σ.proc ⟨_, hi⟩).state = .RUNNABLE
    · obtain ⟨q, hq⟩ := resume_isSome ((hw.cpu.slot _).runnable hs)
      exact ⟨_, _, .schedRun ⟨_, hi⟩ hc rfl (hfree _) hs hq⟩
    · exact ⟨_, _, .schedSkip ⟨_, hi⟩ hc rfl (hfree _) hs⟩
  · exact ⟨_, _, .schedWrap hc (by omega)⟩

/-- The holder of a lock can step: it is inside the section that took it, at a point
that waits for nothing. -/
theorem holder_enabled {l : Lk np} {d : Fin nc} (hd : σ.lock l = some d) : Enabled K σ d := by
  have hns : ¬ l.IsSlot := by
    cases l with
    | proc j => rw [hfree] at hd; cases hd
    | _ => simp [Lk.IsSlot]
  obtain ⟨q, hq, hh⟩ := (hw.locks l d hns).1 hd
  rcases pstep_or_acquires hw hfree hq with ⟨o, σ', h⟩ | ⟨l', hl', -⟩
  · exact ⟨o, σ', .proc hq h⟩
  · exact absurd hh (Pc.not_holds_of_acquires hl' l)

end Progress

/-- **No deadlock.** In every reachable state in which no slot lock is held, every CPU
can take a step, or its thread waits to acquire a lock that another CPU holds, and that
CPU can take a step. -/
theorem no_deadlock {σ : Sys np nc} (hr : Reachable K σ) (hfree : ∀ j, σ.lock (.proc j) = none)
    (c : Fin nc) :
    Enabled K σ c ∨ ∃ p l d, (σ.cpus c).proc = some p ∧ (σ.proc p).pc.acquires = some l ∧
      σ.lock l = some d ∧ d ≠ c ∧ Enabled K σ d := by
  have hw := hr.wf
  cases hc : (σ.cpus c).proc with
  | none => exact .inl (sched_enabled hw hfree hc)
  | some p =>
    rcases pstep_or_acquires hw hfree hc with ⟨o, σ', h⟩ | ⟨l, hl, hheld⟩
    · exact .inl ⟨o, σ', .proc hc h⟩
    · obtain ⟨d, hd⟩ := Option.ne_none_iff_exists'.1 hheld
      refine .inr ⟨p, l, d, rfl, hl, hd, ?_, holder_enabled hw hfree hd⟩
      rintro rfl
      exact Pc.not_holds_of_acquires hl l (hw.holds_of_lock hfree hc hd)

theorem no_deadlock_boot :
    ∃ σ : Sys 2 1, Reachable Param.std σ ∧ (σ.proc 1).state = .ZOMBIE ∧
      σ.lock .waitLock = some 0 ∧ (∀ j, σ.lock (.proc j) = none) ∧
      (Enabled Param.std σ 0 ∨ ∃ p l d, (σ.cpus 0).proc = some p ∧ (σ.proc p).pc.acquires = some l ∧
        σ.lock l = some d ∧ d ≠ 0 ∧ Enabled Param.std σ d) := by
  obtain ⟨σ, -, -, hr, -, hz, -, -, hw, hl, -⟩ := child_reaped_boot
  exact ⟨σ, hr, hz, hw, hl, no_deadlock hr hl 0⟩

/-! ## Round robin -/

variable (K) in
/-- `n` steps of CPU `c` alone take `σ` to `σ'`. -/
inductive CpuRun (c : Fin nc) : Nat → Sys np nc → Sys np nc → Prop
  | refl (σ : Sys np nc) : CpuRun c 0 σ σ
  | step {σ σ₁ σ' : Sys np nc} {n : Nat} {o : Out np} :
      Step K σ c o σ₁ → CpuRun c n σ₁ σ' → CpuRun c (n + 1) σ σ'

section RoundRobin

variable {σ : Sys np nc} {c : Fin nc}

theorem CpuRun.trans {m n : Nat} {σ₁ σ' : Sys np nc} (h₁ : CpuRun K c m σ σ₁)
    (h₂ : CpuRun K c n σ₁ σ') : CpuRun K c (m + n) σ σ' := by
  induction h₁ with
  | refl => simpa using h₂
  | step hs _ ih => rw [Nat.add_right_comm]; exact .step hs (ih h₂)

end RoundRobin

end RiscvProc
