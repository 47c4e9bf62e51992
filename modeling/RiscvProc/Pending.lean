import RiscvProc.Pass
import RiscvProc.Wakeup

/-!
# The pending set under interleaving

`kill` raises a bit of its target's `pending_signals` under the target's lock,
and `turnoff_sigbit` clears one under the same lock; a delivery pass tests the
bit without the lock and clears it after the handler's action. Across any
interleaving of the machine, a step clears a pending bit of a slot only as that
slot's own `turnoff_sigbit` of that bit (which leaves every other bit alone), or
when `allocproc` hands out the slot after it was freed (`step_clears_bit`), and raises
one only as a `kill` of that signal that finds the slot and returns 0
(`pending_bits_only_kill_turnoff`). So the bit a `kill` raised stays raised until such
a step (`kill_bit_until_turnoff`).

That step may belong to a handling whose test of the bit came before the `kill`:
the second `kill` of a signal already being handled is absorbed by it, as the
spec's collapsing of duplicates has it. `kill_absorbed_by_handling` is such a
run on two CPUs.

A `kill` only raises a bit: it leaves every slot's state as it was, so a target asleep
in `wait` sleeps on until some `wakeup` (`kill_leaves_sleeper_asleep`).
-/

namespace RiscvProc

variable {np nc : Nat} {K : Param}

/-- The step from `σ` to `σ'` is CPU `c` finishing a `kill(pid, s)` whose scan stands
at slot `P`: it returns 0. -/
def KillHits (K : Param) (σ σ' : Sys np nc) (P : Fin np) (s : Fin 32) : Prop :=
  ∃ c q pid, (σ.cpus c).proc = some q ∧ (σ.proc q).pc = .killScan pid s P.val ∧
    Step K σ c { ret := some 0, acq := [.proc P] } σ'

/-- The step from `σ` to `σ'` is slot `P`'s own `turnoff_sigbit(p, s)`. -/
def Turnoff (σ σ' : Sys np nc) (P : Fin np) (s : Fin 32) : Prop :=
  ∃ c k, (σ.cpus c).proc = some P ∧ (σ.proc P).pc = .sigTurnoff s k ∧
    σ.lock (.proc P) = none ∧ σ' = σ.setProc P { turnoffSigbit (σ.proc P) s with pc := k }

variable {σ σ' : Sys np nc} {c : Fin nc} {p P : Fin np} {o : Out np}

/-- A `kill` that returns 0 is the hit of its scan: it raises bit `s` of its target
and sends its caller back to user space, and changes nothing else. -/
theorem KillHits.eq {s : Fin 32} (h : KillHits K σ σ' P s) : ∃ q,
    σ' = (σ.setProc P { σ.proc P with
      pendingSignals := (σ.proc P).pendingSignals ||| sigBit s }).setPc q .user := by
  obtain ⟨c, q, pid, hc, hpc, hs⟩ := h
  generalize ho : ({ ret := some 0, acq := [.proc P] } : Out np) = o at hs
  cases hs
  case proc hc' h =>
    rw [hc] at hc'; cases hc'
    cases h
    all_goals first | (rw [hpc] at *; contradiction) | (simp at ho; done) | skip
    rename_i pid' s' i hpc' hi hl heq hok
    rw [hpc, Pc.killScan.injEq] at hpc'
    obtain ⟨rfl, rfl, hiP⟩ := hpc'
    obtain rfl : P = ⟨i, hi⟩ := Fin.ext hiP
    exact ⟨q, rfl⟩
  all_goals simp at ho

/-- A `kill` that returns 0 has raised bit `s` of its target. -/
theorem KillHits.pending {s : Fin 32} (h : KillHits K σ σ' P s) :
    (σ'.proc P).pendingSignals.getLsbD s = true := by
  obtain ⟨q, rfl⟩ := h.eq
  by_cases hq : P = q <;> simp [hq]

/-- A `kill` that returns 0 changes no slot's state: a sleeping target sleeps on. -/
theorem KillHits.state {s : Fin 32} (h : KillHits K σ σ' P s) (j : Fin np) :
    (σ'.proc j).state = (σ.proc j).state := by
  obtain ⟨q, rfl⟩ := h.eq
  simp only [Sys.setPc_eq, Sys.setProc_proc]
  split_ifs <;> simp_all

/-- A step of the thread of `p` clears a pending bit of slot `P` only as `P`'s own
`turnoff_sigbit` of that bit, or as `allocproc` reusing `P` when it was UNUSED. -/
theorem pstep_clears_bit (hc : (σ.cpus c).proc = some p) (hs : PStep K σ c p o σ')
    {j : Fin 32} (h1 : (σ.proc P).pendingSignals.getLsbD j = true)
    (h2 : (σ'.proc P).pendingSignals.getLsbD j = false) :
    Turnoff σ σ' P j ∨ (σ.proc P).state = .UNUSED := by
  cases hs
  case sigTurnoff i k hpc hl =>
    by_cases hP : P = p
    · subst hP
      obtain rfl : j = i := by
        by_contra hne
        simp [turnoffSigbit, h1, Fin.val_ne_of_ne hne] at h2
      exact .inl ⟨c, k, hc, hpc, hl, rfl⟩
    · simp [hP, h1] at h2
  case allocFail i q e hpc hi _ _ hu _ | copyFail i q e hpc hi _ _ hu _ _
    | allocOk i q e hpc hi _ _ hu _ _ =>
    by_cases hP : P = ⟨i, hi⟩
    · exact .inr (hP ▸ hu)
    · exfalso
      simp only [Sys.setProc_proc, if_neg hP] at h2
      split_ifs at h2 <;> simp_all
  case sigactionCall signum act actAddr hpc =>
    obtain ⟨h, e⟩ := sigaction_snd K (σ.proc p) signum act actAddr
    rw [e] at h2
    exfalso
    by_cases hP : P = p <;> simp_all
  case sigPriv q h =>
    exfalso
    by_cases hP : P = p
    · subst hP; rw [Sys.setProc_proc, if_pos rfl, sigStep_frame h] at h2; simp_all
    · simp [hP, h1] at h2
  case wakeupSlot chan i k hpc hi _ _ =>
    exfalso
    simp only [Sys.setProc_proc] at h2
    split_ifs at h2 <;> simp_all [wakeup1, apply_ite]
  all_goals exfalso
  all_goals (try simp only [Sys.setProc_proc, Sys.setLock_proc, Sys.switchOut_proc,
    Sys.setPc_eq] at h2)
  all_goals (try split_ifs at h2) <;> simp_all [freeproc, sigkillFunc, sigret, usersignalhandler]

@[simp] theorem wakeup1_pendingSignals (q : Proc np) (ch : Chan np) :
    (wakeup1 q ch).pendingSignals = q.pendingSignals := by
  unfold wakeup1; split_ifs <;> rfl

theorem resume_pending {p q : Proc np} (h : resume p = some q) :
    q.pendingSignals = p.pendingSignals := by
  unfold resume at h
  split at h <;> cases h <;> rfl

theorem step_clears_bit (hs : Step K σ c o σ') {j : Fin 32}
    (h1 : (σ.proc P).pendingSignals.getLsbD j = true)
    (h2 : (σ'.proc P).pendingSignals.getLsbD j = false) :
    Turnoff σ σ' P j ∨ (σ.proc P).state = .UNUSED := by
  cases hs with
  | proc hc h => exact pstep_clears_bit hc h h1 h2
  | schedSkip | schedWrap | intrCall | intrDone => simp [h1] at h2
  | @intrSlot a i _ _ hi _ =>
    rcases eq_or_ne P ⟨i, hi⟩ with rfl | hP <;> simp [*] at h2
  | schedRun i _ _ _ _ hr =>
    simp only [Sys.setCpu_proc, Sys.setProc_proc] at h2
    split_ifs at h2 with hP
    · subst hP; simp [resume_pending hr, h1] at h2
    · simp [h1] at h2
  | userinit i e cwd _ _ _ hu _ _ _ =>
    by_cases hP : P = i
    · exact .inr (hP ▸ hu)
    · simp [hP, h1] at h2

/-- `allocproc` clears the pending set of the slot it takes, whether it succeeds or not. -/
theorem allocproc_pending {q q' : Proc np} {pid : Int} {e : ForkEnv}
    (h : allocproc K q pid e = .ok q' ∨ allocproc K q pid e = .error q') : q'.pendingSignals = 0 := by
  unfold allocproc at h; split_ifs at h <;> rcases h with h | h <;> cases h <;> rfl

/-- A step of the thread of `p` raises a pending bit of slot `P` only as a `kill` of
that signal whose scan stands at `P` and returns 0. -/
theorem pstep_raises_bit (hc : (σ.cpus c).proc = some p) (hs : PStep K σ c p o σ')
    {j : Fin 32} (h1 : (σ.proc P).pendingSignals.getLsbD j = false)
    (h2 : (σ'.proc P).pendingSignals.getLsbD j = true) : KillHits K σ σ' P j := by
  cases hs
  case killHit pid s i hpc hi hl heq hok =>
    obtain rfl : P = ⟨i, hi⟩ := by
      by_contra hP
      revert h2; simp only [Sys.setPc_eq, Sys.setProc_proc, if_neg hP]
      split_ifs <;> subst_vars <;> simp_all
    obtain rfl : j = s := by
      by_contra hne
      revert h2; simp only [Sys.setPc_eq, Sys.setProc_proc]
      split_ifs <;> subst_vars <;> simp_all [Fin.val_ne_of_ne hne]
    exact ⟨c, p, pid, hc, hpc, .proc hc (.killHit hpc hi hl heq hok)⟩
  case allocFail i q e hpc hi _ _ hu ha =>
    have h0 := allocproc_pending (.inr ha)
    revert h2; simp only [Sys.setProc_proc]
    split_ifs <;> simp_all
  case copyFail i q e hpc hi _ _ hu ha _ | allocOk i q e hpc hi _ _ hu ha _ =>
    have h0 := allocproc_pending (.inl ha)
    revert h2; simp only [Sys.setProc_proc]
    split_ifs <;> simp_all [freeproc, forkCopy]
  case sigactionCall signum act actAddr _ =>
    obtain ⟨_, e⟩ := sigaction_snd K (σ.proc p) signum act actAddr
    revert h2; simp only [Sys.setProc_proc, e]
    split_ifs <;> subst_vars <;> simp_all
  case sigPriv q h =>
    revert h2; simp only [Sys.setProc_proc]
    split_ifs <;> subst_vars
    · rw [sigStep_frame h]; simp_all
    · simp_all
  -- the other steps keep every pending set; `wakeup` and `turnoff_sigbit` once unfolded
  all_goals
    revert h2
    try simp only [Sys.setProc_proc, Sys.setLock_proc, Sys.switchOut_proc, Sys.setPc_eq]
    (try split_ifs) <;> subst_vars <;> first
      | exact fun h2 => absurd (h1.symm.trans h2) Bool.false_ne_true
      | simp_all [wakeup1, apply_ite, freeproc, sigkillFunc, turnoffSigbit, sigret, usersignalhandler]

theorem step_raises_bit (hs : Step K σ c o σ') {j : Fin 32}
    (h1 : (σ.proc P).pendingSignals.getLsbD j = false)
    (h2 : (σ'.proc P).pendingSignals.getLsbD j = true) : KillHits K σ σ' P j := by
  cases hs with
  | proc hc h => exact pstep_raises_bit hc h h1 h2
  | schedSkip | schedWrap | intrCall | intrDone => simp [h1] at h2
  | @intrSlot a i _ _ hi _ =>
    rcases eq_or_ne P ⟨i, hi⟩ with rfl | hP <;> simp [*] at h2
  | schedRun i _ _ _ _ hr =>
    revert h2; simp only [Sys.setCpu_proc, Sys.setProc_proc]
    split_ifs with hP
    · subst hP; simp [resume_pending hr, h1]
    · simp [h1]
  | userinit i e cwd _ _ _ hu _ _ ha =>
    revert h2; simp only [Sys.setProc_proc]
    split_ifs with hP
    · simp [userinitProc, allocproc_pending (.inl ha)]
    · simp [h1]

/-- **Pending bits change only through `kill` and `turnoff_sigbit`.** For every step
of the machine from every state, on any number of CPUs: a bit of slot `P`'s
`pending_signals` rises only as a `kill` of that signal whose scan found `P` and
returns 0, and falls only as `P`'s own `turnoff_sigbit` of that bit (which leaves
the other bits alone) or as `allocproc` taking `P` after it was freed. -/
theorem pending_bits_only_kill_turnoff (hs : Step K σ c o σ') (s : Fin 32) :
    ((σ.proc P).pendingSignals.getLsbD s = false → (σ'.proc P).pendingSignals.getLsbD s = true →
      KillHits K σ σ' P s) ∧
    ((σ.proc P).pendingSignals.getLsbD s = true → (σ'.proc P).pendingSignals.getLsbD s = false →
      Turnoff σ σ' P s ∨ (σ.proc P).state = .UNUSED) :=
  ⟨step_raises_bit hs, step_clears_bit hs⟩

/-- A `kill(1, 9)` from the boot table raises bit 9 of initcode's own slot. -/
theorem pending_bits_only_kill_turnoff_boot : ∃ σ σ' : Sys 2 1, ∃ o,
    Step Param.std σ 0 o σ' ∧ (σ.proc 0).pendingSignals.getLsbD 9 = false ∧
      (σ'.proc 0).pendingSignals.getLsbD 9 = true ∧ KillHits Param.std σ σ' 0 9 := by
  let σ := (bootSys Param.std).setProc 0 { (bootSys Param.std).proc 0 with pc := .killScan 1 9 0 }
  have hs := Step.proc (K := Param.std) (σ := σ) (c := 0) rfl
    (PStep.killHit (p := 0) (i := 0) (by rfl) (by decide) (by rfl) (by rfl) (by decide))
  have h1 : (σ.proc 0).pendingSignals.getLsbD 9 = false := by decide
  have h2 := KillHits.pending ⟨0, 0, 1, rfl, rfl, hs⟩
  exact ⟨σ, _, _, hs, h1, h2, (pending_bits_only_kill_turnoff hs 9).1 h1 h2⟩

/-- A delivery pass that finds only `s` pending runs, on the machine, to its test of `s`. -/
theorem Reachable.passToOnly {s : Fin 32} (hr : Reachable K σ) (hc : (σ.cpus c).proc = some p)
    (hl : σ.lock (.proc p) = none) (hpc : (σ.proc p).pc = .sigEntry) (hk : (σ.proc p).killed = 0)
    (hs : (σ.proc p).stopped = 0) (hh : (σ.proc p).signalHandling = 0)
    (hp : (σ.proc p).pendingSignals = sigBit s) :
    Reachable K (σ.setProc p { σ.proc p with pc := .sigTest s }) := by
  exact hr.run ((PassRun.of_pc hpc (PassRun.toOnly (K := K) hk hs hh hp)).run hc hl)

variable {τ : Nat → Sys np nc} {n : Nat}

/-- **A raised bit stays raised until its turnoff.** After a `kill(pid, s)` that
returns 0 at step `t`, bit `s` of its target `P` stays set up to a step `u` that is
`P`'s own `turnoff_sigbit(p, s)`, which leaves every other bit alone, or that hands
out `P`'s slot again after it was freed. -/
theorem kill_bit_until_turnoff (htr : Trace K τ n) {s : Fin 32} {t t' : Nat}
    (hkill : KillHits K (τ t) (τ (t + 1)) P s) (htt : t < t') (ht' : t' ≤ n)
    (hclr : ((τ t').proc P).pendingSignals.getLsbD s = false) :
    ∃ u, t < u ∧ u < t' ∧
      (∀ v, t < v → v ≤ u → ((τ v).proc P).pendingSignals.getLsbD s = true) ∧
      ((Turnoff (τ u) (τ (u + 1)) P s ∧ ∀ j : Nat, j ≠ s.val →
          ((τ (u + 1)).proc P).pendingSignals.getLsbD j = ((τ u).proc P).pendingSignals.getLsbD j) ∨
        ((τ u).proc P).state = .UNUSED) := by
  obtain ⟨u, hu1, hu2, hbefore, hafter⟩ :=
    exists_first (P := fun v => ((τ v).proc P).pendingSignals.getLsbD s = false)
      (show t + 1 ≤ t' by omega) (by simp [hkill.pending]) hclr
  have hset : ∀ v, t < v → v ≤ u → ((τ v).proc P).pendingSignals.getLsbD s = true :=
    fun v h1 h2 => by simpa using hbefore v (by omega) h2
  refine ⟨u, by omega, hu2, hset, ?_⟩
  obtain ⟨c, o, hs⟩ := htr u (by omega)
  rcases step_clears_bit hs (hset u (by omega) le_rfl) hafter with ht | hu
  · refine .inl ⟨ht, fun j hj => ?_⟩
    obtain ⟨c, k, -, -, -, he⟩ := ht
    rw [he]
    simp only [Sys.setProc_proc, eq_self_iff_true, if_true, turnoffSigbit, getLsbD_and_not_sigBit, ne_eq, hj,
      not_false_eq_true, decide_True, Bool.and_true]
  · exact .inr hu

/-- Two CPUs after boot: initcode forks, the child runs on CPU 1 and sends initcode
SIGCONT, and initcode's delivery pass reaches its test of SIGCONT. From there: the
test dispatches (step 0), the child's second `kill(1, SIGCONT)` returns 0 (step 1),
and initcode's `turnoff_sigbit` clears the bit (step 2). -/
theorem absorbed_run : ∃ τ : Nat → Sys 2 2, Reachable Param.std (τ 0) ∧ Trace Param.std τ 3 ∧
    ((τ 0).proc 0).pc = .sigTest 19 ∧ ((τ 0).proc 0).pendingSignals.getLsbD 19 = true ∧
    KillHits Param.std (τ 1) (τ 2) 0 19 ∧ ((τ 2).proc 0).pc ≠ .sigTest 19 ∧
    ((τ 3).proc 0).pendingSignals.getLsbD 19 = false := by
  have h0 : Reachable Param.std (procinit Param.std : Sys 2 2) := .init
  have h1 := h0.step (Step.userinit (c := 0) 0 ⟨1, 1, true, true, true⟩ 0 rfl rfl
    (fun j hj => absurd hj (Fin.not_lt_zero j)) rfl rfl rfl rfl)
  have h2 := h1.step (Step.schedRun (c := 0) 0 rfl rfl rfl rfl rfl)
  have h3 := h2.step (Step.proc (c := 0) rfl (PStep.forkCall (p := 0) rfl))
  have h4 := h3.step (Step.proc (c := 0) rfl (PStep.allocBusy (p := 0) (i := 0) (by rfl)
    (by decide) (by rfl) (by decide)))
  have h5 := h4.step (Step.proc (c := 0) rfl (PStep.allocOk (p := 0) (i := 1) ⟨1, 1, true, true, true⟩
    (by rfl) (by decide) (by rfl) (by rfl) (by rfl) (by rfl) rfl))
  have h6 := h5.step (Step.proc (c := 0) rfl (PStep.forkParent (p := 0) (by rfl) (by rfl)))
  have h7 := h6.step (Step.proc (c := 0) rfl (PStep.forkRunnable (p := 0) (by rfl) (by rfl)))
  have h8 := h7.step (Step.schedSkip (c := 1) 0 rfl rfl (by rfl) (by decide))
  have h9 := h8.step (Step.schedRun (c := 1) 1 rfl rfl (by rfl) (by rfl) (by rfl))
  have h10 := h9.step (Step.proc (c := 1) rfl (PStep.killCall (p := 1) 1 19 (by rfl)))
  have h11 := h10.step (Step.proc (c := 1) rfl (PStep.killHit (p := 1) (i := 0) (by rfl)
    (by decide) (by rfl) (by rfl) (by decide)))
  have h12 := h11.step (Step.proc (c := 0) rfl (PStep.sigCall (p := 0) (by rfl)))
  have h13 := h12.passToOnly (c := 0) (p := 0) (s := 19) rfl rfl rfl rfl rfl rfl (by decide)
  have h14 := h13.step (Step.proc (c := 1) rfl (PStep.killCall (p := 1) 1 19 (by rfl)))
  obtain ⟨s₀, s₁, s₂, s₃, hr, h01, h12, h23, hpc, hb, hk, hpc₂, hb₃⟩ : ∃ s₀ s₁ s₂ s₃ : Sys 2 2,
      Reachable Param.std s₀ ∧ (∃ c o, Step Param.std s₀ c o s₁) ∧ (∃ c o, Step Param.std s₁ c o s₂) ∧
      (∃ c o, Step Param.std s₂ c o s₃) ∧ (s₀.proc 0).pc = .sigTest 19 ∧
      (s₀.proc 0).pendingSignals.getLsbD 19 = true ∧ KillHits Param.std s₁ s₂ 0 19 ∧
      (s₂.proc 0).pc ≠ .sigTest 19 ∧ (s₃.proc 0).pendingSignals.getLsbD 19 = false :=
    have e1 := Step.proc (c := 0) rfl (PStep.sigPriv (p := 0)
      (sigStep_test (K := Param.std) (p := _) (i := 19) rfl (by decide) rfl).1)
    have e2 := Step.proc (c := 1) rfl (PStep.killHit (σ := _) (p := 1) (i := 0) (by rfl)
      (by decide) (by rfl) (by rfl) (by decide))
    ⟨_, _, _, _, h14, ⟨0, _, e1⟩, ⟨1, _, e2⟩, ⟨0, _, Step.proc rfl (PStep.sigTurnoff (p := 0) (by rfl) (by rfl))⟩, rfl, by decide, ⟨1, 1, 1, rfl, rfl, e2⟩, by decide, by decide⟩
  refine ⟨fun t => [s₀, s₁, s₂, s₃].getD t s₀, hr, fun t ht => ?_, hpc, hb, hk, hpc₂, hb₃⟩
  match t, ht with
  | 0, _ => exact h01
  | 1, _ => exact h12
  | 2, _ => exact h23

theorem kill_bit_until_turnoff_two_cpus : ∃ τ : Nat → Sys 2 2, Trace Param.std τ 3 ∧
    KillHits Param.std (τ 1) (τ 2) 0 19 ∧ ((τ 3).proc 0).pendingSignals.getLsbD 19 = false ∧
    ∃ u, 1 < u ∧ u < 3 ∧
      (∀ v, 1 < v → v ≤ u → ((τ v).proc 0).pendingSignals.getLsbD 19 = true) ∧
      ((Turnoff (τ u) (τ (u + 1)) 0 19 ∧ ∀ j : Nat, j ≠ 19 →
          ((τ (u + 1)).proc 0).pendingSignals.getLsbD j = ((τ u).proc 0).pendingSignals.getLsbD j) ∨
        ((τ u).proc 0).state = .UNUSED) := by
  obtain ⟨τ, -, htr, -, -, hk, -, hclr⟩ := absorbed_run
  exact ⟨τ, htr, hk, hclr, kill_bit_until_turnoff htr hk (by omega) le_rfl hclr⟩

/-- The failing run of `absorbed_run`: the bit the child's `kill` raised (it was
raised already) is cleared by the `turnoff_sigbit` of a handling whose test of
SIGCONT came before that `kill`, and no test of SIGCONT came after it. -/
theorem kill_absorbed_by_handling :
    ∃ τ : Nat → Sys 2 2, Reachable Param.std (τ 0) ∧ Trace Param.std τ 3 ∧
      ((τ 0).proc 0).pc = .sigTest 19 ∧ KillHits Param.std (τ 1) (τ 2) 0 19 ∧
      ((τ 2).proc 0).pc ≠ .sigTest 19 ∧ ((τ 3).proc 0).pendingSignals.getLsbD 19 = false := by
  obtain ⟨τ, hr, htr, hpc, -, hk, hpc₂, hclr⟩ := absorbed_run
  exact ⟨τ, hr, htr, hpc, hk, hpc₂, hclr⟩

/-! ## A killed sleeper sleeps on -/

/-- **A kill leaves its target asleep.** A `kill` that returns 0 changes no slot's
state, and `sigkill_func`, the only code that makes a killed process RUNNABLE, runs in
the process's own thread: in every reachable state a process at that point is RUNNING,
never SLEEPING. The failing run: initcode waits for its child and sleeps on its own
slot; the child's `kill(1, SIGKILL)` returns 0, and initcode stays SLEEPING. -/
theorem kill_leaves_sleeper_asleep :
    (∀ (σ σ' : Sys np nc) (P : Fin np) (s : Fin 32), KillHits K σ σ' P s →
      ∀ j, (σ'.proc j).state = (σ.proc j).state) ∧
    (∀ (σ : Sys np nc) (c : Fin nc) (p : Fin np) (k : Pc np), Reachable K σ →
      (σ.cpus c).proc = some p → (σ.proc p).pc = .sigKill k → (σ.proc p).state = .RUNNING) ∧
    ∃ σ σ' : Sys 2 1, Reachable Param.std σ ∧ (σ.proc 0).state = .SLEEPING ∧
      KillHits Param.std σ σ' 0 Param.std.SIGKILL ∧ (σ'.proc 0).state = .SLEEPING := by
  refine ⟨fun σ σ' P s h => h.state, fun σ c p k hr hc _ => hr.wf.running hc, ?_⟩
  have h0 := bootSys_reachable (K := Param.std)
  have h1 := h0.step (Step.proc (c := 0) rfl (PStep.forkCall rfl))
  have h2 := h1.step (Step.proc (c := 0) rfl (PStep.allocBusy (i := 0) rfl (by decide) rfl
    (by decide)))
  have h3 := h2.step (Step.proc (c := 0) rfl (PStep.allocOk (i := 1) ⟨1, 1, true, true, true⟩ rfl (by decide)
    rfl rfl rfl rfl rfl))
  have h4 := h3.step (Step.proc (c := 0) rfl (PStep.forkParent rfl rfl))
  have h5 := h4.step (Step.proc (c := 0) rfl (PStep.forkRunnable rfl rfl))
  have h6 := h5.step (Step.proc (c := 0) rfl (PStep.waitCall (p := 0) 0 rfl))
  have h7 := h6.step (Step.proc (c := 0) rfl (PStep.waitStart (p := 0) rfl rfl))
  have h8 := h7.step (Step.proc (c := 0) rfl (PStep.waitSkip (p := 0) (i := 0) rfl (by decide)
    (by decide)))
  have h9 := h8.step (Step.proc (c := 0) rfl (PStep.waitChild (p := 0) (i := 1) (by rfl)
    (by decide) (by rfl) (by rfl) (by decide)))
  have h10 := h9.step (Step.proc (c := 0) rfl (PStep.waitSleep (p := 0) rfl (by decide) rfl))
  have h11 := h10.step (Step.proc (c := 0) (p := 0) rfl (PStep.sleep (by rfl) (by rfl) (by rfl)
    fun l h => by
      by_contra hne
      exact absurd h (by
        show Function.update (fun _ => none) Lk.waitLock (some (0 : Fin 1)) l ≠ some 0
        simp [hne])))
  have h12 := h11.step (Step.schedRun (c := 0) 1 rfl rfl rfl rfl rfl)
  have h13 := h12.step (Step.proc (c := 0) rfl (PStep.killCall (p := 1) 1 9 rfl))
  exact ⟨_, _, h13, rfl, ⟨0, 1, 1, rfl, rfl, Step.proc rfl (PStep.killHit (p := 1) (i := 0)
    (by rfl) (by decide) (by rfl) (by rfl) (by decide))⟩, by rfl⟩

end RiscvProc
