import RiscvProc.Pending

/-!
# Who can kill `initproc`

`kill` refuses no pid, `initproc`'s included, and `sigaction` lets nobody handle
SIGKILL. A `kill(1, SIGKILL)` that returns 0 (initcode may send it to itself)
followed by a delivery pass of initcode runs `sigkill_func` on it
(`initproc_killed_by_kill`).

What does hold: a slot's `killed` flag only becomes nonzero through `sigkill_func`,
which only a delivery pass of the slot's own thread enters, at the point where it
decides on the kill action for a signal (`DecidesKill`: a dispatch whose handler
kills, or `search_cont_signals` finding SIGKILL). A `kill` that returns 0 only
raises a bit, and a pass that carries out another action for it leaves the flag
alone. From a state where the slot is not killed and not inside `sigkill_func`,
whatever it has pending, every step keeps it so unless it is such a decision
(`step_killFree`); along a trace with none the flag stays 0 (`killed_needs_kill`).
-/

namespace RiscvProc

variable {np nc : Nat} {K : Param}

/-- The point is not inside `sigkill_func` and returns into no point that is. -/
def Pc.NoSigKill : Pc np → Prop
  | .sigKill _ => False
  | .yieldRet k | .sleepCall _ _ k | .sleepRet _ _ k | .sleepReacq _ k | .wakeupScan _ _ k
  | .sigTurnoff _ k => k.NoSigKill
  | _ => True

/-- Not killed, and not inside `sigkill_func`. -/
def Proc.KillFree (r : Proc np) : Prop :=
  r.killed = 0 ∧ r.pc.NoSigKill

/-- The step from `σ` to `σ'` is a private step of the delivery pass of slot `P`, on
a CPU that runs it, that decides on the kill action for some signal. -/
def DecidesKill (K : Param) (σ σ' : Sys np nc) (P : Fin np) : Prop :=
  ∃ c q i, (σ.cpus c).proc = some P ∧ sigStep K (σ.proc P) = some q ∧
    PassEv.act i .kill ∈ passEv K (σ.proc P) ∧ σ' = σ.setProc P q

/-- A dispatch enters `sigkill_func` only for a handler whose action is the kill. -/
theorem dispatch_noSigKill (p : Proc np) (i : Fin 32)
    (h : handlerAct K (p.signalHandlers i) i ≠ .kill) : (dispatch K p i).pc.NoSigKill := by
  rw [dispatch_eq]; revert h; cases handlerAct K (p.signalHandlers i) i <;> simp [Pc.NoSigKill]

/-- A private step of the pass that decides on no kill never enters `sigkill_func`. -/
theorem sigStep_noSigKill {p q : Proc np} (h : sigStep K p = some q)
    (hk : ∀ i, PassEv.act i .kill ∉ passEv K p) : q.pc.NoSigKill := by
  unfold sigStep at h
  unfold passEv at hk
  split at h <;> rename_i hpc <;> simp only [hpc] at hk
  all_goals first | cases h | (split_ifs at h <;> cases h)
  all_goals (try split_ifs) <;> first
    | (simp_all [Pc.NoSigKill]; done)
    | (apply dispatch_noSigKill; rename_i i _ _; exact fun ha => hk i (by simp_all))

theorem resume_killFree {p q : Proc np} (h : resume p = some q) (hp : p.KillFree) :
    q.KillFree := by
  unfold resume at h
  split at h <;> cases h <;> rename_i hpc <;> simp_all [Proc.KillFree, Pc.NoSigKill]

theorem Proc.KillFree.wakeup1 {q : Proc np} (h : q.KillFree) (ch : Chan np) :
    (RiscvProc.wakeup1 q ch).KillFree := by
  unfold RiscvProc.wakeup1; split_ifs <;> exact h

/-- `allocproc` leaves a kill-free slot kill-free, whether it fails or not. -/
theorem allocproc_killFree {r q : Proc np} {pid : Int} {e : ForkEnv} (hr : r.KillFree)
    (h : allocproc K r pid e = .ok q ∨ allocproc K r pid e = .error q) : q.KillFree := by
  unfold allocproc at h
  split_ifs at h <;> rcases h with h | h <;> cases h
  all_goals first | exact ⟨hr.1, trivial⟩ | exact ⟨rfl, hr.2⟩

theorem Proc.KillFree.freeproc {q : Proc np} (h : q.KillFree) : (RiscvProc.freeproc q).KillFree :=
  ⟨rfl, h.2⟩

theorem Proc.KillFree.forkCopy {q : Proc np} (h : q.KillFree) (par : Proc np) :
    (RiscvProc.forkCopy par q).KillFree :=
  h

variable {σ σ' : Sys np nc} {c : Fin nc} {p P : Fin np} {o : Out np}

/-- One step of the thread of `p` keeps slot `P` kill-free unless it is a decision of
`P`'s own pass on the kill action. -/
theorem pstep_killFree (hc : (σ.cpus c).proc = some p) (hs : PStep K σ c p o σ')
    (hP : (σ.proc P).KillFree) (hno : ¬ DecidesKill K σ σ' P) : (σ'.proc P).KillFree := by
  obtain ⟨hk, hn⟩ := hP
  cases hs
  case wakeupSlot chan i k hpc hi _ _ =>
    simp only [Sys.setProc_proc]
    split_ifs with h1 h2
    · subst h1; simp_all [Proc.KillFree, Pc.NoSigKill]
    · subst h2; exact Proc.KillFree.wakeup1 ⟨hk, hn⟩ chan
    · exact ⟨hk, hn⟩
  case allocFail i q e hpc hi _ _ _ ha | copyFail i q e hpc hi _ _ _ ha _
    | allocOk i q e hpc hi _ _ _ ha _ =>
    simp only [Sys.setProc_proc]
    split_ifs with h1 h2
    · subst h1
      first
        | exact allocproc_killFree ⟨hk, hn⟩ (.inr ha)
        | exact (allocproc_killFree ⟨hk, hn⟩ (.inl ha)).freeproc
        | exact (allocproc_killFree ⟨hk, hn⟩ (.inl ha)).forkCopy _
    · subst h2; simp_all [Proc.KillFree, Pc.NoSigKill]
    · exact ⟨hk, hn⟩
  case sigactionCall signum act actAddr hpc =>
    obtain ⟨h, e⟩ := sigaction_snd K (σ.proc p) signum act actAddr
    simp only [Sys.setProc_proc, e]
    split_ifs with h1 <;> [subst h1; skip] <;> exact ⟨hk, hn⟩
  case sigPriv q h =>
    simp only [Sys.setProc_proc]
    split_ifs with h1
    · subst h1
      exact ⟨by rw [sigStep_frame h]; exact hk,
        sigStep_noSigKill h fun i hi => hno ⟨c, q, i, hc, h, hi, rfl⟩⟩
    · exact ⟨hk, hn⟩
  all_goals clear hno; simp only [Sys.setProc_proc, Sys.setLock_proc, Sys.switchOut_proc,
    Sys.setPc_eq, Proc.KillFree]
  all_goals (try split_ifs) <;> (try subst_vars)
  -- the rest write fields other than the kill flag, and most move to a fresh point;
  -- those that return to the point they were called from need it from the old one
  all_goals first
    | (simp [hk, hn, Pc.NoSigKill, freeproc, sigret, turnoffSigbit, usersignalhandler]; done)
    | simp_all [Pc.NoSigKill, freeproc, sigret, turnoffSigbit, usersignalhandler]

theorem step_killFree (hs : Step K σ c o σ') (hP : (σ.proc P).KillFree)
    (hno : ¬ DecidesKill K σ σ' P) : (σ'.proc P).KillFree := by
  cases hs with
  | proc hc h => exact pstep_killFree hc h hP hno
  | schedSkip | schedWrap | intrCall | intrDone => exact hP
  | @intrSlot a i _ _ hi _ =>
    show ((σ.setProc _ _).proc P).KillFree
    rcases eq_or_ne P ⟨i, hi⟩ with rfl | hP'
    · simpa using hP.wakeup1 (.obj a)
    · simpa [hP'] using hP
  | schedRun i _ _ _ _ hr =>
    simp only [Sys.setCpu_proc, Sys.setProc_proc]
    split_ifs with h
    · subst h; exact (resume_killFree hr hP :)
    · exact hP
  | userinit i e cwd _ _ _ _ _ _ ha =>
    simp only [Sys.setProc_proc]
    split_ifs with h
    · subst h; exact (allocproc_killFree hP (.inl ha) :)
    · exact hP

/-- **Only a kill decision kills.** Along a trace from a state where slot `P` is not
killed and not inside `sigkill_func`, whatever it has pending, in which no step is a
decision of `P`'s own delivery pass on the kill action for a signal, `P`'s `killed`
flag stays 0. -/
theorem killed_needs_kill {τ : Nat → Sys np nc} {n : Nat} (htr : Trace K τ n)
    (h0 : ((τ 0).proc P).killed = 0) (hn0 : ((τ 0).proc P).pc.NoSigKill)
    (hno : ∀ t < n, ¬ DecidesKill K (τ t) (τ (t + 1)) P) :
    ∀ t ≤ n, ((τ t).proc P).killed = 0 := by
  suffices h : ∀ t ≤ n, ((τ t).proc P).KillFree from fun t ht => (h t ht).1
  intro t ht
  induction t with
  | zero => exact ⟨h0, hn0⟩
  | succ t ih =>
    obtain ⟨c, o, hs⟩ := htr t (by omega)
    exact step_killFree hs (ih (by omega)) (hno t (by omega))

/-- `initproc` with SIGCONT pending enters its delivery pass: no kill decision, and
the flag stays 0. -/
theorem killed_needs_kill_pending : ∃ τ : Nat → Sys 2 1, Trace Param.std τ 2 ∧
    (τ 0).initproc = some 0 ∧ ((τ 0).proc 0).pendingSignals ≠ 0 ∧
    ((τ 0).proc 0).killed = 0 ∧ ((τ 0).proc 0).pc.NoSigKill ∧
    (∀ t < 2, ¬ DecidesKill Param.std (τ t) (τ (t + 1)) 0) ∧
    ∀ t ≤ 2, ((τ t).proc 0).killed = 0 := by
  let s₀ := (bootSys Param.std).setProc 0
    { (bootSys Param.std).proc 0 with pendingSignals := sigBit Param.std.SIGCONT }
  have htr := Trace.of_chain s₀ <| List.Chain.cons (R := fun x y => ∃ c o, Step Param.std x c o y)
    (a := s₀) ⟨0, _, Step.proc (by rfl) (PStep.sigCall (p := 0) (by rfl))⟩ <|
    .cons ⟨0, _, Step.proc (by rfl) (PStep.sigPriv (p := 0) (by rfl))⟩ .nil
  refine ⟨_, htr, rfl, by decide, rfl, trivial, ?hno, killed_needs_kill htr rfl trivial ?hno⟩
  intro t ht
  match t, ht with
  | 0, _ | 1, _ => exact fun ⟨_, _, _, _, _, h, _⟩ => List.not_mem_nil _ h

/-- The failing run: initcode, which is `initproc`, calls `kill(1, SIGKILL)`; the
call returns 0, and initcode's next delivery pass runs `sigkill_func` on it. -/
theorem initproc_killed_by_kill :
    ∃ σ : Sys 2 1, Reachable Param.std σ ∧ σ.initproc = some 0 ∧ (σ.proc 0).killed = 1 := by
  have h0 := bootSys_reachable (K := Param.std)
  have h1 := h0.step (Step.proc (c := 0) rfl (PStep.killCall (p := 0) 1 9 rfl))
  have h2 := h1.step (Step.proc (c := 0) rfl
    (PStep.killHit (p := 0) (i := 0) (by rfl) (by decide) (by rfl) (by rfl) (by decide)))
  have h3 := h2.step (Step.proc (c := 0) rfl (PStep.sigCall (p := 0) (by rfl)))
  have h4 := h3.passToOnly (c := 0) (p := 0) (s := 9) rfl rfl rfl rfl rfl rfl (by decide)
  exact ⟨_, h4.run (PassRun.run (c := 0) (p := 0)
    (PassRun.killed (i := 9) (by decide) (by rfl) (by rfl)) rfl rfl), rfl, rfl⟩

end RiscvProc
