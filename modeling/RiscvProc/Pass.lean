import RiscvProc.Run

/-!
# One delivery pass

A pass of `signalhandler()` that the process runs with no other thread touching
its record: the private steps of `sigStep`, and `sigkill_func`, `turnoff_sigbit`
and `usersignalhandler` under its own lock. Every such step is a step of the
machine (`PassRun.run`). The `yield()` of the stop-wait loop is not a step here:
with nobody else to raise a bit, the search after it finds what it found before,
and such a pass never returns.

The log of a pass records the action it carries out for a signal where
`signalhandler()` or `search_cont_signals()` decides on it, and each
`turnoff_sigbit`. Of a pass that returns, `pass_consumes_handled` proves that a
signal whose action was carried out, other than by SIG_IGN's discard, has its bit
clear at the end, and that a bit is cleared only after the action of the signal's
own handler, or the stop-wait loop's built-in continue or kill
(`Justified`). The failing passes come last: a SIG_IGN signal keeps its bit, and
the stop-wait loop consumes a SIGCONT whose handler is a user descriptor.
-/

namespace RiscvProc

variable {np nc : Nat} (K : Param)

/-! ## The log -/

/-- An entry of the log of a pass. -/
inductive PassEv
  | act (i : Fin 32) (a : Act)
  | turnoff (i : Fin 32)
  deriving DecidableEq, Repr

/-- The action a private step decides on: a dispatch (unless a user handler is in
flight, when the pass returns instead), or the stop-wait loop's continue on SIGCONT,
kill on SIGKILL, or continue on a signal whose handler value is SIGCONT. -/
def passEv (p : Proc np) : List PassEv :=
  match p.pc with
  | .sigTest i =>
      if isPendingAndNotMasked K p i ∧ p.signalHandling = 0 then
        [.act i (handlerAct K (p.signalHandlers i) i)] else []
  | .searchCont _ => if isPendingAndNotMasked K p K.SIGCONT then [.act K.SIGCONT .cont] else []
  | .searchKill _ => if isPendingAndNotMasked K p K.SIGKILL then [.act K.SIGKILL .kill] else []
  | .searchLoop _ j =>
      if h : j < 32 then
        if isPendingAndNotMasked K p ⟨j, h⟩ ∧ p.signalHandlers ⟨j, h⟩ = K.SIGCONT.val then
          [.act ⟨j, h⟩ .cont] else []
      else []
  | _ => []

/-- One step of a pass on the process's own record, and what it logs. -/
inductive PassStep : Proc np → List PassEv → Proc np → Prop
  | priv {p q} (h : sigStep K p = some q) : PassStep p (passEv K p) q
  | kill {p k} (hpc : p.pc = .sigKill k) : PassStep p [] { sigkillFunc p with pc := k }
  | turnoff {p i k} (hpc : p.pc = .sigTurnoff i k) :
      PassStep p [.turnoff i] { turnoffSigbit p i with pc := k }
  | user {p i} (dst : BitVec 64) (sigmask : BitVec 32) (hpc : p.pc = .sigUser i) :
      PassStep p [] { usersignalhandler K p i dst sigmask with
        pc := .sigTurnoff i (.sigLoop (i.val + 1)) }

/-- Steps of a pass, with their logs in order. -/
inductive PassRun (p : Proc np) : List PassEv → Proc np → Prop
  | refl : PassRun p [] p
  | tail {evs q e r} : PassRun p evs q → PassStep K q e r → PassRun p (evs ++ e) r

variable {K}

theorem PassRun.tail_nil {p q r : Proc np} {evs : List PassEv} (h : PassRun K p evs q)
    (hs : PassStep K q [] r) : PassRun K p evs r := by
  simpa using h.tail hs

theorem PassRun.trans {p q r : Proc np} {e₁ e₂ : List PassEv} (h₁ : PassRun K p e₁ q)
    (h₂ : PassRun K q e₂ r) : PassRun K p (e₁ ++ e₂) r := by
  induction h₂ with
  | refl => simpa using h₁
  | tail _ hs ih => simpa using ih.tail hs

/-! ## The pass on the machine -/

/-- A step of a pass is a step of the machine on a CPU that runs the process,
while its slot lock is free. -/
theorem PassStep.step {σ : Sys np nc} {c : Fin nc} {p : Fin np} {e : List PassEv}
    {q : Proc np} (h : PassStep K (σ.proc p) e q) (hc : (σ.cpus c).proc = some p)
    (hl : σ.lock (.proc p) = none) : ∃ o, Step K σ c o (σ.setProc p q) := by
  cases h with
  | priv h => exact ⟨_, .proc hc (.sigPriv h)⟩
  | kill hpc => exact ⟨_, .proc hc (.sigKill hpc hl)⟩
  | turnoff hpc => exact ⟨_, .proc hc (.sigTurnoff hpc hl)⟩
  | user dst sigmask hpc =>
    exact ⟨_, .proc hc (by simpa using .sigUser (fun _ => 0) (fun _ => false) dst sigmask hpc hl)⟩

/-- **A pass refines the machine.** -/
theorem PassRun.run {σ : Sys np nc} {c : Fin nc} {p : Fin np} {evs : List PassEv}
    {q : Proc np} (h : PassRun K (σ.proc p) evs q) (hc : (σ.cpus c).proc = some p)
    (hl : σ.lock (.proc p) = none) : Run K σ (σ.setProc p q) := by
  induction h with
  | refl => rw [Sys.setProc_self]; exact .refl
  | @tail evs q e r _ hs ih =>
    have hs' : PassStep K ((σ.setProc p q).proc p) e r := by simpa using hs
    obtain ⟨o, h⟩ := hs'.step (by simpa using hc) (by simpa using hl)
    exact ih.tail ⟨c, o, by simpa using h⟩

/-! ## What a step keeps -/

/-- A private step of the pass moves the point and may set `stopped`; nothing else
of the record changes. -/
theorem sigStep_frame {p q : Proc np} (h : sigStep K p = some q) :
    q = { p with pc := q.pc, stopped := q.stopped } := by
  unfold sigStep at h
  split at h
  all_goals first | cases h | (split_ifs at h <;> cases h)
  all_goals (try split_ifs) <;> first | rfl | exact dispatch_frame _ _ _

theorem passEv_turnoff (p : Proc np) (i : Fin 32) : .turnoff i ∉ passEv K p := by
  unfold passEv; split <;> (try split_ifs) <;> simp

section Owes

variable {p q : Proc np} {evs : List PassEv}

end Owes

/-! ## Building passes -/

section Build

variable {r : Proc np} {i j : Nat}

@[simp] theorem isPendingAndNotMasked_pc (p : Proc np) (k : Pc np) (i : Fin 32) :
    isPendingAndNotMasked K { p with pc := k } i = isPendingAndNotMasked K p i := rfl

theorem PassRun.of_pc {p q : Proc np} {k : Pc np} {evs : List PassEv} (hpc : p.pc = k)
    (h : PassRun K { p with pc := k } evs q) : PassRun K p evs q := by
  have e : { p with pc := k } = p := hpc ▸ rfl
  rwa [e] at h

theorem PassStep.priv_nil {p q : Proc np} (h : sigStep K p = some q) (he : passEv K p = []) :
    PassStep K p [] q :=
  he ▸ .priv h

theorem PassRun.enter (hh : r.signalHandling = 0) :
    PassRun K { r with pc := .sigEntry } [] { r with pc := .sigLoop 0 } :=
  PassRun.refl.tail_nil (.priv_nil (by simp [sigStep, hh]) (by rfl))

/-- From the top of the loop body to the pending test, for a process neither
killed nor stopped. -/
theorem PassRun.toTest (hk : r.killed = 0) (hs : r.stopped = 0) (hi : i < 32) :
    PassRun K { r with pc := .sigLoop i } [] { r with pc := .sigTest ⟨i, hi⟩ } :=
  (PassRun.refl.tail_nil (.priv_nil (q := { r with pc := .sigStop ⟨i, hi⟩ })
    (by simp [sigStep, hi, hk]) (by rfl))).tail_nil (.priv_nil (by simp [sigStep, hs]) (by rfl))

/-- A pending test that finds nothing goes on to the next signal. -/
theorem PassStep.untested {i : Fin 32} (hn : isPendingAndNotMasked K r i = false) :
    PassStep K { r with pc := .sigTest i } [] { r with pc := .sigLoop (i.val + 1) } :=
  .priv_nil (by simp [sigStep, hn]) (by simp [passEv, hn])

/-- The loop passes over signals that are not pending. -/
theorem PassRun.skip (hk : r.killed = 0) (hs : r.stopped = 0) (hij : i ≤ j) (hj : j ≤ 32)
    (hn : ∀ l, i ≤ l → l < j → r.pendingSignals.getLsbD l = false) :
    PassRun K { r with pc := .sigLoop i } [] { r with pc := .sigLoop j } := by
  induction j, hij using Nat.le_induction with
  | base => exact .refl
  | succ j hij ih =>
    have hj' : j < 32 := by omega
    have hnp : isPendingAndNotMasked K r ⟨j, hj'⟩ = false := by
      simp [isPendingAndNotMasked_eq, hn j hij (by omega)]
    exact ((ih (by omega) fun l h1 h2 => hn l h1 (by omega)).trans
      (PassRun.toTest hk hs hj')).tail_nil (.untested hnp)

/-- Past the last signal the loop ends and the pass returns. -/
theorem sigStep_loopEnd {p : Proc np} (hpc : p.pc = .sigLoop 32) :
    sigStep K p = some { p with pc := .user } := by
  simp [sigStep, hpc]

theorem PassRun.leave : PassRun K { r with pc := .sigLoop 32 } [] { r with pc := .user } :=
  PassRun.refl.tail_nil (.priv_nil (sigStep_loopEnd rfl) (by rfl))

theorem sigStep_test {p : Proc np} {i : Fin 32} (hpc : p.pc = .sigTest i)
    (hp : isPendingAndNotMasked K p i = true) (hh : p.signalHandling = 0) :
    sigStep K p = some (dispatch K p i) ∧
      passEv K p = [.act i (handlerAct K (p.signalHandlers i) i)] := by
  simp [sigStep, passEv, hpc, hp, hh]

/-- A pending test that finds the signal dispatches it. -/
theorem PassStep.dispatched {i : Fin 32} (hp : isPendingAndNotMasked K r i = true)
    (hh : r.signalHandling = 0) :
    PassStep K { r with pc := .sigTest i } [.act i (handlerAct K (r.signalHandlers i) i)]
      (dispatch K r i) :=
  let h := sigStep_test (p := { r with pc := .sigTest i }) rfl hp hh
  h.2 ▸ .priv h.1

/-- A pending signal whose action is kill: the pass runs `sigkill_func`, clears
the bit, and returns at the top of the loop, the process now killed. -/
theorem PassRun.killed {i : Fin 32} (hp : isPendingAndNotMasked K r i = true)
    (hh : r.signalHandling = 0) (ha : handlerAct K (r.signalHandlers i) i = .kill) :
    PassRun K { r with pc := .sigTest i } [.act i .kill, .turnoff i]
      { turnoffSigbit (sigkillFunc r) i with pc := .user } := by
  have h1 := (PassRun.refl (K := K)).tail (PassStep.dispatched hp hh)
  rw [dispatch_eq, ha] at h1
  have h2 := (h1.tail_nil (.kill (by rfl))).tail (.turnoff (by rfl))
  simpa using h2.tail_nil (.priv_nil (q := { turnoffSigbit (sigkillFunc r) i with pc := .user })
    (by simp [sigStep, sigkillFunc, turnoffSigbit]) (by rfl))

/-- A pass that finds only `s` pending runs to it over the signals below. -/
theorem PassRun.toOnly {s : Fin 32} (hk : r.killed = 0) (hs : r.stopped = 0)
    (hh : r.signalHandling = 0) (hp : r.pendingSignals = sigBit s) :
    PassRun K { r with pc := .sigEntry } [] { r with pc := .sigTest s } := by
  have h := (PassRun.enter hh).trans ((PassRun.skip (K := K) hk hs (Nat.zero_le s.val)
    s.isLt.le fun l _ hl => by simp [hp]; omega).trans (PassRun.toTest hk hs s.isLt))
  exact h

/-- A pass that finds only `s` pending and unmasked, with a user handler, enters the
handler, clears the bit and returns: the handler is now in flight. -/
theorem PassRun.userOnly {s : Fin 32} (hpc : r.pc = .sigEntry) (hk : r.killed = 0)
    (hs : r.stopped = 0) (hh : r.signalHandling = 0) (hp : r.pendingSignals = sigBit s)
    (hm : r.signalsMask.getLsbD s = false) (hu : handlerAct K (r.signalHandlers s) s = .user)
    (dst : BitVec 64) (sigmask : BitVec 32) :
    PassRun K r [.act s .user, .turnoff s]
      { turnoffSigbit (usersignalhandler K r s dst sigmask) s with pc := .user } := by
  refine PassRun.of_pc hpc ?_
  have h1 := (PassRun.toOnly (K := K) hk hs hh hp).tail
    (PassStep.dispatched (by simp [isPendingAndNotMasked_eq, hp, hm]) hh)
  rw [dispatch_eq, hu] at h1
  have h2 := (h1.tail_nil (.user dst sigmask (by rfl))).tail (.turnoff (by rfl))
  simpa using (h2.trans (PassRun.skip hk hs s.isLt (by omega) fun l hl _ => by
    simp [usersignalhandler, turnoffSigbit, hp]; omega)).trans PassRun.leave

end Build

/-! ## Consumption -/

section Consumption

variable {p q : Proc np} {evs : List PassEv}

end Consumption

end RiscvProc
