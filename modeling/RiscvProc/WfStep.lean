import RiscvProc.Wf

/-!
# Every reachable state is well formed

`Wf` holds of `procinit` and every step keeps it, so it holds of every state the
kernel reaches (`Reachable.wf`). Each step is one or two frame lemmas of
`RiscvProc.Wf`: a running thread moving on at an active point (`setPc`,
`setRunning`, `setLockRunning`), `sched()` switching it out (`leave`), a slot no
CPU runs changing (`setSame`, `setFree`, `setWake`), the scheduler loop
(`setCpuIdle`, `schedRun`).
-/

namespace RiscvProc

variable {np nc : Nat} {K : Param}

/-! ## What the collaborators leave -/

/-- `swtch` into a resumable point lands at an active point that holds nothing
and builds the child the switched-out thread was building. -/
theorem resume_wf {p q : Proc np} (h : resume p = some q) (hr : p.pc.Resumable) :
    q.pc.Active ∧ (∀ l, ¬ q.pc.Holds l) ∧ q.pc.forkChild = p.pc.forkChild := by
  unfold resume at h
  split at h <;> cases h <;> rename_i hpc <;> simp only [hpc, Pc.Resumable] at hr <;>
    simp [hpc, Pc.Active, Pc.Holds, Pc.forkChild, hr]

theorem dispatch_wf (p : Proc np) (i : Fin 32) :
    (dispatch K p i).state = p.state ∧ (dispatch K p i).chan = p.chan ∧
    (dispatch K p i).xstate = p.xstate ∧ (dispatch K p i).pc.Active ∧
    (∀ l, ¬ (dispatch K p i).pc.Holds l) ∧ (dispatch K p i).pc.forkChild = none := by
  rw [dispatch_eq]; cases handlerAct K (p.signalHandlers i) i <;> simp [Pc.Active, Pc.Holds, Pc.forkChild]

/-- A private step of the delivery pass moves between points that hold nothing
and build nothing, and leaves the state, channel and exit status alone. -/
theorem sigStep_wf {p q : Proc np} (h : sigStep K p = some q) :
    q.state = p.state ∧ q.chan = p.chan ∧ q.xstate = p.xstate ∧ q.pc.Active ∧
    (∀ l, ¬ q.pc.Holds l) ∧ q.pc.forkChild = none ∧ (∀ l, ¬ p.pc.Holds l) := by
  dsimp only [sigStep] at h
  split at h <;> rename_i hpc
  all_goals first | cases h | (split_ifs at h <;> cases h)
  all_goals (try split_ifs) <;> simp [hpc, Pc.Active, Pc.Holds, Pc.forkChild, dispatch_wf]

/-- A section that ends in `release(lk)` when `lk` was the only lock its CPU held
leaves that CPU holding nothing. -/
theorem release_only {σ : Sys np nc} {c : Fin nc} {lk : Lk np} (hlk : σ.lock lk = some c)
    (ho : σ.HoldsOnly c lk) (l : Lk np) (_ : ¬ l.IsSlot) :
    (σ.setLock lk none).lock l ≠ some c ∧
      ∀ d, d ≠ c → ((σ.setLock lk none).lock l = some d ↔ σ.lock l = some d) := by
  by_cases h : l = lk
  · subst h; simp only [Sys.setLock_lock, if_true, hlk]
    exact ⟨nofun, fun d hd => by simp [Ne.symm hd]⟩
  · simp only [Sys.setLock_lock, h, if_false, iff_self, implies_true, and_true]
    exact fun e => h (ho l e)

namespace Wf

variable {σ : Sys np nc} {c : Fin nc} {p : Fin np}

/-- The process on `c` moves on from `k` to `m`, holding what it held and
building the same child or none. -/
theorem setPc (hw : Wf σ) (hc : (σ.cpus c).proc = some p) {k m : Pc np}
    (hpc : (σ.proc p).pc = k) (ha : k.Active → m.Active) (hh : ∀ l, m.Holds l ↔ k.Holds l)
    (hf : m.forkChild = k.forkChild ∨ m.forkChild = none) :
    Wf (σ.setProc p { σ.proc p with pc := m }) :=
  hw.setRunning hc (hw.running hc) (ha (hpc ▸ hw.active hc)) (fun l => hpc ▸ hh l) (hpc ▸ hf)

/-- A slot `j` changes only fields `Wf` does not read, then the process on `c`
moves on (`j` may be that process, whose change the second write overrides). -/
theorem setSamePc (hw : Wf σ) (hc : (σ.cpus c).proc = some p) {j : Fin np} {x : Proc np}
    {k m : Pc np} (hpc : (σ.proc p).pc = k) (ha : k.Active → m.Active)
    (hh : ∀ l, m.Holds l ↔ k.Holds l) (hf : m.forkChild = k.forkChild ∨ m.forkChild = none)
    (hx : x.state = (σ.proc j).state ∧ x.pc = (σ.proc j).pc ∧ x.chan = (σ.proc j).chan ∧
      x.xstate = (σ.proc j).xstate) :
    Wf ((σ.setProc j x).setProc p { σ.proc p with pc := m }) := by
  by_cases hj : j = p
  · subst hj; rw [Sys.setProc_setProc]; exact hw.setPc hc hpc ha hh hf
  · have e : (σ.setProc j x).proc p = σ.proc p := by simp [Ne.symm hj]
    rw [← e]
    exact (hw.setSame hx.1 hx.2.1 hx.2.2.1 hx.2.2.2).setPc hc ((congrArg Proc.pc e).trans hpc) ha hh hf

/-- `allocproc` gave up on an UNUSED slot, which stays UNUSED, and `fork` returns. -/
theorem allocUndo (hw : Wf σ) (hc : (σ.cpus c).proc = some p) {j : Fin np} {r : Proc np}
    {i : Nat} (hpc : (σ.proc p).pc = .allocScan i) (hu : (σ.proc j).state = .UNUSED)
    (hr : r.state = .UNUSED) (n : Int) :
    Wf { (σ.setProc p { σ.proc p with pc := .user }).setProc j r with nextpid := n } := by
  have hne : j ≠ p := by rintro rfl; rw [hw.running hc] at hu; cases hu
  have h1 := hw.setPc hc hpc (m := .user) (fun _ => by exact trivial) (fun _ => Iff.rfl) (.inr rfl)
  have hj : ((σ.setProc p { σ.proc p with pc := .user }).proc j).state = .UNUSED := by
    simp [hne, hu]
  exact (h1.setFree (j := j) (by rw [hj]; simp) (h1.unclaimed (by rw [hj]; simp)) (by simp [SlotOk, hr])
    (by simp [hr]) (absurd hr)).globals _ _

/-- `fork` took an UNUSED slot and made it a USED copy of the parent, which now
builds it. -/
theorem forkAlloc (hw : Wf σ) (hc : (σ.cpus c).proc = some p) {j : Fin np} {q : Proc np}
    {i : Nat} (hpc : (σ.proc p).pc = .allocScan i) (hu : (σ.proc j).state = .UNUSED)
    (hq : q.state = .USED) (hqpc : q.pc = .forkret) (pid n : Int) :
    Wf { (σ.setProc p { σ.proc p with pc := .forkParent j pid }).setProc j
      (forkCopy (σ.proc p) q) with nextpid := n } := by
  have hrun := hw.running hc
  have hne : j ≠ p := by rintro rfl; rw [hrun] at hu; cases hu
  have ha : Wf (σ.setProc j (forkCopy (σ.proc p) q)) :=
    hw.setFree (by simp [hu]) (hw.unclaimed (by simp [hu])) (by simp [SlotOk, forkCopy, hq, hqpc])
      (by simp [forkCopy, hq]) (fun _ => by simp [forkCopy, hqpc, Pc.forkChild])
  have e : (σ.setProc j (forkCopy (σ.proc p) q)).proc p = σ.proc p := by simp [Ne.symm hne]
  have hcl : ∀ r, ¬ Claims (σ.setProc j (forkCopy (σ.proc p) q)) r j := by
    intro r hr
    by_cases hrj : r = j
    · simp [hrj, forkCopy, hqpc, Pc.forkChild] at hr
    · simp only [claims_setProc, hrj, if_false] at hr
      exact hw.unclaimed (by simp [hu]) r hr
  have hb : Wf ((σ.setProc j (forkCopy (σ.proc p) q)).setProc p
      { σ.proc p with pc := .forkParent j pid }) :=
    ⟨ha.cpu.setProc (by simpa [SlotOk, hrun] using trivial) (by simp [Ne.symm hne, hrun]),
      ha.child.claim (by rw [e]) (by simp [forkCopy, hq]) hne hcl rfl,
      ha.locks.frame (fun _ _ => rfl) rfl fun _ i' _ _ => by
        by_cases h : i' = p
        · subst h; simp [Ne.symm hne, hpc, Pc.Holds]
        · simp [h]⟩
  rw [Sys.setProc_comm _ hne] at hb
  exact hb.globals _ _

/-- `fork` makes the child it built RUNNABLE and returns. -/
theorem forkDone (hw : Wf σ) (hc : (σ.cpus c).proc = some p) {ch : Fin np} {pid : Int}
    (hpc : (σ.proc p).pc = .forkRunnable ch pid) :
    Wf ((σ.setProc ch { σ.proc ch with state := .RUNNABLE }).setProc p
      { σ.proc p with pc := .user }) := by
  obtain ⟨hU, hne, huniq⟩ := hw.child p ch ⟨by simp [hw.running hc], by simp [hpc, Pc.forkChild]⟩
  have hslot := (hw.cpu.slot ch).used hU
  have ha := hw.setPc hc hpc (m := .user) (fun _ => by exact trivial) (fun _ => Iff.rfl) (.inr rfl)
  have hfree : ∀ r, ¬ Claims (σ.setProc p { σ.proc p with pc := .user }) r ch := by
    intro r hr
    by_cases hrp : r = p
    · simp [hrp, Pc.forkChild] at hr
    · simp only [claims_setProc, hrp, if_false] at hr
      exact hrp (huniq r hr)
  rw [Sys.setProc_comm _ hne]
  exact ha.setFree (by simp [hne, hU]) hfree (by simp [SlotOk, hslot, Pc.Resumable]) (by simp)
    (fun _ => by simp [hslot, Pc.forkChild])

/-- Every step of a kernel thread keeps `Wf`. -/
theorem pstep (hw : Wf σ) (hc : (σ.cpus c).proc = some p) {o : Out np} {σ' : Sys np nc}
    (h : PStep K σ c p o σ') : Wf σ' := by
  have hrun := hw.running hc
  have hact := hw.active hc
  cases h with
  | yield hs hn hl =>
    exact hw.leave hc rfl rfl (fun l _ => ⟨hn l, fun _ _ => Iff.rfl⟩) (by simp) (by simp) (by simp)
      (by simpa [SlotOk, Pc.Resumable] using ⟨hact, hw.holds_none hc hn⟩) rfl
  | sleep hpc hl hlk ho =>
    rw [hpc] at hact
    exact hw.leave hc rfl rfl (release_only hlk ho) (by simp) (by simp) (by simp)
      (by unfold SlotOk; exact ⟨_, _, rfl, hact⟩) (by simp [hpc, Pc.forkChild])
  | sleepReacq hpc hl =>
    rw [hpc] at hact
    exact hw.setLockRunning hc (Pc.Active.not_slot hact.1 ((hact.2 _).2 rfl)) (.inl ⟨rfl, hl⟩)
      hrun hact.1 (fun l' => by rw [hact.2]; split_ifs with e <;> simp [e, hpc, Pc.Holds])
      (.inl (by simp [hpc, Pc.forkChild]))
  | wakeupSelf hpc hi => exact hw.setPc hc hpc id (fun _ => Iff.rfl) (.inl rfl)
  | @wakeupSlot chan i k hpc hi hne hl =>
    have e : (σ.setProc ⟨i, hi⟩ (wakeup1 (σ.proc ⟨i, hi⟩) chan)).proc p = σ.proc p := by
      simp [Fin.ext_iff, Ne.symm hne]
    rw [← e]
    exact (hw.setWake _ _).setPc hc ((congrArg Proc.pc e).trans hpc) id (fun _ => Iff.rfl) (.inl rfl)
  | wakeupDone hpc hi => exact hw.setPc hc hpc id (fun _ => Iff.rfl) (.inl rfl)
  | extAcquire k hpc hl =>
    exact hw.setLockRunning hc id (.inl ⟨rfl, hl⟩) hrun (by exact trivial)
      (fun _ => by simp [hpc, Pc.Holds]) (.inr rfl)
  | extRelease hpc hl =>
    exact hw.setLockRunning hc id (.inr ⟨rfl, hl⟩) hrun (by exact trivial)
      (fun _ => by simp [hpc, Pc.Holds]) (.inr rfl)
  | extSleep chan hpc =>
    exact hw.setPc hc hpc (fun _ => ⟨trivial, fun _ => Iff.rfl⟩) (fun _ => Iff.rfl) (.inl rfl)
  | callWakeup chan hpc => exact hw.setPc hc rfl id (fun _ => Iff.rfl) (.inl rfl)
  | fileCall hpc h => exact hw.setRunning hc hrun hact (fun _ => Iff.rfl) (.inl rfl)
  | forkCall hpc => exact hw.setPc hc hpc (fun _ => by exact trivial) (fun _ => Iff.rfl) (.inr rfl)
  | allocBusy hpc hi hl hu => exact hw.setPc hc hpc (fun _ => by exact trivial) (fun _ => Iff.rfl) (.inr rfl)
  | allocFail e hpc hi hl hpl hu ha => exact hw.allocUndo hc hpc hu (allocproc_error K ha).1 _
  | copyFail e hpc hi hl hpl hu ha hok => exact hw.allocUndo hc hpc hu rfl _
  | allocOk e hpc hi hl hpl hu ha hok =>
    exact hw.forkAlloc hc hpc hu (allocproc_ok K ha).1 (allocproc_ok K ha).2.1 _ _
  | allocNone hpc hi => exact hw.setPc hc hpc (fun _ => by exact trivial) (fun _ => Iff.rfl) (.inr rfl)
  | forkParent hpc hl =>
    exact hw.setSamePc hc hpc (fun _ => trivial) (fun _ => Iff.rfl) (.inl rfl) (by simp)
  | forkRunnable hpc hl => exact hw.forkDone hc hpc
  | exitCall status hpc hi =>
    exact hw.setRunning hc hrun (by exact trivial) (fun _ => by simp [hpc, Pc.Holds]) (.inr rfl)
  | exitStart hpc hl =>
    exact hw.setLockRunning hc id (.inl ⟨rfl, hl⟩) hrun (by exact trivial)
      (fun _ => by simp [hpc, Pc.Holds]) (.inr rfl)
  | reparentHit hpc hi hp =>
    exact hw.setSamePc hc hpc (fun _ => trivial) (fun _ => Iff.rfl) (.inr rfl) (by simp)
  | reparentMiss hpc hi hp =>
    exact hw.setPc hc hpc (fun _ => by exact trivial) (fun _ => Iff.rfl) (.inr rfl)
  | reparentDone hpc hi =>
    exact hw.setPc hc hpc (fun _ => by exact trivial) (fun _ => Iff.rfl) (.inr rfl)
  | exitZombie hpc hl hwl ho =>
    exact hw.leave hc rfl rfl (release_only hwl ho) (by simp) (by simp) (by simp)
      (by simp [SlotOk]) (by simp [hpc, Pc.forkChild])
  | waitCall addr hpc => exact hw.setPc hc hpc (fun _ => by exact trivial) (fun _ => Iff.rfl) (.inr rfl)
  | waitStart hpc hl =>
    exact hw.setLockRunning hc id (.inl ⟨rfl, hl⟩) hrun (by exact trivial)
      (fun _ => by simp [hpc, Pc.Holds]) (.inr rfl)
  | waitSkip hpc hi hp => exact hw.setPc hc hpc (fun _ => by exact trivial) (fun _ => Iff.rfl) (.inr rfl)
  | waitChild hpc hi hp hl hz =>
    exact hw.setPc hc hpc (fun _ => by exact trivial) (fun _ => Iff.rfl) (.inr rfl)
  | waitCopyFail hpc hi hp hl hz ha =>
    have hwl := (hw.holds_iff hc (l := .waitLock) id).1 (by simp [hpc, Pc.Holds])
    exact hw.setLockRunning hc id (.inr ⟨rfl, hwl⟩) hrun (by exact trivial)
      (fun _ => by simp [hpc, Pc.Holds]) (.inr rfl)
  | waitReap hpc hi hp hl hz =>
    have hwl := (hw.holds_iff hc (l := .waitLock) id).1 (by simp [hpc, Pc.Holds])
    have hne : (⟨_, hi⟩ : Fin np) ≠ p := by rintro rfl; rw [hrun] at hz; cases hz
    have h1 := hw.setFree (j := ⟨_, hi⟩) (q := freeproc (σ.proc ⟨_, hi⟩)) (by simp [hz]) (hw.unclaimed (by simp [hz]))
      trivial (by simp) (absurd rfl)
    rw [Sys.setLock_setProc]
    exact h1.setLockRunning hc id (.inr ⟨rfl, hwl⟩) (by simp [hrun]) (by exact trivial)
      (fun _ => by simp [Ne.symm hne, hpc, Pc.Holds]) (.inr rfl)
  | waitNone hpc hi hk =>
    have hwl := (hw.holds_iff hc (l := .waitLock) id).1 (by simp [hpc, Pc.Holds])
    exact hw.setLockRunning hc id (.inr ⟨rfl, hwl⟩) hrun (by exact trivial)
      (fun _ => by simp [hpc, Pc.Holds]) (.inr rfl)
  | waitSleep hpc hi hk =>
    exact hw.setPc hc hpc (fun _ => ⟨trivial, fun _ => Iff.rfl⟩) (fun _ => Iff.rfl) (.inr rfl)
  | killRange pid signum hpc hs => exact hw
  | killCall pid s hpc => exact hw.setPc hc hpc (fun _ => by exact trivial) (fun _ => Iff.rfl) (.inr rfl)
  | killMiss hpc hi hl hne => exact hw.setPc hc hpc (fun _ => by exact trivial) (fun _ => Iff.rfl) (.inr rfl)
  | killRefused hpc hi hl heq hbad =>
    exact (hw.setSlotLock _ _).setPc hc hpc (fun _ => by exact trivial) (fun _ => Iff.rfl) (.inr rfl)
  | @killHit pid s i hpc hi hl heq hok =>
    have h1 : Wf (σ.setProc ⟨i, hi⟩ { σ.proc ⟨i, hi⟩ with
        pendingSignals := (σ.proc ⟨i, hi⟩).pendingSignals ||| sigBit s }) :=
      hw.setSame rfl rfl rfl rfl
    exact h1.setPc hc (k := .killScan pid s i) (m := .user)
      (by by_cases hj : p = ⟨i, hi⟩ <;> simp [hj, ← hpc]) (fun _ => by exact trivial)
      (fun _ => Iff.rfl) (.inr rfl)
  | killDone hpc hi => exact hw.setPc hc hpc (fun _ => by exact trivial) (fun _ => Iff.rfl) (.inr rfl)
  | sigprocmask mask hpc => exact hw.setRunning hc hrun hact (fun _ => Iff.rfl) (.inl rfl)
  | sigactionCall signum act actAddr hpc =>
    obtain ⟨hd, e⟩ := sigaction_snd K (σ.proc p) signum act actAddr
    rw [e]; exact hw.setRunning hc hrun hact (fun _ => Iff.rfl) (.inl rfl)
  | sigretCall tf' hpc hl => exact hw.setRunning hc hrun hact (fun _ => Iff.rfl) (.inl rfl)
  | sigCall hpc => exact hw.setPc hc hpc (fun _ => by exact trivial) (fun _ => Iff.rfl) (.inr rfl)
  | sigPriv h =>
    obtain ⟨hs, -, -, ha, hh, hf, hh'⟩ := sigStep_wf h
    exact hw.setRunning hc (hs.trans hrun) ha (fun l => iff_of_false (hh l) (hh' l)) (.inr hf)
  | sigKill hpc hl =>
    rw [hpc] at hact
    exact hw.setRunning hc (by simp [sigkillFunc, hrun]) hact (fun _ => by simp [hpc, Pc.Holds])
      (.inl (by simp [hpc, Pc.forkChild]))
  | sigTurnoff hpc hl =>
    rw [hpc] at hact
    exact hw.setRunning hc hrun hact (fun _ => by simp [hpc, Pc.Holds])
      (.inl (by simp [hpc, Pc.forkChild]))
  | sigUser m mapped dst₀ sigmask₀ hpc hl =>
    exact hw.setRunning hc hrun (by exact trivial) (fun _ => by simp [hpc, Pc.Holds]) (.inr rfl)
  | stopYield hpc hj hn hl =>
    exact hw.leave hc rfl rfl (fun l _ => ⟨hn l, fun _ _ => Iff.rfl⟩) (by simp) (by simp) (by simp)
      (by simp [SlotOk, Pc.Resumable, Pc.Active, Pc.Holds]) (by simp [hpc, Pc.forkChild])

/-- Every step of the machine keeps `Wf`. -/
theorem step (hw : Wf σ) {o : Out np} {σ' : Sys np nc} (h : Step K σ c o σ') : Wf σ' := by
  cases h with
  | proc hc h => exact hw.pstep hc h
  | schedSkip i hc hi hl hs => exact hw.setCpuIdle hc _
  | schedRun i hc hi hl hs hr =>
    obtain ⟨ha, hh, hf⟩ := resume_wf hr ((hw.cpu.slot i).runnable hs)
    exact hw.schedRun hc hs ha hh hf
  | schedWrap hc hi => exact hw.setCpuIdle hc _
  | userinit i e cwd hc h0 hfirst hu hl hpl ha =>
    obtain ⟨-, h2, -⟩ := allocproc_ok K ha
    exact (hw.setFree (by simp [hu]) (hw.unclaimed (by simp [hu]))
      (by simp [SlotOk, userinitProc, h2, Pc.Resumable]) (by simp [userinitProc])
      (fun _ => by simp [userinitProc, h2, Pc.forkChild])).globals _ _
  | intrCall | intrDone => exact hw.setIntr _ _
  | intrSlot => exact (hw.setWake _ _).setIntr _ _

end Wf

/-- Every reachable state is well formed. -/
theorem Reachable.wf {σ : Sys np nc} (h : Reachable K σ) : Wf σ := by
  induction h with
  | init => exact wf_procinit K
  | step _ hs ih => exact ih.step hs

end RiscvProc
