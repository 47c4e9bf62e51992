import RiscvProc.Parent

/-!
# `wait` does not miss an exit

`wait` scans the table for a ZOMBIE child under `wait_lock` and, finding only live
children, sleeps on its own slot, handing `wait_lock` to `sleep`. `exit` calls
`wakeup(p->parent)` under `wait_lock` before it becomes a ZOMBIE, and `reparent`
calls `wakeup(initproc)` after handing it a child. So a parent asleep in `wait`
has a ZOMBIE child only while the thread holding `wait_lock` is in a `wakeup` on
it that has not reached its slot yet (`WaitOk`), and once `wait_lock` is free no
parent asleep in `wait` has a ZOMBIE child (`wait_sleeper_no_zombie`).

What the holder of `wait_lock` guarantees depends on where it is (`HolderOk`);
every step keeps it: a slot that changes without becoming a ZOMBIE or falling
asleep in `wait` (`WaitOk.setProc`), a thread moving on (`WaitOk.setPc`), the
holder switching out (`WaitOk.release`).
-/

namespace RiscvProc

variable {np nc : Nat} {K : Param}

namespace Pc

/-- Where a call stack involves `wait_lock`: a `sleep` on it is `wait`'s, on the
thread's own slot and returning to a fresh scan, and the delivery pass never runs
holding it. -/
def WaitLockUse (E : Fin np) : Pc np → Prop
  | .sleepCall ch lk k | .sleepRet ch lk k =>
      (lk = .waitLock → ch = .proc E ∧ ∃ a, k = .waitScan a 0 false) ∧ WaitLockUse E k
  | .sleepReacq lk k => (lk = .waitLock → ∃ a, k = .waitScan a 0 false) ∧ WaitLockUse E k
  | .sigKill k | .sigTurnoff _ k => ¬ k.Holds .waitLock ∧ WaitLockUse E k
  | .yieldRet k | .wakeupScan _ _ k => WaitLockUse E k
  | _ => True

end Pc

/-- The record of slot `P` is asleep inside `wait`, on its own slot. -/
def Proc.WaitAsleep (q : Proc np) (P : Fin np) : Prop :=
  q.state = .SLEEPING ∧ ∃ a, q.pc = .sleepRet (.proc P) .waitLock (.waitScan a 0 false)

/-- No child of `P` is a ZOMBIE. -/
def NoZombieKids (σ : Sys np nc) (P : Fin np) : Prop :=
  ∀ z, (σ.proc z).parent = some P → (σ.proc z).state ≠ .ZOMBIE

/-- A thread holding `wait_lock` is in a `wakeup(P)` that has not reached slot `P`. -/
def WakeupDue (σ : Sys np nc) (P : Fin np) : Prop :=
  ∃ d E i k, (σ.cpus d).proc = some E ∧ (σ.proc E).pc = .wakeupScan (.proc P) i k ∧
    i ≤ P.val ∧ k.Holds .waitLock

/-- What the thread of `E`, holding `wait_lock` at point `k`, guarantees: a scan of
`wait` has seen no ZOMBIE child below its index and a `sleep` of `wait` is about
to sleep with none; `exit`, past its `wakeup(p->parent)`, leaves no parent asleep
in `wait`; a `wakeup` of `exit` or `reparent` has woken the slots it passed. -/
def HolderOk (σ : Sys np nc) (E : Fin np) : Pc np → Prop
  | .waitScan _ i _ => ∀ z : Fin np, z.val < i → (σ.proc z).parent = some E →
      (σ.proc z).state ≠ .ZOMBIE
  | .sleepCall _ _ _ => NoZombieKids σ E
  | .exitZombie _ => ∀ P, (σ.proc E).parent = some P → ¬ (σ.proc P).WaitAsleep P
  | .wakeupScan c i k =>
      (∀ P : Fin np, c = .proc P → P.val < i → ¬ (σ.proc P).WaitAsleep P) ∧
      (∀ s, k = .exitZombie s → c = .ofProc (σ.proc E).parent) ∧
      ((∀ s, k ≠ .exitZombie s) → HolderOk σ E k)
  | _ => True

/-- `wait_lock` is used as `proc.c` uses it, and a parent asleep in `wait` has no
ZOMBIE child unless a `wakeup` on it is due. -/
structure WaitOk (σ : Sys np nc) : Prop where
  use : ∀ E, (σ.proc E).pc.WaitLockUse E
  asleep : ∀ P, (σ.proc P).WaitAsleep P → NoZombieKids σ P ∨ WakeupDue σ P
  holder : ∀ d E, (σ.cpus d).proc = some E → (σ.proc E).pc.Holds .waitLock →
    HolderOk σ E (σ.proc E).pc

variable {σ τ υ : Sys np nc} {c : Fin nc} {p j E : Fin np} {k m : Pc np} {q : Proc np}

/-! ## Changes that wake no one up too late -/

/-- `τ` has no ZOMBIE child and no parent asleep in `wait` that `σ` does not have. -/
def Calmer (σ τ : Sys np nc) : Prop :=
  (∀ z P, (τ.proc z).parent = some P → (τ.proc z).state = .ZOMBIE →
    (σ.proc z).parent = some P ∧ (σ.proc z).state = .ZOMBIE) ∧
  ∀ P, (τ.proc P).WaitAsleep P → (σ.proc P).WaitAsleep P

theorem Calmer.trans (h1 : Calmer σ τ) (h2 : Calmer τ υ) : Calmer σ υ :=
  ⟨fun z P hp hz => let ⟨a, b⟩ := h2.1 z P hp hz; h1.1 z P a b, fun P h => h1.2 P (h2.2 P h)⟩

theorem Calmer.of_proc (hp : τ.proc = σ.proc) : Calmer σ τ :=
  ⟨fun _ _ a b => by rw [hp] at a b; exact ⟨a, b⟩, fun _ a => by rwa [hp] at a⟩

/-- One slot changes, a ZOMBIE afterwards only if it was one with the same parent,
asleep in `wait` only if it was. -/
theorem Calmer.setProc
    (hz : q.state = .ZOMBIE → (σ.proc j).state = .ZOMBIE ∧ q.parent = (σ.proc j).parent)
    (hs : q.WaitAsleep j → (σ.proc j).WaitAsleep j) : Calmer σ (σ.setProc j q) := by
  refine ⟨fun z P hp hzz => ?_, fun P => ?_⟩
  · by_cases hzj : z = j
    · subst hzj; simp only [Sys.setProc_proc, if_true] at hp hzz
      obtain ⟨h1, h2⟩ := hz hzz; exact ⟨h2 ▸ hp, h1⟩
    · simp only [Sys.setProc_proc, hzj, if_false] at hp hzz; exact ⟨hp, hzz⟩
  · by_cases hPj : P = j
    · subst hPj; simpa using hs
    · simp [hPj]

/-- A RUNNING thread moves on. -/
theorem Calmer.setPc (hrun : (σ.proc p).state = .RUNNING) :
    Calmer σ (σ.setProc p { σ.proc p with pc := m }) :=
  Calmer.setProc (fun hz => by simp [hrun] at hz) fun ha => by simp [hrun, Proc.WaitAsleep] at ha

theorem NoZombieKids.frame (hc : Calmer σ τ) {P : Fin np} (h : NoZombieKids σ P) :
    NoZombieKids τ P :=
  fun z hp hz => let ⟨a, b⟩ := hc.1 z P hp hz; h z a b

/-- What a holder guarantees survives a calmer change that keeps its parent. -/
theorem HolderOk.frame (hc : Calmer σ τ) (hE : (τ.proc E).parent = (σ.proc E).parent)
    (h : HolderOk σ E k) : HolderOk τ E k := by
  induction k with
  | waitScan _ i _ => exact fun z hi hp hzz => let ⟨h1, h2⟩ := hc.1 z E hp hzz; h z hi h1 h2
  | sleepCall => exact NoZombieKids.frame hc h
  | exitZombie => exact fun P hP ha => h P (hE ▸ hP) (hc.2 P ha)
  | wakeupScan c i k ih =>
    exact ⟨fun P hc' hi ha => h.1 P hc' hi (hc.2 P ha), fun s hk => hE ▸ h.2.1 s hk,
      fun hk => ih (h.2.2 hk)⟩
  | _ => trivial

theorem HolderOk.of_proc (h : HolderOk σ E k) (hp : τ.proc = σ.proc) : HolderOk τ E k :=
  h.frame (.of_proc hp) (by rw [hp])

/-- A `wakeup` held under `wait_lock` passes slot `i`, which is not asleep in
`wait` on the channel afterwards. -/
theorem HolderOk.wakeupStep {c' : Chan np} {i : Nat} (hc : Calmer σ τ)
    (hE : (τ.proc E).parent = (σ.proc E).parent)
    (hi : ∀ P : Fin np, c' = .proc P → P.val = i → ¬ (τ.proc P).WaitAsleep P)
    (h : HolderOk σ E (.wakeupScan c' i k)) : HolderOk τ E (.wakeupScan c' (i + 1) k) :=
  ⟨fun P hP hlt ha => if hlt' : P.val < i then h.1 P hP hlt' (hc.2 P ha) else
      hi P hP (by omega) ha,
    fun s hk => hE ▸ h.2.1 s hk, fun hk => (h.2.2 hk).frame hc hE⟩

/-- `wait`'s scan passes slot `i`, not a ZOMBIE child. -/
theorem HolderOk.waitStep {a i : Nat} {hk hk' : Bool} (hi : i < np) (hc : Calmer σ τ)
    (hz : (σ.proc ⟨i, hi⟩).parent = some E → (σ.proc ⟨i, hi⟩).state ≠ .ZOMBIE)
    (h : HolderOk σ E (.waitScan a i hk)) : HolderOk τ E (.waitScan a (i + 1) hk') := by
  intro z hzi hp hzz
  obtain ⟨h1, h2⟩ := hc.1 z E hp hzz
  by_cases hlt : z.val < i
  · exact h z hlt h1 h2
  · obtain rfl : z = ⟨i, hi⟩ := Fin.ext (show z.val = i by omega)
    exact hz h1 h2

theorem waitOk_procinit (K : Param) : WaitOk (procinit K : Sys np nc) where
  use _ := trivial
  asleep _ h := absurd h.1 (by simp [procinit, Proc.zero])
  holder _ _ h := absurd h (by simp [procinit])

/-! ## What the steps leave of a record -/

theorem wakeup1_zombie (q : Proc np) (ch : Chan np) (h : (wakeup1 q ch).state = .ZOMBIE) :
    q.state = .ZOMBIE := by
  unfold wakeup1 at h; split_ifs at h; exact h

theorem wakeup1_waitAsleep {q : Proc np} {ch : Chan np} {P : Fin np}
    (h : (wakeup1 q ch).WaitAsleep P) : q.WaitAsleep P := by
  unfold wakeup1 at h; split_ifs at h
  · simp [Proc.WaitAsleep] at h
  · exact h

/-- A parent asleep in `wait` sleeps on its own slot, and `wakeup` on it wakes it. -/
theorem Wf.wakeup1_wakes (hw : Wf σ) {P : Fin np} (hP : (σ.proc P).WaitAsleep P) :
    ¬ (wakeup1 (σ.proc P) (.proc P)).WaitAsleep P := by
  obtain ⟨lk, k, hpc, -⟩ := (hw.cpu.slot P).sleeping hP.1
  obtain ⟨a, ha⟩ := hP.2
  rw [ha] at hpc
  simp [wakeup1, hP.1, (Pc.sleepRet.inj hpc).1.symm, Proc.WaitAsleep]

theorem resume_waitLockUse {p q : Proc np} (h : resume p = some q) (hu : p.pc.WaitLockUse E) :
    q.pc.WaitLockUse E := by
  unfold resume at h
  split at h <;> cases h <;> rename_i hpc <;> rw [hpc] at hu
  · trivial
  · exact hu
  · exact ⟨fun e => (hu.1 e).2, hu.2⟩

theorem dispatch_waitLockUse (p : Proc np) (i : Fin 32) (E : Fin np) :
    (dispatch K p i).pc.WaitLockUse E := by
  rw [dispatch_eq]; cases handlerAct K (p.signalHandlers i) i <;> simp [Pc.WaitLockUse, Pc.Holds]

theorem sigStep_waitLockUse {p q : Proc np} (h : sigStep K p = some q) (E : Fin np) :
    q.pc.WaitLockUse E := by
  dsimp only [sigStep] at h
  split at h
  all_goals first | cases h | (split_ifs at h <;> cases h)
  all_goals (try split_ifs) <;> simp [Pc.WaitLockUse, Pc.Holds, dispatch_waitLockUse]

namespace WaitOk

/-- Nothing the invariant reads changes: the slots and the CPUs. -/
theorem congr (h : WaitOk σ) (hp : τ.proc = σ.proc) (hc : τ.cpus = σ.cpus) : WaitOk τ where
  use := by rw [hp]; exact h.use
  asleep P hP := by
    rw [hp] at hP
    rcases h.asleep P hP with hn | hd
    · left; unfold NoZombieKids; rw [hp]; exact hn
    · right; unfold WakeupDue; rw [hp, hc]; exact hd
  holder d E hd hh := by
    rw [hc] at hd; rw [hp] at hh ⊢
    exact (h.holder d E hd hh).of_proc hp

theorem setLock (h : WaitOk σ) (l : Lk np) (x : Option (Fin nc)) : WaitOk (σ.setLock l x) :=
  h.congr rfl rfl

theorem setGlobals (h : WaitOk σ) (n : Int) (x : Option (Fin np)) :
    WaitOk { σ with nextpid := n, initproc := x } := h.congr rfl rfl

theorem setNextpid (h : WaitOk σ) (n : Int) : WaitOk { σ with nextpid := n } := h.congr rfl rfl

/-- One slot changes calmly, its call stack uses `wait_lock` right, and while it
runs holding `wait_lock` its point and parent stay. -/
theorem setProc (h : WaitOk σ)
    (hz : q.state = .ZOMBIE → (σ.proc j).state = .ZOMBIE ∧ q.parent = (σ.proc j).parent)
    (hs : q.WaitAsleep j → (σ.proc j).WaitAsleep j) (hu : q.pc.WaitLockUse j)
    (hh : ∀ d, (σ.cpus d).proc = some j → q.pc.Holds .waitLock ∨ (σ.proc j).pc.Holds .waitLock →
      q.pc = (σ.proc j).pc ∧ q.parent = (σ.proc j).parent) :
    WaitOk (σ.setProc j q) := by
  have hc : Calmer σ (σ.setProc j q) := .setProc hz hs
  refine ⟨fun E => ?_, fun P hP => ?_, fun d E hd hE => ?_⟩
  · by_cases hEj : E = j
    · subst hEj; simpa using hu
    · simpa [hEj] using h.use E
  · rcases h.asleep P (hc.2 P hP) with hn | ⟨d, E, i, k, hd, hpc, hi, hk⟩
    · exact .inl (hn.frame hc)
    · refine .inr ⟨d, E, i, k, hd, ?_, hi, hk⟩
      by_cases hEj : E = j
      · subst hEj; simp only [Sys.setProc_proc, if_true]
        rw [(hh d hd (.inr (by rw [hpc]; exact hk))).1, hpc]
      · simpa [hEj] using hpc
  · have hE' : ((σ.setProc j q).proc E).pc = (σ.proc E).pc ∧
        ((σ.setProc j q).proc E).parent = (σ.proc E).parent := by
      by_cases hEj : E = j
      · subst hEj; simpa using hh d hd (.inl (by simpa using hE))
      · simp [hEj]
    rw [hE'.1] at hE ⊢
    exact (h.holder d E hd hE).frame hc hE'.2

/-- One slot changes fields the invariant does not read. -/
theorem setKeep (h : WaitOk σ) (hs : q.state = (σ.proc j).state) (hpc : q.pc = (σ.proc j).pc)
    (hp : q.parent = (σ.proc j).parent) : WaitOk (σ.setProc j q) :=
  h.setProc (fun hz => ⟨hs ▸ hz, hp⟩) (fun ha => by rwa [Proc.WaitAsleep, hs, hpc] at ha)
    (hpc ▸ h.use j) fun _ _ _ => ⟨hpc, hp⟩

/-- The RUNNING thread of `p` moves on to `m`: a `wakeup` of a parent asleep in
`wait` that it was in the middle of is still due or done, and holding `wait_lock`
at `m` it guarantees what it must there. -/
theorem setPc (h : WaitOk σ) (hrun : (σ.proc p).state = .RUNNING) (hu : m.WaitLockUse p)
    (hdue : ∀ P i k, (σ.proc P).WaitAsleep P → (σ.proc p).pc = .wakeupScan (.proc P) i k →
      i ≤ P.val → k.Holds .waitLock → NoZombieKids σ P ∨
        ∃ i' k', m = .wakeupScan (.proc P) i' k' ∧ i' ≤ P.val ∧ k'.Holds .waitLock)
    (hho : m.Holds .waitLock → HolderOk (σ.setProc p { σ.proc p with pc := m }) p m) :
    WaitOk (σ.setProc p { σ.proc p with pc := m }) := by
  have hc : Calmer σ (σ.setProc p { σ.proc p with pc := m }) := .setPc hrun
  refine ⟨fun E => ?_, fun P hP => ?_, fun d E hd hE => ?_⟩
  · by_cases hEp : E = p
    · subst hEp; simpa using hu
    · simpa [hEp] using h.use E
  · rcases h.asleep P (hc.2 P hP) with h0 | ⟨d, E, i, k, hd, hpc, hi, hk⟩
    · exact .inl (h0.frame hc)
    · by_cases hEp : E = p
      · subst hEp
        rcases hdue P i k (hc.2 P hP) hpc hi hk with h0 | ⟨i', k', hm, hi', hk'⟩
        · exact .inl (h0.frame hc)
        · exact .inr ⟨d, E, i', k', hd, by simp [hm], hi', hk'⟩
      · exact .inr ⟨d, E, i, k, hd, by simpa [hEp] using hpc, hi, hk⟩
  · by_cases hEp : E = p
    · subst hEp; simp only [Sys.setProc_proc, if_true] at hE ⊢; exact hho hE
    · simp only [Sys.setProc_proc, hEp, if_false] at hE ⊢
      exact (h.holder d E hd hE).frame hc (by simp [hEp])

/-- The RUNNING thread of `p`, not in a `wakeup`, moves on to a point that does not
hold `wait_lock`. -/
theorem setPlain (h : WaitOk σ) (hrun : (σ.proc p).state = .RUNNING)
    (hnw : ∀ ch i k, (σ.proc p).pc ≠ .wakeupScan ch i k) (hu : m.WaitLockUse p)
    (hm : ¬ m.Holds .waitLock) : WaitOk (σ.setProc p { σ.proc p with pc := m }) :=
  h.setPc hrun hu (fun _ _ _ _ e => absurd e (hnw _ _ _)) fun hm' => absurd hm' hm

/-- `setPc` after a change of another slot `j`. -/
theorem setPcAfter {x : Proc np} (h : WaitOk (σ.setProc j x)) (hne : j ≠ p)
    (hrun : (σ.proc p).state = .RUNNING) (hu : m.WaitLockUse p)
    (hdue : ∀ P i k, ((σ.setProc j x).proc P).WaitAsleep P →
      (σ.proc p).pc = .wakeupScan (.proc P) i k → i ≤ P.val → k.Holds .waitLock →
      NoZombieKids (σ.setProc j x) P ∨
        ∃ i' k', m = .wakeupScan (.proc P) i' k' ∧ i' ≤ P.val ∧ k'.Holds .waitLock)
    (hho : m.Holds .waitLock →
      HolderOk ((σ.setProc j x).setProc p { σ.proc p with pc := m }) p m) :
    WaitOk ((σ.setProc j x).setProc p { σ.proc p with pc := m }) := by
  have e : (σ.setProc j x).proc p = σ.proc p := by simp [Ne.symm hne]
  rw [← e] at hrun hdue hho ⊢
  exact h.setPc hrun hu hdue hho

/-- `sched()` switches out a thread that does not hold `wait_lock`. -/
theorem switchOut (h : WaitOk σ) (hc : (σ.cpus c).proc = some p)
    (hk : ¬ (σ.proc p).pc.Holds .waitLock) : WaitOk (σ.switchOut c) := by
  refine ⟨h.use, fun P hP => ?_, fun d E hd hE => ?_⟩
  · rcases h.asleep P hP with hn | ⟨d, E, i, k, hd, hpc, hi, hk'⟩
    · exact .inl hn
    · have hdc : d ≠ c := by
        rintro rfl; rw [hc] at hd; cases hd; exact hk (by rw [hpc]; exact hk')
      exact .inr ⟨d, E, i, k, by simpa [hdc] using hd, hpc, hi, hk'⟩
  · have hdc : d ≠ c := by rintro rfl; simp at hd
    exact (h.holder d E (by simpa [hdc] using hd) hE).of_proc rfl

/-- The thread of `p`, holding no lock, is switched out as `q`, neither a ZOMBIE
nor asleep in `wait`. -/
theorem leave (h : WaitOk σ) (hc : (σ.cpus c).proc = some p)
    (hk : ¬ (σ.proc p).pc.Holds .waitLock) (hz : q.state ≠ .ZOMBIE) (hs : ¬ q.WaitAsleep p)
    (hu : q.pc.WaitLockUse p) (hq : ¬ q.pc.Holds .waitLock) : WaitOk ((σ.setProc p q).switchOut c) :=
  (h.setProc (fun e => absurd e hz) (fun e => absurd e hs) hu
    fun _ _ e => e.elim (fun e => absurd e hq) fun e => absurd e hk).switchOut hc (by simpa using hq)

/-- An idle CPU moves on in its scheduler loop, or switches into a thread that does
not hold `wait_lock`. -/
theorem setCpu (h : WaitOk σ) (hc : (σ.cpus c).proc = none) (x : Cpu np)
    (hx : ∀ i, x.proc = some i → ¬ (σ.proc i).pc.Holds .waitLock) : WaitOk (σ.setCpu c x) := by
  refine ⟨h.use, fun P hP => ?_, fun d E hd hE => ?_⟩
  · rcases h.asleep P hP with hn | ⟨d, E, i, k, hd, hpc, hi, hk⟩
    · exact .inl hn
    · have hdc : d ≠ c := by rintro rfl; rw [hc] at hd; cases hd
      exact .inr ⟨d, E, i, k, by simpa [hdc] using hd, hpc, hi, hk⟩
  · by_cases hdc : d = c
    · subst hdc; simp only [Sys.setCpu_cpus, if_true] at hd; exact absurd hE (hx E hd)
    · exact (h.holder d E (by simpa [hdc] using hd) hE).of_proc rfl

/-- Under a holder of `wait_lock` that is not in a `wakeup`, no parent asleep in
`wait` has a ZOMBIE child. -/
theorem noZombieKids_of_holder (h : WaitOk σ) (hw : Wf σ) (hc : (σ.cpus c).proc = some p)
    (hk : (σ.proc p).pc.Holds .waitLock) (hnw : ∀ ch i k, (σ.proc p).pc ≠ .wakeupScan ch i k)
    {P : Fin np} (hP : (σ.proc P).WaitAsleep P) : NoZombieKids σ P := by
  rcases h.asleep P hP with hn | ⟨d, E, i, k, hd, hpc, -, hk'⟩
  · exact hn
  · have hdE := (hw.holds_iff hd (l := .waitLock) id).1 (by rw [hpc]; exact hk')
    obtain rfl : d = c := Option.some.inj (hdE.symm.trans ((hw.holds_iff hc id).1 hk))
    rw [hc] at hd; cases hd
    exact absurd hpc (hnw _ _ _)

/-- With `wait_lock` free, no parent asleep in `wait` has a ZOMBIE child. -/
theorem noZombieKids_of_free (h : WaitOk σ) (hw : Wf σ) (hl : σ.lock .waitLock = none)
    {P : Fin np} (hP : (σ.proc P).WaitAsleep P) : NoZombieKids σ P := by
  rcases h.asleep P hP with hn | ⟨d, E, i, k, hd, hpc, -, hk⟩
  · exact hn
  · have := (hw.holds_iff hd (l := .waitLock) id).1 (by rw [hpc]; exact hk)
    rw [hl] at this; cases this

/-- The holder of `wait_lock`, not in a `wakeup`, releases it and is switched out
as `q`: asleep in `wait` only with no ZOMBIE child, a ZOMBIE only while its parent
is not asleep in `wait`. -/
theorem release (h : WaitOk σ) (hw : Wf σ) (hc : (σ.cpus c).proc = some p)
    (hk : (σ.proc p).pc.Holds .waitLock) (hnw : ∀ ch i k, (σ.proc p).pc ≠ .wakeupScan ch i k)
    (hq : q.parent = (σ.proc p).parent) (hu : q.pc.WaitLockUse p)
    (hsl : q.WaitAsleep p → NoZombieKids σ p)
    (hzb : q.state = .ZOMBIE → ∀ P, (σ.proc p).parent = some P → ¬ (σ.proc P).WaitAsleep P) :
    WaitOk ((σ.setProc p q).switchOut c) := by
  have hnz := fun P => h.noZombieKids_of_holder hw hc hk hnw (P := P)
  refine ⟨fun E => ?_, fun P hP => .inl fun z hz hzz => ?_, fun d E hd hE => ?_⟩
  · by_cases hEp : E = p
    · subst hEp; simpa using hu
    · simpa [hEp] using h.use E
  · simp only [Sys.switchOut_proc, Sys.setProc_proc] at hP hz hzz
    by_cases hPp : P = p
    · subst hPp
      simp only [if_true] at hP
      by_cases hzp : z = P
      · subst hzp; simp only [if_true] at hzz; simp [hzz, Proc.WaitAsleep] at hP
      · simp only [hzp, if_false] at hz hzz; exact hsl hP z hz hzz
    · simp only [hPp, if_false] at hP
      by_cases hzp : z = p
      · subst hzp; simp only [if_true] at hz hzz; exact hzb hzz P (hq ▸ hz) hP
      · simp only [hzp, if_false] at hz hzz; exact hnz P hP z hz hzz
  · have hdc : d ≠ c := by rintro rfl; simp at hd
    simp only [Sys.switchOut_cpus, hdc, if_false] at hd
    have hEp : E ≠ p := by rintro rfl; exact hdc (hw.cpu.cpu_inj d c E hd hc)
    simp only [Sys.switchOut_proc, Sys.setProc_proc, hEp, if_false] at hE
    have := (hw.holds_iff hd (l := .waitLock) id).1 hE
    exact absurd (Option.some.inj (this.symm.trans ((hw.holds_iff hc id).1 hk))) hdc

/-- `reparent` hands child `j` of the holder `p` to `initproc` and starts
`wakeup(initproc)`, which is then due. -/
theorem reparent (h : WaitOk σ) (hw : Wf σ) (hc : (σ.cpus c).proc = some p) {s : Int} {i n : Nat}
    (hpc : (σ.proc p).pc = .reparentScan s i) (hne : j ≠ p) :
    WaitOk ((σ.setProc j { σ.proc j with parent := σ.initproc }).setProc p
      { σ.proc p with pc := .wakeupScan (.ofProc σ.initproc) 0 (.reparentScan s n) }) := by
  have hrun := hw.running hc
  have hk : (σ.proc p).pc.Holds .waitLock := by rw [hpc]; exact rfl
  have hnz := fun P => h.noZombieKids_of_holder hw hc hk (by rw [hpc]; exact fun _ _ _ => nofun)
    (P := P)
  refine ⟨fun E => ?_, fun P hP => ?_, fun d E hd hE => ?_⟩
  · by_cases hEp : E = p
    · subst hEp; simp only [Sys.setProc_proc, if_true]; trivial
    · by_cases hEj : E = j
      · subst hEj; simpa [hEp] using h.use E
      · simpa [hEp, hEj] using h.use E
  · have hPp : P ≠ p := by rintro rfl; simp [hrun, Proc.WaitAsleep] at hP
    have hP' : (σ.proc P).WaitAsleep P := by
      by_cases hPj : P = j
      · subst hPj; simpa [Proc.WaitAsleep, hPp] using hP
      · simpa [hPp, hPj] using hP
    by_cases hin : σ.initproc = some P
    · exact .inr ⟨c, p, 0, .reparentScan s n, hc, by simp [hin, Chan.ofProc], Nat.zero_le _, rfl⟩
    · refine .inl fun z hz hzz => ?_
      by_cases hzp : z = p
      · subst hzp; simp [hrun] at hzz
      · by_cases hzj : z = j
        · subst hzj; simp [hzp] at hz; exact hin hz
        · simp [hzp, hzj] at hz hzz; exact hnz P hP' z hz hzz
  · by_cases hEp : E = p
    · subst hEp
      simp only [Sys.setProc_proc, if_true]
      exact ⟨fun _ _ h0 => absurd h0 (Nat.not_lt_zero _), fun _ => nofun, fun _ => trivial⟩
    · have hE' : (((σ.setProc j { σ.proc j with parent := σ.initproc }).setProc p
          { σ.proc p with pc := .wakeupScan (.ofProc σ.initproc) 0 (.reparentScan s n) }).proc E).pc =
          (σ.proc E).pc := by
        by_cases hEj : E = j <;> simp [hEp, hEj, hne]
      rw [hE'] at hE
      have := (hw.holds_iff hd (l := .waitLock) id).1 hE
      obtain rfl : d = c := Option.some.inj (this.symm.trans ((hw.holds_iff hc id).1 hk))
      exact absurd (Option.some.inj (hc.symm.trans hd)).symm hEp

/-- Every step of a kernel thread keeps `WaitOk`. -/
theorem pstep (h : WaitOk σ) (hw : Wf σ) (hpo : ParentOk σ) (hc : (σ.cpus c).proc = some p) {o : Out np}
    {σ' : Sys np nc} (hs : PStep K σ c p o σ') : WaitOk σ' := by
  have hrun := hw.running hc
  have hact := hw.active hc
  have hup := h.use p
  cases hs with
  | yield _ hn =>
    have hno := hw.holds_none hc hn
    exact h.leave hc (hno _) (by simp) (by simp [Proc.WaitAsleep]) hup (by simp [Pc.Holds])
  | @sleep chan lk k hpc =>
    rw [Sys.setLock_setProc, Sys.switchOut_setLock]; apply WaitOk.setLock
    have hu := hup; rw [hpc] at hu
    by_cases hwl : lk = .waitLock
    · subst hwl
      obtain ⟨rfl, a, rfl⟩ := hu.1 rfl
      have hk : (σ.proc p).pc.Holds .waitLock := by rw [hpc]; exact rfl
      have hho := h.holder c p hc hk; rw [hpc] at hho
      exact h.release hw hc hk (by rw [hpc]; exact fun _ _ _ => nofun) rfl
        ⟨fun _ => ⟨rfl, a, rfl⟩, trivial⟩ (fun _ => hho) (by simp)
    · exact h.leave hc (by rw [hpc]; exact fun e => hwl (Eq.symm e)) (by simp)
        (fun ⟨_, _, e⟩ => hwl (Pc.sleepRet.inj e).2.1) hu (by simp [Pc.Holds])
  | @sleepReacq lk k hpc =>
    rw [Sys.setLock_setProc]; apply WaitOk.setLock
    have hu := hup; rw [hpc] at hu hact
    refine h.setPc hrun hu.2 (by rw [hpc]; exact fun _ _ _ _ => nofun) fun hm => ?_
    obtain rfl := (hact.2 _).1 hm
    obtain ⟨a, rfl⟩ := hu.1 rfl
    exact fun _ hz => absurd hz (Nat.not_lt_zero _)
  | @wakeupSelf chan i k hpc hi =>
    refine h.setPc hrun (by rw [hpc] at hup; exact hup) (fun P i' k' hP e hi' hk' => ?_) fun hm => ?_
    · rw [hpc] at e; obtain ⟨rfl, rfl, rfl⟩ := Pc.wakeupScan.inj e
      have hPp : P.val ≠ p.val := fun e' => by
        have := hP.1; rw [Fin.ext e', hrun] at this; cases this
      exact .inr ⟨_, _, rfl, by omega, hk'⟩
    · have hold := h.holder c p hc (by rw [hpc]; exact hm); rw [hpc] at hold
      refine hold.wakeupStep (.setPc hrun) (by simp) fun P _ hP ha => ?_
      obtain rfl : P = p := Fin.ext (hP.trans hi)
      have := ha.1; simp [hrun] at this
  | @wakeupSlot chan i k hpc hi hne =>
    have hj : (⟨i, hi⟩ : Fin np) ≠ p := fun e => hne (by rw [← e])
    have h1 : WaitOk (σ.setProc ⟨i, hi⟩ (wakeup1 (σ.proc ⟨i, hi⟩) chan)) :=
      h.setProc (fun hz => ⟨wakeup1_zombie _ _ hz, by simp⟩) wakeup1_waitAsleep
        (by simpa using h.use _) fun d hd _ => by
          simp [wakeup1, hw.running hd]
    have hc1 : Calmer σ (σ.setProc ⟨i, hi⟩ (wakeup1 (σ.proc ⟨i, hi⟩) chan)) :=
      .setProc (fun hz => ⟨wakeup1_zombie _ _ hz, by simp⟩) wakeup1_waitAsleep
    have hwoke : ∀ P : Fin np, chan = .proc P → P.val = i →
        ¬ ((σ.setProc ⟨i, hi⟩ (wakeup1 (σ.proc ⟨i, hi⟩) chan)).proc P).WaitAsleep P := by
      intro P hch hPi ha
      obtain rfl : P = ⟨i, hi⟩ := Fin.ext hPi
      subst hch
      simp only [Sys.setProc_proc, if_true] at ha
      exact hw.wakeup1_wakes (wakeup1_waitAsleep ha) ha
    refine h1.setPcAfter hj hrun (by rw [hpc] at hup; exact hup)
      (fun P i' k' hP e hi' hk' => ?_) fun hm => ?_
    · rw [hpc] at e; obtain ⟨rfl, rfl, rfl⟩ := Pc.wakeupScan.inj e
      have hPi : P.val ≠ i := fun e' => hwoke P rfl e' hP
      exact .inr ⟨_, _, rfl, by omega, hk'⟩
    · have hold := h.holder c p hc (by rw [hpc]; exact hm); rw [hpc] at hold
      refine hold.wakeupStep (hc1.trans (.setProc (fun hz => by simp [hrun] at hz)
        fun ha => by simp [hrun, Proc.WaitAsleep] at ha))
        (by simp [Ne.symm hj]) fun P hP hPi ha => hwoke P hP hPi ?_
      have hPp : P ≠ p := by rintro rfl; exact hj (Fin.ext hPi.symm)
      simpa [hPp] using ha
  | @wakeupDone chan i k hpc hi =>
    refine h.setPc hrun (by rw [hpc] at hup; exact hup)
      (fun P i' k' hP e hi' hk' => ?_) fun hm => ?_
    · rw [hpc] at e; obtain ⟨rfl, rfl, rfl⟩ := Pc.wakeupScan.inj e
      exact absurd P.isLt (by omega)
    · have hold := h.holder c p hc (by rw [hpc]; exact hm); rw [hpc] at hold
      by_cases hz : ∃ s, k = .exitZombie s
      · obtain ⟨s, rfl⟩ := hz
        intro P hP ha
        have hch := hold.2.1 s rfl
        simp only [Sys.setProc_proc, if_true] at hP
        rw [hP] at hch
        exact hold.1 P hch (by omega) ((Calmer.setPc hrun).2 P ha)
      · exact (hold.2.2 fun s e => hz ⟨s, e⟩).frame (.setPc hrun) (by simp)
  | extAcquire _ hpc | extRelease hpc =>
    rw [Sys.setLock_setProc]; apply WaitOk.setLock
    exact h.setPlain hrun (by rw [hpc]; exact fun _ _ _ => nofun) trivial (by simp [Pc.Holds])
  | extSleep _ hpc =>
    exact h.setPlain hrun (by rw [hpc]; exact fun _ _ _ => nofun) ⟨nofun, trivial⟩
      (by simp [Pc.Holds])
  | callWakeup _ hpc =>
    have hnh : ¬ (σ.proc p).pc.Holds .waitLock := by
      rcases hpc with hpc | ⟨k, hpc⟩ <;> simp [hpc, Pc.Holds]
    exact h.setPc hrun hup (fun _ _ _ _ e => by rcases hpc with hpc | ⟨k, hpc⟩ <;> rw [hpc] at e <;>
      cases e) fun hm => absurd hm hnh
  | forkCall hpc | allocBusy hpc | allocNone hpc | waitCall _ hpc | killCall _ _ hpc
  | killMiss hpc | killDone hpc | sigCall hpc =>
    exact h.setPlain hrun (by rw [hpc]; exact fun _ _ _ => nofun) trivial (by simp [Pc.Holds])
  | killRefused hpc | waitCopyFail hpc | waitNone hpc =>
    rw [Sys.setLock_setProc]; apply WaitOk.setLock
    exact h.setPlain hrun (by rw [hpc]; exact fun _ _ _ => nofun) trivial (by simp [Pc.Holds])
  | @allocFail i q e hpc hi hl hpl hu ha | @copyFail i q e hpc hi hl hpl hu ha =>
    apply WaitOk.setNextpid
    have h1 := h.setPlain hrun (m := .user) (by rw [hpc]; exact fun _ _ _ => nofun) trivial
      (by simp [Pc.Holds])
    have hne : (⟨i, hi⟩ : Fin np) ≠ p := by rintro rfl; rw [hrun] at hu; cases hu
    first
    | exact h1.setProc (by simp [(allocproc_error K ha).1]) (by simp [Proc.WaitAsleep,
        (allocproc_error K ha).1]) (by simpa [(allocproc_error K ha).2.2, hne] using h.use _)
        fun d hd => absurd (hw.running hd) (by simp [hne, hu])
    | exact h1.setProc (by simp) (by simp [Proc.WaitAsleep]) (by
        simp [freeproc, (allocproc_ok K ha).2.1]; trivial)
        fun d hd => absurd (hw.running hd) (by simp [hne, hu])
  | @allocOk i q e hpc hi hl hpl hu ha =>
    apply WaitOk.setNextpid
    have h1 := h.setPlain hrun (m := .forkParent ⟨i, hi⟩ σ.nextpid)
      (by rw [hpc]; exact fun _ _ _ => nofun) trivial (by simp [Pc.Holds])
    have hne : (⟨i, hi⟩ : Fin np) ≠ p := by rintro rfl; rw [hrun] at hu; cases hu
    exact h1.setProc (by simp [forkCopy, (allocproc_ok K ha).1])
      (by simp [Proc.WaitAsleep, forkCopy, (allocproc_ok K ha).1])
      (by simp only [forkCopy, (allocproc_ok K ha).2.1]; trivial)
      fun d hd => absurd (hw.running hd) (by simp [hne, hu])
  | @forkParent ch pid hpc =>
    obtain ⟨hU, hne, -⟩ := hw.child p ch ⟨by simp [hrun], by simp [hpc, Pc.forkChild]⟩
    refine (h.setProc (by simp [hU]) (by simp [Proc.WaitAsleep, hU]) (by simpa using h.use ch)
      fun d hd => absurd (hw.running hd) (by simp [hU])).setPcAfter hne hrun trivial
      (by rw [hpc]; exact fun _ _ _ _ => nofun) (by simp [Pc.Holds])
  | @forkRunnable ch pid hpc =>
    obtain ⟨hU, hne, -⟩ := hw.child p ch ⟨by simp [hrun], by simp [hpc, Pc.forkChild]⟩
    refine (h.setProc (by simp) (by simp [Proc.WaitAsleep]) (by simpa using h.use ch)
      fun d hd => absurd (hw.running hd) (by simp [hU])).setPcAfter hne hrun trivial
      (by rw [hpc]; exact fun _ _ _ _ => nofun) (by simp [Pc.Holds])
  | exitCall _ hpc =>
    exact h.setProc (by simp [hrun]) (by simp [Proc.WaitAsleep, hrun]) trivial
      fun _ _ e => e.elim (fun e => absurd e (by simp [Pc.Holds])) fun e => absurd e (by simp [hpc, Pc.Holds])
  | exitStart hpc | waitStart hpc =>
    rw [Sys.setLock_setProc]; apply WaitOk.setLock
    exact h.setPc hrun trivial (by rw [hpc]; exact fun _ _ _ _ => nofun)
      fun _ => by first | trivial | exact fun _ hz => absurd hz (Nat.not_lt_zero _)
  | reparentMiss hpc =>
    exact h.setPc hrun trivial (by rw [hpc]; exact fun _ _ _ _ => nofun) fun _ => trivial
  | reparentDone hpc =>
    exact h.setPc hrun trivial (by rw [hpc]; exact fun _ _ _ _ => nofun) fun _ =>
      ⟨fun _ _ hz => absurd hz (Nat.not_lt_zero _), fun _ _ => by simp, fun hne => absurd rfl (hne _)⟩
  | @reparentHit status i hpc hi hp =>
    exact h.reparent hw hc hpc fun e => hpo.no_self p (by rw [← e]; exact e ▸ hp)
  | @exitZombie status hpc =>
    rw [Sys.setLock_setProc, Sys.switchOut_setLock]; apply WaitOk.setLock
    have hk : (σ.proc p).pc.Holds .waitLock := by rw [hpc]; exact rfl
    have hho := h.holder c p hc hk; rw [hpc] at hho
    exact h.release hw hc hk (by rw [hpc]; exact fun _ _ _ => nofun) rfl trivial
      (fun ha => by simp [Proc.WaitAsleep] at ha) fun _ => hho
  | @waitSkip addr i hk hpc hi hp =>
    have hold := h.holder c p hc (by rw [hpc]; exact rfl); rw [hpc] at hold
    exact h.setPc hrun trivial (by rw [hpc]; exact fun _ _ _ _ => nofun) fun _ =>
      hold.waitStep hi (.setPc hrun) fun hp' => absurd hp' hp
  | @waitChild addr i hk hpc hi hp _ hz =>
    have hold := h.holder c p hc (by rw [hpc]; exact rfl); rw [hpc] at hold
    exact h.setPc hrun trivial (by rw [hpc]; exact fun _ _ _ _ => nofun) fun _ =>
      hold.waitStep hi (.setPc hrun) fun _ => hz
  | @waitReap addr i hk hpc hi hp hl hz =>
    rw [Sys.setLock_setProc, Sys.setLock_setProc]; apply WaitOk.setLock
    have hne : (⟨i, hi⟩ : Fin np) ≠ p := by rintro rfl; rw [hrun] at hz; cases hz
    exact (h.setProc (by simp) (by simp [Proc.WaitAsleep]) (by simpa [freeproc] using h.use _)
      fun d hd => absurd (hw.running hd) (by simp [hz])).setPcAfter hne hrun trivial
      (by rw [hpc]; exact fun _ _ _ _ => nofun) (by simp [Pc.Holds])
  | @waitSleep addr i hpc hi hk =>
    have hold := h.holder c p hc (by rw [hpc]; exact rfl); rw [hpc] at hold
    exact h.setPc hrun ⟨fun _ => ⟨rfl, addr, rfl⟩, trivial⟩
      (by rw [hpc]; exact fun _ _ _ _ => nofun) fun _ => NoZombieKids.frame (.setPc hrun)
        fun z hp hzz => hold z (by have := z.isLt; omega) hp hzz
  | killRange => exact h
  | @killHit pid s i hpc hi =>
    have h1 := h.setKeep (j := ⟨i, hi⟩) (q := { σ.proc ⟨i, hi⟩ with
      pendingSignals := (σ.proc ⟨i, hi⟩).pendingSignals ||| sigBit s }) rfl rfl rfl
    have hp' : ((σ.setProc ⟨i, hi⟩ { σ.proc ⟨i, hi⟩ with
        pendingSignals := (σ.proc ⟨i, hi⟩).pendingSignals ||| sigBit s }).proc p).state =
        .RUNNING ∧ ((σ.setProc ⟨i, hi⟩ { σ.proc ⟨i, hi⟩ with
        pendingSignals := (σ.proc ⟨i, hi⟩).pendingSignals ||| sigBit s }).proc p).pc =
        .killScan pid s i := by
      simp only [Sys.setProc_proc]
      split_ifs with hj
      · subst hj; exact ⟨hrun, hpc⟩
      · exact ⟨hrun, hpc⟩
    exact h1.setPlain (m := .user) hp'.1 (by rw [hp'.2]; exact fun _ _ _ => nofun) trivial
      (by simp [Pc.Holds])
  | sigprocmask | sigretCall | fileCall => exact h.setKeep rfl rfl rfl
  | sigactionCall signum act actAddr =>
    obtain ⟨hd, e⟩ := sigaction_snd K (σ.proc p) signum act actAddr
    rw [e]; exact h.setKeep rfl rfl rfl
  | sigPriv hq =>
    obtain ⟨hst, -, -, -, hh, -, hh'⟩ := sigStep_wf hq
    exact h.setProc (by simp [hst, hrun]) (by simp [Proc.WaitAsleep, hst, hrun])
      (sigStep_waitLockUse hq p) fun _ _ e => e.elim (fun e => absurd e (hh _)) fun e => absurd e (hh' _)
  | sigKill hpc | sigTurnoff hpc =>
    rw [hpc] at hup
    exact h.setProc (by simp [sigkillFunc, turnoffSigbit, hrun])
      (by simp [Proc.WaitAsleep, sigkillFunc, turnoffSigbit, hrun]) hup.2
      fun _ _ e => e.elim (fun e => absurd e hup.1) fun e => absurd (by rw [hpc] at e; exact e) hup.1
  | sigUser _ _ _ _ hpc =>
    exact h.setProc (by simp [usersignalhandler, hrun])
      (by simp [Proc.WaitAsleep, usersignalhandler, hrun]) ⟨by simp [Pc.Holds], trivial⟩
      fun _ _ e => e.elim (fun e => absurd e (by simp [Pc.Holds])) fun e => absurd e (by simp [hpc, Pc.Holds])
  | stopYield _ _ hn =>
    have hno := hw.holds_none hc hn
    exact h.leave hc (hno _) (by simp) (by simp [Proc.WaitAsleep]) trivial (by simp [Pc.Holds])

/-- Every step of the machine keeps `WaitOk`. -/
theorem step (h : WaitOk σ) (hw : Wf σ) (hpo : ParentOk σ) {o : Out np} {σ' : Sys np nc}
    (hs : Step K σ c o σ') : WaitOk σ' := by
  cases hs with
  | proc hc hs => exact h.pstep hw hpo hc hs
  | schedSkip _ hc | schedWrap hc => exact h.setCpu hc _ fun _ => nofun
  | intrCall | intrDone => exact h.congr rfl rfl
  | intrSlot =>
    exact (h.setProc (fun hz => ⟨wakeup1_zombie _ _ hz, by simp⟩) wakeup1_waitAsleep
      (by simpa using h.use _) fun d hd _ => by simp [wakeup1, hw.running hd]).congr rfl rfl
  | @schedRun q i hc hi hl hs hr =>
    obtain ⟨-, hh, -⟩ := resume_wf hr ((hw.cpu.slot i).runnable hs)
    have h1 : WaitOk (σ.setProc i { q with state := .RUNNING }) :=
      h.setProc (by simp) (by simp [Proc.WaitAsleep])
        (show q.pc.WaitLockUse i from resume_waitLockUse hr (h.use i))
        fun d hd => absurd (hw.running hd) (by simp [hs])
    exact h1.setCpu hc _ fun i' e => by cases e; simpa using hh _
  | userinit i e cwd hc h0 hfirst hu hl hpl ha =>
    obtain ⟨-, hf, -⟩ := allocproc_ok K ha
    apply WaitOk.setGlobals
    exact h.setProc (by simp [userinitProc]) (by simp [Proc.WaitAsleep, userinitProc])
      (by simp only [userinitProc, hf]; trivial) fun d hd => absurd (hw.running hd) (by simp [hu])

end WaitOk

/-- `WaitOk` holds in every reachable state. -/
theorem Reachable.waitOk {σ : Sys np nc} (h : Reachable K σ) : WaitOk σ := by
  induction h with
  | init => exact waitOk_procinit K
  | step hr hs ih => exact ih.step hr.wf hr.parentOk hs

/-- While `wait_lock` is free, a process asleep in `wait` on its own slot has no
ZOMBIE child: its scan saw none, and every child that has since exited woke it
first. -/
theorem wait_sleeper_no_zombie {σ : Sys np nc} (hr : Reachable K σ)
    (hfree : σ.lock .waitLock = none) {P z : Fin np} (hs : (σ.proc P).state = .SLEEPING)
    (hin : ∃ lk a i hk, (σ.proc P).pc = .sleepRet (.proc P) lk (.waitScan a i hk))
    (hz : (σ.proc z).parent = some P) : (σ.proc z).state ≠ .ZOMBIE := by
  have hw := hr.wf
  obtain ⟨lk, a, i, hk, hpc⟩ := hin
  obtain ⟨lk', k, hpc', -, hh⟩ := (hw.cpu.slot P).sleeping hs
  rw [hpc] at hpc'
  obtain ⟨-, rfl, rfl⟩ := Pc.sleepRet.inj hpc'
  have hl : lk = .waitLock := ((hh .waitLock).1 rfl).symm
  subst hl
  have hu := (hr.waitOk.use P)
  rw [hpc] at hu
  obtain ⟨a', e⟩ := (hu.1 rfl).2
  exact hr.waitOk.noZombieKids_of_free hw hfree ⟨hs, a', by rw [hpc, e]⟩ z hz

/-- A parent asleep in `wait` after forking one child: the child, RUNNABLE, is not a
ZOMBIE. -/
theorem wait_sleeper_no_zombie_boot :
    ∃ σ : Sys 2 1, Reachable Param.std σ ∧ σ.lock .waitLock = none ∧
      (σ.proc 0).state = .SLEEPING ∧
      (σ.proc 0).pc = .sleepRet (.proc 0) .waitLock (.waitScan 0 0 false) ∧
      (σ.proc 1).parent = some 0 ∧ (σ.proc 1).state ≠ .ZOMBIE := by
  have h0 := bootSys_reachable (K := Param.std)
  have h1 := h0.step (Step.proc (c := 0) rfl (PStep.forkCall rfl))
  have h2 := h1.step (Step.proc (c := 0) rfl (PStep.allocBusy (i := 0) rfl (by decide) rfl
    (by decide)))
  have h3 := h2.step (Step.proc (c := 0) rfl (PStep.allocOk (i := 1) ⟨1, 1, true, true, true⟩ rfl (by decide)
    rfl rfl rfl rfl rfl))
  have h4 := h3.step (Step.proc (c := 0) rfl (PStep.forkParent rfl rfl))
  have h5 := h4.step (Step.proc (c := 0) rfl (PStep.forkRunnable rfl rfl))
  have h6 := h5.step (Step.proc (c := 0) rfl (PStep.waitCall 0 rfl))
  have h7 := h6.step (Step.proc (c := 0) rfl (PStep.waitStart rfl rfl))
  have h8 := h7.step (Step.proc (c := 0) rfl (PStep.waitSkip (i := 0) rfl (by decide)
    (by decide)))
  have h9 := h8.step (Step.proc (c := 0) (p := 0) rfl (PStep.waitChild (i := 1) (by rfl)
    (by decide) (by rfl) (by rfl) (by decide)))
  have h10 := h9.step (Step.proc (c := 0) (p := 0) rfl (PStep.waitSleep (i := 2) (by rfl)
    (by decide) (by rfl)))
  have h11 := h10.step (Step.proc (c := 0) (p := 0) rfl (PStep.sleep (by rfl) (by rfl) (by rfl)
    fun l h => by
      by_contra hne
      exact absurd h (by
        show Function.update (fun _ => none) Lk.waitLock (some (0 : Fin 1)) l ≠ some 0
        simp [hne])))
  exact ⟨_, h11, rfl, rfl, rfl, rfl,
    wait_sleeper_no_zombie (P := 0) (z := 1) h11 rfl rfl ⟨_, _, _, _, rfl⟩ rfl⟩

end RiscvProc
