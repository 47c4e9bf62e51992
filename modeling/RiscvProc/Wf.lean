import RiscvProc.Step

/-!
# Well-formed machine states

The invariant every other result rests on (`Wf`), in three parts that steps
change independently:

- `CpuOk`: the kernel thread of each slot is at a point its state allows (a
  RUNNING slot at an active point, a RUNNABLE one at a point `swtch` can resume, a
  SLEEPING one inside `sleep` on its own `chan`, a ZOMBIE one frozen in
  `exit(xstate)`, a USED one at `forkret`); a CPU's `c->proc` is RUNNING and is
  where its scheduler loop stands; every RUNNING slot is the `c->proc` of exactly
  one CPU;
- `ChildOk`: a slot that a thread in the middle of `fork` is building is USED and
  belongs to that thread alone;
- `LocksOk`: `wait_lock`, `pid_lock` and the locks of outside code are held
  exactly by the CPUs whose thread is at a point that holds them (slot locks are
  not accounted for: `kill` can leave one held).

Each part has frame lemmas for the shapes of change a step makes; `RiscvProc.WfStep`
assembles them per step.
-/

namespace RiscvProc

variable {np nc : Nat}

/-- Whether a lock is the lock of a slot. -/
def Lk.IsSlot : Lk np → Prop
  | .proc _ => True
  | _ => False

namespace Pc

/-- The locks other than slot locks that a running thread at this point holds. -/
def Holds : Pc np → Lk np → Prop
  | .reparentScan _ _, l | .exitZombie _, l | .waitScan _ _ _, l => l = .waitLock
  | .extHeld k, l => l = .ext k
  | .wakeupScan _ _ k, l | .sigKill k, l | .sigTurnoff _ k, l => Holds k l
  | .sleepCall _ lk _, l => l = lk
  | _, _ => False

/-- The points a running kernel thread can be at: no `swtch` resume point, and a
`sleep` returns to a point holding exactly the lock it re-acquires. -/
def Active : Pc np → Prop
  | .forkret | .yieldRet _ | .sleepRet _ _ _ | .exited _ => False
  | .sleepCall _ lk k | .sleepReacq lk k => Active k ∧ ∀ l, Holds k l ↔ l = lk
  | .wakeupScan _ _ k | .sigKill k | .sigTurnoff _ k => Active k
  | _ => True

/-- The points `scheduler()` can switch into. -/
def Resumable : Pc np → Prop
  | .forkret => True
  | .yieldRet k => Active k ∧ ∀ l, ¬ Holds k l
  | .sleepRet _ lk k => Active k ∧ ∀ l, Holds k l ↔ l = lk
  | _ => False

/-- The slot a thread in the middle of `fork` is building. -/
def forkChild : Pc np → Option (Fin np)
  | .forkParent ch _ | .forkRunnable ch _ => some ch
  | .yieldRet k | .sleepCall _ _ k | .sleepRet _ _ k | .sleepReacq _ k | .wakeupScan _ _ k
  | .sigKill k | .sigTurnoff _ k => forkChild k
  | _ => none

/-- An active thread holds no slot lock through its point. -/
theorem Active.not_slot : ∀ {k : Pc np} {l : Lk np}, k.Active → k.Holds l → ¬ l.IsSlot
  | .reparentScan _ _, _, _, h | .exitZombie _, _, _, h | .waitScan _ _ _, _, _, h
  | .extHeld _, _, _, h => by simp only [Holds] at h; subst h; simp [Lk.IsSlot]
  | .sleepCall _ _ k, _, ha, h => by
      simp only [Holds] at h; subst h
      exact Active.not_slot ha.1 ((ha.2 _).2 rfl)
  | .wakeupScan _ _ k, _, ha, h | .sigKill k, _, ha, h | .sigTurnoff _ k, _, ha, h =>
      Active.not_slot (k := k) ha h

end Pc

/-- The kernel thread of a slot is at a point its state allows. -/
def SlotOk (q : Proc np) : Prop :=
  match q.state with
  | .UNUSED => True
  | .USED => q.pc = .forkret
  | .SLEEPING => ∃ lk k, q.pc = .sleepRet q.chan lk k ∧ k.Active ∧ ∀ l, k.Holds l ↔ l = lk
  | .RUNNABLE => q.pc.Resumable
  | .RUNNING => q.pc.Active
  | .ZOMBIE => q.pc = .exited q.xstate

theorem SlotOk.congr {q q' : Proc np} (h : SlotOk q) (hs : q'.state = q.state)
    (hpc : q'.pc = q.pc) (hch : q'.chan = q.chan) (hx : q'.xstate = q.xstate) : SlotOk q' := by
  unfold SlotOk; rw [hs, hpc, hch, hx]; exact h

theorem SlotOk.active {q : Proc np} (h : SlotOk q) (hs : q.state = .RUNNING) : q.pc.Active := by
  unfold SlotOk at h; rw [hs] at h; exact h

theorem SlotOk.used {q : Proc np} (h : SlotOk q) (hs : q.state = .USED) : q.pc = .forkret := by
  unfold SlotOk at h; rw [hs] at h; exact h

theorem SlotOk.runnable {q : Proc np} (h : SlotOk q) (hs : q.state = .RUNNABLE) :
    q.pc.Resumable := by
  unfold SlotOk at h; rw [hs] at h; exact h

theorem SlotOk.sleeping {q : Proc np} (h : SlotOk q) (hs : q.state = .SLEEPING) :
    ∃ lk k, q.pc = .sleepRet q.chan lk k ∧ k.Active ∧ ∀ l, k.Holds l ↔ l = lk := by
  unfold SlotOk at h; rw [hs] at h; exact h

theorem SlotOk.zombie {q : Proc np} (h : SlotOk q) (hs : q.state = .ZOMBIE) :
    q.pc = .exited q.xstate := by
  unfold SlotOk at h; rw [hs] at h; exact h

/-- Slots and CPUs agree. -/
structure CpuOk (σ : Sys np nc) : Prop where
  slot : ∀ i, SlotOk (σ.proc i)
  cpu_run : ∀ c i, (σ.cpus c).proc = some i →
    (σ.proc i).state = .RUNNING ∧ (σ.cpus c).next = i.val
  run_cpu : ∀ i, (σ.proc i).state = .RUNNING → ∃ c, (σ.cpus c).proc = some i
  cpu_inj : ∀ c d i, (σ.cpus c).proc = some i → (σ.cpus d).proc = some i → c = d

/-- The thread of slot `p` is in the middle of `fork` building slot `ch`. -/
def Claims (σ : Sys np nc) (p ch : Fin np) : Prop :=
  (σ.proc p).state ≠ .UNUSED ∧ (σ.proc p).pc.forkChild = some ch

/-- A slot being built is USED and is built by one other slot only. -/
def ChildOk (σ : Sys np nc) : Prop :=
  ∀ p ch, Claims σ p ch → (σ.proc ch).state = .USED ∧ ch ≠ p ∧ ∀ r, Claims σ r ch → r = p

/-- The locks other than slot locks are held exactly by the CPUs whose running
thread is at a point that holds them. -/
def LocksOk (σ : Sys np nc) : Prop :=
  ∀ l c, ¬ l.IsSlot → (σ.lock l = some c ↔ ∃ p, (σ.cpus c).proc = some p ∧ (σ.proc p).pc.Holds l)

/-- Well-formed machine states. -/
structure Wf (σ : Sys np nc) : Prop where
  cpu : CpuOk σ
  child : ChildOk σ
  locks : LocksOk σ

variable {σ : Sys np nc} {c : Fin nc} {p j : Fin np} {q : Proc np}

@[simp] theorem claims_setProc (r ch : Fin np) :
    Claims (σ.setProc j q) r ch ↔
      if r = j then q.state ≠ .UNUSED ∧ q.pc.forkChild = some ch else Claims σ r ch := by
  by_cases h : r = j <;> simp [Claims, h]

theorem wf_procinit (K : Param) : Wf (procinit K : Sys np nc) where
  cpu := ⟨fun _ => trivial, by simp [procinit], by simp [procinit, Proc.zero], by simp [procinit]⟩
  child := by simp [ChildOk, Claims, procinit, Proc.zero]
  locks := by simp [LocksOk, procinit]

/-! ## Slots and CPUs -/

namespace CpuOk

theorem running (h : CpuOk σ) (hc : (σ.cpus c).proc = some p) : (σ.proc p).state = .RUNNING :=
  (h.cpu_run c p hc).1

theorem active (h : CpuOk σ) (hc : (σ.cpus c).proc = some p) : (σ.proc p).pc.Active :=
  (h.slot p).active (h.running hc)

theorem ne_of_cpu (h : CpuOk σ) (hc : (σ.cpus c).proc = some p) {d : Fin nc} {i : Fin np}
    (hd : (σ.cpus d).proc = some i) (hne : d ≠ c) : i ≠ p := by
  rintro rfl; exact hne (h.cpu_inj d c i hd hc)

theorem off_cpu (h : CpuOk σ) (hr : (σ.proc j).state ≠ .RUNNING) (d : Fin nc) :
    (σ.cpus d).proc ≠ some j :=
  fun hd => hr (h.running hd)

/-- One slot changes, RUNNING exactly when it was, at a point its new state allows. -/
theorem setProc (h : CpuOk σ) (hq : SlotOk q)
    (hr : q.state = .RUNNING ↔ (σ.proc j).state = .RUNNING) : CpuOk (σ.setProc j q) := by
  have hrun : ∀ i, ((σ.setProc j q).proc i).state = .RUNNING ↔ (σ.proc i).state = .RUNNING := by
    intro i; by_cases hi : i = j <;> simp [hi, hr]
  refine ⟨fun i => ?_, fun d i hd => ?_, fun i hi => h.run_cpu i ((hrun i).1 hi), h.cpu_inj⟩
  · by_cases hi : i = j
    · simpa [hi] using hq
    · simpa [hi] using h.slot i
  · exact ⟨(hrun i).2 (h.cpu_run d i hd).1, (h.cpu_run d i hd).2⟩

/-- `sched()` switches the process on `c` out into a state other than RUNNING. -/
theorem leave (h : CpuOk σ) (hc : (σ.cpus c).proc = some p) (hq : SlotOk q)
    (hs : q.state ≠ .RUNNING) : CpuOk ((σ.setProc p q).switchOut c) := by
  have hcpu : ∀ d, d ≠ c → ((σ.setProc p q).switchOut c).cpus d = σ.cpus d := by
    intro d hd; simp [hd]
  have hoff : ∀ d i, (((σ.setProc p q).switchOut c).cpus d).proc = some i →
      d ≠ c ∧ (σ.cpus d).proc = some i ∧ i ≠ p := by
    intro d i hd
    by_cases hdc : d = c
    · subst hdc; simp at hd
    · rw [hcpu d hdc] at hd; exact ⟨hdc, hd, h.ne_of_cpu hc hd hdc⟩
  refine ⟨fun i => ?_, fun d i hd => ?_, fun i hi => ?_, fun d d' i hd hd' => ?_⟩
  · by_cases hi : i = p
    · simpa [hi] using hq
    · simpa [hi] using h.slot i
  · obtain ⟨h1, h2, h3⟩ := hoff d i hd
    simpa [h1, h3] using h.cpu_run d i h2
  · have hip : i ≠ p := by rintro rfl; simp [hs] at hi
    obtain ⟨d, hd⟩ := h.run_cpu i (by simpa [hip] using hi)
    have hdc : d ≠ c := by rintro rfl; exact hip (Option.some.inj (hd.symm.trans hc))
    exact ⟨d, by rw [hcpu d hdc]; exact hd⟩
  · exact h.cpu_inj d d' i (hoff d i hd).2.1 (hoff d' i hd').2.1

/-- `scheduler()` switches `c` into slot `i`, which was RUNNABLE. -/
theorem schedRun (h : CpuOk σ) (hc : (σ.cpus c).proc = none) {i : Fin np}
    (hs : (σ.proc i).state = .RUNNABLE) (ha : q.pc.Active) :
    CpuOk ((σ.setProc i { q with state := .RUNNING }).setCpu c ⟨some i, i.val⟩) := by
  have hoff : ∀ d, (σ.cpus d).proc ≠ some i := h.off_cpu (by simp [hs])
  refine ⟨fun i' => ?_, fun d i' hd => ?_, fun i' hi' => ?_, fun d d' i' hd hd' => ?_⟩
  · by_cases h' : i' = i
    · simpa [h', SlotOk] using ha
    · simpa [h'] using h.slot i'
  · by_cases hdc : d = c
    · subst hdc; simp at hd; subst hd; simp
    · simp only [Sys.setCpu_cpus, hdc, if_false] at hd ⊢
      have : i' ≠ i := by rintro rfl; exact hoff d hd
      simpa [this] using h.cpu_run d i' hd
  · by_cases h' : i' = i
    · exact ⟨c, by simp [h']⟩
    · obtain ⟨d, hd⟩ := h.run_cpu i' (by simpa [h'] using hi')
      have hdc : d ≠ c := by rintro rfl; rw [hc] at hd; cases hd
      exact ⟨d, by simpa [hdc] using hd⟩
  · by_cases h1 : d = c <;> by_cases h2 : d' = c
    · rw [h1, h2]
    · simp only [Sys.setCpu_cpus, h1, h2, if_true, if_false, Option.some.injEq] at hd hd'
      exact absurd hd' (hd ▸ hoff d')
    · simp only [Sys.setCpu_cpus, h1, h2, if_true, if_false, Option.some.injEq] at hd hd'
      exact absurd hd (hd' ▸ hoff d)
    · simp only [Sys.setCpu_cpus, h1, h2, if_false] at hd hd'
      exact h.cpu_inj d d' i' hd hd'

/-- A CPU in its scheduler loop moves to another slot. -/
theorem setCpuIdle (h : CpuOk σ) (hc : (σ.cpus c).proc = none) (n : Nat) :
    CpuOk (σ.setCpu c ⟨none, n⟩) := by
  have hoff : ∀ d i, ((σ.setCpu c ⟨none, n⟩).cpus d).proc = some i →
      d ≠ c ∧ (σ.cpus d).proc = some i := by
    intro d i hd
    by_cases hdc : d = c
    · subst hdc; simp at hd
    · simpa [hdc] using hd
  refine ⟨h.slot, fun d i hi => ?_, fun i hi => ?_, fun d d' i h1 h2 => ?_⟩
  · obtain ⟨hdc, hi⟩ := hoff d i hi
    simpa [hdc] using h.cpu_run d i hi
  · obtain ⟨d, hd⟩ := h.run_cpu i hi
    have : d ≠ c := by rintro rfl; rw [hc] at hd; cases hd
    exact ⟨d, by simpa [this] using hd⟩
  · exact h.cpu_inj d d' i (hoff d i h1).2 (hoff d' i h2).2

end CpuOk

/-! ## Children under construction -/

namespace ChildOk

/-- One slot changes, keeping whether it is UNUSED or USED, and keeps or drops the
child it builds. -/
theorem setProc (h : ChildOk σ) (hu : q.state = .UNUSED ↔ (σ.proc j).state = .UNUSED)
    (hU : q.state = .USED ↔ (σ.proc j).state = .USED)
    (hf : q.pc.forkChild = (σ.proc j).pc.forkChild ∨ q.pc.forkChild = none) :
    ChildOk (σ.setProc j q) := by
  have hcl : ∀ r ch, Claims (σ.setProc j q) r ch → Claims σ r ch := by
    intro r ch hr
    rw [claims_setProc] at hr
    split_ifs at hr with hrj
    · subst hrj
      refine ⟨fun h0 => hr.1 (hu.2 h0), ?_⟩
      rcases hf with e | e <;> rw [e] at hr
      · exact hr.2
      · cases hr.2
    · exact hr
  intro r ch hr
  obtain ⟨h1, h2, h3⟩ := h r ch (hcl r ch hr)
  refine ⟨?_, h2, fun r' hr' => h3 r' (hcl r' ch hr')⟩
  by_cases hch : ch = j
  · subst hch; simpa using hU.2 h1
  · simpa [hch] using h1

/-- A slot that no one builds changes and, unless UNUSED, builds nothing. -/
theorem setFree (h : ChildOk σ) (hfree : ∀ r, ¬ Claims σ r j)
    (hf : q.state ≠ .UNUSED → q.pc.forkChild = none) : ChildOk (σ.setProc j q) := by
  have hcl : ∀ r ch, Claims (σ.setProc j q) r ch → Claims σ r ch := by
    intro r ch hr
    rw [claims_setProc] at hr
    split_ifs at hr with hrj
    · rw [hf hr.1] at hr; cases hr.2
    · exact hr
  intro r ch hr
  obtain ⟨h1, h2, h3⟩ := h r ch (hcl r ch hr)
  have hch : ch ≠ j := by rintro rfl; exact hfree r (hcl r _ hr)
  exact ⟨by simpa [hch] using h1, h2, fun r' hr' => h3 r' (hcl r' ch hr')⟩

/-- The thread of `p` starts building a USED slot that no one builds. -/
theorem claim (h : ChildOk σ) {ch : Fin np} (hs : q.state = (σ.proc p).state)
    (hch : (σ.proc ch).state = .USED) (hne : ch ≠ p)
    (hfree : ∀ r, ¬ Claims σ r ch) (hf : q.pc.forkChild = some ch) : ChildOk (σ.setProc p q) := by
  have hst : ∀ i, ((σ.setProc p q).proc i).state = (σ.proc i).state := by
    intro i; by_cases hi : i = p <;> simp [hi, hs]
  intro r ch' hr
  rw [hst]
  by_cases hrp : r = p
  · subst hrp
    simp only [claims_setProc, if_true, hf, Option.some.injEq] at hr
    obtain ⟨-, rfl⟩ := hr
    refine ⟨hch, hne, fun r' hr' => ?_⟩
    by_contra hr'p
    simp only [claims_setProc, hr'p, if_false] at hr'
    exact hfree r' hr'
  · simp only [claims_setProc, hrp, if_false] at hr
    obtain ⟨h1, h2, h3⟩ := h r ch' hr
    refine ⟨h1, h2, fun r' hr' => ?_⟩
    by_cases hr'p : r' = p
    · subst hr'p
      simp only [claims_setProc, if_true, hf, Option.some.injEq] at hr'
      obtain ⟨-, rfl⟩ := hr'
      exact absurd hr (hfree r)
    · simp only [claims_setProc, hr'p, if_false] at hr'
      exact h3 r' hr'

end ChildOk

/-! ## Locks -/

/-- Nothing a held lock depends on changes: the locks other than slot locks, the
CPUs, and what each running thread holds. -/
theorem LocksOk.frame {τ : Sys np nc} (h : LocksOk σ)
    (hl : ∀ l, ¬ l.IsSlot → τ.lock l = σ.lock l) (hc : τ.cpus = σ.cpus)
    (hp : ∀ d i, (σ.cpus d).proc = some i → ∀ l, ((τ.proc i).pc.Holds l ↔ (σ.proc i).pc.Holds l)) :
    LocksOk τ := by
  intro l d hl'
  rw [hl l hl', h l d hl', hc]
  exact exists_congr fun i => and_congr_right fun hi => (hp d i hi l).symm

/-! ## Whole steps -/

namespace Wf

theorem running (hw : Wf σ) (hc : (σ.cpus c).proc = some p) : (σ.proc p).state = .RUNNING :=
  hw.cpu.running hc

theorem active (hw : Wf σ) (hc : (σ.cpus c).proc = some p) : (σ.proc p).pc.Active :=
  hw.cpu.active hc

/-- The thread on `c` holds a lock exactly when `c` does. -/
theorem holds_iff (hw : Wf σ) (hc : (σ.cpus c).proc = some p) {l : Lk np} (hl : ¬ l.IsSlot) :
    (σ.proc p).pc.Holds l ↔ σ.lock l = some c :=
  ⟨fun h => (hw.locks l c hl).2 ⟨p, hc, h⟩, fun h => by
    obtain ⟨p', hc', h'⟩ := (hw.locks l c hl).1 h
    rwa [Option.some.inj (hc.symm.trans hc')]⟩

/-- A CPU that holds no lock runs a thread at a point that holds none. -/
theorem holds_none (hw : Wf σ) (hc : (σ.cpus c).proc = some p) (hn : σ.HoldsNone c)
    (l : Lk np) : ¬ (σ.proc p).pc.Holds l := fun h =>
  hn l ((hw.holds_iff hc (Pc.Active.not_slot (hw.active hc) h)).1 h)

/-- A slot that is not USED is nobody's child under construction. -/
theorem unclaimed (hw : Wf σ) (hj : (σ.proc j).state ≠ .USED) (r : Fin np) : ¬ Claims σ r j :=
  fun hr => hj (hw.child r j hr).1

/-- The kernel globals `Wf` does not read change. -/
theorem globals (hw : Wf σ) (n : Int) (x : Option (Fin np)) :
    Wf { σ with nextpid := n, initproc := x } :=
  ⟨⟨hw.cpu.1, hw.cpu.2, hw.cpu.3, hw.cpu.4⟩, hw.child, hw.locks⟩

/-- Nor does the scan of an interrupt handler. -/
theorem setIntr (hw : Wf σ) (c : Fin nc) (x : Option (Nat × Nat)) : Wf (σ.setIntr c x) :=
  ⟨⟨hw.cpu.1, hw.cpu.2, hw.cpu.3, hw.cpu.4⟩, hw.child, hw.locks⟩

/-- A slot keeps its state, point, channel and exit status: nothing `Wf` reads changes. -/
theorem setSame (hw : Wf σ) (hs : q.state = (σ.proc j).state) (hpc : q.pc = (σ.proc j).pc)
    (hch : q.chan = (σ.proc j).chan) (hx : q.xstate = (σ.proc j).xstate) :
    Wf (σ.setProc j q) :=
  ⟨hw.cpu.setProc ((hw.cpu.slot j).congr hs hpc hch hx) (by rw [hs]),
    hw.child.setProc (by rw [hs]) (by rw [hs]) (.inl (by rw [hpc])),
    hw.locks.frame (fun _ _ => rfl) rfl fun _ i _ _ => by
      by_cases h : i = j <;> simp [h, hpc]⟩

/-- The process on `c` replaces its record by one that is still RUNNING at an
active point, holds the same locks, and builds the same child or none. -/
theorem setRunning (hw : Wf σ) (hc : (σ.cpus c).proc = some p) (hs : q.state = .RUNNING)
    (ha : q.pc.Active) (hh : ∀ l, q.pc.Holds l ↔ (σ.proc p).pc.Holds l)
    (hf : q.pc.forkChild = (σ.proc p).pc.forkChild ∨ q.pc.forkChild = none) :
    Wf (σ.setProc p q) := by
  have hrun := hw.running hc
  refine ⟨hw.cpu.setProc (by simpa [SlotOk, hs] using ha) (by simp [hs, hrun]),
    hw.child.setProc (by simp [hs, hrun]) (by simp [hs, hrun]) hf,
    hw.locks.frame (fun _ _ => rfl) rfl fun _ i _ l => ?_⟩
  by_cases h : i = p
  · subst h; simpa using hh l
  · simp [h]

/-- The process on `c` takes (`h = some c`) or drops (`h = none`) a lock `l` other
than a slot lock, and moves to a point that holds `l` accordingly and otherwise
what it held before. -/
theorem setLockRunning (hw : Wf σ) (hc : (σ.cpus c).proc = some p) {l : Lk np}
    (hl : ¬ l.IsSlot) {h : Option (Fin nc)}
    (hcase : (h = some c ∧ σ.lock l = none) ∨ (h = none ∧ σ.lock l = some c))
    (hs : q.state = .RUNNING) (ha : q.pc.Active)
    (hh : ∀ l', q.pc.Holds l' ↔ if l' = l then h = some c else (σ.proc p).pc.Holds l')
    (hf : q.pc.forkChild = (σ.proc p).pc.forkChild ∨ q.pc.forkChild = none) :
    Wf ((σ.setLock l h).setProc p q) := by
  have hrun := hw.running hc
  refine ⟨(CpuOk.setProc (σ := σ.setLock l h) ⟨hw.cpu.1, hw.cpu.2, hw.cpu.3, hw.cpu.4⟩
      (by simpa [SlotOk, hs] using ha) (by simp [hs, hrun])),
    ChildOk.setProc (σ := σ.setLock l h) hw.child (by simp [hs, hrun]) (by simp [hs, hrun]) hf,
    fun l' d hl' => ?_⟩
  simp only [Sys.setProc_lock, Sys.setLock_lock, Sys.setProc_cpus, Sys.setLock_cpus]
  by_cases hd : d = c
  · subst hd
    have : (∃ i, (σ.cpus d).proc = some i ∧
        (((σ.setLock l h).setProc p q).proc i).pc.Holds l') ↔ q.pc.Holds l' :=
      ⟨fun ⟨i, hi, h⟩ => by rw [Option.some.inj (hi.symm.trans hc)] at h; simpa using h,
        fun h => ⟨p, hc, by simpa using h⟩⟩
    rw [this, hh]
    split_ifs
    · rfl
    · exact (hw.holds_iff hc hl').symm
  · have : (∃ i, (σ.cpus d).proc = some i ∧
        (((σ.setLock l h).setProc p q).proc i).pc.Holds l') ↔ σ.lock l' = some d := by
      rw [hw.locks l' d hl']
      exact exists_congr fun i => and_congr_right fun hi => by simp [hw.cpu.ne_of_cpu hc hi hd]
    rw [this]
    split_ifs with he
    · subst he
      rcases hcase with ⟨rfl, h2⟩ | ⟨rfl, h2⟩ <;> simp [h2, Ne.symm hd]
    · rfl

/-- The process on `c` is switched out by `sched()` into a state other than
RUNNING, keeping the child it builds, after its CPU dropped every lock (`τ` is `σ`
with the locks the section released). -/
theorem leave (hw : Wf σ) (hc : (σ.cpus c).proc = some p) {τ : Sys np nc}
    (hτp : τ.proc = σ.proc) (hτc : τ.cpus = σ.cpus)
    (hτl : ∀ l, ¬ l.IsSlot → τ.lock l ≠ some c ∧
      ∀ d, d ≠ c → (τ.lock l = some d ↔ σ.lock l = some d))
    (hs : q.state ≠ .RUNNING) (hu : q.state ≠ .UNUSED) (hU : q.state ≠ .USED) (hq : SlotOk q)
    (hf : q.pc.forkChild = (σ.proc p).pc.forkChild) :
    Wf ((τ.setProc p q).switchOut c) := by
  have hrun := hw.running hc
  have hcpu : CpuOk τ := by
    obtain ⟨h1, h2, h3, h4⟩ := hw.cpu; constructor <;> simpa [hτp, hτc]
  have hchild : ChildOk τ := by unfold ChildOk Claims; rw [hτp]; exact hw.child
  refine ⟨hcpu.leave (by rw [hτc]; exact hc) hq hs,
    hchild.setProc (by simp [hτp, hrun, hu]) (by simp [hτp, hrun, hU]) (.inl (by rw [hτp, hf])),
    fun l d hl => ?_⟩
  simp only [Sys.switchOut_lock, Sys.setProc_lock]
  by_cases hd : d = c
  · subst hd; simp [(hτl l hl).1]
  · rw [(hτl l hl).2 d hd, hw.locks l d hl]
    refine exists_congr fun i => ?_
    simp only [Sys.switchOut_cpus, Sys.switchOut_proc, Sys.setProc_proc, Sys.setProc_cpus, hd,
      if_false, hτc, hτp]
    exact and_congr_right fun hi => by simp [hw.cpu.ne_of_cpu hc hi hd]

/-- A slot no CPU runs and no one builds takes a record no CPU runs that, unless
UNUSED, builds nothing. -/
theorem setFree (hw : Wf σ) (hr : (σ.proc j).state ≠ .RUNNING) (hfree : ∀ r, ¬ Claims σ r j)
    (hq : SlotOk q) (hqr : q.state ≠ .RUNNING) (hf : q.state ≠ .UNUSED → q.pc.forkChild = none) :
    Wf (σ.setProc j q) :=
  ⟨hw.cpu.setProc hq (by simp [hr, hqr]), hw.child.setFree hfree hf,
    hw.locks.frame (fun _ _ => rfl) rfl fun d i hi _ => by
      simp [show i ≠ j by rintro rfl; exact hw.cpu.off_cpu hr d hi]⟩

/-- `wakeup`'s body on a slot. -/
theorem setWake (hw : Wf σ) (j : Fin np) (ch : Chan np) :
    Wf (σ.setProc j (wakeup1 (σ.proc j) ch)) := by
  unfold wakeup1
  split_ifs with h
  · obtain ⟨hs, -⟩ := h
    obtain ⟨lk, k, hpc, ha, hk⟩ := (hw.cpu.slot j).sleeping hs
    exact ⟨hw.cpu.setProc (by simpa [SlotOk, hpc, Pc.Resumable] using ⟨ha, hk⟩) (by simp [hs]),
      hw.child.setProc (by simp [hs]) (by simp [hs]) (.inl rfl),
      hw.locks.frame (fun _ _ => rfl) rfl fun _ i _ _ => by by_cases h : i = j <;> simp [h]⟩
  · simpa using hw

/-- `kill` leaving a slot lock held: slot locks are not accounted for. -/
theorem setSlotLock (hw : Wf σ) (i : Fin np) (h : Option (Fin nc)) :
    Wf (σ.setLock (.proc i) h) :=
  ⟨⟨hw.cpu.1, hw.cpu.2, hw.cpu.3, hw.cpu.4⟩, hw.child,
    hw.locks.frame (fun l hl => by simp [show l ≠ .proc i by rintro rfl; exact hl trivial]) rfl
      fun _ _ _ _ => Iff.rfl⟩

/-- A CPU in its scheduler loop moves to another slot. -/
theorem setCpuIdle (hw : Wf σ) (hc : (σ.cpus c).proc = none) (n : Nat) :
    Wf (σ.setCpu c ⟨none, n⟩) := by
  refine ⟨hw.cpu.setCpuIdle hc n, hw.child, fun l d hl => ?_⟩
  rw [Sys.setCpu_lock, hw.locks l d hl]
  by_cases h : d = c
  · subst h; simp [hc]
  · simp [h]

/-- `scheduler()` switches `c` into the RUNNABLE slot `i`, whose thread resumes
at an active point that holds nothing. -/
theorem schedRun (hw : Wf σ) (hc : (σ.cpus c).proc = none) {i : Fin np}
    (hs : (σ.proc i).state = .RUNNABLE) (ha : q.pc.Active) (hh : ∀ l, ¬ q.pc.Holds l)
    (hf : q.pc.forkChild = (σ.proc i).pc.forkChild) :
    Wf ((σ.setProc i { q with state := .RUNNING }).setCpu c ⟨some i, i.val⟩) := by
  refine ⟨hw.cpu.schedRun hc hs ha,
    hw.child.setProc (by simp [hs]) (by simp [hs]) (.inl hf), fun l d hl => ?_⟩
  have hoff : ∀ d, (σ.cpus d).proc ≠ some i := hw.cpu.off_cpu (by simp [hs])
  simp only [Sys.setCpu_lock, Sys.setProc_lock, hw.locks l d hl, Sys.setCpu_cpus,
    Sys.setCpu_proc, Sys.setProc_proc, Sys.setProc_cpus]
  by_cases hd : d = c
  · subst hd; simp [hc, hh]
  · simp only [hd, if_false]
    exact exists_congr fun i' => and_congr_right fun hi' => by
      simp [show i' ≠ i by rintro rfl; exact hoff d hi']

end Wf

end RiscvProc
