import RiscvProc.Handler

/-!
# The lifecycle of a process

Seen from outside, the process table maps slots to processes, each with its pid,
its parent and where it is in its life: allocated and being built (USED), made
RUNNABLE and not yet exited, or a ZOMBIE with its exit status; and it names the
slot of `initproc`. Seven operations change this view (`LStep`): `allocproc` puts
a new process in a free slot, `fork` links its child to itself and makes it
RUNNABLE, `userinit` starts the first process, `reparent` hands a child of an
exiting process to `initproc`, `exit` makes a process other than `initproc` a
ZOMBIE, and `wait` frees a ZOMBIE whose parent is live.

`Sys.life` reads the view off a state of the machine. A step from a reachable state
leaves it as it is or carries out one of the seven operations
(`step_refines_lifecycle`): the scheduler, `sleep`, `wakeup`, `kill` and signal
delivery move a process only among its live states, and a `fork` that fails gives
its slot back in the section that took it. So the view of every reachable state
is reached by the operations alone (`lifecycle_refinement`).

What the operations keep then holds of the code. No operation but `allocproc`'s
gives a slot a pid, and it takes a free slot, so a process keeps its pid while its
slot is in use (`pid_fixed_while_in_use`). `exit` refuses `initproc`, which is
neither a child nor being built, so `initproc` stays live and parentless on the slot
`userinit` gave it (`initproc_lives_forever`).
-/

namespace RiscvProc

variable {np nc : Nat} {K : Param}

/-- Where a process is in its life. -/
inductive Phase
  | embryo
  | live
  | zombie (status : Int)
  deriving DecidableEq, Repr

/-- What the table records of a process over its life. -/
structure Life (np : Nat) where
  pid : Int
  phase : Phase
  parent : Option (Fin np)
  deriving DecidableEq, Repr

/-- The lifecycle view of the process table. -/
structure Table (np : Nat) where
  procs : Fin np → Option (Life np)
  initproc : Option (Fin np)

/-- The table with the entry of slot `j` replaced. -/
def Table.set (T : Table np) (j : Fin np) (x : Option (Life np)) : Table np :=
  { T with procs := Function.update T.procs j x }

/-- Slot `j` holds a live process. -/
def Table.Live (T : Table np) (j : Fin np) : Prop :=
  ∃ l, T.procs j = some l ∧ l.phase = .live

/-- The lifecycle operations. -/
inductive LStep : Table np → Table np → Prop
  /-- `allocproc` takes a free slot for a new process, with its pid and no parent. -/
  | spawn {T : Table np} {j : Fin np} (pid : Int) (h : T.procs j = none) :
      LStep T (T.set j (some ⟨pid, .embryo, none⟩))
  /-- `fork` links its child, still being built, to the live caller. -/
  | link {T : Table np} {j p : Fin np} {l : Life np} (h : T.procs j = some l)
      (he : l.phase = .embryo) (hp : T.Live p) : LStep T (T.set j (some { l with parent := some p }))
  /-- `fork` makes its child RUNNABLE. -/
  | start {T : Table np} {j : Fin np} {l : Life np} (h : T.procs j = some l)
      (he : l.phase = .embryo) : LStep T (T.set j (some { l with phase := .live }))
  /-- `userinit` puts the first process, RUNNABLE and with no parent, in a free slot
  and makes it `initproc`. -/
  | boot {T : Table np} {j : Fin np} (pid : Int) (h0 : T.initproc = none) (h : T.procs j = none) :
      LStep T ⟨Function.update T.procs j (some ⟨pid, .live, none⟩), some j⟩
  /-- `reparent` hands a child of a live process to `initproc`. -/
  | adopt {T : Table np} {j p : Fin np} {l : Life np} (h : T.procs j = some l)
      (hp : l.parent = some p) (hl : T.Live p) (hi : T.initproc ≠ none) :
      LStep T (T.set j (some { l with parent := T.initproc }))
  /-- `exit` makes a live process other than `initproc` a ZOMBIE with its status. -/
  | die {T : Table np} {j : Fin np} {l : Life np} (s : Int) (h : T.procs j = some l)
      (hl : l.phase = .live) (hi : T.initproc ≠ some j) :
      LStep T (T.set j (some { l with phase := .zombie s }))
  /-- `wait` frees a ZOMBIE whose parent is live. -/
  | reap {T : Table np} {j p : Fin np} {l : Life np} {s : Int} (h : T.procs j = some l)
      (hz : l.phase = .zombie s) (hp : l.parent = some p) (hl : T.Live p) :
      LStep T (T.set j none)

/-- The tables the operations reach from the empty one. -/
inductive LReach : Table np → Prop
  | empty : LReach ⟨fun _ => none, none⟩
  | step {T T' : Table np} : LReach T → LStep T T' → LReach T'

/-! ## What the operations keep -/

section Abstract

variable {T T' : Table np}

@[simp] theorem Table.set_procs (T : Table np) (j : Fin np) (x : Option (Life np)) (i : Fin np) :
    (T.set j x).procs i = Function.update T.procs j x i := rfl

@[simp] theorem Table.set_initproc (T : Table np) (j : Fin np) (x : Option (Life np)) :
    (T.set j x).initproc = T.initproc := rfl

/-- A process keeps its pid from `allocproc` until `wait` frees its slot. -/
theorem LStep.pid_eq (h : LStep T T') {j : Fin np} {l l' : Life np} (hl : T.procs j = some l)
    (hl' : T'.procs j = some l') : l'.pid = l.pid := by
  cases h <;> simp only [Table.set_procs, Function.update_apply] at hl' <;> split_ifs at hl' with hj
  -- an entry the operation does not write, or the one it writes: kept but for phase or
  -- parent, taken from a free slot, or freed
  all_goals first
    | (rw [hl] at hl'; cases hl'; rfl)
    | (subst hj; simp_all <;> subst_vars <;> rfl)

/-- `initproc`, once there, is live and has no parent. -/
def Table.InitLive (T : Table np) : Prop :=
  ∀ r, T.initproc = some r → ∃ pid, T.procs r = some ⟨pid, .live, none⟩

/-- No operation touches `initproc`'s entry but `userinit`'s: `exit` refuses it, and
it is neither free, being built, a child nor a ZOMBIE. -/
theorem LStep.initLive (h : LStep T T') (hi : T.InitLive) : T'.InitLive := by
  intro r hr
  cases h
  case boot j pid _ _ => cases hr; exact ⟨pid, Function.update_same _ _ _⟩
  all_goals
    obtain ⟨pid, hp⟩ := hi r hr
    exact ⟨pid, by rw [Table.set_procs, Function.update_noteq (by rintro rfl; simp_all), hp]⟩

theorem LReach.initLive (h : LReach T) : T.InitLive := by
  induction h with
  | empty => intro r hr; cases hr
  | step _ hs ih => exact hs.initLive ih

end Abstract

/-! ## The view of a state -/

/-- The phase of a slot in state `s` with exit status `x`; none for a free slot. -/
def Procstate.phase : Procstate → Int → Option Phase
  | .UNUSED, _ => none
  | .USED, _ => some .embryo
  | .ZOMBIE, x => some (.zombie x)
  | _, _ => some .live

/-- The life a slot records. -/
def Proc.life (q : Proc np) : Option (Life np) :=
  (q.state.phase q.xstate).map fun ph => ⟨q.pid, ph, q.parent⟩

/-- The lifecycle view of a state of the machine. -/
def Sys.life (σ : Sys np nc) : Table np := ⟨fun j => (σ.proc j).life, σ.initproc⟩

/-- Only the kind of a state matters to its phase. -/
theorem Procstate.phase_congr {s s' : Procstate} (h : s'.kind = s.kind) (x : Int) :
    s'.phase x = s.phase x := by
  cases s <;> cases s' <;> first | rfl | simp [Procstate.kind] at h

theorem Proc.life_congr {q q' : Proc np} (hk : q'.state.kind = q.state.kind) (hp : q'.pid = q.pid)
    (hpar : q'.parent = q.parent) (hx : q'.xstate = q.xstate) : q'.life = q.life := by
  unfold Proc.life; rw [hx, Procstate.phase_congr hk, hp, hpar]

section Life

variable {q : Proc np}

theorem Proc.life_of_unused (h : q.state = .UNUSED) : q.life = none := by
  simp [Proc.life, h, Procstate.phase]

theorem Proc.life_of_used (h : q.state = .USED) : q.life = some ⟨q.pid, .embryo, q.parent⟩ := by
  simp [Proc.life, h, Procstate.phase]

theorem Proc.life_of_running (h : q.state = .RUNNING) : q.life = some ⟨q.pid, .live, q.parent⟩ := by
  simp [Proc.life, h, Procstate.phase]

theorem Proc.life_of_zombie (h : q.state = .ZOMBIE) :
    q.life = some ⟨q.pid, .zombie q.xstate, q.parent⟩ := by
  simp [Proc.life, h, Procstate.phase]

theorem Proc.life_isSome (h : q.state ≠ .UNUSED) :
    ∃ ph, q.life = some ⟨q.pid, ph, q.parent⟩ := by
  unfold Proc.life
  cases hs : q.state <;> simp_all [Procstate.phase]

theorem Proc.life_parent (x : Option (Fin np)) :
    ({ q with parent := x }).life = q.life.map fun l => { l with parent := x } := by
  unfold Proc.life; cases q.state.phase q.xstate <;> rfl

@[simp] theorem wakeup1_life (ch : Chan np) : (wakeup1 q ch).life = q.life :=
  Proc.life_congr (wakeup1_kind _ _) (by unfold wakeup1; split_ifs <;> rfl) (wakeup1_parent _ _)
    (by unfold wakeup1; split_ifs <;> rfl)

@[simp] theorem sigkillFunc_life : (sigkillFunc q).life = q.life :=
  Proc.life_congr (by unfold sigkillFunc; split_ifs with h <;> simp [h, Procstate.kind]) rfl rfl rfl

end Life

theorem Table.ext' {T T' : Table np} (h : ∀ j, T'.procs j = T.procs j)
    (hi : T'.initproc = T.initproc) : T' = T := by
  cases T; cases T'; simp only [Table.mk.injEq]; exact ⟨funext h, hi⟩

section Steps

variable {σ σ' : Sys np nc} {c : Fin nc} {p : Fin np} {o : Out np}

/-- An operation that ends in the view of `σ'`. -/
theorem LStep.to_life {T T' : Table np} (h : LStep T T') (e : σ'.life = T') : LStep T σ'.life :=
  e ▸ h

theorem Sys.live_of_running (h : (σ.proc p).state = .RUNNING) : σ.life.Live p :=
  ⟨_, Proc.life_of_running h, rfl⟩

/-- A step that keeps every slot's life and `initproc` keeps the view. -/
theorem Sys.life_eq (h : ∀ j, (σ'.proc j).life = (σ.proc j).life)
    (hi : σ'.initproc = σ.initproc) : σ'.life = σ.life :=
  Table.ext' h hi

/-- A step that changes the life of slot `j` alone. -/
theorem Sys.life_eq_set {j : Fin np} {x : Option (Life np)}
    (h : ∀ i, i ≠ j → (σ'.proc i).life = (σ.proc i).life) (hj : (σ'.proc j).life = x)
    (hi : σ'.initproc = σ.initproc) : σ'.life = σ.life.set j x := by
  refine Table.ext' (fun i => ?_) hi
  by_cases hij : i = j
  · subst hij; simp [Table.set, hj, Sys.life]
  · simp [Table.set, Function.update_noteq hij, h i hij, Sys.life]

/-- One step of a thread is a lifecycle operation or leaves the view as it is. -/
theorem pstep_life (hw : Wf σ) (hpo : ParentOk σ) (hc : (σ.cpus c).proc = some p)
    (hs : PStep K σ c p o σ') : σ'.life = σ.life ∨ LStep σ.life σ'.life := by
  have hrun := hw.cpu.running hc
  cases hs
  case allocOk i q e _ hi _ _ hu ha _ =>
    obtain ⟨hU, -, hpid, hpar⟩ := allocproc_ok K ha
    refine .inr (LStep.to_life (.spawn σ.nextpid (Proc.life_of_unused hu))
      (Sys.life_eq_set (fun j hj => ?_) ?_ rfl))
    · simp only [Sys.setProc_proc, if_neg hj]; split_ifs <;> subst_vars <;> rfl
    · simp only [Sys.setProc_proc, if_true]
      rw [Proc.life_of_used (q := forkCopy _ q) hU]
      simp [forkCopy, hpid, hpar, hpo.free _ hu]
  case forkParent ch pid hpc _ =>
    obtain ⟨hU, hne, -⟩ := hw.child p ch ⟨by rw [hrun]; decide, by rw [hpc]; rfl⟩
    refine .inr (LStep.to_life (.link (Proc.life_of_used hU) rfl (Sys.live_of_running hrun))
      (Sys.life_eq_set (fun j hj => ?_) ?_ rfl))
    · simp only [Sys.setProc_proc, if_neg hj]; split_ifs <;> subst_vars <;> rfl
    · simp only [Sys.setProc_proc, if_neg hne, if_true]
      exact Proc.life_of_used hU
  case forkRunnable ch pid hpc _ =>
    obtain ⟨hU, hne, -⟩ := hw.child p ch ⟨by rw [hrun]; decide, by rw [hpc]; rfl⟩
    refine .inr (LStep.to_life (.start (Proc.life_of_used hU) rfl)
      (Sys.life_eq_set (fun j hj => ?_) ?_ rfl))
    · simp only [Sys.setProc_proc, if_neg hj]; split_ifs <;> subst_vars <;> rfl
    · simp only [Sys.setProc_proc, if_neg hne, if_true]
      simp [Proc.life, Procstate.phase]
  case reparentHit s i hpc hi hp =>
    have hip : ⟨i, hi⟩ ≠ p := by rintro rfl; exact hpo.no_self _ hp
    have hinit : σ.initproc ≠ none := fun h => by
      have := hpo.boot h p; rw [hrun] at this; cases this
    obtain ⟨ph, hl⟩ := Proc.life_isSome fun h => by rw [hpo.free _ h] at hp; cases hp
    refine .inr (LStep.to_life (.adopt hl hp (Sys.live_of_running hrun) hinit)
      (Sys.life_eq_set (fun j hj => ?_) ?_ rfl))
    · simp only [Sys.setProc_proc, if_neg hj]; split_ifs <;> subst_vars <;> rfl
    · simp only [Sys.setProc_proc, if_neg hip, if_true]
      rw [Proc.life_parent, hl]; rfl
  case exitZombie s hpc _ _ _ =>
    have hi := ((hpo.pcOk p (by rw [hrun]; decide)).1 np (by rw [hpc]; rfl)).1
    refine .inr (LStep.to_life (.die s (Proc.life_of_running hrun) rfl hi)
      (Sys.life_eq_set (fun j hj => ?_) ?_ rfl))
    · simp only [Sys.switchOut_proc, Sys.setProc_proc, Sys.setLock_proc, if_neg hj]
    · simp only [Sys.switchOut_proc, Sys.setProc_proc, Sys.setLock_proc, if_true]
      exact Proc.life_of_zombie rfl
  case waitReap a i hk hpc hi hp _ hz =>
    have hip : ⟨i, hi⟩ ≠ p := by rintro rfl; rw [hrun] at hz; cases hz
    refine .inr (LStep.to_life (.reap (Proc.life_of_zombie hz) rfl hp (Sys.live_of_running hrun))
      (Sys.life_eq_set (fun j hj => ?_) ?_ rfl))
    · simp only [Sys.setProc_proc, Sys.setLock_proc, if_neg hj]; split_ifs <;> subst_vars <;> rfl
    · simp only [Sys.setProc_proc, Sys.setLock_proc, if_neg hip, if_true]
      exact Proc.life_of_unused rfl
  -- the rest leave every slot's life as it is
  case allocFail i q e _ hi _ _ hu ha =>
    refine .inl (Sys.life_eq (fun j => ?_) rfl)
    simp only [Sys.setProc_proc]
    split_ifs <;> subst_vars
    exacts [(Proc.life_of_unused (allocproc_error K ha).1).trans (Proc.life_of_unused hu).symm,
      rfl, rfl]
  case copyFail i q e _ hi _ _ hu ha _ =>
    refine .inl (Sys.life_eq (fun j => ?_) rfl)
    simp only [Sys.setProc_proc]
    split_ifs <;> subst_vars
    exacts [(Proc.life_of_unused rfl).trans (Proc.life_of_unused hu).symm, rfl, rfl]
  case sigPriv q h =>
    refine .inl (Sys.life_eq (fun j => ?_) rfl)
    simp only [Sys.setProc_proc]
    split_ifs <;> subst_vars
    exacts [by rw [sigStep_frame h]; rfl, rfl]
  case sigactionCall signum act actAddr _ =>
    obtain ⟨_, e⟩ := sigaction_snd K (σ.proc p) signum act actAddr
    refine .inl (Sys.life_eq (fun j => ?_) rfl)
    simp only [Sys.setProc_proc, e]
    split_ifs <;> subst_vars <;> rfl
  all_goals
    refine .inl (Sys.life_eq (fun j => ?_) rfl)
    try simp only [Sys.setProc_proc, Sys.setLock_proc, Sys.switchOut_proc, Sys.setPc_eq]
  all_goals (try split_ifs) <;> (try subst_vars) <;> first
      | rfl
      | exact wakeup1_life _
      | exact sigkillFunc_life
      | exact Proc.life_congr (by rw [hrun]; rfl) rfl rfl rfl

/-- **The process table refines its lifecycle.** A step of the machine from a
reachable state leaves the lifecycle view as it is or carries out one lifecycle
operation on it. -/
theorem step_refines_lifecycle (hr : Reachable K σ) (hs : Step K σ c o σ') :
    σ'.life = σ.life ∨ LStep σ.life σ'.life := by
  cases hs with
  | proc hc hs => exact pstep_life hr.wf hr.parentOk hc hs
  | schedSkip | schedWrap | intrCall | intrDone => exact .inl rfl
  | @intrSlot a i _ _ hi _ =>
    refine .inl (Sys.life_eq (fun j => ?_) rfl)
    show ((σ.setProc _ _).proc j).life = _
    rcases eq_or_ne j ⟨i, hi⟩ with rfl | hj
    · simp
    · simp [hj]
  | schedRun i _ _ _ hst hres =>
    refine .inl (Sys.life_eq (fun j => ?_) rfl)
    simp only [Sys.setCpu_proc, Sys.setProc_proc]
    split_ifs with h
    · subst h; rw [resume_frame hres]; exact Proc.life_congr (by rw [hst]; rfl) rfl rfl rfl
    · rfl
  | userinit i e cwd _ h0 _ hu _ _ ha =>
    obtain ⟨hU, -, hpid, hpar⟩ := allocproc_ok K ha
    refine .inr (LStep.to_life (.boot σ.nextpid h0 (Proc.life_of_unused hu)) ?_)
    refine Table.ext' (fun j => ?_) rfl
    by_cases hj : j = i
    · subst hj
      simp [Sys.life, Proc.life, userinitProc, Procstate.phase, hpid, hpar, hr.parentOk.free _ hu, hU]
    · simp [Sys.life, hj]

theorem procinit_life : (procinit K : Sys np nc).life = ⟨fun _ => none, none⟩ :=
  Table.ext' (fun j => Proc.life_of_unused (q := (procinit K : Sys np nc).proc j) rfl) rfl

theorem Reachable.lreach (hr : Reachable K σ) : LReach σ.life := by
  induction hr with
  | init => rw [procinit_life]; exact .empty
  | step hr hs ih =>
    rcases step_refines_lifecycle hr hs with h | h
    · rw [h]; exact ih
    · exact ih.step h

/-- **The lifecycle view of every reachable state is reached by the lifecycle
operations,** and each step from such a state carries one out or leaves the view
as it is. -/
theorem lifecycle_refinement (hr : Reachable K σ) :
    LReach σ.life ∧ ∀ c o σ', Step K σ c o σ' → σ'.life = σ.life ∨ LStep σ.life σ'.life :=
  ⟨hr.lreach, fun _ _ _ hs => step_refines_lifecycle hr hs⟩

/-- The boot table, with `initcode` running. -/
theorem lifecycle_refinement_boot : Reachable Param.std (bootSys Param.std) ∧
    LReach (bootSys Param.std).life ∧ ∀ c o σ', Step Param.std (bootSys Param.std) c o σ' →
      σ'.life = (bootSys Param.std).life ∨ LStep (bootSys Param.std).life σ'.life :=
  ⟨bootSys_reachable, lifecycle_refinement bootSys_reachable⟩

/-! ## What the code keeps, through the view -/

theorem Proc.of_life_live {pid : Int} {x : Option (Fin np)} {q : Proc np}
    (h : q.life = some ⟨pid, .live, x⟩) :
    (q.state = .RUNNABLE ∨ q.state = .RUNNING ∨ q.state = .SLEEPING) ∧ q.parent = x := by
  unfold Proc.life at h
  cases hs : q.state <;> simp_all [Procstate.phase]

/-- A step from a reachable state keeps the pid of a slot in use before and after it. -/
theorem step_pid_eq (hr : Reachable K σ) (hs : Step K σ c o σ') {P : Fin np}
    (hu : (σ.proc P).state ≠ .UNUSED) (hu' : (σ'.proc P).state ≠ .UNUSED) :
    (σ'.proc P).pid = (σ.proc P).pid := by
  obtain ⟨_, hl⟩ := Proc.life_isSome hu
  obtain ⟨_, hl'⟩ := Proc.life_isSome hu'
  rcases step_refines_lifecycle hr hs with h | h
  · have e : (σ'.proc P).life = (σ.proc P).life := congrArg (·.procs P) h
    rw [e, hl] at hl'
    simp only [Option.some.injEq, Life.mk.injEq] at hl'
    exact hl'.1.symm
  · exact h.pid_eq hl hl'

/-- **A process keeps its pid for as long as its slot is in use.** Along any run
over any number of CPUs from a reachable state, while slot `P` is not UNUSED, its
pid is the one it had at the start: `allocpid` draws a pid only for a free slot, and
no other step writes one, so the pid `kill` and `wait` go by names one process for
its whole life. -/
theorem pid_fixed_while_in_use {τ : Nat → Sys np nc} {n : Nat} {P : Fin np} (htr : Trace K τ n)
    (hr : Reachable K (τ 0)) (hu : ∀ t ≤ n, ((τ t).proc P).state ≠ .UNUSED) :
    ∀ t ≤ n, ((τ t).proc P).pid = ((τ 0).proc P).pid := by
  intro t ht
  induction t with
  | zero => rfl
  | succ t ih =>
    obtain ⟨c, o, hs⟩ := htr t (by omega)
    rw [step_pid_eq (htr.reachable hr t (by omega)) hs (hu t (by omega)) (hu (t + 1) ht),
      ih (by omega)]

/-- initcode keeps its pid while it starts a `fork`. -/
theorem pid_fixed_while_in_use_fork : ∃ τ : Nat → Sys 2 1, Trace Param.std τ 1 ∧
    Reachable Param.std (τ 0) ∧ (∀ t ≤ 1, ((τ t).proc 0).state ≠ .UNUSED) ∧
      ∀ t ≤ 1, ((τ t).proc 0).pid = ((τ 0).proc 0).pid := by
  let τ : Nat → Sys 2 1 := fun t => if t = 0 then bootSys Param.std else
    (bootSys Param.std).setProc 0 { (bootSys Param.std).proc 0 with pc := .allocScan 0 }
  have htr : Trace Param.std τ 1 := fun t ht => by
    obtain rfl : t = 0 := by omega
    exact ⟨0, _, Step.proc rfl (PStep.forkCall rfl)⟩
  have hu : ∀ t ≤ 1, ((τ t).proc 0).state ≠ .UNUSED := fun t ht => by
    rcases Nat.le_one_iff_eq_zero_or_eq_one.1 ht with rfl | rfl <;> decide
  exact ⟨τ, htr, bootSys_reachable, hu, pid_fixed_while_in_use htr bootSys_reachable hu⟩

/-- In a reachable state, `initproc`'s slot is live and has no parent. -/
theorem Reachable.initproc_live {r : Fin np} (hr : Reachable K σ) (hi : σ.initproc = some r) :
    ((σ.proc r).state = .RUNNABLE ∨ (σ.proc r).state = .RUNNING ∨ (σ.proc r).state = .SLEEPING) ∧
      (σ.proc r).parent = none :=
  Proc.of_life_live (hr.lreach.initLive r hi).choose_spec

theorem Reachable.initproc_used {r : Fin np} (hr : Reachable K σ) (hi : σ.initproc = some r) :
    (σ.proc r).state ≠ .UNUSED := fun hu => by
  obtain ⟨_, hl⟩ := hr.lreach.initLive r hi
  have e : (σ.proc r).life = _ := hl
  rw [Proc.life_of_unused hu] at e; cases e

/-- **`initproc` never exits.** `exit` panics rather than let `initproc` go, and no
other operation takes its slot: once `userinit` has run, every state reached from
there keeps `initproc` on the same slot, with the same pid, RUNNABLE, RUNNING or
SLEEPING, and with no parent. -/
theorem initproc_lives_forever {r : Fin np} (hr : Reachable K σ) (hi : σ.initproc = some r)
    (hrun : Run K σ σ') :
    σ'.initproc = some r ∧ (σ'.proc r).pid = (σ.proc r).pid ∧ (σ'.proc r).parent = none ∧
      ((σ'.proc r).state = .RUNNABLE ∨ (σ'.proc r).state = .RUNNING ∨
        (σ'.proc r).state = .SLEEPING) := by
  induction hrun with
  | refl => exact ⟨hi, rfl, (hr.initproc_live hi).2, (hr.initproc_live hi).1⟩
  | tail hrun hs ih =>
    obtain ⟨c, o, hs⟩ := hs
    have hr₁ := hr.run hrun
    have hi' := step_initproc hs ih.1
    have hr' := hr₁.step hs
    exact ⟨hi', (step_pid_eq hr₁ hs (hr₁.initproc_used ih.1) (hr'.initproc_used hi')).trans ih.2.1,
      (hr'.initproc_live hi').2, (hr'.initproc_live hi').1⟩

/-- initcode, `initproc` of the boot table, starts a `fork`. -/
theorem initproc_lives_forever_fork : ∃ σ' : Sys 2 1, Reachable Param.std (bootSys Param.std) ∧
    (bootSys Param.std).initproc = some 0 ∧ Run Param.std (bootSys Param.std) σ' ∧
    σ'.initproc = some 0 ∧ (σ'.proc 0).pid = ((bootSys Param.std).proc 0).pid ∧
      (σ'.proc 0).parent = none ∧ ((σ'.proc 0).state = .RUNNABLE ∨
        (σ'.proc 0).state = .RUNNING ∨ (σ'.proc 0).state = .SLEEPING) := by
  have hrun := Run.single (Step.proc (K := Param.std) (σ := bootSys Param.std) (c := 0) rfl
    (PStep.forkCall (p := 0) rfl))
  exact ⟨_, bootSys_reachable, rfl, hrun, initproc_lives_forever bootSys_reachable rfl hrun⟩

end Steps

end RiscvProc
