import RiscvProc.Pass
import RiscvProc.Reap

/-!
# The locking discipline

`proc.c` writes a record's `state`, `chan`, `killed`, `xstate` and `pid` only with
the record's `p->lock` held, and `pending_signals` as well, which `kill` and
`turnoff_sigbit` change under it; `nextpid` only under `pid_lock`; a `parent` link
only under `wait_lock`; and `cpus[c]` only from CPU `c`. A critical section is one
step of the model, so the discipline reads: a step that changes one of these fields
acquires the lock that guards it, free until then, or, for a `parent` link, runs
while its CPU holds `wait_lock` (`reparent` in `exit`, the `freeproc` of `wait`).

The other fields of a record are guarded by no lock: `sigprocmask`, `sigaction` and
the stop and continue updates of `signalhandler` write the caller's own record
without one. Another thread's record is written only under its lock (`wakeup`,
`kill`, the slot `fork` builds, the ZOMBIE `wait` frees), except for its `parent`
link, which `fork` and `reparent` write under `wait_lock` alone.
-/

namespace RiscvProc

variable {np nc : Nat} {K : Param}
variable {σ σ' : Sys np nc} {c : Fin nc} {p : Fin np} {o : Out np}

/-- The fields of a record that `p->lock` guards. -/
def Proc.guarded (q : Proc np) : Procstate × Chan np × Int × Int × Int × BitVec 32 :=
  (q.state, q.chan, q.killed, q.xstate, q.pid, q.pendingSignals)

/-- What the locks of `proc.c` guard, over one step of CPU `c` with output `o`. -/
structure UnderLocks (σ σ' : Sys np nc) (c : Fin nc) (o : Out np) : Prop where
  guarded : ∀ j, (σ'.proc j).guarded ≠ (σ.proc j).guarded →
    .proc j ∈ o.acq ∧ σ.lock (.proc j) = none
  nextpid : σ'.nextpid ≠ σ.nextpid → .pidLock ∈ o.acq ∧ σ.lock .pidLock = none
  parent : ∀ z, (σ'.proc z).parent ≠ (σ.proc z).parent →
    (.waitLock ∈ o.acq ∧ σ.lock .waitLock = none) ∨ σ.lock .waitLock = some c
  cpus : ∀ d, σ'.cpus d ≠ σ.cpus d → d = c
  foreign : ∀ j, (σ.cpus c).proc ≠ some j → σ'.proc j ≠ σ.proc j →
    (.proc j ∈ o.acq ∧ σ.lock (.proc j) = none) ∨
      σ'.proc j = { σ.proc j with parent := (σ'.proc j).parent }

/-- A step acquires only free locks: `acquire` spins while another CPU holds one. -/
theorem step_acq_free (hs : Step K σ c o σ') {l : Lk np} (hl : l ∈ o.acq) : σ.lock l = none := by
  cases hs with
  | proc _ hs =>
    cases hs <;> simp only [List.mem_cons, List.mem_singleton, List.not_mem_nil, or_false] at hl <;>
      rcases hl with rfl | rfl <;> assumption
  | _ =>
    simp only [List.mem_cons, List.mem_singleton, List.not_mem_nil, or_false] at hl <;>
      rcases hl with rfl | rfl <;> assumption

/-- A step of the thread of `p` writes another record only in a section of that
record's lock, or writes its `parent` link alone. -/
theorem pstep_foreign (hs : PStep K σ c p o σ') {j : Fin np} (hjp : j ≠ p)
    (hne : σ'.proc j ≠ σ.proc j) :
    .proc j ∈ o.acq ∨ σ'.proc j = { σ.proc j with parent := (σ'.proc j).parent } := by
  cases hs
  case killRange => exact absurd rfl hne
  case forkParent | reparentHit =>
    right; simp only [Sys.setProc_proc]; split_ifs <;> subst_vars <;> first | rfl | contradiction
  all_goals first
    | exact absurd (Function.update_noteq hjp _ _) hne
    | revert hne
      simp only [Sys.setProc_proc, Sys.setLock_proc, Sys.switchOut_proc, Sys.setPc_eq]
      split_ifs <;> subst_vars <;> intro hne <;>
        first | contradiction | exact absurd rfl hne | exact .inl (by simp)

/-- A thread writes the guarded fields of its own record only in a section of its
`p->lock`. -/
theorem pstep_own_guarded (hs : PStep K σ c p o σ') (hp : .proc p ∉ o.acq) :
    (σ'.proc p).guarded = (σ.proc p).guarded := by
  cases hs
  case killRange => rfl
  case sigPriv q h => simp only [Sys.setProc_proc, if_pos rfl]; rw [sigStep_frame h]; rfl
  case sigactionCall signum act actAddr hpc =>
    obtain ⟨_, e⟩ := sigaction_snd K (σ.proc p) signum act actAddr
    simp only [Sys.setProc_proc, if_pos rfl, e]; rfl
  all_goals
    simp only [Sys.setProc_proc, Sys.setLock_proc, Sys.switchOut_proc, Sys.setPc_eq, if_pos rfl]
    split_ifs <;> subst_vars <;> first | rfl | simp at hp

/-- A step of a thread that does not acquire `p->lock` of slot `j` leaves the fields
that lock guards: in another thread's record it writes at most the `parent` link. -/
theorem pstep_guarded (hs : PStep K σ c p o σ') {j : Fin np} (hj : .proc j ∉ o.acq) :
    (σ'.proc j).guarded = (σ.proc j).guarded := by
  by_cases hjp : j = p
  · subst hjp; exact pstep_own_guarded hs hj
  by_contra hne
  rcases pstep_foreign hs hjp fun h => hne (by rw [h]) with h | h
  · exact hj h
  · exact hne (by rw [h]; rfl)

theorem step_guarded (hs : Step K σ c o σ') {j : Fin np} (hj : .proc j ∉ o.acq) :
    (σ'.proc j).guarded = (σ.proc j).guarded := by
  cases hs with
  | proc _ hs => exact pstep_guarded hs hj
  | schedSkip | schedWrap | intrCall | intrDone => rfl
  | _ =>
    simp only [Sys.setCpu_proc, Sys.setProc_proc, Sys.setIntr_proc]
    split_ifs <;> subst_vars <;> first | rfl | simp at hj

/-- `nextpid` moves only in `allocpid`, under `pid_lock`. -/
theorem step_nextpid (hs : Step K σ c o σ') (h : σ'.nextpid ≠ σ.nextpid) : .pidLock ∈ o.acq := by
  cases hs with
  | proc _ hs => cases hs <;> first | exact absurd rfl h | simp
  | _ => first | exact absurd rfl h | simp

/-- Only CPU `c` writes `cpus[c]`. -/
theorem step_cpus (hs : Step K σ c o σ') {d : Fin nc} (hd : d ≠ c) : σ'.cpus d = σ.cpus d := by
  cases hs with
  | proc _ hs => cases hs <;> simp [hd]
  | _ => simp [hd]

theorem step_parent_change (hw : Wf σ) (hpo : ParentOk σ) (hs : Step K σ c o σ') {z : Fin np}
    (hne : (σ'.proc z).parent ≠ (σ.proc z).parent) :
    (.waitLock ∈ o.acq ∧ σ.lock .waitLock = none) ∨ σ.lock .waitLock = some c := by
  cases hs with
  | proc hc hs => exact (pstep_parent_change hpo hs hne).imp_right (hw.holds_iff hc id).1
  | schedSkip | schedWrap | intrCall | intrDone => exact absurd rfl hne
  | intrSlot => exact absurd (setProc_parent_of (wakeup1_parent _ _) z) hne
  | schedRun i _ _ _ _ hr =>
    refine absurd ?_ hne
    simp only [Sys.setCpu_proc, Sys.setProc_proc]
    split_ifs with h
    · rw [h]; exact (resume_parent hr).1
    · rfl
  | userinit i e cwd _ _ _ _ _ _ ha =>
    refine absurd ?_ hne
    simp only [Sys.setProc_proc]
    split_ifs with h
    · rw [h]; exact (allocproc_ok K ha).2.2.2
    · rfl

theorem step_foreign (hs : Step K σ c o σ') {j : Fin np} (hj : (σ.cpus c).proc ≠ some j)
    (hne : σ'.proc j ≠ σ.proc j) :
    .proc j ∈ o.acq ∨ σ'.proc j = { σ.proc j with parent := (σ'.proc j).parent } := by
  cases hs with
  | proc hc hs => exact pstep_foreign hs (fun h => hj (h ▸ hc)) hne
  | schedSkip | schedWrap | intrCall | intrDone => exact absurd rfl hne
  | _ =>
    simp only [Sys.setCpu_proc, Sys.setProc_proc, Sys.setIntr_proc] at hne ⊢
    split_ifs at hne ⊢ <;> subst_vars <;> first | exact absurd rfl hne | exact .inl (by simp)

theorem fields_written_under_their_locks (hr : Reachable K σ) (hs : Step K σ c o σ') :
    UnderLocks σ σ' c o where
  guarded j h :=
    have hj : .proc j ∈ o.acq := by_contra fun hj => h (step_guarded hs hj)
    ⟨hj, step_acq_free hs hj⟩
  nextpid h := ⟨step_nextpid hs h, step_acq_free hs (step_nextpid hs h)⟩
  parent _ h := step_parent_change hr.wf hr.parentOk hs h
  cpus _ h := by_contra fun hd => h (step_cpus hs hd)
  foreign _ hj h := (step_foreign hs hj h).imp_left fun h => ⟨h, step_acq_free hs h⟩

theorem fields_written_under_their_locks_boot :
    ∃ (σ σ' : Sys 2 1) (o : Out 2), Reachable Param.std σ ∧ Step Param.std σ 0 o σ' ∧
      (σ.proc 1).state = .ZOMBIE ∧ (σ'.proc 1).state = .UNUSED ∧ o.ret = some 2 ∧
      UnderLocks σ σ' 0 o := by
  obtain ⟨σ, σ', o, hr, hs, hz, -, -, -, -, hu, ho, -⟩ := child_reaped_boot
  exact ⟨σ, σ', o, hr, hs, hz, hu, ho, fields_written_under_their_locks hr hs⟩

end RiscvProc
