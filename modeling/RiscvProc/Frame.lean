import RiscvProc.Sched
import RiscvProc.Parent

/-!
# What a step leaves alone

A step of the thread of `p` touches the records of other slots only the way
`proc.c` does: `wakeup` makes a sleeper on its channel RUNNABLE, `fork` builds and
links its child, `kill` raises a pending bit, `exit` relinks children and `wait`
frees a ZOMBIE under `wait_lock`. So the point of every other live thread stays,
a RUNNING or RUNNABLE one keeps its state, a SLEEPING one its channel, and while
`wait_lock` is held on another CPU every parent link of a live slot stays.
-/

namespace RiscvProc

variable {np nc : Nat} {K : Param}
variable {σ σ' : Sys np nc} {c : Fin nc} {p z E : Fin np} {o : Out np}

@[simp] theorem wakeup1_chan (q : Proc np) (ch : Chan np) : (wakeup1 q ch).chan = q.chan := by
  unfold wakeup1; split_ifs <;> rfl

theorem wakeup1_of_not_sleeping {q : Proc np} (h : q.state ≠ .SLEEPING) (ch : Chan np) :
    wakeup1 q ch = q := by
  unfold wakeup1; rw [if_neg fun h' => h h'.1]

theorem setProc_parent_of {j : Fin np} {q : Proc np} (hq : q.parent = (σ.proc j).parent)
    (i : Fin np) : ((σ.setProc j q).proc i).parent = (σ.proc i).parent := by
  by_cases h : i = j <;> simp [h, hq]

theorem setProc_setProc_parent_of {j : Fin np} {x y : Proc np}
    (hx : x.parent = (σ.proc j).parent) (hy : y.parent = (σ.proc p).parent) (i : Fin np) :
    (((σ.setProc j x).setProc p y).proc i).parent = (σ.proc i).parent :=
  (setProc_parent_of (by rw [setProc_parent_of hx]; exact hy) i).trans (setProc_parent_of hx i)

/-- A step of `p` leaves another live thread at its point; a RUNNING or RUNNABLE
one keeps its state and a SLEEPING one its channel. -/
theorem pstep_other (hw : Wf σ) (hc : (σ.cpus c).proc = some p) (hs : PStep K σ c p o σ')
    (hz : z ≠ p) (hu : (σ.proc z).state ≠ .UNUSED) :
    (σ'.proc z).pc = (σ.proc z).pc ∧
    ((σ.proc z).state = .RUNNING ∨ (σ.proc z).state = .RUNNABLE →
      (σ'.proc z).state = (σ.proc z).state) ∧
    ((σ.proc z).state = .SLEEPING → (σ'.proc z).chan = (σ.proc z).chan) := by
  have hrun := hw.running hc
  cases hs
  case allocFail k q e hpc hk hl hpl hu' ha | allocOk k q e hpc hk hl hpl hu' ha _
    | copyFail k q e hpc hk hl hpl hu' ha _ =>
    have : z ≠ ⟨k, hk⟩ := by rintro rfl; exact hu hu'
    simp [this, hz]
  case forkRunnable ch pid hpc hl =>
    obtain ⟨hU, -, -⟩ := hw.child p ch ⟨by simp [hrun], by simp [hpc, Pc.forkChild]⟩
    by_cases hzc : z = ch
    · subst hzc; simp [hz, hU]
    · simp [hzc, hz]
  case forkParent ch pid hpc hl =>
    by_cases hzc : z = ch
    · subst hzc; simp [hz]
    · simp [hzc, hz]
  case wakeupSlot chan k kk hpc hk hne hl =>
    by_cases hzk : z = ⟨k, hk⟩
    · subst hzk
      simp only [Sys.setProc_proc, if_neg hz, if_true, wakeup1_pc, wakeup1_chan]
      refine ⟨trivial, fun h => ?_, fun _ => trivial⟩
      rw [wakeup1_of_not_sleeping (by rcases h with h | h <;> simp [h])]
    · simp [hzk, hz]
  case reparentHit s k hpc hk hp | waitReap a k hkid hpc hk hp hl hzb
    | killHit pid s k hpc hk hl heq hok =>
    by_cases hzk : z = ⟨k, hk⟩
    · subst hzk; simp_all [freeproc]
    · simp [hzk, hz]
  case killRange => simp
  all_goals simp [hz]

/-- While `wait_lock` is held on another CPU, a step keeps every parent link of
a live slot. -/
theorem pstep_parent_of_held (hw : Wf σ) (hpo : ParentOk σ) (hc : (σ.cpus c).proc = some p)
    (hs : PStep K σ c p o σ') {d : Fin nc} (hl : σ.lock .waitLock = some d) (hd : d ≠ c)
    (hz : (σ.proc z).parent = some E) : (σ'.proc z).parent = some E := by
  have hnh : ¬ (σ.proc p).pc.Holds .waitLock := fun h =>
    hd (Option.some.inj (hl.symm.trans ((hw.holds_iff hc id).1 h)))
  have hzu : (σ.proc z).state ≠ .UNUSED := fun h => by rw [hpo.free z h] at hz; cases hz
  cases hs
  case allocFail k q e hpc hk hl hpl hu ha | allocOk k q e hpc hk hl hpl hu ha _
    | copyFail k q e hpc hk hl hpl hu ha _ =>
    have : z ≠ ⟨k, hk⟩ := by rintro rfl; exact hzu hu
    simp only [Sys.setProc_proc, if_neg this]
    split_ifs with hzp
    · subst hzp; exact hz
    · exact hz
  case forkParent ch pid hpc hl' => rw [hl] at hl'; cases hl'
  case reparentHit s k hpc hk hp => exact absurd (by rw [hpc]; rfl) hnh
  case waitReap a k hkid hpc hk hp hl' hzb => exact absurd (by rw [hpc]; rfl) hnh
  case wakeupSlot => exact (setProc_setProc_parent_of (wakeup1_parent _ _) (by rfl) z).trans hz
  case forkRunnable => exact (setProc_setProc_parent_of (by rfl) (by rfl) z).trans hz
  case killHit => exact (setProc_parent_of (by rfl) z).trans ((setProc_parent_of (by rfl) z).trans hz)
  case sigPriv q h => exact (setProc_parent_of (sigStep_parent h).1 z).trans hz
  case sigactionCall signum act actAddr hpc =>
    obtain ⟨hd, e⟩ := sigaction_snd K (σ.proc p) signum act actAddr
    rw [e]; exact (setProc_parent_of (by rfl) z).trans hz
  case killRange => exact hz
  all_goals exact (setProc_parent_of (by rfl) z).trans hz

theorem setProc_state_changed {j : Fin np} {q : Proc np}
    (h : ((σ.setProc j q).proc z).state ≠ (σ.proc z).state) : z = j :=
  by_contra fun hz => h (by simp [hz])

/-- A `wakeup` of slot `j` changes no record that is not asleep before it. -/
theorem setProc_wakeup1_of_not_sleeping {j : Fin np} {ch : Chan np}
    (h : (σ.proc z).state ≠ .SLEEPING) : (σ.setProc j (wakeup1 (σ.proc j) ch)).proc z = σ.proc z := by
  by_cases hz : z = j
  · subst hz; simp [wakeup1_of_not_sleeping h]
  · simp [hz]

/-- Nor any point. -/
@[simp] theorem setProc_wakeup1_pc {j : Fin np} {ch : Chan np} :
    ((σ.setProc j (wakeup1 (σ.proc j) ch)).proc z).pc = (σ.proc z).pc := by
  by_cases hz : z = j
  · subst hz; simp
  · simp [hz]

/-- A `wakeup` of slot `j` changes no record that is not RUNNABLE afterwards. -/
theorem setProc_wakeup1_of_ne {j : Fin np} {ch : Chan np}
    (h : ((σ.setProc j (wakeup1 (σ.proc j) ch)).proc z).state ≠ .RUNNABLE) :
    (σ.setProc j (wakeup1 (σ.proc j) ch)).proc z = σ.proc z := by
  by_cases hz : z = j
  · subst hz
    simp only [Sys.setProc_proc, if_true] at h ⊢
    unfold wakeup1 at h ⊢
    split_ifs at h ⊢
    · exact absurd rfl h
    · rfl
  · simp [hz]


/-- A step of `p` changes the record of another RUNNING or RUNNABLE slot only as a
`kill` raising one of its pending bits, or as `reparent` handing it to `initproc`. -/
theorem pstep_other_live (hw : Wf σ) (hc : (σ.cpus c).proc = some p) (hs : PStep K σ c p o σ')
    (hz : z ≠ p) (hr : (σ.proc z).state = .RUNNING ∨ (σ.proc z).state = .RUNNABLE) :
    σ'.proc z = σ.proc z ∨
      (∃ s, σ'.proc z = { σ.proc z with
        pendingSignals := (σ.proc z).pendingSignals ||| sigBit s }) ∨
      σ'.proc z = { σ.proc z with parent := σ.initproc } := by
  have hst : ∀ x, (σ.proc z).state = x → x = .RUNNING ∨ x = .RUNNABLE := fun x h => h ▸ hr
  have hch : ∀ ch, Claims σ p ch → z ≠ ch := fun ch h e => by
    have := hst _ (e ▸ (hw.child p ch h).1); simp at this
  cases hs
  case allocFail k q e hpc hk hl hpl hu' ha | allocOk k q e hpc hk hl hpl hu' ha _
    | copyFail k q e hpc hk hl hpl hu' ha _ =>
    have : z ≠ ⟨k, hk⟩ := by rintro rfl; simpa using hst _ hu'
    simp [this, hz]
  case forkRunnable ch pid hpc hl | forkParent ch pid hpc hl =>
    have := hch ch ⟨by simp [hw.running hc], by simp [hpc, Pc.forkChild]⟩
    simp [this, hz]
  case wakeupSlot chan k kk hpc hk hne hl =>
    left
    rw [Sys.setProc_proc, if_neg hz]
    exact setProc_wakeup1_of_not_sleeping (by rcases hr with h | h <;> simp [h])
  case reparentHit s k hpc hk hp =>
    by_cases hzk : z = ⟨k, hk⟩
    · subst hzk; simp [hz]
    · simp [hzk, hz]
  case waitReap a k hkid hpc hk hp hl hzb =>
    have : z ≠ ⟨k, hk⟩ := by rintro rfl; simpa using hst _ hzb
    simp [this, hz]
  case killHit pid s k hpc hk hl heq hok =>
    by_cases hzk : z = ⟨k, hk⟩
    · subst hzk; exact .inr (.inl ⟨s, by simp [hz]⟩)
    · simp [hzk, hz]
  all_goals simp [hz]

/-- A step changes the record of a RUNNING or RUNNABLE slot that its CPU does not run
only as another thread's `kill` or `reparent`, or as the scheduler switching into it. -/
theorem step_other_live (hw : Wf σ) (hs : Step K σ c o σ') (hz : (σ.cpus c).proc ≠ some z)
    (hr : (σ.proc z).state = .RUNNING ∨ (σ.proc z).state = .RUNNABLE) :
    σ'.proc z = σ.proc z ∨
      (∃ s, σ'.proc z = { σ.proc z with
        pendingSignals := (σ.proc z).pendingSignals ||| sigBit s }) ∨
      σ'.proc z = { σ.proc z with parent := σ.initproc } ∨
      ∃ q, (σ.proc z).state = .RUNNABLE ∧ resume (σ.proc z) = some q ∧
        σ'.proc z = { q with state := .RUNNING } := by
  cases hs with
  | proc hc h =>
    rcases pstep_other_live hw hc h (by rintro rfl; exact hz hc) hr with h | h | h
    exacts [.inl h, .inr (.inl h), .inr (.inr (.inl h))]
  | schedRun i _ _ _ hi hq =>
    by_cases hzi : z = i
    · subst hzi; exact .inr (.inr (.inr ⟨_, hi, hq, by simp⟩))
    · exact .inl (by simp [hzi])
  | userinit i e cwd _ _ _ hu =>
    have : z ≠ i := by rintro rfl; rcases hr with h | h <;> rw [h] at hu <;> cases hu
    exact .inl (by simp [this])
  | intrSlot =>
    exact .inl (setProc_wakeup1_of_not_sleeping (by rcases hr with h | h <;> simp [h]))
  | schedSkip | schedWrap | intrCall | intrDone => exact .inl rfl

end RiscvProc
