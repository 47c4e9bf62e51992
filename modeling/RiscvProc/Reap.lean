import RiscvProc.Frame
import RiscvProc.Wait

/-!
# `wait` hands each exit status over once

`wait(addr)` scans the table under `wait_lock`. At a ZOMBIE child it copies
`xstate` out to `addr`, calls `freeproc` and returns the child's pid, all in one
section under the child's lock; when the `copyout` fails it returns -1 and frees
nothing. At the end of the table it returns -1 if it found no child and sleeps
otherwise.

- `pstep_waitScan`: the six steps the scan can take from one slot;
- `pstep_state_change`, `step_unused`: a step frees a slot only as the reap of a
  ZOMBIE child of the stepping thread, and makes a ZOMBIE only as the last
  section of that thread's own `exit`;
- `run_zombie_from_exit`: so between two reaps of one slot its thread has run
  `exit` again;
- `ScanOk`: a child the scan has found (`havekids = 1`) is still a child, since
  `wait_lock` keeps every other thread from relinking it; so a thread with no
  child never sleeps in `wait`;
- `wait_exit_status_once`, which puts them together.

The other way round, a scan that has found no child has seen none below its index
(`ScanNone`): while the scanning thread holds `wait_lock`, no step of another thread
changes a parent link (`pstep_parent_eq_of_held`). So `wait` returns -1 only to a
caller with no child, a killed one, after a failed `copyout`, or when the child it
reaps has pid -1 (`wait_fails_only_without_child`).
-/

namespace RiscvProc

variable {np nc : Nat} {K : Param}

/-- The slot the scan of `wait` has reached once it has found a child, looking
through the calls that keep `wait_lock` held. -/
def Pc.foundKids : Pc np → Option Nat
  | .waitScan _ i true => some i
  | .wakeupScan _ _ k | .sigKill k | .sigTurnoff _ k => foundKids k
  | _ => none

theorem Pc.holds_of_foundKids {k : Pc np} {i : Nat} (h : k.foundKids = some i) :
    k.Holds .waitLock := by
  induction k with
  | waitScan _ _ hk => cases hk <;> simp_all [foundKids, Holds]
  | wakeupScan _ _ k ih | sigKill k ih | sigTurnoff _ k ih => exact ih h
  | _ => simp [foundKids] at h

theorem Pc.foundKids_of_not_holds {k : Pc np} (h : ¬ k.Holds .waitLock) : k.foundKids = none :=
  Option.eq_none_iff_forall_not_mem.2 fun _ hi => h (holds_of_foundKids hi)

variable {σ σ' τ : Sys np nc} {c : Fin nc} {p z E : Fin np} {o : Out np}

/-! ## Freeing a slot, making a ZOMBIE -/

/-- In this step `wait` on the thread of `p` reaps slot `z`, a ZOMBIE child of `p`,
and returns its pid. -/
def Reaps (σ : Sys np nc) (p z : Fin np) (o : Out np) : Prop :=
  (∃ a hk, (σ.proc p).pc = .waitScan a z.val hk) ∧ (σ.proc z).state = .ZOMBIE ∧
    (σ.proc z).parent = some p ∧ o.ret = some (σ.proc z).pid

/-- In this step the thread of `z` runs the last section of its `exit(s)`: the
slot is a ZOMBIE with exit status `s`. -/
def Exits (σ σ' : Sys np nc) (z : Fin np) : Prop :=
  ∃ s, (σ.proc z).pc = .exitZombie s ∧ (σ'.proc z).state = .ZOMBIE ∧
    (σ'.proc z).pc = .exited s ∧ (σ'.proc z).xstate = s

/-- A step of a kernel thread makes a slot UNUSED only by reaping it in `wait`, and
a ZOMBIE only by that slot's own `exit`. -/
theorem pstep_state_change (hw : Wf σ) (hc : (σ.cpus c).proc = some p)
    (hs : PStep K σ c p o σ') (hne : (σ'.proc z).state ≠ (σ.proc z).state) :
    ((σ'.proc z).state = .UNUSED → Reaps σ p z o) ∧
    ((σ'.proc z).state = .ZOMBIE → z = p ∧ Exits σ σ' z) := by
  have hrun := hw.running hc
  cases hs
  case waitReap a k hkid hpc hk hp hl hz =>
    have hkp : (⟨k, hk⟩ : Fin np) ≠ p := by rintro rfl; rw [hrun] at hz; cases hz
    obtain rfl : z = ⟨k, hk⟩ := by
      by_contra hzk
      by_cases hzp : z = p
      · subst hzp; simp at hne
      · simp [hzk, hzp] at hne
    exact ⟨fun _ => ⟨⟨a, hkid, hpc⟩, hz, hp, rfl⟩, fun h => by simp [hkp, freeproc] at h⟩
  case exitZombie s hpc hl hwl ho =>
    obtain rfl : z = p := setProc_state_changed hne
    exact ⟨fun h => by simp at h, fun _ => ⟨rfl, s, hpc, by simp, by simp, by simp⟩⟩
  case allocFail k q e hpc hk hl hpl hu ha =>
    by_cases hzk : z = ⟨k, hk⟩
    · subst hzk; simp [(allocproc_error K ha).1, hu] at hne
    · by_cases hzp : z = p
      · subst hzp; simp [hzk] at hne
      · simp [hzk, hzp] at hne
  case copyFail k q e hpc hk hl hpl hu ha _ =>
    by_cases hzk : z = ⟨k, hk⟩
    · subst hzk; simp [freeproc, hu] at hne
    · by_cases hzp : z = p
      · subst hzp; simp [hzk] at hne
      · simp [hzk, hzp] at hne
  case allocOk k q e hpc hk hl hpl hu ha _ =>
    by_cases hzk : z = ⟨k, hk⟩
    · subst hzk; simp [forkCopy, (allocproc_ok K ha).1]
    · by_cases hzp : z = p
      · subst hzp; simp [hzk] at hne
      · simp [hzk, hzp] at hne
  case forkRunnable ch pid hpc hl =>
    by_cases hzp : z = p
    · subst hzp; simp at hne
    · by_cases hzc : z = ch
      · subst hzc; simp [hzp]
      · simp [hzp, hzc] at hne
  case wakeupSlot chan k kk hpc hk hkp hl =>
    by_cases hzp : z = p
    · subst hzp; simp at hne
    · by_cases hzk : z = ⟨k, hk⟩
      · subst hzk
        simp only [Sys.setProc_proc, if_neg hzp, if_true] at hne ⊢
        unfold wakeup1 at hne ⊢; split_ifs at hne ⊢ <;> simp at hne ⊢
      · simp [hzp, hzk] at hne
  case forkParent | reparentHit => exact absurd (setProc_setProc_state_of (by rfl) (by rfl) z) hne
  case killHit => exact absurd ((setProc_state_of (by rfl) z).trans (setProc_state_of (by rfl) z)) hne
  case killRange => exact absurd rfl hne
  case sigPriv q h =>
    exact absurd (setProc_state_of (sigStep_wf h).1 z) hne
  case sigactionCall signum act actAddr hpc =>
    obtain ⟨hd, e⟩ := sigaction_snd K (σ.proc p) signum act actAddr
    rw [e] at hne; exact absurd (setProc_state_of (by rfl) z) hne
  all_goals
    obtain rfl : z = p := setProc_state_changed hne
    simp [hrun, sigkillFunc, turnoffSigbit, usersignalhandler, sigret]

/-- A step of the machine makes a slot UNUSED only by `wait`'s reap on the CPU
that steps, and a ZOMBIE only by the slot's own `exit` on it. -/
theorem step_state_change (hw : Wf σ) (hs : Step K σ c o σ')
    (hne : (σ'.proc z).state ≠ (σ.proc z).state) :
    ((σ'.proc z).state = .UNUSED → ∃ p, (σ.cpus c).proc = some p ∧ Reaps σ p z o) ∧
    ((σ'.proc z).state = .ZOMBIE → (σ.cpus c).proc = some z ∧ Exits σ σ' z) := by
  cases hs with
  | proc hc hs =>
    obtain ⟨h1, h2⟩ := pstep_state_change hw hc hs hne
    exact ⟨fun h => ⟨_, hc, h1 h⟩, fun h => by obtain ⟨rfl, hx⟩ := h2 h; exact ⟨hc, hx⟩⟩
  | schedSkip | schedWrap | intrCall | intrDone => exact absurd rfl hne
  | intrSlot =>
    have e := not_not.1 (mt setProc_wakeup1_of_ne fun h => hne (by rw [Sys.setIntr_proc, h]))
    simp only [Sys.setIntr_proc, e]
    exact ⟨nofun, nofun⟩
  | schedRun i hc hi hl hs hr =>
    obtain rfl : z = i := setProc_state_changed hne
    simp
  | userinit i e cwd hc h0 hfirst hu hl hpl ha =>
    obtain rfl : z = i := setProc_state_changed hne
    simp [userinitProc]

/-! ## The scan keeps the children it found -/

/-- A RUNNING thread whose scan of `wait` has found a child still has a child
below where the scan stands. -/
def ScanOk (σ : Sys np nc) : Prop :=
  ∀ E i, (σ.proc E).state = .RUNNING → (σ.proc E).pc.foundKids = some i →
    ∃ z : Fin np, z.val < i ∧ (σ.proc z).parent = some E

theorem scanOk_procinit (K : Param) : ScanOk (procinit K : Sys np nc) :=
  fun _ _ h => absurd h (by simp [procinit, Proc.zero])

/-- The thread's own step: the scan passes a slot that is not a child, or a child
it records; the other steps that keep a found child keep the links. -/
theorem ScanOk.pstep_self (h : ScanOk σ) (hw : Wf σ) (hu : WaitOk σ)
    (hc : (σ.cpus c).proc = some p) (hs : PStep K σ c p o σ') {i : Nat}
    (hk : (σ'.proc p).pc.foundKids = some i) :
    ∃ z : Fin np, z.val < i ∧ (σ'.proc z).parent = some p := by
  have old := fun i hk => h p i (hw.running hc) hk
  cases hs
  case wakeupSelf chan k kk hpc _ | wakeupDone chan k kk hpc _ =>
    obtain ⟨z, hz, hp⟩ := old i (by rw [hpc]; simpa using hk)
    exact ⟨z, hz, (setProc_parent_of (by rfl) z).trans hp⟩
  case wakeupSlot chan k kk hpc _ _ _ =>
    obtain ⟨z, hz, hp⟩ := old i (by rw [hpc]; simpa using hk)
    exact ⟨z, hz, (setProc_setProc_parent_of (wakeup1_parent _ _) (by rfl) z).trans hp⟩
  case sigKill k hpc _ | sigTurnoff _ k hpc _ =>
    obtain ⟨z, hz, hp⟩ := old i (by rw [hpc]; simpa using hk)
    exact ⟨z, hz, (setProc_parent_of (by rfl) z).trans hp⟩
  case sleepReacq lk k hpc _ =>
    have ha := hw.active hc
    have hku := hu.use p
    rw [hpc] at ha hku
    have hk2 : k.foundKids = some i := by simpa using hk
    obtain ⟨a, rfl⟩ := hku.1 ((ha.2 _).1 (Pc.holds_of_foundKids hk2)).symm
    simp [Pc.foundKids] at hk2
  case waitSkip a k hk' hpc hi _ =>
    cases hk' <;> simp [Pc.foundKids] at hk
    obtain ⟨z, hz, hp⟩ := old k (by rw [hpc]; rfl)
    exact ⟨z, by omega, (setProc_parent_of (by rfl) z).trans hp⟩
  case waitChild a k hk' hpc hi hp _ _ =>
    simp [Pc.foundKids] at hk
    exact ⟨⟨k, hi⟩, by simp; omega, (setProc_parent_of (by rfl) _).trans hp⟩
  case allocFail k q e hpc hi hl hpl hu ha | copyFail k q e hpc hi hl hpl hu ha _
    | allocOk k q e hpc hi hl hpl hu ha _ =>
    have hne : p ≠ ⟨k, hi⟩ := by rintro e; rw [← e, hw.running hc] at hu; cases hu
    simp [hne, Pc.foundKids] at hk
  case callWakeup _ hpc =>
    rcases hpc with hpc | ⟨_, hpc⟩ <;> simp [hpc, Pc.foundKids] at hk
  case sigPriv q hq =>
    simp [Pc.foundKids_of_not_holds ((sigStep_wf hq).2.2.2.2.1 _)] at hk
  case sigprocmask _ hpc | sigretCall _ hpc _ | killRange _ _ hpc _ | fileCall _ hpc _ =>
    simp [hpc, sigret, Pc.foundKids] at hk
  case sigactionCall signum act actAddr hpc =>
    obtain ⟨hd, e⟩ := sigaction_snd K (σ.proc p) signum act actAddr
    simp [e, hpc, Pc.foundKids] at hk
  all_goals simp [Pc.foundKids] at hk

/-- Every step of a kernel thread keeps `ScanOk`: other threads cannot relink a
child while the scanning thread holds `wait_lock`. -/
theorem ScanOk.pstep (h : ScanOk σ) (hw : Wf σ) (hu : WaitOk σ) (hpo : ParentOk σ)
    (hc : (σ.cpus c).proc = some p) (hs : PStep K σ c p o σ') : ScanOk σ' := by
  intro E i hE hk
  by_cases hEp : E = p
  · subst hEp; exact h.pstep_self hw hu hc hs hk
  · have hE0 : (σ.proc E).state = .RUNNING := by
      rcases pstep_state hw hc hs E with e | ⟨-, hne⟩
      · rwa [← e]
      · exact absurd hE hne
    rw [(pstep_other hw hc hs hEp (by simp [hE0])).1] at hk
    obtain ⟨z, hz, hp⟩ := h E i hE0 hk
    obtain ⟨d, hd⟩ := hw.cpu.run_cpu E hE0
    have hdc : d ≠ c := by rintro rfl; exact hEp (Option.some.inj (hd.symm.trans hc))
    exact ⟨z, hz, pstep_parent_of_held hw hpo hc hs
      ((hw.holds_iff hd id).1 (Pc.holds_of_foundKids hk)) hdc hp⟩

/-- Every step of the machine keeps `ScanOk`. -/
theorem ScanOk.step (h : ScanOk σ) (hw : Wf σ) (hu : WaitOk σ) (hpo : ParentOk σ)
    (hs : Step K σ c o σ') : ScanOk σ' := by
  cases hs with
  | proc hc hs => exact h.pstep hw hu hpo hc hs
  | schedSkip | schedWrap | intrCall | intrDone => exact h
  | @intrSlot a i _ _ hi _ =>
    intro E k hE hk
    have e : (σ.setProc ⟨i, hi⟩ (wakeup1 (σ.proc ⟨i, hi⟩) (.obj a))).proc E = σ.proc E :=
      setProc_wakeup1_of_ne (by simp only [Sys.setIntr_proc] at hE; rw [hE]; decide)
    simp only [Sys.setIntr_proc, e] at hE hk ⊢
    obtain ⟨z, hz, hp⟩ := h E k hE hk
    exact ⟨z, hz, (setProc_parent_of (wakeup1_parent _ _) z).trans hp⟩
  | @schedRun q i hc hi hl hs hr =>
    obtain ⟨-, hh, -⟩ := resume_wf hr ((hw.cpu.slot i).runnable hs)
    intro E k hE hk
    by_cases hEi : E = i
    · subst hEi; simp [Pc.foundKids_of_not_holds (hh _)] at hk
    · simp only [Sys.setCpu_proc, Sys.setProc_proc, if_neg hEi] at hE hk
      obtain ⟨z, hz, hp⟩ := h E k hE hk
      exact ⟨z, hz, (setProc_parent_of (by exact (resume_parent hr).1) z).trans hp⟩
  | userinit i e cwd hc h0 hfirst hu' hl hpl ha =>
    intro E k hE hk
    by_cases hEi : E = i
    · subst hEi; simp [userinitProc] at hE
    · simp only [Sys.setProc_proc, if_neg hEi] at hE hk
      obtain ⟨z, hz, hp⟩ := h E k hE hk
      have hzi : z ≠ i := by rintro rfl; rw [hpo.free _ hu'] at hp; cases hp
      exact ⟨z, hz, by simpa [hzi] using hp⟩

/-- `ScanOk` holds in every reachable state. -/
theorem Reachable.scanOk (h : Reachable K σ) : ScanOk σ := by
  induction h with
  | init => exact scanOk_procinit K
  | step hr hs ih => exact ih.step hr.wf hr.waitOk hr.parentOk hs

/-! ## What the scan does -/

/-- The six steps the scan of `wait` can take at slot `i`: pass a slot that is no
child; pass a child that is not a ZOMBIE, recording `havekids`; at a ZOMBIE
child, fail the `copyout` and return -1, or reap it and return its pid; at the
end of the table, return -1 with no child (or when killed), or go to sleep. -/
theorem pstep_waitScan (hw : Wf σ) (hc : (σ.cpus c).proc = some p) {a i : Nat} {hk : Bool}
    (hpc : (σ.proc p).pc = .waitScan a i hk) (hs : PStep K σ c p o σ') :
    (∃ hi : i < np, (σ.proc ⟨i, hi⟩).parent ≠ some p ∧ o = {} ∧
      σ' = σ.setPc p (.waitScan a (i + 1) hk)) ∨
    (∃ hi : i < np, (σ.proc ⟨i, hi⟩).parent = some p ∧ (σ.proc ⟨i, hi⟩).state ≠ .ZOMBIE ∧
      o = { acq := [.proc ⟨i, hi⟩] } ∧ σ' = σ.setPc p (.waitScan a (i + 1) true)) ∨
    (∃ hi : i < np, (σ.proc ⟨i, hi⟩).parent = some p ∧ (σ.proc ⟨i, hi⟩).state = .ZOMBIE ∧
      a ≠ 0 ∧ o = { ret := some (-1), acq := [.proc ⟨i, hi⟩] } ∧
      σ' = (σ.setLock .waitLock none).setPc p .user) ∨
    (∃ hi : i < np, (σ.proc ⟨i, hi⟩).parent = some p ∧ (σ.proc ⟨i, hi⟩).state = .ZOMBIE ∧
      o = { ret := some (σ.proc ⟨i, hi⟩).pid, acq := [.proc ⟨i, hi⟩],
            wrote := if a = 0 then none else some (a, (σ.proc ⟨i, hi⟩).xstate),
            calls := freeprocCalls (σ.proc ⟨i, hi⟩) } ∧
      σ' = ((σ.setLock .waitLock none).setProc ⟨i, hi⟩ (freeproc (σ.proc ⟨i, hi⟩))).setProc p
        { σ.proc p with pc := .user }) ∨
    (np ≤ i ∧ (hk = false ∨ (σ.proc p).killed ≠ 0) ∧ o = { ret := some (-1) } ∧
      σ' = (σ.setLock .waitLock none).setPc p .user) ∨
    (np ≤ i ∧ hk = true ∧ (σ.proc p).killed = 0 ∧ o = {} ∧
      σ' = σ.setPc p (.sleepCall (.proc p) .waitLock (.waitScan a 0 false))) := by
  have hwl : (σ.proc p).pc.Holds .waitLock := by rw [hpc]; rfl
  cases hs
  case waitSkip hpc' hi hp =>
    obtain ⟨rfl, rfl, rfl⟩ := Pc.waitScan.inj (hpc.symm.trans hpc')
    exact .inl ⟨hi, hp, rfl, rfl⟩
  case waitChild hpc' hi hp _ hz =>
    obtain ⟨rfl, rfl, rfl⟩ := Pc.waitScan.inj (hpc.symm.trans hpc')
    exact .inr (.inl ⟨hi, hp, hz, rfl, rfl⟩)
  case waitCopyFail hpc' hi hp _ hz ha =>
    obtain ⟨rfl, rfl, rfl⟩ := Pc.waitScan.inj (hpc.symm.trans hpc')
    exact .inr (.inr (.inl ⟨hi, hp, hz, ha, rfl, rfl⟩))
  case waitReap hpc' hi hp _ hz =>
    obtain ⟨rfl, rfl, rfl⟩ := Pc.waitScan.inj (hpc.symm.trans hpc')
    exact .inr (.inr (.inr (.inl ⟨hi, hp, hz, rfl, rfl⟩)))
  case waitNone hpc' hi hk' =>
    obtain ⟨rfl, rfl, rfl⟩ := Pc.waitScan.inj (hpc.symm.trans hpc')
    exact .inr (.inr (.inr (.inr (.inl ⟨hi, hk', rfl, rfl⟩))))
  case waitSleep hpc' hi hk' =>
    obtain ⟨rfl, rfl, rfl⟩ := Pc.waitScan.inj (hpc.symm.trans hpc')
    exact .inr (.inr (.inr (.inr (.inr ⟨hi, rfl, hk', rfl, rfl⟩))))
  case yield hn _ => exact absurd ((hw.holds_iff hc id).1 hwl) (hn _)
  case sigPriv q hq => exact absurd hwl ((sigStep_wf hq).2.2.2.2.2.2 _)
  case callWakeup _ h => rcases h with h | ⟨_, h⟩ <;> rw [hpc] at h <;> cases h
  all_goals simp only [hpc, reduceCtorEq] at *

variable {a i : Nat} {hk : Bool}

/-- A step of the scan that returns `k ≥ 1` has reaped slot `i`: a ZOMBIE child of
`p` with pid `k`, frozen in `exit(xstate)`, whose `xstate` it wrote to `addr`
unless `addr = 0`, and which is UNUSED afterwards. -/
theorem pstep_waitScan_reaped (hw : Wf σ) (hc : (σ.cpus c).proc = some p)
    (hpc : (σ.proc p).pc = .waitScan a i hk) (hs : PStep K σ c p o σ') {k : Int}
    (hret : o.ret = some k) (h1 : 1 ≤ k) :
    ∃ j : Fin np, (σ.proc j).state = .ZOMBIE ∧ (σ.proc j).parent = some p ∧
      (σ.proc j).pid = k ∧ (σ.proc j).pc = .exited (σ.proc j).xstate ∧
      o.wrote = (if a = 0 then none else some (a, (σ.proc j).xstate)) ∧
      (σ'.proc j).state = .UNUSED := by
  rcases pstep_waitScan hw hc hpc hs with ⟨_, -, ho, -⟩ | ⟨_, -, -, ho, -⟩ |
    ⟨_, -, -, -, ho, -⟩ | ⟨hi, hp, hz, ho, hσ⟩ | ⟨-, -, ho, -⟩ | ⟨-, -, -, ho, -⟩
  case inr.inr.inr.inl =>
    subst ho hσ
    have hne : (⟨i, hi⟩ : Fin np) ≠ p := by rintro e; rw [e, hw.running hc] at hz; cases hz
    exact ⟨_, hz, hp, Option.some.inj hret, (hw.cpu.slot _).zombie hz, rfl, by simp [hne, freeproc]⟩
  all_goals subst ho; cases hret
  all_goals omega

/-- A step of the scan by a thread with no child passes the slot or returns -1: it
never sleeps. -/
theorem pstep_waitScan_childless (hr : Reachable K σ) (hc : (σ.cpus c).proc = some p)
    (hpc : (σ.proc p).pc = .waitScan a i hk) (hs : PStep K σ c p o σ')
    (hno : ∀ z, (σ.proc z).parent ≠ some p) :
    (σ'.proc p).pc = .waitScan a (i + 1) hk ∨ (o.ret = some (-1) ∧ (σ'.proc p).pc = .user) := by
  rcases pstep_waitScan hr.wf hc hpc hs with ⟨-, -, -, rfl⟩ | ⟨_, hp, -⟩ | ⟨_, hp, -⟩ |
    ⟨_, hp, -⟩ | ⟨-, -, rfl, rfl⟩ | ⟨-, rfl, -, -, -⟩
  · exact .inl (by simp)
  · exact absurd hp (hno _)
  · exact absurd hp (hno _)
  · exact absurd hp (hno _)
  · exact .inr ⟨rfl, by simp⟩
  · obtain ⟨z, -, hp⟩ := hr.scanOk p i (hr.wf.running hc) (by rw [hpc]; rfl)
    exact absurd hp (hno z)

/-- A step of the scan at a ZOMBIE child that writes nothing although `addr ≠ 0`
is the failed `copyout`: it returns -1, releases `wait_lock` and leaves the child
as it was. -/
theorem pstep_waitScan_copyout (hw : Wf σ) (hc : (σ.cpus c).proc = some p)
    (hpc : (σ.proc p).pc = .waitScan a i hk) (hs : PStep K σ c p o σ') (hi : i < np)
    (hp : (σ.proc ⟨i, hi⟩).parent = some p) (hz : (σ.proc ⟨i, hi⟩).state = .ZOMBIE)
    (ha : a ≠ 0) (hwr : o.wrote = none) :
    o.ret = some (-1) ∧ σ'.proc ⟨i, hi⟩ = σ.proc ⟨i, hi⟩ ∧ σ'.lock .waitLock = none := by
  have hne : (⟨i, hi⟩ : Fin np) ≠ p := by rintro e; rw [e, hw.running hc] at hz; cases hz
  rcases pstep_waitScan hw hc hpc hs with ⟨_, hp', -⟩ | ⟨_, -, hz', -⟩ | ⟨_, -, -, -, rfl, rfl⟩ |
    ⟨_, -, -, rfl, -⟩ | ⟨hi', -⟩ | ⟨hi', -⟩
  · exact absurd hp hp'
  · exact absurd hz hz'
  · exact ⟨rfl, by simp [hne], by simp⟩
  · simp [ha] at hwr
  · omega
  · omega

/-- Along a run, a slot that is not a ZOMBIE becomes one only by a step of its own
thread out of the last section of `exit`. -/
theorem run_zombie_from_exit (hr : Reachable K σ) (h : Run K σ τ) {j : Fin np}
    (h0 : (σ.proc j).state ≠ .ZOMBIE) (h1 : (τ.proc j).state = .ZOMBIE) :
    ∃ υ υ' c o, Run K σ υ ∧ Step K υ c o υ' ∧ Run K υ' τ ∧ (υ.cpus c).proc = some j ∧
      Exits υ υ' j := by
  induction h with
  | refl => exact absurd h1 h0
  | @tail υ τ hrun hs ih =>
    obtain ⟨c, o, hs⟩ := hs
    by_cases hz : (υ.proc j).state = .ZOMBIE
    · obtain ⟨υ, υ', d, o', h1', hs', h2', hd, hx⟩ := ih hz
      exact ⟨υ, υ', d, o', h1', hs', h2'.tail ⟨c, o, hs⟩, hd, hx⟩
    · obtain ⟨hd, hx⟩ := (step_state_change (hr.run hrun).wf hs (by rw [h1]; exact Ne.symm hz)).2 h1
      exact ⟨_, _, c, o, hrun, hs, .refl, hd, hx⟩

/-- What `wait` guarantees in a state: a scan step that returns `k ≥ 1` has
reaped a ZOMBIE child with pid `k` and delivered its exit status; only such a reap
frees a slot; a slot turns ZOMBIE again only by a new `exit`, so no exit status is
returned twice; a thread with no child never sleeps in `wait`; and a failed
`copyout` leaves the ZOMBIE child for a later `wait`. -/
def WaitDelivers (K : Param) (σ : Sys np nc) : Prop :=
  (∀ c p o σ' a i hk k, (σ.cpus c).proc = some p → (σ.proc p).pc = .waitScan a i hk →
    PStep K σ c p o σ' → o.ret = some k → 1 ≤ k →
    ∃ j : Fin np, (σ.proc j).state = .ZOMBIE ∧ (σ.proc j).parent = some p ∧
      (σ.proc j).pid = k ∧ (σ.proc j).pc = .exited (σ.proc j).xstate ∧
      o.wrote = (if a = 0 then none else some (a, (σ.proc j).xstate)) ∧
      (σ'.proc j).state = .UNUSED) ∧
  (∀ c o σ' j, Step K σ c o σ' → (σ.proc j).state ≠ .UNUSED → (σ'.proc j).state = .UNUSED →
    ∃ p, (σ.cpus c).proc = some p ∧ Reaps σ p j o) ∧
  (∀ τ j, Run K σ τ → (σ.proc j).state ≠ .ZOMBIE → (τ.proc j).state = .ZOMBIE →
    ∃ υ υ' c o, Run K σ υ ∧ Step K υ c o υ' ∧ Run K υ' τ ∧ (υ.cpus c).proc = some j ∧
      Exits υ υ' j) ∧
  (∀ c p o σ' a i hk, (σ.cpus c).proc = some p → (σ.proc p).pc = .waitScan a i hk →
    PStep K σ c p o σ' → (∀ z, (σ.proc z).parent ≠ some p) →
    (σ'.proc p).pc = .waitScan a (i + 1) hk ∨ (o.ret = some (-1) ∧ (σ'.proc p).pc = .user)) ∧
  (∀ c p o σ' a i hk (hi : i < np), (σ.cpus c).proc = some p →
    (σ.proc p).pc = .waitScan a i hk → PStep K σ c p o σ' →
    (σ.proc ⟨i, hi⟩).parent = some p → (σ.proc ⟨i, hi⟩).state = .ZOMBIE → a ≠ 0 →
    o.wrote = none → o.ret = some (-1) ∧ σ'.proc ⟨i, hi⟩ = σ.proc ⟨i, hi⟩ ∧
      σ'.lock .waitLock = none)

theorem wait_exit_status_once (hr : Reachable K σ) : WaitDelivers K σ :=
  ⟨fun _ _ _ _ _ _ _ _ hc hpc hs hret h1 => pstep_waitScan_reaped hr.wf hc hpc hs hret h1,
    fun _ _ _ _ hs h0 h1 => (step_state_change hr.wf hs (by rw [h1]; exact Ne.symm h0)).1 h1,
    fun _ _ h h0 h1 => run_zombie_from_exit hr h h0 h1,
    fun _ _ _ _ _ _ _ hc hpc hs hno => pstep_waitScan_childless hr hc hpc hs hno,
    fun _ _ _ _ _ _ _ _ hc hpc hs hp hz ha hwr =>
      pstep_waitScan_copyout hr.wf hc hpc hs _ hp hz ha hwr⟩

theorem wait_exit_status_once_boot :
    ∃ σ : Sys 2 1, Reachable Param.std σ ∧ (σ.proc 1).state = .ZOMBIE ∧
      (σ.proc 1).parent = some 0 ∧ (σ.proc 1).xstate = 7 ∧ WaitDelivers Param.std σ := by
  obtain ⟨σ, -, -, hr, -, hz, hp, hx, -⟩ := child_reaped_boot
  exact ⟨σ, hr, hz, hp, hx, wait_exit_status_once hr⟩

/-! ## A scan that finds no child -/

/-- The slot the scan of `wait` has reached while it has found no child, looking
through the calls that keep `wait_lock` held. -/
def Pc.noKids : Pc np → Option Nat
  | .waitScan _ i false => some i
  | .wakeupScan _ _ k | .sigKill k | .sigTurnoff _ k => noKids k
  | _ => none

theorem Pc.holds_of_noKids {k : Pc np} {i : Nat} (h : k.noKids = some i) : k.Holds .waitLock := by
  induction k with
  | waitScan _ _ hk => cases hk <;> simp_all [noKids, Holds]
  | wakeupScan _ _ k ih | sigKill k ih | sigTurnoff _ k ih => exact ih h
  | _ => simp [noKids] at h

theorem Pc.noKids_of_not_holds {k : Pc np} (h : ¬ k.Holds .waitLock) : k.noKids = none :=
  Option.eq_none_iff_forall_not_mem.2 fun _ hi => h (holds_of_noKids hi)

/-- The steps that rewrite a parent link: `fork` links its child to the caller under
`wait_lock`, `reparent` hands a child of the exiting caller to `initproc`, and the
`freeproc` of `wait` clears the link of the ZOMBIE it frees. The UNUSED slot
`allocproc` takes has no parent before and after. -/
theorem pstep_parent_cases (hpo : ParentOk σ) (hs : PStep K σ c p o σ') {z : Fin np}
    (hne : (σ'.proc z).parent ≠ (σ.proc z).parent) :
    (∃ pid, (σ.proc p).pc = .forkParent z pid ∧ .waitLock ∈ o.acq ∧ σ.lock .waitLock = none) ∨
    (∃ s, (σ.proc p).pc = .reparentScan s z.val ∧ (σ'.proc z).parent = σ.initproc) ∨
    (∃ a hk, (σ.proc p).pc = .waitScan a z.val hk ∧ (σ'.proc z).state = .UNUSED) := by
  cases hs
  case forkParent ch pid hpc hl =>
    simp only [Sys.setProc_proc] at hne ⊢
    split_ifs at hne ⊢ <;> subst_vars
    exacts [absurd rfl hne, .inl ⟨pid, hpc, List.mem_singleton_self _, hl⟩, absurd rfl hne]
  case reparentHit s k hpc hk hp =>
    simp only [Sys.setProc_proc] at hne ⊢
    split_ifs at hne ⊢ <;> subst_vars
    exacts [absurd rfl hne, .inr (.inl ⟨s, hpc, rfl⟩), absurd rfl hne]
  case waitReap a k hkid hpc hk hp hl hzb =>
    simp only [Sys.setProc_proc, Sys.setLock_proc] at hne ⊢
    split_ifs at hne ⊢ <;> subst_vars
    exacts [absurd rfl hne, .inr (.inr ⟨a, hkid, hpc, rfl⟩), absurd rfl hne]
  case allocFail k q e _ hk _ _ hu ha | copyFail k q e _ hk _ _ hu ha _
    | allocOk k q e _ hk _ _ hu ha _ =>
    refine absurd ?_ hne
    simp only [Sys.setProc_proc]
    split_ifs with hzk <;> subst_vars
    · rw [hpo.free _ hu]
      first
        | exact (allocproc_error K ha).2.1
        | rfl
        | simpa [forkCopy, hpo.free _ hu] using (allocproc_ok K ha).2.2.2
    all_goals rfl
  case wakeupSlot => exact absurd (setProc_setProc_parent_of (wakeup1_parent _ _) (by rfl) z) hne
  case forkRunnable => exact absurd (setProc_setProc_parent_of (by rfl) (by rfl) z) hne
  case killHit =>
    exact absurd ((setProc_parent_of (by rfl) z).trans (setProc_parent_of (by rfl) z)) hne
  case sigPriv q h => exact absurd (setProc_parent_of (sigStep_parent h).1 z) hne
  case sigactionCall signum act actAddr hpc =>
    obtain ⟨_, e⟩ := sigaction_snd K (σ.proc p) signum act actAddr
    rw [e] at hne; exact absurd (setProc_parent_of (by rfl) z) hne
  case killRange => exact absurd rfl hne
  all_goals exact absurd (setProc_parent_of (by rfl) z) hne

/-- Every change of a parent link is made under `wait_lock`: `fork` takes it to link
its child, and `reparent` and the `freeproc` of `wait` run while the caller holds it. -/
theorem pstep_parent_change (hpo : ParentOk σ) (hs : PStep K σ c p o σ') {z : Fin np}
    (hne : (σ'.proc z).parent ≠ (σ.proc z).parent) :
    (.waitLock ∈ o.acq ∧ σ.lock .waitLock = none) ∨ (σ.proc p).pc.Holds .waitLock := by
  rcases pstep_parent_cases hpo hs hne with ⟨_, -, hm, hl⟩ | ⟨_, hpc, -⟩ | ⟨_, _, hpc, -⟩
  · exact .inl ⟨hm, hl⟩
  all_goals exact .inr (by rw [hpc]; rfl)

/-- While `wait_lock` is held on another CPU, a step changes no parent link. -/
theorem pstep_parent_eq_of_held (hw : Wf σ) (hpo : ParentOk σ) (hc : (σ.cpus c).proc = some p)
    (hs : PStep K σ c p o σ') {d : Fin nc} (hl : σ.lock .waitLock = some d) (hd : d ≠ c)
    (z : Fin np) : (σ'.proc z).parent = (σ.proc z).parent := by
  by_contra hne
  rcases pstep_parent_change hpo hs hne with ⟨-, h⟩ | h
  · rw [hl] at h; cases h
  · exact hd (Option.some.inj (hl.symm.trans ((hw.holds_iff hc id).1 h)))

/-- A RUNNING thread whose scan of `wait` has found no child has none below where the
scan stands. -/
def ScanNone (σ : Sys np nc) : Prop :=
  ∀ E i, (σ.proc E).state = .RUNNING → (σ.proc E).pc.noKids = some i →
    ∀ z : Fin np, z.val < i → (σ.proc z).parent ≠ some E

theorem scanNone_procinit (K : Param) : ScanNone (procinit K : Sys np nc) :=
  fun _ _ h => absurd h (by simp [procinit, Proc.zero])

/-- The thread's own step: the scan passes a slot that is no child, and the other
steps that keep the scan in progress keep the links. -/
theorem ScanNone.pstep_self (h : ScanNone σ) (hw : Wf σ) (hu : WaitOk σ)
    (hc : (σ.cpus c).proc = some p) (hs : PStep K σ c p o σ') {i : Nat}
    (hk : (σ'.proc p).pc.noKids = some i) :
    ∀ z : Fin np, z.val < i → (σ'.proc z).parent ≠ some p := by
  have old := fun i hk => h p i (hw.running hc) hk
  cases hs
  case wakeupSelf chan k kk hpc _ | wakeupDone chan k kk hpc _ | sigKill k hpc _
    | sigTurnoff _ k hpc _ =>
    intro z hz
    rw [setProc_parent_of (by rfl) z]
    exact old i (by rw [hpc]; simpa using hk) z hz
  case wakeupSlot chan k kk hpc _ _ _ =>
    intro z hz
    rw [setProc_setProc_parent_of (wakeup1_parent _ _) (by rfl) z]
    exact old i (by rw [hpc]; simpa using hk) z hz
  case sleepReacq lk k hpc _ =>
    have ha := hw.active hc
    have hku := hu.use p
    rw [hpc] at ha hku
    have hk2 : k.noKids = some i := by simpa using hk
    obtain ⟨a, rfl⟩ := hku.1 ((ha.2 _).1 (Pc.holds_of_noKids hk2)).symm
    simp only [Pc.noKids, Option.some.injEq] at hk2
    omega
  case waitStart a hpc _ =>
    simp only [Sys.setProc_proc, if_true, Pc.noKids, Option.some.injEq] at hk
    omega
  case waitSkip a k hk' hpc hi hp =>
    cases hk' <;> simp [Pc.noKids] at hk
    intro z hz
    rw [setProc_parent_of (by rfl) z]
    by_cases hzk : z.val < k
    · exact old k (by rw [hpc]; rfl) z hzk
    · obtain rfl : z = ⟨k, hi⟩ := Fin.ext (show z.val = k by omega)
      exact hp
  case allocFail k q e hpc hi hl hpl hu ha | copyFail k q e hpc hi hl hpl hu ha _
    | allocOk k q e hpc hi hl hpl hu ha _ =>
    have hne : p ≠ ⟨k, hi⟩ := by rintro e; rw [← e, hw.running hc] at hu; cases hu
    simp [hne, Pc.noKids] at hk
  case callWakeup _ hpc =>
    rcases hpc with hpc | ⟨_, hpc⟩ <;> simp [hpc, Pc.noKids] at hk
  case sigPriv q hq =>
    simp [Pc.noKids_of_not_holds ((sigStep_wf hq).2.2.2.2.1 _)] at hk
  case sigprocmask _ hpc | sigretCall _ hpc _ | killRange _ _ hpc _ | fileCall _ hpc _ =>
    simp [hpc, sigret, Pc.noKids] at hk
  case sigactionCall signum act actAddr hpc =>
    obtain ⟨hd, e⟩ := sigaction_snd K (σ.proc p) signum act actAddr
    simp [e, hpc, Pc.noKids] at hk
  all_goals simp [Pc.noKids] at hk

/-- Every step of a kernel thread keeps `ScanNone`: while the scanning thread holds
`wait_lock`, no other thread links a child to it. -/
theorem ScanNone.pstep (h : ScanNone σ) (hw : Wf σ) (hu : WaitOk σ) (hpo : ParentOk σ)
    (hc : (σ.cpus c).proc = some p) (hs : PStep K σ c p o σ') : ScanNone σ' := by
  intro E i hE hk
  by_cases hEp : E = p
  · subst hEp; exact h.pstep_self hw hu hc hs hk
  · have hE0 : (σ.proc E).state = .RUNNING := by
      rcases pstep_state hw hc hs E with e | ⟨-, hne⟩
      · rwa [← e]
      · exact absurd hE hne
    rw [(pstep_other hw hc hs hEp (by simp [hE0])).1] at hk
    obtain ⟨d, hd⟩ := hw.cpu.run_cpu E hE0
    have hdc : d ≠ c := by rintro rfl; exact hEp (Option.some.inj (hd.symm.trans hc))
    intro z hz
    rw [pstep_parent_eq_of_held hw hpo hc hs ((hw.holds_iff hd id).1 (Pc.holds_of_noKids hk)) hdc]
    exact h E i hE0 hk z hz

/-- Every step of the machine keeps `ScanNone`. -/
theorem ScanNone.step (h : ScanNone σ) (hw : Wf σ) (hu : WaitOk σ) (hpo : ParentOk σ)
    (hs : Step K σ c o σ') : ScanNone σ' := by
  cases hs with
  | proc hc hs => exact h.pstep hw hu hpo hc hs
  | schedSkip | schedWrap | intrCall | intrDone => exact h
  | @intrSlot a i _ _ hi _ =>
    intro E k hE hk z hz
    have e : (σ.setProc ⟨i, hi⟩ (wakeup1 (σ.proc ⟨i, hi⟩) (.obj a))).proc E = σ.proc E :=
      setProc_wakeup1_of_ne (by simp only [Sys.setIntr_proc] at hE; rw [hE]; decide)
    simp only [Sys.setIntr_proc, e] at hE hk ⊢
    rw [setProc_parent_of (wakeup1_parent _ _) z]
    exact h E k hE hk z hz
  | @schedRun q i hc hi hl hs hr =>
    obtain ⟨-, hh, -⟩ := resume_wf hr ((hw.cpu.slot i).runnable hs)
    intro E k hE hk
    by_cases hEi : E = i
    · subst hEi; simp [Pc.noKids_of_not_holds (hh _)] at hk
    · simp only [Sys.setCpu_proc, Sys.setProc_proc, if_neg hEi] at hE hk
      intro z hz
      simp only [Sys.setCpu_proc]
      rw [setProc_parent_of (by exact (resume_parent hr).1) z]
      exact h E k hE hk z hz
  | @userinit q i e cwd hc h0 hfirst hu' hl hpl ha =>
    intro E k hE hk
    by_cases hEi : E = i
    · subst hEi; simp [userinitProc] at hE
    · simp only [Sys.setProc_proc, if_neg hEi] at hE hk
      intro z hz
      have hzp := h E k hE hk z hz
      by_cases hzi : z = i
      · subst hzi; simpa [userinitProc, (allocproc_ok K ha).2.2.2] using hzp
      · simpa [hzi] using hzp

/-- `ScanNone` holds in every reachable state. -/
theorem Reachable.scanNone (h : Reachable K σ) : ScanNone σ := by
  induction h with
  | init => exact scanNone_procinit K
  | step hr hs ih => exact ih.step hr.wf hr.waitOk hr.parentOk hs

/-- **`wait` returns -1 only without a child.** A step of the scan of `wait` that
returns -1 finds the caller with no child at all, or killed; or it is the failed
`copyout` of a ZOMBIE child's status to a nonzero `addr`; or it reaps a ZOMBIE child
whose pid is -1, which `allocpid` hands out once `nextpid` has wrapped. -/
theorem wait_fails_only_without_child (hr : Reachable K σ) (hc : (σ.cpus c).proc = some p)
    (hpc : (σ.proc p).pc = .waitScan a i hk) (hs : PStep K σ c p o σ')
    (hret : o.ret = some (-1)) :
    (∀ z, (σ.proc z).parent ≠ some p) ∨ (σ.proc p).killed ≠ 0 ∨
      (∃ z, (σ.proc z).parent = some p ∧ (σ.proc z).state = .ZOMBIE ∧ a ≠ 0) ∨
      ∃ z, (σ.proc z).parent = some p ∧ (σ.proc z).state = .ZOMBIE ∧ (σ.proc z).pid = -1 := by
  rcases pstep_waitScan hr.wf hc hpc hs with ⟨_, _, rfl, _⟩ | ⟨_, _, _, rfl, _⟩ |
    ⟨_, hp, hz, ha, _⟩ | ⟨_, hp, hz, rfl, _⟩ | ⟨hi, hk', _⟩ | ⟨_, _, _, rfl, _⟩
  · cases hret
  · cases hret
  · exact .inr (.inr (.inl ⟨_, hp, hz, ha⟩))
  · exact .inr (.inr (.inr ⟨_, hp, hz, Option.some.inj hret⟩))
  · rcases hk' with rfl | hkill
    · exact .inl fun z => hr.scanNone p i (hr.wf.running hc) (by rw [hpc]; rfl) z (by omega)
    · exact .inr (.inl hkill)
  · cases hret

theorem wait_fails_only_without_child_boot :
    ∃ (σ σ' : Sys 2 1) (o : Out 2), Reachable Param.std σ ∧ (σ.cpus 0).proc = some 0 ∧
      (σ.proc 0).pc = .waitScan 0 2 false ∧ PStep Param.std σ 0 0 o σ' ∧ o.ret = some (-1) ∧
      ((∀ z, (σ.proc z).parent ≠ some 0) ∨ (σ.proc 0).killed ≠ 0 ∨
        (∃ z, (σ.proc z).parent = some 0 ∧ (σ.proc z).state = .ZOMBIE ∧ 0 ≠ 0) ∨
        ∃ z, (σ.proc z).parent = some 0 ∧ (σ.proc z).state = .ZOMBIE ∧ (σ.proc z).pid = -1) := by
  obtain ⟨σ, hr, hc, hpc⟩ : ∃ σ : Sys 2 1, Reachable Param.std σ ∧ (σ.cpus 0).proc = some 0 ∧
      (σ.proc 0).pc = .waitScan 0 2 false :=
    ⟨_, (((bootSys_reachable.step (Step.proc (c := 0) rfl (PStep.waitCall (p := 0) 0 rfl))).step
      (Step.proc (c := 0) rfl (PStep.waitStart (p := 0) rfl rfl))).step
      (Step.proc (c := 0) rfl (PStep.waitSkip (p := 0) (i := 0) rfl (by decide) (by decide)))).step
      (Step.proc (c := 0) rfl (PStep.waitSkip (p := 0) (i := 1) rfl (by decide) (by decide))),
      rfl, rfl⟩
  have hs := PStep.waitNone (K := Param.std) (c := 0) hpc le_rfl (.inl rfl)
  exact ⟨σ, _, _, hr, hc, hpc, hs, rfl, wait_fails_only_without_child hr hc hpc hs rfl⟩

end RiscvProc
