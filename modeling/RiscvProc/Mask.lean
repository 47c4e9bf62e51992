import RiscvProc.Handler

/-!
# The non-maskable bits

`sigprocmask` stores its argument with the SIGKILL and SIGSTOP bits cleared, and so
does `usersignalhandler` with the handler descriptor's mask. Every other write of
`signals_mask` copies a mask that is already clear of them: 0 in `allocproc`, the
parent's in `fork`, the backup in `sigret` (in flight or not). The backup itself is
only written by `usersignalhandler`, with the mask of the moment. So in every
reachable state both fields of every slot have the two bits clear
(`nonmaskable_never_masked`).

Nor can the two be caught or ignored. `allocproc` installs SIG_DFL for every signal,
`fork` copies its caller's table, and `sigaction` refuses SIGKILL and SIGSTOP before
it writes one; nothing else writes `signal_handlers`. So every slot in use keeps
SIG_DFL for both, and a pass that dispatches SIGKILL kills and one that dispatches
SIGSTOP stops (`kill_stop_uncatchable`).

In a pass the mask is only read through `is_pending_and_not_masked`, which ignores the
two bits, and only written by `usersignalhandler`. A signal the mask blocks is never
acted on and its bit never cleared: before a handler is entered the mask is the one
the pass started with, and after it the pass only runs to its first pending test and
returns (`PassRun.maskedPass`). Two records whose masks differ only in the two bits
run the same pass (`PassRun.withMasks`). Both hold of a pass on the machine, where its
thread is switched out and back in and other CPUs raise its bits
(`masking_respected`).
-/

namespace RiscvProc

variable {np nc : Nat} (K : Param)

/-- Neither SIGKILL's nor SIGSTOP's bit is set. -/
def KillStopClear (m : BitVec 32) : Prop :=
  m.getLsbD K.SIGKILL.val = false ∧ m.getLsbD K.SIGSTOP.val = false

/-- Both masks of a record are clear of the non-maskable bits. -/
def Proc.MaskOk (r : Proc np) : Prop :=
  KillStopClear K r.signalsMask ∧ KillStopClear K r.signalsMaskBackup

/-- Every slot's masks are clear of the non-maskable bits. -/
def MaskOk (σ : Sys np nc) : Prop := ∀ j, (σ.proc j).MaskOk K

variable {K}

theorem killStopClear_maskOf (m : BitVec 32) : KillStopClear K (maskOf K m) := by
  simp [KillStopClear]

theorem killStopClear_zero : KillStopClear K 0 := by simp [KillStopClear]

/-- Only the two mask fields matter. -/
theorem Proc.MaskOk.of_eq {r q : Proc np} (h : r.MaskOk K) (h1 : q.signalsMask = r.signalsMask)
    (h2 : q.signalsMaskBackup = r.signalsMaskBackup) : q.MaskOk K := by
  rw [Proc.MaskOk, h1, h2]; exact h

/-- `allocproc` zeroes the mask and keeps the backup, whether it fails or not. -/
theorem allocproc_maskOk {r q : Proc np} {pid : Int} {e : ForkEnv} (hr : r.MaskOk K)
    (h : allocproc K r pid e = .ok q ∨ allocproc K r pid e = .error q) : q.MaskOk K := by
  unfold allocproc at h
  split_ifs at h <;> rcases h with h | h <;> cases h <;> exact ⟨killStopClear_zero, hr.2⟩

theorem wakeup1_maskOk {q : Proc np} (h : q.MaskOk K) (ch : Chan np) :
    (wakeup1 q ch).MaskOk K := by
  unfold wakeup1; split_ifs <;> exact h

section Reach

variable {σ σ' : Sys np nc} {c : Fin nc} {p : Fin np} {o : Out np}

/-- One step of a thread keeps every slot's masks clear: the writers of the two
fields install `maskOf` or copy a field that is clear already. -/
theorem pstep_maskOk (hs : PStep K σ c p o σ') (h : MaskOk K σ) : MaskOk K σ' := by
  intro j
  cases hs
  case sigprocmask m _ =>
    simp only [Sys.setProc_proc]
    split_ifs
    exacts [⟨killStopClear_maskOf m, (h p).2⟩, h j]
  case sigUser i _ _ _ _ _ _ =>
    simp only [Sys.setProc_proc]
    split_ifs
    exacts [⟨killStopClear_maskOf _, (h p).1⟩, h j]
  case sigretCall tf' _ _ =>
    simp only [Sys.setProc_proc]
    split_ifs
    exacts [⟨(h p).2, (h p).2⟩, h j]
  case allocFail i q e _ hi _ _ _ ha | copyFail i q e _ hi _ _ _ ha _
    | allocOk i q e _ hi _ _ _ ha _ =>
    simp only [Sys.setProc_proc]
    split_ifs with h1 h2
    · subst h1
      first
        | exact allocproc_maskOk (h _) (.inr ha)
        | exact (allocproc_maskOk (h _) (.inl ha)).of_eq rfl rfl
        | exact ⟨(h p).1, (allocproc_maskOk (h _) (.inl ha)).2⟩
    · exact (h p).of_eq rfl rfl
    · exact h j
  case wakeupSlot chan i k _ hi _ _ =>
    simp only [Sys.setProc_proc]
    split_ifs with h1 h2
    exacts [(h p).of_eq rfl rfl, wakeup1_maskOk (h _) chan, h j]
  case sigactionCall signum act actAddr _ =>
    obtain ⟨hd, e⟩ := sigaction_snd K (σ.proc p) signum act actAddr
    simp only [Sys.setProc_proc, e]
    split_ifs
    exacts [(h p).of_eq rfl rfl, h j]
  case sigPriv q hq =>
    simp only [Sys.setProc_proc]
    split_ifs
    · rw [sigStep_frame hq]; exact (h p).of_eq rfl rfl
    · exact h j
  -- the rest keep both fields of every record they write
  all_goals try simp only [Sys.setProc_proc, Sys.setLock_proc, Sys.switchOut_proc, Sys.setPc_eq]
  all_goals (try split_ifs) <;> first | exact h j | exact (h _).of_eq rfl rfl

theorem step_maskOk (hs : Step K σ c o σ') (h : MaskOk K σ) : MaskOk K σ' := by
  cases hs with
  | proc _ h' => exact pstep_maskOk h' h
  | schedSkip | schedWrap | intrCall | intrDone => exact h
  | @intrSlot a i _ _ hi _ =>
    intro j
    show ((σ.setProc _ _).proc j).MaskOk K
    rcases eq_or_ne j ⟨i, hi⟩ with rfl | hj
    · simpa using wakeup1_maskOk (h _) (.obj a)
    · simpa [hj] using h j
  | schedRun i _ _ _ _ hr =>
    intro j
    simp only [Sys.setCpu_proc, Sys.setProc_proc]
    split_ifs with h1
    · subst h1; rw [resume_frame hr] at *; exact (h j).of_eq rfl rfl
    · exact h j
  | userinit i e cwd _ _ _ _ _ _ ha =>
    intro j
    simp only [Sys.setProc_proc]
    split_ifs with h1
    · subst h1; exact (allocproc_maskOk (h j) (.inl ha)).of_eq rfl rfl
    · exact h j

theorem Reachable.maskOk (hr : Reachable K σ) : MaskOk K σ := by
  induction hr with
  | init => exact fun _ => ⟨killStopClear_zero, killStopClear_zero⟩
  | step _ hs ih => exact step_maskOk hs ih

/-- **SIGKILL and SIGSTOP are never masked.** In every reachable state every slot has
the SIGKILL and SIGSTOP bits clear in both `signals_mask` and `signals_mask_backup`. -/
theorem nonmaskable_never_masked (hr : Reachable K σ) (j : Fin np) :
    (σ.proc j).signalsMask.getLsbD K.SIGKILL = false ∧
      (σ.proc j).signalsMask.getLsbD K.SIGSTOP = false ∧
      (σ.proc j).signalsMaskBackup.getLsbD K.SIGKILL = false ∧
      (σ.proc j).signalsMaskBackup.getLsbD K.SIGSTOP = false :=
  and_assoc.mp (hr.maskOk j)

/-- initcode asks `sigprocmask` for every bit; bit 9 stays clear. -/
theorem nonmaskable_never_masked_allOnes :
    ∃ σ : Sys 2 1, σ = (bootSys Param.std).setProc 0 { (bootSys Param.std).proc 0 with
      signalsMask := maskOf Param.std (BitVec.allOnes 32) } ∧ Reachable Param.std σ ∧
      (σ.proc 0).signalsMask.getLsbD 9 = false :=
  have h := bootSys_reachable.step (Step.proc (c := 0) (p := 0) rfl
    (PStep.sigprocmask (BitVec.allOnes 32) rfl))
  ⟨_, rfl, h, (nonmaskable_never_masked h 0).1⟩

end Reach

/-! ## The handlers of SIGKILL and SIGSTOP -/

section Default

variable {σ σ' : Sys np nc} {c : Fin nc} {p : Fin np} {o : Out np}

variable (K) in
/-- A record in use has SIG_DFL installed for SIGKILL and SIGSTOP. -/
def Proc.DflOk (r : Proc np) : Prop :=
  r.state ≠ .UNUSED → r.signalHandlers K.SIGKILL = K.SIG_DFL ∧ r.signalHandlers K.SIGSTOP = K.SIG_DFL

variable (K) in
/-- Every slot in use has SIG_DFL installed for SIGKILL and SIGSTOP. -/
def DflOk (σ : Sys np nc) : Prop := ∀ j, (σ.proc j).DflOk K

/-- `sigaction` refuses SIGKILL and SIGSTOP before it writes the table. -/
theorem Proc.DflOk.sigaction {r : Proc np} (h : r.DflOk K) (signum : Int) (act actAddr : Nat) :
    (RiscvProc.sigaction K r signum act actAddr).2.DflOk K := by
  dsimp only [RiscvProc.sigaction]
  split_ifs with h1 h2 h3 <;> try exact h
  all_goals
    push_neg at h2
    exact fun hs => ⟨(Function.update_noteq h2.1.symm _ _).trans (h hs).1,
      (Function.update_noteq h2.2.symm _ _).trans (h hs).2⟩

theorem Proc.DflOk.wakeup1 {q : Proc np} (h : q.DflOk K) (ch : Chan np) :
    (RiscvProc.wakeup1 q ch).DflOk K := by
  unfold RiscvProc.wakeup1
  split_ifs with hq
  · exact fun _ => h (by rw [hq.1]; decide)
  · exact h

/-- `allocproc` installs SIG_DFL for every signal. -/
theorem allocproc_dfl {r q : Proc np} {pid : Int} {e : ForkEnv} (h : allocproc K r pid e = .ok q)
    (i : Fin 32) : q.signalHandlers i = K.SIG_DFL := by
  unfold allocproc at h; split_ifs at h; cases h; rfl

/-- One step of a thread keeps SIG_DFL for SIGKILL and SIGSTOP in every slot in use:
a slot leaves UNUSED only in `allocproc`, which installs SIG_DFL, `fork` copies the
table of its caller, which is in use, and `sigaction` refuses the two signals. -/
theorem pstep_dflOk (hw : Wf σ) (hc : (σ.cpus c).proc = some p) (hs : PStep K σ c p o σ')
    (h : DflOk K σ) : DflOk K σ' := by
  have hp := h p (by rw [hw.cpu.running hc]; decide)
  intro j
  cases hs
  case forkRunnable ch pid hpc _ =>
    have hch := (hw.child p ch ⟨by rw [hw.cpu.running hc]; decide, by rw [hpc]; rfl⟩).1
    simp only [Sys.setProc_proc]
    split_ifs <;> subst_vars
    exacts [fun _ => hp, fun _ => h ch (by rw [hch]; decide), h j]
  case wakeupSlot chan i k _ hi _ _ =>
    simp only [Sys.setProc_proc]
    split_ifs <;> subst_vars
    exacts [fun _ => hp, (h _).wakeup1 chan, h j]
  case allocFail i q e _ hi _ _ _ ha =>
    simp only [Sys.setProc_proc]
    split_ifs <;> subst_vars
    exacts [fun hs => absurd (allocproc_error K ha).1 hs, fun _ => hp, h j]
  case sigactionCall signum act actAddr _ =>
    simp only [Sys.setProc_proc]
    split_ifs <;> subst_vars
    exacts [(h _).sigaction signum act actAddr, h j]
  case sigPriv q hq =>
    simp only [Sys.setProc_proc]
    split_ifs <;> subst_vars
    exacts [by rw [sigStep_frame hq]; exact fun _ => hp, h j]
  -- the rest write no handler table, and bring a slot into use only by `fork`'s copy
  all_goals try simp only [Sys.setProc_proc, Sys.setLock_proc, Sys.switchOut_proc, Sys.setPc_eq]
  all_goals (try split_ifs) <;> (try subst_vars) <;>
    first | exact h _ | exact fun _ => hp | exact fun hs => absurd rfl hs

theorem step_dflOk (hw : Wf σ) (hs : Step K σ c o σ') (h : DflOk K σ) : DflOk K σ' := by
  cases hs with
  | proc hc hs => exact pstep_dflOk hw hc hs h
  | schedSkip | schedWrap | intrCall | intrDone => exact h
  | @intrSlot a i _ _ hi _ =>
    intro j
    show ((σ.setProc _ _).proc j).DflOk K
    rcases eq_or_ne j ⟨i, hi⟩ with rfl | hj
    · simpa using (h _).wakeup1 (.obj a)
    · simpa [hj] using h j
  | schedRun i _ _ _ hi hr =>
    intro j
    simp only [Sys.setCpu_proc, Sys.setProc_proc]
    split_ifs with hj
    · subst hj; rw [resume_frame hr]; exact fun _ => h j (by rw [hi]; decide)
    · exact h j
  | userinit i e cwd _ _ _ _ _ _ ha =>
    intro j
    simp only [Sys.setProc_proc]
    split_ifs
    · exact fun _ => ⟨allocproc_dfl ha _, allocproc_dfl ha _⟩
    · exact h j

theorem Reachable.dflOk (hr : Reachable K σ) : DflOk K σ := by
  induction hr with
  | init => exact fun _ hs => absurd rfl hs
  | step hr hs ih => exact step_dflOk hr.wf hs ih

/-- **SIGKILL and SIGSTOP can be neither caught nor ignored.** In every reachable
state every slot in use has SIG_DFL installed for both, so a delivery pass that
dispatches SIGKILL kills and one that dispatches SIGSTOP stops, whatever the
process asked of `sigaction`. -/
theorem kill_stop_uncatchable (hr : Reachable K σ) (hd : K.SIG_DFL ≠ K.SIG_IGN)
    (hks : K.SIGKILL ≠ K.SIGSTOP) (hkc : K.SIGKILL ≠ K.SIGCONT) {j : Fin np}
    (hj : (σ.proc j).state ≠ .UNUSED) :
    (σ.proc j).signalHandlers K.SIGKILL = K.SIG_DFL ∧
      (σ.proc j).signalHandlers K.SIGSTOP = K.SIG_DFL ∧
      handlerAct K ((σ.proc j).signalHandlers K.SIGKILL) K.SIGKILL = .kill ∧
      handlerAct K ((σ.proc j).signalHandlers K.SIGSTOP) K.SIGSTOP = .stop := by
  obtain ⟨h9, h17⟩ := hr.dflOk j hj
  exact ⟨h9, h17, by simp [handlerAct, h9, hd, hks, hkc], by simp [handlerAct, h17, hd]⟩

/-- initcode asks `sigaction` for a handler of SIGKILL: the call returns -1, and the
pass still kills on SIGKILL. -/
theorem kill_stop_uncatchable_after_sigaction :
    ∃ σ : Sys 2 1, σ = (bootSys Param.std).setProc 0
        (sigaction Param.std ((bootSys Param.std).proc 0) 9 4096 0).2 ∧
      (sigaction Param.std ((bootSys Param.std).proc 0) 9 4096 0).1 = -1 ∧
      Reachable Param.std σ ∧ handlerAct Param.std ((σ.proc 0).signalHandlers 9) 9 = .kill :=
  have h := bootSys_reachable.step (Step.proc (c := 0) (p := 0) rfl
    (PStep.sigactionCall 9 4096 0 rfl))
  ⟨_, rfl, by decide, h,
    (kill_stop_uncatchable h (by decide) (by decide) (by decide) (by decide)).2.2.1⟩

end Default

/-! ## Masking in a pass -/

section Masking

variable {p q : Proc np} {m b : BitVec 32} {e evs : List PassEv}

/-- The masks play no part in `dispatch`, nor in a private step of the pass once the
pending tests agree. -/
theorem dispatch_withMasks (i : Fin 32) :
    dispatch K { p with signalsMask := m, signalsMaskBackup := b } i =
      { dispatch K p i with signalsMask := m, signalsMaskBackup := b } := by
  rw [dispatch_eq, dispatch_eq]; cases handlerAct K (p.signalHandlers i) i <;> rfl

theorem sigStep_withMasks
    (hi : ∀ i, isPendingAndNotMasked K { p with signalsMask := m, signalsMaskBackup := b } i =
      isPendingAndNotMasked K p i) :
    sigStep K { p with signalsMask := m, signalsMaskBackup := b } =
      (sigStep K p).map fun x => { x with signalsMask := m, signalsMaskBackup := b } := by
  unfold sigStep
  simp only [hi]
  split <;> (try split_ifs) <;> first | rfl | simp [dispatch_withMasks]

/-- No turnoff of `i`, and no entry of its handler, is left to run. -/
def Pc.NoTurnoff (i : Fin 32) : Pc np → Prop
  | .sigTurnoff j k => i ≠ j ∧ k.NoTurnoff i
  | .sigKill k | .yieldRet k => k.NoTurnoff i
  | .sigUser j => i ≠ j
  | _ => True

/-- Before a user handler is entered: `P` (killed or not stopped) holds wherever the
pass is about to test a pending signal or enter a handler. -/
def Pc.Ready (P : Prop) : Pc np → Prop
  | .sigTest _ | .sigUser _ => P
  | .sigTurnoff _ k | .yieldRet k => k.Ready P
  | _ => True

/-- Where a pass that has entered a user handler can still be, with `S` (not
stopped) asked at a stop point. -/
def Pc.AfterUser (S : Prop) : Pc np → Prop
  | .sigTurnoff _ k | .yieldRet k => k.AfterUser S
  | .sigStop _ => S
  | .sigLoop _ | .sigTest _ | .user => True
  | _ => False

theorem Pc.ready_of {P : Prop} (hP : P) (k : Pc np) : k.Ready P := by
  induction k <;> first | exact hP | assumption | trivial

/-- The state of a pass with respect to a signal `i` blocked by the mask `m₀` it
started with. -/
def MaskedPass (i : Fin 32) (m₀ : BitVec 32) (p : Proc np) : Prop :=
  p.pc.NoTurnoff i ∧
    ((p.signalHandling = 0 ∧ p.signalsMask = m₀ ∧ p.pc.Ready (p.killed ≠ 0 ∨ p.stopped = 0)) ∨
      (p.signalHandling ≠ 0 ∧ p.pc.AfterUser (p.stopped = 0) ∧ (p.killed ≠ 0 ∨ p.stopped = 0)))

section Blocked

variable {i : Fin 32} {m₀ : BitVec 32} (hi : i ≠ K.SIGKILL) (hi' : i ≠ K.SIGSTOP)
  (hm : m₀.getLsbD i = true)
include hi hi' hm

/-- Before a handler is entered the mask is `m₀`, so `i` is never pending and unmasked
and every signal the step acts on is another one; after, the pass never tests a
signal for an action again. -/
theorem sigStep_maskedPass (hp : MaskedPass i m₀ p) (h : sigStep K p = some q) :
    MaskedPass i m₀ q ∧ ∀ a, .act i a ∉ passEv K p := by
  rcases hp with ⟨hnt, ⟨hh, hmask, hr⟩ | ⟨hh, ha, hks⟩⟩
  · have hn : isPendingAndNotMasked K p i = false := by
      simp [isPendingAndNotMasked_eq, hmask, hm, hi, hi']
    have hne : ∀ j, isPendingAndNotMasked K p j = true → i ≠ j := fun j hj e => by
      rw [← e, hn] at hj; cases hj
    unfold sigStep at h
    split at h <;> rename_i hpc
    all_goals first | cases h | (split_ifs at h <;> cases h)
    all_goals (try split_ifs) <;> (try rw [dispatch_eq]) <;> (try split) <;>
      simp_all [MaskedPass, passEv, Pc.NoTurnoff, Pc.Ready]
  · unfold sigStep at h
    split at h <;> rename_i hpc
    all_goals first | cases h | (split_ifs at h <;> cases h)
    all_goals (try split_ifs) <;> simp_all [MaskedPass, passEv, Pc.NoTurnoff, Pc.AfterUser]

/-- One step of a pass keeps the invariant, logs nothing for `i` and leaves its bit. -/
theorem PassStep.maskedPass (hp : MaskedPass i m₀ p) (h : PassStep K p e q) :
    MaskedPass i m₀ q ∧ (∀ a, .act i a ∉ e) ∧ .turnoff i ∉ e ∧
      q.pendingSignals.getLsbD i = p.pendingSignals.getLsbD i := by
  obtain ⟨hnt, hph⟩ := hp
  cases h with
  | priv h =>
    obtain ⟨hq, ha⟩ := sigStep_maskedPass hi hi' hm ⟨hnt, hph⟩ h
    exact ⟨hq, ha, passEv_turnoff p i, by rw [sigStep_frame h]⟩
  | kill hpc =>
    rw [hpc] at hnt hph
    rcases hph with ⟨hh, hmask, -⟩ | ⟨-, ha, -⟩
    · exact ⟨⟨hnt, .inl ⟨hh, hmask, Pc.ready_of (.inl (by simp [sigkillFunc])) _⟩⟩,
        by simp, by simp, rfl⟩
    · exact ha.elim
  | turnoff hpc =>
    rw [hpc] at hnt hph
    exact ⟨⟨hnt.2, hph⟩, by simp, by simpa using hnt.1,
      by simp [turnoffSigbit, getLsbD_sigBit, Fin.val_ne_of_ne hnt.1]⟩
  | user dst sigmask hpc =>
    rw [hpc] at hnt hph
    rcases hph with ⟨-, -, hr⟩ | ⟨-, ha, -⟩
    · exact ⟨⟨⟨hnt, trivial⟩, .inr ⟨by simp [usersignalhandler], trivial, hr⟩⟩,
        by simp, by simp, rfl⟩
    · exact ha.elim

/-- A run of a pass keeps the invariant, logs nothing for `i` and leaves its bit. -/
theorem PassRun.maskedPass (h : PassRun K p evs q) (hp : MaskedPass i m₀ p) :
    MaskedPass i m₀ q ∧ (∀ a, .act i a ∉ evs) ∧ .turnoff i ∉ evs ∧
      q.pendingSignals.getLsbD i = p.pendingSignals.getLsbD i := by
  induction h with
  | refl => exact ⟨hp, by simp, by simp, rfl⟩
  | tail _ hs ih =>
    obtain ⟨hq, ha, ht, hb⟩ := ih
    obtain ⟨hr, ha', ht', hb'⟩ := hs.maskedPass hi hi' hm hq
    exact ⟨hr, fun a h => (List.mem_append.mp h).elim (ha a) (ha' a), by simp [ht, ht'],
      hb'.trans hb⟩

end Blocked

/-! ## Twins -/

theorem isPendingAndNotMasked_maskOf (p : Proc np) (i : Fin 32) :
    isPendingAndNotMasked K p i =
      (p.pendingSignals.getLsbD i && !(maskOf K p.signalsMask).getLsbD i) := by
  simp [isPendingAndNotMasked_eq, Fin.ext_iff, Bool.and_assoc]

section Twin

variable (hm : maskOf K m = maskOf K p.signalsMask)
include hm

theorem isPendingAndNotMasked_withMasks (i : Fin 32) :
    isPendingAndNotMasked K { p with signalsMask := m, signalsMaskBackup := b } i =
      isPendingAndNotMasked K p i := by
  rw [isPendingAndNotMasked_maskOf, isPendingAndNotMasked_maskOf]; simp only [hm]

theorem passEv_withMasks :
    passEv K { p with signalsMask := m, signalsMaskBackup := b } = passEv K p := by
  unfold passEv; simp only [isPendingAndNotMasked_withMasks hm]

theorem PassStep.withMasks (h : PassStep K p e q)
    (hb : maskOf K b = maskOf K p.signalsMaskBackup) : ∃ m' b',
      PassStep K { p with signalsMask := m, signalsMaskBackup := b } e
        { q with signalsMask := m', signalsMaskBackup := b' } ∧
      maskOf K m' = maskOf K q.signalsMask ∧ maskOf K b' = maskOf K q.signalsMaskBackup := by
  cases h with
  | priv h =>
    have hq : sigStep K { p with signalsMask := m, signalsMaskBackup := b } =
        some { q with signalsMask := m, signalsMaskBackup := b } := by
      rw [sigStep_withMasks (isPendingAndNotMasked_withMasks hm), h]; rfl
    have e := sigStep_frame h
    refine ⟨m, b, passEv_withMasks hm ▸ .priv hq, ?_, ?_⟩ <;> rw [e] <;> assumption
  | kill hpc => exact ⟨m, b, .kill hpc, hm, hb⟩
  | turnoff hpc => exact ⟨m, b, .turnoff hpc, hm, hb⟩
  | user dst sigmask hpc => exact ⟨_, m, .user dst sigmask hpc, rfl, hm⟩

theorem PassRun.withMasks (h : PassRun K p evs q)
    (hb : maskOf K b = maskOf K p.signalsMaskBackup) : ∃ m' b',
      PassRun K { p with signalsMask := m, signalsMaskBackup := b } evs
        { q with signalsMask := m', signalsMaskBackup := b' } ∧
      maskOf K m' = maskOf K q.signalsMask ∧ maskOf K b' = maskOf K q.signalsMaskBackup := by
  induction h with
  | refl => exact ⟨m, b, .refl, hm, hb⟩
  | tail _ hs ih =>
    obtain ⟨m', b', hr, hm', hb'⟩ := ih
    obtain ⟨m'', b'', hs', hm'', hb''⟩ := hs.withMasks hm' hb'
    exact ⟨m'', b'', hr.tail hs', hm'', hb''⟩

end Twin

/-! ## The pass on the machine

On the machine a pass is not alone: the timer or the stop-wait loop's `yield` switches
its thread out, any CPU's scheduler switches it back in, other CPUs' `kill`s raise its
bits and an exiting parent's `reparent` relinks it. Seen from the process's record
every step of the machine is one of these moves or leaves the record alone
(`step_mpass`), so a pass on the machine is a run of them (`trace_mpass`). -/

/-- A point of `signalhandler()` or of a call it makes, switched out or not. -/
def Pc.InPass : Pc np → Prop
  | .sigEntry | .sigLoop _ | .sigStop _ | .searchCont _ | .searchKill _ | .searchLoop _ _
  | .sigTest _ | .sigUser _ => True
  | .sigKill k | .sigTurnoff _ k | .yieldRet k => k.InPass
  | _ => False

/-- A process inside its pass, running or switched out. -/
def Proc.InPass (r : Proc np) : Prop :=
  r.pc.InPass ∧ (r.state = .RUNNING ∨ r.state = .RUNNABLE)

variable (K) in
/-- What happens to the record of a process in its delivery pass on the machine: a step
of the pass, the stop-wait loop's `yield`, a timer `yield`, a scheduler switching back
into it, a `kill` raising one of its bits, or `reparent` relinking it. -/
inductive MPassStep : Proc np → List PassEv → Proc np → Prop
  | pass {p e q} (h : PassStep K p e q) : MPassStep p e q
  | stopYield {p i j} (hpc : p.pc = .searchLoop i j) (hj : 32 ≤ j) :
      MPassStep p [] { p with state := .RUNNABLE, pc := .yieldRet (.sigStop i) }
  | preempt {p} (hs : p.state = .RUNNING) :
      MPassStep p [] { p with state := .RUNNABLE, pc := .yieldRet p.pc }
  | resume {p q} (hs : p.state = .RUNNABLE) (h : resume p = some q) :
      MPassStep p [] { q with state := .RUNNING }
  | raise {p} (s : Fin 32) :
      MPassStep p [] { p with pendingSignals := p.pendingSignals ||| sigBit s }
  | reparent {p} (y : Option (Fin np)) : MPassStep p [] { p with parent := y }

variable (K) in
/-- Moves of a pass on the machine, with their logs in order. -/
inductive MPassRun (p : Proc np) : List PassEv → Proc np → Prop
  | refl : MPassRun p [] p
  | tail {evs q e r} : MPassRun p evs q → MPassStep K q e r → MPassRun p (evs ++ e) r

theorem sigStep_inPass (h : sigStep K p = some q) : q.pc.InPass ∨ q.pc = .user := by
  unfold sigStep at h
  split at h
  all_goals first | cases h | (split_ifs at h <;> cases h)
  all_goals (try split_ifs) <;> (try rw [dispatch_eq]) <;> (try split) <;> simp [Pc.InPass]

theorem resume_inPass (h : resume p = some q) (hp : p.pc.InPass) : q.pc.InPass := by
  unfold resume at h
  split at h <;> cases h <;> simp_all [Pc.InPass]

/-- A move keeps the process inside its pass unless it returns to user space. -/
theorem MPassStep.inPass (h : MPassStep K p e q) (hp : p.InPass) (hq : q.pc ≠ .user) :
    q.InPass := by
  obtain ⟨hpc, hst⟩ := hp
  cases h with
  | pass h =>
    cases h with
    | priv h => exact ⟨(sigStep_inPass h).resolve_right hq, by rw [sigStep_frame h]; exact hst⟩
    | kill hpc' =>
      rw [hpc'] at hpc
      refine ⟨hpc, ?_⟩
      rcases hst with h | h <;> simp [sigkillFunc, h]
    | turnoff hpc' => rw [hpc'] at hpc; exact ⟨hpc, hst⟩
    | user _ _ => exact ⟨trivial, hst⟩
  | stopYield => exact ⟨trivial, .inr rfl⟩
  | preempt => exact ⟨hpc, .inr rfl⟩
  | resume _ h => exact ⟨(resume_inPass h hpc :), .inl rfl⟩
  | raise | reparent => exact ⟨hpc, hst⟩

section Machine

variable {σ σ' : Sys np nc} {c : Fin nc} {o : Out np} {P : Fin np}

/-- The own step of a process inside its pass is a move of the pass. -/
theorem pstep_mpass (h : PStep K σ c P o σ') (hP : (σ.proc P).pc.InPass) :
    ∃ e, MPassStep K (σ.proc P) e (σ'.proc P) := by
  cases h
  case yield hs _ _ => exact ⟨[], by simpa using MPassStep.preempt (K := K) hs⟩
  case sigPriv q h => exact ⟨_, by simpa using MPassStep.pass (.priv h)⟩
  case sigKill k hpc _ => exact ⟨_, by simpa using MPassStep.pass (.kill hpc)⟩
  case sigTurnoff i k hpc _ => exact ⟨_, by simpa using MPassStep.pass (.turnoff hpc)⟩
  case sigUser i _ _ _ _ hpc _ => exact ⟨_, by simpa using MPassStep.pass (.user _ _ hpc)⟩
  case stopYield i j hpc hj _ _ => exact ⟨_, by simpa using MPassStep.stopYield (K := K) hpc hj⟩
  case callWakeup ch hpc => rcases hpc with h | ⟨k, h⟩ <;> rw [h] at hP <;> exact hP.elim
  all_goals exfalso; revert hP; rw [‹(σ.proc P).pc = _›]; exact id

/-- Seen from a process inside its pass, a step of the machine is a move of the pass
or leaves its record alone. -/
theorem step_mpass (hw : Wf σ) (hs : Step K σ c o σ') (hP : (σ.proc P).InPass) :
    σ'.proc P = σ.proc P ∨ ∃ e, MPassStep K (σ.proc P) e (σ'.proc P) := by
  by_cases hc : (σ.cpus c).proc = some P
  · cases hs with
    | proc hc' h =>
      obtain rfl := Option.some.inj (hc'.symm.trans hc)
      exact .inr (pstep_mpass h hP.1)
    | intrDone => exact .inl rfl
    | _ => exact absurd (hc.symm.trans ‹(σ.cpus c).proc = none›) nofun
  · rcases step_other_live hw hs hc hP.2 with h | ⟨s, h⟩ | h | ⟨q, hr, hq, h⟩
    · exact .inl h
    · exact .inr ⟨[], h ▸ .raise s⟩
    · exact .inr ⟨[], h ▸ .reparent _⟩
    · exact .inr ⟨[], h ▸ .resume hr hq⟩

variable {τ : Nat → Sys np nc} {n : Nat}

/-- Along a trace in which a process that started inside its pass has not returned to
user space, its record runs through moves of the pass. -/
theorem trace_mpass (htr : Trace K τ n) (hr : Reachable K (τ 0)) (h0 : ((τ 0).proc P).InPass)
    (hin : ∀ t < n, ((τ t).proc P).pc ≠ .user) :
    ∀ t ≤ n, ∃ evs, MPassRun K ((τ 0).proc P) evs ((τ t).proc P) ∧
      (t < n → ((τ t).proc P).InPass) := by
  intro t ht
  induction t with
  | zero => exact ⟨[], .refl, fun _ => h0⟩
  | succ t ih =>
    obtain ⟨evs, hrun, hlive⟩ := ih (by omega)
    obtain ⟨c, o, hs⟩ := htr t (by omega)
    have hP := hlive (by omega)
    rcases step_mpass (htr.reachable hr t (by omega)).wf hs hP with he | ⟨e, hm⟩
    · exact ⟨evs, by rw [he]; exact hrun, fun _ => by rw [he]; exact hP⟩
    · exact ⟨_, hrun.tail hm, fun h => hm.inPass hP (hin _ h)⟩

end Machine

theorem resume_maskedPass {i : Fin 32} {m₀ : BitVec 32} (h : resume p = some q)
    (hp : MaskedPass i m₀ p) : MaskedPass i m₀ q := by
  unfold resume at h
  split at h <;> cases h <;> simp_all [MaskedPass, Pc.NoTurnoff, Pc.Ready, Pc.AfterUser]

section BlockedMachine

variable {i : Fin 32} {m₀ : BitVec 32} (hi : i ≠ K.SIGKILL) (hi' : i ≠ K.SIGSTOP)
  (hm : m₀.getLsbD i = true)
include hi hi' hm

/-- A move of the pass on the machine keeps the invariant, logs nothing for `i` and
never clears its bit. -/
theorem MPassStep.maskedPass (hp : MaskedPass i m₀ p) (h : MPassStep K p e q) :
    MaskedPass i m₀ q ∧ (∀ a, .act i a ∉ e) ∧ .turnoff i ∉ e ∧
      (p.pendingSignals.getLsbD i = true → q.pendingSignals.getLsbD i = true) := by
  cases h with
  | pass h =>
    obtain ⟨h1, h2, h3, h4⟩ := h.maskedPass hi hi' hm hp
    exact ⟨h1, h2, h3, fun hb => h4 ▸ hb⟩
  | stopYield hpc =>
    obtain ⟨-, hph⟩ := hp
    rw [hpc] at hph
    exact ⟨⟨trivial, hph.imp (fun h => ⟨h.1, h.2.1, trivial⟩) fun h => h.2.1.elim⟩, by simp,
      by simp, id⟩
  | preempt => exact ⟨hp, by simp, by simp, id⟩
  | resume _ h =>
    exact ⟨(resume_maskedPass h hp :), by simp, by simp, by rw [resume_pending h]; exact id⟩
  | raise s => exact ⟨hp, by simp, by simp, fun hb => by simp [hb]⟩
  | reparent => exact ⟨hp, by simp, by simp, id⟩

theorem MPassRun.maskedPass (h : MPassRun K p evs q) (hp : MaskedPass i m₀ p) :
    MaskedPass i m₀ q ∧ (∀ a, .act i a ∉ evs) ∧ .turnoff i ∉ evs := by
  induction h with
  | refl => exact ⟨hp, by simp, by simp⟩
  | tail _ hs ih =>
    obtain ⟨hq, ha, ht⟩ := ih
    obtain ⟨hr, ha', ht', -⟩ := hs.maskedPass hi hi' hm hq
    exact ⟨hr, fun a h => (List.mem_append.mp h).elim (ha a) (ha' a), by simp [ht, ht']⟩

end BlockedMachine

theorem resume_withMasks :
    resume { p with signalsMask := m, signalsMaskBackup := b } =
      (resume p).map fun x => { x with signalsMask := m, signalsMaskBackup := b } := by
  unfold resume
  split <;> rename_i hpc <;> simp only at hpc <;> simp [hpc]

section TwinMachine

variable (hm : maskOf K m = maskOf K p.signalsMask)
include hm

theorem MPassStep.withMasks (h : MPassStep K p e q)
    (hb : maskOf K b = maskOf K p.signalsMaskBackup) : ∃ m' b',
      MPassStep K { p with signalsMask := m, signalsMaskBackup := b } e
        { q with signalsMask := m', signalsMaskBackup := b' } ∧
      maskOf K m' = maskOf K q.signalsMask ∧ maskOf K b' = maskOf K q.signalsMaskBackup := by
  cases h with
  | pass h =>
    obtain ⟨m', b', h', h1, h2⟩ := h.withMasks hm hb
    exact ⟨m', b', .pass h', h1, h2⟩
  | stopYield hpc hj => exact ⟨m, b, .stopYield hpc hj, hm, hb⟩
  | preempt hs => exact ⟨m, b, .preempt hs, hm, hb⟩
  | @resume q hs h =>
    have e := resume_frame h
    refine ⟨m, b, MPassStep.resume (q := { q with signalsMask := m, signalsMaskBackup := b }) hs
      (by rw [resume_withMasks, h]; rfl), ?_, ?_⟩ <;> rw [e] <;> assumption
  | raise s => exact ⟨m, b, .raise s, hm, hb⟩
  | reparent y => exact ⟨m, b, .reparent y, hm, hb⟩

theorem MPassRun.withMasks (h : MPassRun K p evs q)
    (hb : maskOf K b = maskOf K p.signalsMaskBackup) : ∃ m' b',
      MPassRun K { p with signalsMask := m, signalsMaskBackup := b } evs
        { q with signalsMask := m', signalsMaskBackup := b' } ∧
      maskOf K m' = maskOf K q.signalsMask ∧ maskOf K b' = maskOf K q.signalsMaskBackup := by
  induction h with
  | refl => exact ⟨m, b, .refl, hm, hb⟩
  | tail _ hs ih =>
    obtain ⟨m', b', hr, hm', hb'⟩ := ih
    obtain ⟨m'', b'', hs', hm'', hb''⟩ := hs.withMasks hm' hb'
    exact ⟨m'', b'', hr.tail hs', hm'', hb''⟩

end TwinMachine

variable {τ : Nat → Sys np nc} {n : Nat} {P : Fin np}

/-- **Masking is respected.** Process `P` starts a delivery pass with no handler in
flight, and the machine runs on, any CPU stepping, until the pass returns to user
space. Seen from `P`'s record the run is a pass whose thread may be switched out, by
the timer or by the stop-wait loop's `yield`, and switched back in by any CPU's
scheduler, while other CPUs' `kill`s raise its bits and `reparent` may relink it. No
action is carried out for a signal `i` other than SIGKILL and SIGSTOP whose bit the
mask has set at the start, in the main loop or in `search_cont_signals`, none of the
pass's turnoffs is of `i`, and no step clears its bit. A record whose mask differs
only in the SIGKILL and SIGSTOP bits runs the same pass through the same moves, to a
record that differs from the first one's end only in those bits of its two masks. -/
theorem masking_respected (htr : Trace K τ n) (hr : Reachable K (τ 0))
    (hpc : ((τ 0).proc P).pc = .sigEntry) (hrun : ((τ 0).proc P).state = .RUNNING)
    (hh : ((τ 0).proc P).signalHandling = 0) (hin : ∀ t < n, ((τ t).proc P).pc ≠ .user) :
    ∃ evs, MPassRun K ((τ 0).proc P) evs ((τ n).proc P) ∧
      (∀ i : Fin 32, i ≠ K.SIGKILL → i ≠ K.SIGSTOP → ((τ 0).proc P).signalsMask.getLsbD i = true →
        (∀ a, .act i a ∉ evs) ∧ .turnoff i ∉ evs ∧
        ∀ t < n, ((τ t).proc P).pendingSignals.getLsbD i = true →
          ((τ (t + 1)).proc P).pendingSignals.getLsbD i = true) ∧
      ∀ m, maskOf K m = maskOf K ((τ 0).proc P).signalsMask → ∃ m' b',
        MPassRun K { (τ 0).proc P with signalsMask := m } evs
          { (τ n).proc P with signalsMask := m', signalsMaskBackup := b' } ∧
        maskOf K m' = maskOf K ((τ n).proc P).signalsMask ∧
        maskOf K b' = maskOf K ((τ n).proc P).signalsMaskBackup := by
  have h0 : ((τ 0).proc P).InPass := ⟨by rw [hpc]; trivial, .inl hrun⟩
  have hmp : ∀ i, MaskedPass i ((τ 0).proc P).signalsMask ((τ 0).proc P) := fun i =>
    ⟨by rw [hpc]; trivial, .inl ⟨hh, rfl, by rw [hpc]; trivial⟩⟩
  obtain ⟨evs, hrun', -⟩ := trace_mpass htr hr h0 hin n le_rfl
  refine ⟨evs, hrun', fun i hi hi' hm => ?_, fun m hm => hrun'.withMasks hm rfl⟩
  obtain ⟨-, ha, ht⟩ := hrun'.maskedPass hi hi' hm (hmp i)
  refine ⟨ha, ht, fun t htn hb => ?_⟩
  obtain ⟨evs', hrunt, hlive⟩ := trace_mpass htr hr h0 hin t htn.le
  obtain ⟨c, o, hs⟩ := htr t htn
  rcases step_mpass (htr.reachable hr t htn.le).wf hs (hlive htn) with he | ⟨e, hm'⟩
  · rw [he]; exact hb
  · exact (hm'.maskedPass hi hi' hm (hrunt.maskedPass hi hi' hm (hmp i)).1).2.2.2 hb

/-- initcode masks signal 3, has it pending, and enters its pass: the timer switches it
out after the pass's first step, and the scheduler, passing the unused slot 1 and
starting over, switches it back in. Bit 3 stays set throughout. -/
theorem masking_respected_preempted : ∃ τ : Nat → Sys 2 1, Trace Param.std τ 5 ∧
    Reachable Param.std (τ 0) ∧ ((τ 0).proc 0).pc = .sigEntry ∧
    ((τ 0).proc 0).state = .RUNNING ∧ ((τ 0).proc 0).signalHandling = 0 ∧
    (∀ t < 5, ((τ t).proc 0).pc ≠ .user) ∧ ((τ 0).proc 0).signalsMask.getLsbD 3 = true ∧
    ((τ 0).proc 0).pendingSignals.getLsbD 3 = true ∧ ((τ 2).proc 0).state = .RUNNABLE ∧
    ∃ evs, MPassRun Param.std ((τ 0).proc 0) evs ((τ 5).proc 0) ∧ (∀ a, .act 3 a ∉ evs) ∧
      ∀ t ≤ 5, ((τ t).proc 0).pendingSignals.getLsbD 3 = true := by
  have h0 := bootSys_reachable (K := Param.std)
  have h1 := h0.step (Step.proc (c := 0) rfl (PStep.sigprocmask (p := 0) 8 rfl))
  have h2 := h1.step (Step.proc (c := 0) rfl (PStep.killCall (p := 0) 1 3 (by rfl)))
  have h3 := h2.step (Step.proc (c := 0) rfl
    (PStep.killHit (p := 0) (i := 0) (by rfl) (by decide) (by rfl) (by rfl) (by decide)))
  have h4 := h3.step (Step.proc (c := 0) rfl (PStep.sigCall (p := 0) (by rfl)))
  obtain ⟨s₀, l, hr, hl, hlen, hpc, hst, hh, hin, hm, hb, hst2⟩ :
      ∃ (s₀ : Sys 2 1) (l : List (Sys 2 1)), Reachable Param.std s₀ ∧
        l.Chain (fun x y => ∃ c o, Step Param.std x c o y) s₀ ∧ l.length = 5 ∧
        (s₀.proc 0).pc = .sigEntry ∧ (s₀.proc 0).state = .RUNNING ∧
        (s₀.proc 0).signalHandling = 0 ∧ (∀ t < 5, (((s₀ :: l).getD t s₀).proc 0).pc ≠ .user) ∧
        (s₀.proc 0).signalsMask.getLsbD 3 = true ∧ (s₀.proc 0).pendingSignals.getLsbD 3 = true ∧
        (((s₀ :: l).getD 2 s₀).proc 0).state = .RUNNABLE :=
    ⟨_, _, h4, .cons ⟨0, _, Step.proc rfl (PStep.sigPriv (p := 0) rfl)⟩ <|
      .cons ⟨0, _, Step.proc rfl (PStep.yield (c := 0) (p := 0) rfl (fun _ h => by cases h) rfl)⟩ <|
      .cons ⟨0, _, Step.schedSkip 1 rfl rfl rfl (by decide)⟩ <|
      .cons ⟨0, _, Step.schedWrap rfl (by decide)⟩ <|
      .cons ⟨0, _, Step.schedRun 0 rfl rfl rfl rfl rfl⟩ .nil,
      rfl, rfl, rfl, rfl, by decide, by decide, by decide, rfl⟩
  have htr : Trace Param.std _ 5 := hlen ▸ Trace.of_chain s₀ hl
  obtain ⟨evs, hrun, hmask, -⟩ := masking_respected htr hr hpc hst hh hin
  obtain ⟨ha, -, hmono⟩ := hmask 3 (by decide) (by decide) hm
  have hbits : ∀ t ≤ 5, (((s₀ :: l).getD t s₀).proc 0).pendingSignals.getLsbD 3 = true :=
    fun t ht => by
      induction t with
      | zero => exact hb
      | succ t ih => exact hmono t (by omega) (ih (by omega))
  exact ⟨_, htr, hr, hpc, hst, hh, hin, hm, hb, hst2, evs, hrun, ha, hbits⟩

end Masking

end RiscvProc
