import RiscvProc.Pending

/-!
# A user handler and its `sigret`

`usersignalhandler(p, i)` saves the trap frame on the user stack below `sp`, puts the
return stub `callsigret` below that, and enters the handler with the stub as both
stack and return address; `sigret()` copies the frame back from `user_tf_backup` and
restores the mask kept in `signals_mask_backup`. The machine leaves user memory out;
here it is a map from addresses to bytes, written by `copyout` and read by `copyin`
over the range the handler's stack uses and from the handler's descriptor
(`readSigaction`). The layout of `struct trapframe` and the bytes of the stub are
parameters (`Layout`), of which `xv6Layout` is xv6's.

From the entry to the process's next `sigret`, while the slot stays in use, no step
touches the in-flight flag, the saved-frame pointer or the saved mask, and none enters
another handler (`trace_inHandler`). The stub lies below the saved frame, so it does
not overwrite it (`handlerWrites_frame`). Hence the round trip: a `sigret` whose frame
area nobody wrote restores the frame and the mask the entry found
(`handler_round_trip`).

Over whole runs the flag `signal_handling` is the guard the spec asks for
(`handler_flag_protocol`): in every reachable state a process with a handler in flight
is at no point that enters `usersignalhandler` (`HandlerGuard`); the flag goes up only
in the process's own `usersignalhandler`, and comes down only in its `sigret` or when
`allocproc` takes its UNUSED slot.
-/

namespace RiscvProc

variable {np nc : Nat} {K : Param}

/-! ## User memory -/

/-- `copyout(pagetable, dstva, src, len)` into mapped, writable memory. -/
def copyout (m : UMem) (dstva : BitVec 64) (src : List (BitVec 8)) : UMem := fun a =>
  if h : (a - dstva).toNat < src.length then src[(a - dstva).toNat] else m a

theorem copyin_congr {m m' : UMem} {b : BitVec 64} {len : Nat}
    (h : ∀ k < len, m' (b + BitVec.ofNat 64 k) = m (b + BitVec.ofNat 64 k)) :
    copyin m' b len = copyin m b len :=
  List.map_congr_left fun k hk => h k (List.mem_range.1 hk)

/-- Reading back what was just written. -/
theorem copyin_copyout_self (m : UMem) (a : BitVec 64) (src : List (BitVec 8))
    (h : src.length ≤ 2 ^ 64) : copyin (copyout m a src) a src.length = src := by
  apply List.ext_getElem (by simp [copyin])
  intro k hk _
  have hk' : k < src.length := by simpa [copyin] using hk
  have e : (a + BitVec.ofNat 64 k - a).toNat = k := by bv_omega
  simp only [copyin, List.getElem_map, List.getElem_range, copyout, e, dif_pos hk']

/-- A read of bytes that a write does not cover sees the memory before the write. -/
theorem copyin_copyout_of_disjoint {m : UMem} {a b : BitVec 64} {src : List (BitVec 8)}
    {len : Nat} (h : ∀ k < len, src.length ≤ (b + BitVec.ofNat 64 k - a).toNat) :
    copyin (copyout m a src) b len = copyin m b len :=
  copyin_congr fun k hk => by simp only [copyout, dif_neg (Nat.not_lt.2 (h k hk))]

/-! ## The writes of the entry -/

/-- How `struct trapframe` lies in memory (its bytes, and what a `copyin` of them
leaves in the trap frame), and the bytes of the stub from `callsigret` to
`endcallsigret`. -/
structure Layout (K : Param) where
  tfBytes : Trapframe → List (BitVec 8)
  tfOf : List (BitVec 8) → Trapframe
  stub : List (BitVec 8)
  length_tfBytes : ∀ tf, (tfBytes tf).length = K.tfSize
  length_stub : stub.length = K.stubSize

/-- `sp_n` of `usersignalhandler`: the address the trap frame is saved at. -/
def frameAddr (K : Param) (tf : Trapframe) : BitVec 64 := tf.sp - BitVec.ofNat 64 K.tfSize

/-- The two `copyout`s of `usersignalhandler(p, i)`: the trap frame at `sp_n`, then the
stub below it. -/
def handlerWrites (L : Layout K) (m : UMem) (p : Proc np) : UMem :=
  copyout (copyout m (frameAddr K p.tf) (L.tfBytes p.tf))
    (frameAddr K p.tf - BitVec.ofNat 64 K.stubSize) L.stub

/-- The stub does not reach the saved frame: after the entry the frame area holds
the frame. -/
theorem handlerWrites_frame (L : Layout K) (hK : K.tfSize + K.stubSize ≤ 2 ^ 64)
    (m : UMem) (p : Proc np) :
    copyin (handlerWrites L m p) (frameAddr K p.tf) K.tfSize = L.tfBytes p.tf := by
  rw [handlerWrites, copyin_copyout_of_disjoint, ← L.length_tfBytes p.tf,
    copyin_copyout_self _ _ _ (by rw [L.length_tfBytes]; omega)]
  intro k hk
  rw [L.length_stub]
  bv_omega

/-- The stub is where the entry leaves `sp` and `ra`. -/
theorem handlerWrites_stub (L : Layout K) (hK : K.stubSize ≤ 2 ^ 64) (m : UMem) (p : Proc np) :
    copyin (handlerWrites L m p) (frameAddr K p.tf - BitVec.ofNat 64 K.stubSize) K.stubSize =
      L.stub := by
  rw [handlerWrites, ← L.length_stub, copyin_copyout_self _ _ _ (by rw [L.length_stub]; exact hK)]

/-! ## xv6's layout

`struct trapframe` is 36 words: `kernel_satp`, `kernel_sp`, `kernel_trap`, `epc`,
`kernel_hartid`, `ra`, `sp`, `gp`, `tp`, `t0`-`t2`, `s0`, `s1`, `a0`-`a7`, `s2`-`s11`,
`t3`-`t6`, each stored little-endian. The model names `epc`, `ra`, `sp` and `a0`;
`regs` lists the other 32 in order, up to the last nonzero one. -/

/-- The `n` bytes of `v` in little-endian order, lowest first. -/
def toLE : Nat → Nat → List (BitVec 8)
  | 0, _ => []
  | n + 1, v => BitVec.ofNat 8 v :: toLE n (v / 256)

@[simp] theorem length_toLE (n v : Nat) : (toLE n v).length = n := by
  induction n generalizing v <;> simp [toLE, *]

theorem leNat_toLE (n v : Nat) : leNat (toLE n v) = v % 256 ^ n := by
  induction n generalizing v with
  | zero => simp [toLE, leNat, Nat.mod_one]
  | succ n ih =>
    simp only [toLE, leNat, ih, BitVec.toNat_ofNat]; rw [pow_succ' 256 n, Nat.mod_mul]

/-- 64-bit words stored one after another. -/
def wordsLE : List (BitVec 64) → List (BitVec 8)
  | [] => []
  | w :: ws => toLE 8 w.toNat ++ wordsLE ws

@[simp] theorem length_wordsLE (ws : List (BitVec 64)) : (wordsLE ws).length = 8 * ws.length := by
  induction ws <;> simp [wordsLE, *]; omega

/-- The word at word offset `k` of `bs`. -/
def wordAt (bs : List (BitVec 8)) (k : Nat) : BitVec 64 :=
  BitVec.ofNat 64 (leNat ((bs.drop (8 * k)).take 8))

/-- The words of `struct trapframe` in memory order. -/
def tfWords (tf : Trapframe) : List (BitVec 64) :=
  let r := tf.regs ++ List.replicate (32 - tf.regs.length) 0
  r.take 3 ++ tf.epc :: (r.drop 3).take 1 ++ tf.ra :: tf.sp :: (r.drop 4).take 7 ++
    tf.a0 :: (r.drop 11).take 21

theorem length_tfWords (tf : Trapframe) : (tfWords tf).length = 36 := by
  simp [tfWords]; omega

/-- The word offsets of the registers `regs` lists. -/
def otherWords : List Nat := [0, 1, 2, 4] ++ List.range' 7 7 ++ List.range' 15 21

/-- What a `copyin` of the bytes `bs` leaves in the trap frame. -/
def tfOfWords (bs : List (BitVec 8)) : Trapframe :=
  ⟨wordAt bs 3, wordAt bs 6, wordAt bs 14, wordAt bs 5,
    ((otherWords.map (wordAt bs)).reverse.dropWhile (· == 0)).reverse⟩

/-- xv6's trap frame layout, with the `stub.length` bytes of `callsigret`. -/
def xv6Layout (stub : List (BitVec 8)) (h : stub.length = Param.std.stubSize) : Layout Param.std :=
  ⟨fun tf => wordsLE (tfWords tf), tfOfWords, stub, fun tf => by simp [length_tfWords]; rfl, h⟩

/-! ## From the entry to the next `sigret` -/

/-- The point is not `usersignalhandler`'s and returns into no point that is. -/
def Pc.NoSigUser : Pc np → Prop
  | .sigUser _ => False
  | .yieldRet k | .sleepCall _ _ k | .sleepRet _ _ k | .sleepReacq _ k | .wakeupScan _ _ k
  | .sigKill k | .sigTurnoff _ k => k.NoSigUser
  | _ => True

/-- A handler is in flight in `r`, its frame saved at `a` and the mask `m` kept: what
holds from the entry to the next `sigret`. -/
structure InHandler (r : Proc np) (a : BitVec 64) (m : BitVec 32) : Prop where
  handling : r.signalHandling = 1
  tfBackup : r.userTfBackup = a
  maskBackup : r.signalsMaskBackup = m
  noEntry : r.pc.NoSigUser

/-- The step from `σ` to `σ'` is process `P`'s `usersignalhandler(p, i)`, its `copyin`s
reading the handler descriptor from user memory `m`, whose mapped addresses are
`mapped`. -/
def EntersHandler (K : Param) (σ σ' : Sys np nc) (P : Fin np) (i : Fin 32) (m : UMem)
    (mapped : BitVec 64 → Bool) : Prop :=
  ∃ c dst₀ sigmask₀, (σ.cpus c).proc = some P ∧ (σ.proc P).pc = .sigUser i ∧
    σ.lock (.proc P) = none ∧
    σ' = σ.setProc P { usersignalhandler K (σ.proc P) i
      (readSigaction (σ.proc P) i m mapped dst₀ sigmask₀).1
      (readSigaction (σ.proc P) i m mapped dst₀ sigmask₀).2 with
      pc := .sigTurnoff i (.sigLoop (i.val + 1)) }

/-- The step from `σ` to `σ'` is process `P`'s `sigret()`, whose `copyin` left `tf'` in
the trap frame. -/
def Sigrets (σ σ' : Sys np nc) (P : Fin np) (tf' : Trapframe) : Prop :=
  ∃ c, (σ.cpus c).proc = some P ∧ (σ.proc P).pc = .user ∧ σ.lock (.proc P) = none ∧
    σ' = σ.setProc P (sigret (σ.proc P) tf')

/-- With a handler in flight a pass enters no handler: its pending test returns. -/
theorem sigStep_noSigUser {p q : Proc np} (h : sigStep K p = some q)
    (hh : p.signalHandling ≠ 0) : q.pc.NoSigUser := by
  unfold sigStep at h
  split at h
  all_goals first | cases h | (split_ifs at h <;> cases h)
  all_goals (try split_ifs) <;> simp_all [Pc.NoSigUser]

theorem resume_noSigUser {p q : Proc np} (h : resume p = some q) (hp : p.pc.NoSigUser) :
    q.pc.NoSigUser := by
  unfold resume at h
  split at h <;> cases h <;> rename_i hpc <;> simp_all [Pc.NoSigUser]

variable {σ σ' : Sys np nc} {c : Fin nc} {p P : Fin np} {o : Out np} {a : BitVec 64}
  {m : BitVec 32}

theorem resume_frame {p q : Proc np} (h : resume p = some q) :
    q = { p with pc := q.pc, chan := q.chan } := by
  unfold resume at h
  split at h <;> cases h <;> rfl

/-- A step of the thread of `p` keeps a handler of a slot in use in flight, unless it
is that slot's `sigret`. -/
theorem pstep_inHandler (hc : (σ.cpus c).proc = some p) (hs : PStep K σ c p o σ')
    (hP : InHandler (σ.proc P) a m) (hu : (σ.proc P).state ≠ .UNUSED)
    (hno : ∀ tf, ¬ Sigrets σ σ' P tf) : InHandler (σ'.proc P) a m := by
  obtain ⟨h1, rfl, rfl, h4⟩ := hP
  cases hs
  case sigretCall tf' hpc hl =>
    by_cases hP : P = p
    · subst hP; exact absurd ⟨c, hc, hpc, hl, rfl⟩ (hno tf')
    · simpa [hP] using (⟨h1, rfl, rfl, h4⟩ : InHandler (σ.proc P) _ _)
  case sigUser i _ _ _ _ hpc hl =>
    by_cases hP : P = p
    · subst hP; rw [hpc] at h4; exact h4.elim
    · simpa [hP] using (⟨h1, rfl, rfl, h4⟩ : InHandler (σ.proc P) _ _)
  case sigPriv q h =>
    by_cases hP : P = p
    · subst hP
      have hn := sigStep_noSigUser h (by omega)
      simp only [Sys.setProc_proc, if_pos rfl]
      rw [sigStep_frame h]
      exact ⟨h1, rfl, rfl, hn⟩
    · simpa [hP] using (⟨h1, rfl, rfl, h4⟩ : InHandler (σ.proc P) _ _)
  case sigactionCall signum act actAddr hpc =>
    obtain ⟨h, e⟩ := sigaction_snd K (σ.proc p) signum act actAddr
    simp only [Sys.setProc_proc, e]
    split_ifs with hP <;> [subst hP; skip] <;> exact ⟨h1, rfl, rfl, h4⟩
  case allocFail i q e hpc hi _ _ hu' _ | copyFail i q e hpc hi _ _ hu' _ _
    | allocOk i q e hpc hi _ _ hu' _ _ =>
    have hPi : P ≠ ⟨i, hi⟩ := by rintro rfl; exact hu hu'
    simp only [Sys.setProc_proc, if_neg hPi]
    split_ifs with hP
    · subst hP; exact ⟨h1, rfl, rfl, by simp [Pc.NoSigUser]⟩
    · exact ⟨h1, rfl, rfl, h4⟩
  all_goals clear hno; try simp only [Sys.setProc_proc, Sys.setLock_proc, Sys.switchOut_proc,
    Sys.setPc_eq]
  all_goals (try split_ifs) <;> (try subst_vars)
  all_goals first
    | exact ⟨h1, rfl, rfl, h4⟩
    | (refine ⟨h1, rfl, rfl, ?_⟩; simp_all [Pc.NoSigUser])
    | (refine ⟨?_, ?_, ?_, ?_⟩ <;> simp_all [Pc.NoSigUser, freeproc, wakeup1, apply_ite])

theorem step_inHandler (hs : Step K σ c o σ') (hP : InHandler (σ.proc P) a m)
    (hu : (σ.proc P).state ≠ .UNUSED) (hno : ∀ tf, ¬ Sigrets σ σ' P tf) :
    InHandler (σ'.proc P) a m := by
  cases hs with
  | proc hc h => exact pstep_inHandler hc h hP hu hno
  | schedSkip | schedWrap | intrCall | intrDone => exact hP
  | @intrSlot a i _ _ hi _ =>
    obtain ⟨h1, rfl, rfl, h4⟩ := hP
    show InHandler ((σ.setProc _ _).proc P) _ _
    rcases eq_or_ne P ⟨i, hi⟩ with rfl | hP'
    · simp only [Sys.setProc_proc, if_true]
      unfold wakeup1; split_ifs <;> exact ⟨h1, rfl, rfl, h4⟩
    · simpa [hP'] using (⟨h1, rfl, rfl, h4⟩ : InHandler (σ.proc P) _ _)
  | schedRun i _ _ _ _ hr =>
    simp only [Sys.setCpu_proc, Sys.setProc_proc]
    split_ifs with h
    · subst h
      obtain ⟨h1, rfl, rfl, h4⟩ := hP
      have hn := resume_noSigUser hr h4
      rw [resume_frame hr]
      exact ⟨h1, rfl, rfl, hn⟩
    · exact hP
  | userinit i e cwd _ _ _ hu' _ _ _ =>
    have hPi : P ≠ i := by rintro rfl; exact hu hu'
    simpa [hPi] using hP

variable {τ : Nat → Sys np nc} {n : Nat}

/-- Along a trace in which `P`'s slot stays in use and `P` makes no `sigret`, a handler
in flight stays in flight. -/
theorem trace_inHandler (htr : Trace K τ n) {t u : Nat} (htu : t ≤ u) (hun : u ≤ n)
    (h0 : InHandler ((τ t).proc P) a m)
    (hlive : ∀ v, t ≤ v → v < u → ((τ v).proc P).state ≠ .UNUSED)
    (hno : ∀ v tf, t ≤ v → v < u → ¬ Sigrets (τ v) (τ (v + 1)) P tf) :
    InHandler ((τ u).proc P) a m := by
  induction u, htu using Nat.le_induction with
  | base => exact h0
  | succ u htu ih =>
    obtain ⟨c, o, hs⟩ := htr u (by omega)
    exact step_inHandler hs (ih (by omega) (fun v h1 h2 => hlive v h1 (by omega))
      (fun v tf h1 h2 => hno v tf h1 (by omega))) (hlive u htu (by omega)) (hno u · htu (by omega))

/-- **Handler entry and `sigret` are a round trip.** Process `P` enters a handler at
step `t`, reading a descriptor at mapped addresses from memory `m`; its slot stays in
use, and its next `sigret` is at step `t'`, reading the frame from memory `m'` in which
nobody wrote the saved frame's bytes since the entry's own writes into `m`. The entry
leaves the handler to run at the descriptor's `sa_handler` with `a0 = i`, `sp = ra` at
the copied stub, under the descriptor's `sigmask` with SIGKILL and SIGSTOP cleared; the
`sigret` restores the trap frame and the mask of the entry, with nothing in flight. -/
theorem handler_round_trip (L : Layout K) (hK : K.tfSize + K.stubSize ≤ 2 ^ 64)
    (htr : Trace K τ n) {t t' : Nat} (htt : t < t') (ht' : t' < n) {i : Fin 32}
    {m : UMem} {mapped : BitVec 64 → Bool} (hin : EntersHandler K (τ t) (τ (t + 1)) P i m mapped)
    (hd : copyOk mapped (descAddr ((τ t).proc P) i) 8 = true)
    (hd' : copyOk mapped (descAddr ((τ t).proc P) i + 8) 4 = true)
    (hlive : ∀ v, t < v → v < t' → ((τ v).proc P).state ≠ .UNUSED)
    (hmid : ∀ v tf, t < v → v < t' → ¬ Sigrets (τ v) (τ (v + 1)) P tf)
    {tf' : Trapframe} (hret : Sigrets (τ t') (τ (t' + 1)) P tf') {m' : UMem}
    (hread : tf' = L.tfOf (copyin m' ((τ t').proc P).userTfBackup K.tfSize))
    (hkeep : ∀ k < K.tfSize, m' (frameAddr K ((τ t).proc P).tf + BitVec.ofNat 64 k) =
      handlerWrites L m ((τ t).proc P) (frameAddr K ((τ t).proc P).tf + BitVec.ofNat 64 k))
    (hL : L.tfOf (L.tfBytes ((τ t).proc P).tf) = ((τ t).proc P).tf) :
    ((τ (t + 1)).proc P).tf.epc =
      BitVec.ofNat 64 (leNat (copyin m (descAddr ((τ t).proc P) i) 8)) ∧
    ((τ (t + 1)).proc P).tf.a0 = BitVec.ofNat 64 i.val ∧
    ((τ (t + 1)).proc P).tf.sp = frameAddr K ((τ t).proc P).tf - BitVec.ofNat 64 K.stubSize ∧
    ((τ (t + 1)).proc P).tf.ra = ((τ (t + 1)).proc P).tf.sp ∧
    copyin (handlerWrites L m ((τ t).proc P)) ((τ (t + 1)).proc P).tf.sp K.stubSize = L.stub ∧
    (∀ j : Nat, ((τ (t + 1)).proc P).signalsMask.getLsbD j =
      ((BitVec.ofNat 32 (leNat (copyin m (descAddr ((τ t).proc P) i + 8) 4))).getLsbD j &&
        decide (j ≠ K.SIGKILL.val) && decide (j ≠ K.SIGSTOP.val))) ∧
    ((τ (t' + 1)).proc P).tf = ((τ t).proc P).tf ∧
    ((τ (t' + 1)).proc P).signalsMask = ((τ t).proc P).signalsMask ∧
    ((τ (t' + 1)).proc P).signalHandling = 0 ∧ ((τ (t' + 1)).proc P).userTfBackup = 0 := by
  obtain ⟨c, dst₀, sigmask₀, -, -, -, he⟩ := hin
  have hq : (τ (t + 1)).proc P = { usersignalhandler K ((τ t).proc P) i
      (BitVec.ofNat 64 (leNat (copyin m (descAddr ((τ t).proc P) i) 8)))
      (BitVec.ofNat 32 (leNat (copyin m (descAddr ((τ t).proc P) i + 8) 4))) with
      pc := .sigTurnoff i (.sigLoop (i.val + 1)) } := by
    simp only [he, Sys.setProc_proc, if_true, readSigaction_mapped hd hd']
  have hin' : InHandler ((τ (t + 1)).proc P) (frameAddr K ((τ t).proc P).tf)
      ((τ t).proc P).signalsMask := by rw [hq]; exact ⟨rfl, rfl, rfl, trivial⟩
  obtain ⟨-, htb, hmb, -⟩ := trace_inHandler htr htt ht'.le hin'
    (fun v h1 h2 => hlive v (by omega) h2) (fun v tf h1 h2 => hmid v tf (by omega) h2)
  obtain ⟨c', -, -, -, he'⟩ := hret
  have hr : (τ (t' + 1)).proc P = sigret ((τ t').proc P) tf' := by simp [he']
  have hframe : tf' = ((τ t).proc P).tf := by
    rw [hread, htb, copyin_congr hkeep, handlerWrites_frame L hK, hL]
  rw [hr, hq]
  exact ⟨rfl, rfl, rfl, rfl, handlerWrites_stub L (by omega) m _, getLsbD_maskOf K _,
    hframe, hmb, rfl, rfl⟩

/-- initcode's user memory: its one page, `sz` bytes from 0. -/
def initMapped (a : BitVec 64) : Bool := decide (a.toNat < Param.std.PGSIZE)

/-- initcode on the boot machine installs a user handler for signal 31 whose
descriptor, at 2048 inside its page, holds the entry 256 and a mask with bits 5 and 9
set; it sends itself 31 and enters the handler, the last signal of its pass; the pass
returns and initcode calls `sigret` at once. The trap frame is laid out as xv6 lays it
out, under any 8 bytes of stub. -/
theorem handler_round_trip_boot : ∃ (τ : Nat → Sys 2 1) (m : UMem),
    Trace Param.std τ 4 ∧ EntersHandler Param.std (τ 0) (τ 1) 0 31 m initMapped ∧
    copyOk initMapped (descAddr ((τ 0).proc 0) 31) 8 = true ∧
    copyOk initMapped (descAddr ((τ 0).proc 0) 31 + 8) 4 = true ∧
    (∀ v, 0 < v → v < 3 → ((τ v).proc 0).state ≠ .UNUSED) ∧
    (∀ v tf, 0 < v → v < 3 → ¬ Sigrets (τ v) (τ (v + 1)) 0 tf) ∧
    Sigrets (τ 3) (τ 4) 0 ((τ 0).proc 0).tf ∧
    ((τ 1).proc 0).tf.epc = 256 ∧ ((τ 1).proc 0).signalsMask = sigBit 5 ∧
    ((τ 4).proc 0).tf = ((τ 0).proc 0).tf ∧
    ((τ 4).proc 0).signalsMask = ((τ 0).proc 0).signalsMask := by
  have h0 := bootSys_reachable (K := Param.std)
  have h1 := h0.step (Step.proc (c := 0) rfl (PStep.sigactionCall (p := 0) 31 2048 0 rfl))
  have h2 := h1.step (Step.proc (c := 0) rfl (PStep.killCall (p := 0) 1 31 (by rfl)))
  have h3 := h2.step (Step.proc (c := 0) rfl
    (PStep.killHit (p := 0) (i := 0) (by rfl) (by decide) (by rfl) (by rfl) (by decide)))
  have h4 := h3.step (Step.proc (c := 0) rfl (PStep.sigCall (p := 0) (by rfl)))
  have h5 := h4.passToOnly (c := 0) (p := 0) (s := 31) rfl rfl rfl rfl rfl rfl (by decide)
  have h6 := h5.step (Step.proc (c := 0) rfl (PStep.sigPriv (p := 0)
    (sigStep_test (K := Param.std) (p := _) (i := 31) rfl (by decide) rfl).1))
  let tf₀ : Trapframe := ⟨0, BitVec.ofNat 64 4096, 0, 0, []⟩
  let L := xv6Layout (toLE 8 0) rfl
  let m : UMem := copyout (fun _ => 0) 2048 (toLE 8 256 ++ toLE 4 0x220)
  obtain ⟨s₀, l, -, hl, hlen, hent, hlive, hpc, hret, htf, hh, hbk⟩ :
      ∃ (s₀ : Sys 2 1) (l : List (Sys 2 1)), Reachable Param.std s₀ ∧
        l.Chain (fun x y => ∃ c o, Step Param.std x c o y) s₀ ∧ l.length = 4 ∧
        EntersHandler Param.std s₀ ((s₀ :: l).getD 1 s₀) 0 31 m initMapped ∧
        (∀ v < 3, (((s₀ :: l).getD v s₀).proc 0).state ≠ .UNUSED) ∧
        (∀ v < 3, 0 < v → (((s₀ :: l).getD v s₀).proc 0).pc ≠ .user) ∧
        Sigrets ((s₀ :: l).getD 3 s₀) ((s₀ :: l).getD 4 s₀) 0 tf₀ ∧
        (s₀.proc 0).tf = tf₀ ∧ (s₀.proc 0).signalHandlers 31 = 2048 ∧
        (((s₀ :: l).getD 3 s₀).proc 0).userTfBackup = frameAddr Param.std tf₀ :=
    ⟨_, _, h6,
      .cons ⟨0, _, Step.proc rfl (PStep.sigUser (p := 0) m initMapped 0 0 (by rfl) (by rfl))⟩ <|
      .cons ⟨0, _, Step.proc rfl (PStep.sigTurnoff (p := 0) (i := 31) (k := .sigLoop 32) (by rfl)
        (by rfl))⟩ <|
      .cons ⟨0, _, Step.proc rfl (PStep.sigPriv (p := 0)
        (sigStep_loopEnd (K := Param.std) (p := _) rfl))⟩ <|
      .cons ⟨0, _, Step.proc rfl (PStep.sigretCall (p := 0) tf₀ (by rfl) (by rfl))⟩ .nil,
      rfl, ⟨0, 0, 0, rfl, rfl, rfl, rfl⟩, by decide, by decide, ⟨0, rfl, rfl, rfl, rfl⟩, rfl, rfl,
      rfl⟩
  let τ : Nat → Sys 2 1 := fun t => (s₀ :: l).getD t s₀
  have htr : Trace Param.std τ 4 := hlen ▸ Trace.of_chain s₀ hl
  have hlive' : ∀ v, 0 < v → v < 3 → ((τ v).proc 0).state ≠ .UNUSED := fun v _ h => hlive v h
  have hmid : ∀ v tf, 0 < v → v < 3 → ¬ Sigrets (τ v) (τ (v + 1)) 0 tf :=
    fun v _ h1 h2 ⟨_, _, h, _⟩ => hpc v h2 h1 h
  have hd : descAddr (s₀.proc 0) 31 = 2048 := by rw [descAddr, hh]; rfl
  have hL : L.tfOf (L.tfBytes tf₀) = tf₀ := by decide
  have hread : tf₀ = L.tfOf (copyin (handlerWrites L m (s₀.proc 0)) ((τ 3).proc 0).userTfBackup
      Param.std.tfSize) := by
    rw [hbk, ← htf, handlerWrites_frame L (by decide), htf, hL]
  have h := handler_round_trip (τ := τ) L (by decide) htr (show 0 < 3 by omega) (by omega) hent
    (by rw [show τ 0 = s₀ from rfl, hd]; decide) (by rw [show τ 0 = s₀ from rfl, hd]; decide)
    hlive' hmid (hret.imp fun _ h => htf ▸ h) hread (fun _ _ => rfl) (htf ▸ hL)
  refine ⟨τ, m, htr, hent, by rw [show τ 0 = s₀ from rfl, hd]; decide,
    by rw [show τ 0 = s₀ from rfl, hd]; decide, hlive', hmid, htf ▸ hret, ?_, ?_,
    h.2.2.2.2.2.2.1, h.2.2.2.2.2.2.2.1⟩
  · rw [h.1, show τ 0 = s₀ from rfl, hd]; decide
  · apply BitVec.eq_of_getLsbD_eq; intro j
    rw [h.2.2.2.2.2.1, show τ 0 = s₀ from rfl, hd]
    revert j; decide

/-! ## When a copy fails -/

/-- initcode registers a handler for signal 31 at address 4096, one past its single page
of user memory, and sends itself signal 31. Its delivery pass calls `usersignalhandler`,
whose `copyin` of the descriptor fails. Whatever the locals `dst` and `sigmask` then
hold, the entry raises the in-flight flag, keeps the old mask, installs `sigmask` and
points `epc` at `dst`. -/
theorem handler_entry_ignores_failed_copyin :
    ∃ σ : Sys 2 1, Reachable Param.std σ ∧ (σ.proc 0).pc = .sigUser 31 ∧
      (σ.proc 0).signalHandling = 0 ∧
      copyOk (fun a => decide (a.toNat < (σ.proc 0).sz.toNat))
        (BitVec.ofNat 64 ((σ.proc 0).signalHandlers 31)) 8 = false ∧
      ∀ dst sigmask, ∃ (σ' : Sys 2 1) (o : Out 2), PStep Param.std σ 0 0 o σ' ∧
        (σ'.proc 0).signalHandling = 1 ∧ (σ'.proc 0).tf.epc = dst ∧
        (σ'.proc 0).signalsMask = maskOf Param.std sigmask ∧
        (σ'.proc 0).signalsMaskBackup = (σ.proc 0).signalsMask := by
  have h0 := bootSys_reachable (K := Param.std)
  have h1 := h0.step (Step.proc (c := 0) rfl (PStep.sigactionCall (p := 0) 31 4096 0 rfl))
  have h2 := h1.step (Step.proc (c := 0) rfl (PStep.killCall (p := 0) 1 31 (by rfl)))
  have h3 := h2.step (Step.proc (c := 0) rfl
    (PStep.killHit (p := 0) (i := 0) (by rfl) (by decide) (by rfl) (by rfl) (by decide)))
  have h4 := h3.step (Step.proc (c := 0) rfl (PStep.sigCall (p := 0) (by rfl)))
  have h5 := h4.passToOnly (c := 0) (p := 0) (s := 31) rfl rfl rfl rfl rfl rfl (by decide)
  have h6 := h5.step (Step.proc (c := 0) rfl (PStep.sigPriv (p := 0)
    (sigStep_test (K := Param.std) (p := _) (i := 31) rfl (by decide) rfl).1))
  refine ⟨_, h6, rfl, rfl, by decide, fun dst sigmask =>
    ⟨_, _, PStep.sigUser (p := 0) (fun _ => 0) initMapped dst sigmask (by rfl) (by rfl), ?_⟩⟩
  rw [readSigaction_of_fail (by decide) (by decide)]
  simp [usersignalhandler]

/-! ## The in-flight flag -/

/-- The guard of `signalhandler()` on `signal_handling`: a process with a handler in
flight is at no point that enters `usersignalhandler`, and returns into none. -/
def HandlerGuard (σ : Sys np nc) : Prop :=
  ∀ P, (σ.proc P).signalHandling ≠ 0 → (σ.proc P).pc.NoSigUser

/-- How `signal_handling` moves over one step: the guard holds before it, the flag goes
up only in `P`'s `usersignalhandler`, and comes down only in `P`'s `sigret` or when
`allocproc` takes `P`'s UNUSED slot. -/
structure HandlerProtocol (K : Param) (σ σ' : Sys np nc) (P : Fin np) : Prop where
  guard : (σ.proc P).signalHandling ≠ 0 → (σ.proc P).pc.NoSigUser
  enter : (σ.proc P).signalHandling = 0 → (σ'.proc P).signalHandling ≠ 0 →
    ∃ i m mapped, EntersHandler K σ σ' P i m mapped
  leave : (σ.proc P).signalHandling ≠ 0 → (σ'.proc P).signalHandling = 0 →
    (∃ tf, Sigrets σ σ' P tf) ∨ (σ.proc P).state = .UNUSED

@[simp] theorem wakeup1_signalHandling (q : Proc np) (ch : Chan np) :
    (wakeup1 q ch).signalHandling = q.signalHandling := by
  unfold wakeup1; split_ifs <;> rfl

theorem allocproc_signalHandling {q q' : Proc np} {pid : Int} {e : ForkEnv}
    (h : allocproc K q pid e = .ok q' ∨ allocproc K q pid e = .error q') :
    q'.signalHandling = 0 := by
  unfold allocproc at h; split_ifs at h <;> rcases h with h | h <;> cases h <;> rfl

/-- A step of the thread of `p` changes the flag of slot `P` only as `P`'s
`usersignalhandler` or `sigret`, or in the `allocproc` that takes `P`'s UNUSED slot. -/
theorem pstep_signalHandling (hc : (σ.cpus c).proc = some p) (hs : PStep K σ c p o σ')
    (hne : (σ'.proc P).signalHandling ≠ (σ.proc P).signalHandling) :
    (∃ i m mapped, EntersHandler K σ σ' P i m mapped) ∨
      ((∃ tf, Sigrets σ σ' P tf) ∨ (σ.proc P).state = .UNUSED) ∧
        (σ'.proc P).signalHandling = 0 := by
  cases hs
  case sigUser i m mapped dst₀ sigmask₀ hpc hl =>
    by_cases hP : P = p
    · subst hP; exact .inl ⟨i, m, mapped, c, dst₀, sigmask₀, hc, hpc, hl, rfl⟩
    · simp [hP] at hne
  case sigretCall tf hpc hl =>
    by_cases hP : P = p
    · subst hP; exact .inr ⟨.inl ⟨tf, c, hc, hpc, hl, rfl⟩, by simp [sigret]⟩
    · simp [hP] at hne
  case allocFail k q e _ hk _ _ hu ha =>
    by_cases hPk : P = ⟨k, hk⟩
    · subst hPk; exact .inr ⟨.inr hu, by simp [allocproc_signalHandling (.inr ha)]⟩
    · refine absurd ?_ hne
      simp only [Sys.setProc_proc, if_neg hPk]; split_ifs <;> subst_vars <;> rfl
  case copyFail k q e _ hk _ _ hu ha _ =>
    by_cases hPk : P = ⟨k, hk⟩
    · subst hPk; exact .inr ⟨.inr hu, by simp [freeproc, allocproc_signalHandling (.inl ha)]⟩
    · refine absurd ?_ hne
      simp only [Sys.setProc_proc, if_neg hPk]; split_ifs <;> subst_vars <;> rfl
  case allocOk k q e _ hk _ _ hu ha _ =>
    by_cases hPk : P = ⟨k, hk⟩
    · subst hPk; exact .inr ⟨.inr hu, by simp [forkCopy, allocproc_signalHandling (.inl ha)]⟩
    · refine absurd ?_ hne
      simp only [Sys.setProc_proc, if_neg hPk]; split_ifs <;> subst_vars <;> rfl
  case sigPriv q h =>
    refine absurd ?_ hne
    simp only [Sys.setProc_proc]
    split_ifs with hP
    · rw [hP, sigStep_frame h]
    · rfl
  case sigactionCall signum act actAddr hpc =>
    obtain ⟨_, e⟩ := sigaction_snd K (σ.proc p) signum act actAddr
    refine absurd ?_ hne
    simp only [Sys.setProc_proc, e]; split_ifs <;> subst_vars <;> rfl
  all_goals
    refine absurd ?_ hne
    try simp only [Sys.setProc_proc, Sys.setLock_proc, Sys.switchOut_proc, Sys.setPc_eq]
    try split_ifs
    all_goals subst_vars; first | rfl | exact wakeup1_signalHandling _ _

theorem step_signalHandling (hs : Step K σ c o σ')
    (hne : (σ'.proc P).signalHandling ≠ (σ.proc P).signalHandling) :
    (∃ i m mapped, EntersHandler K σ σ' P i m mapped) ∨
      ((∃ tf, Sigrets σ σ' P tf) ∨ (σ.proc P).state = .UNUSED) ∧
        (σ'.proc P).signalHandling = 0 := by
  cases hs with
  | proc hc hs => exact pstep_signalHandling hc hs hne
  | schedSkip | schedWrap | intrCall | intrDone => exact absurd rfl hne
  | @intrSlot a i _ _ hi _ =>
    refine absurd ?_ hne
    show ((σ.setProc _ _).proc P).signalHandling = _
    rcases eq_or_ne P ⟨i, hi⟩ with rfl | hP <;> simp [*]
  | schedRun i _ _ _ _ hr =>
    refine absurd ?_ hne
    simp only [Sys.setCpu_proc, Sys.setProc_proc]
    split_ifs with h
    · rw [h, resume_frame hr]
    · rfl
  | userinit i e cwd _ _ _ hu _ _ ha =>
    by_cases hPi : P = i
    · subst hPi
      exact .inr ⟨.inr hu, by simp [userinitProc, allocproc_signalHandling (.inl ha)]⟩
    · simp [hPi] at hne

theorem handlerGuard_procinit (K : Param) : HandlerGuard (procinit K : Sys np nc) :=
  fun _ h => absurd rfl h

/-- A step keeps the guard: the pass heads into `usersignalhandler` only from its
pending test with no handler in flight, and the entry itself moves on. -/
theorem pstep_handlerGuard (hs : PStep K σ c p o σ') (hg : HandlerGuard σ) :
    HandlerGuard σ' := by
  intro P hP
  cases hs
  case sigPriv q h =>
    simp only [Sys.setProc_proc] at hP ⊢
    split_ifs at hP ⊢ with hPp
    · subst hPp; rw [sigStep_frame h] at hP; exact sigStep_noSigUser h hP
    · exact hg P hP
  case allocFail k q e _ hk _ _ hu ha =>
    simp only [Sys.setProc_proc] at hP ⊢
    split_ifs at hP ⊢
    · exact absurd (allocproc_signalHandling (.inr ha)) hP
    · trivial
    · exact hg P hP
  case copyFail k q e _ hk _ _ hu ha _ =>
    simp only [Sys.setProc_proc] at hP ⊢
    split_ifs at hP ⊢
    · exact absurd (allocproc_signalHandling (.inl ha)) hP
    · trivial
    · exact hg P hP
  case allocOk k q e _ hk _ _ hu ha _ =>
    simp only [Sys.setProc_proc] at hP ⊢
    split_ifs at hP ⊢
    · exact absurd (allocproc_signalHandling (.inl ha)) hP
    · trivial
    · exact hg P hP
  case sigactionCall signum act actAddr hpc =>
    obtain ⟨_, e⟩ := sigaction_snd K (σ.proc p) signum act actAddr
    simp only [Sys.setProc_proc, e] at hP ⊢
    split_ifs at hP ⊢ <;> subst_vars <;> first | trivial | exact hg _ hP
  case wakeupSlot chan i k hpc hi hne hl =>
    simp only [Sys.setProc_proc] at hP ⊢
    split_ifs at hP ⊢ <;> subst_vars
    · have h := hg _ hP; rw [hpc] at h; exact h
    · rw [wakeup1_pc]; exact hg _ (by rwa [wakeup1_signalHandling] at hP)
    · exact hg _ hP
  all_goals
    revert hP
    try simp only [Sys.setProc_proc, Sys.setLock_proc, Sys.switchOut_proc, Sys.setPc_eq]
    try split_ifs
    all_goals intro hP; subst_vars; first
      | exact hg _ hP
      | trivial
      | (have h := hg _ hP; rw [‹(σ.proc _).pc = _›] at h; exact h)

theorem step_handlerGuard (hs : Step K σ c o σ') (hg : HandlerGuard σ) : HandlerGuard σ' := by
  cases hs with
  | proc _ hs => exact pstep_handlerGuard hs hg
  | schedSkip | schedWrap | intrCall | intrDone => exact hg
  | @intrSlot a i _ _ hi _ =>
    intro P hP
    have e : ((σ.setProc ⟨i, hi⟩ (wakeup1 (σ.proc ⟨i, hi⟩) (.obj a))).proc P).signalHandling =
        (σ.proc P).signalHandling := by
      rcases eq_or_ne P ⟨i, hi⟩ with rfl | h <;> simp [*]
    simp only [Sys.setIntr_proc, setProc_wakeup1_pc, e] at hP ⊢
    exact hg P hP
  | schedRun i _ _ _ _ hr =>
    intro P hP
    simp only [Sys.setCpu_proc, Sys.setProc_proc] at hP ⊢
    split_ifs at hP ⊢ with h
    · subst h; rw [resume_frame hr] at hP; exact (resume_noSigUser hr (hg P hP) :)
    · exact hg P hP
  | userinit i e cwd _ _ _ _ _ _ ha =>
    intro P hP
    simp only [Sys.setProc_proc] at hP ⊢
    split_ifs at hP ⊢
    · exact absurd (by simp [userinitProc, allocproc_signalHandling (.inl ha)]) hP
    · exact hg P hP

theorem Reachable.handlerGuard (hr : Reachable K σ) : HandlerGuard σ := by
  induction hr with
  | init => exact handlerGuard_procinit K
  | step _ hs ih => exact step_handlerGuard hs ih

theorem handler_flag_protocol (hr : Reachable K σ) (hs : Step K σ c o σ') (P : Fin np) :
    HandlerProtocol K σ σ' P where
  guard := hr.handlerGuard P
  enter h0 h1 := (step_signalHandling hs (by rw [h0]; exact h1)).resolve_right fun h => h1 h.2
  leave h0 h1 := by
    rcases step_signalHandling hs (by rw [h1]; exact Ne.symm h0) with
      ⟨_, _, _, _, _, _, _, _, _, he⟩ | h
    · rw [he] at h1; simp [usersignalhandler] at h1
    · exact h.1

/-- initcode on the boot machine installs a handler for signal 31, sends itself 31 and
enters the handler: the flag goes up in that step, with none in flight before. -/
theorem handler_flag_protocol_boot :
    ∃ (σ σ' : Sys 2 1) (o : Out 2), Reachable Param.std σ ∧ Step Param.std σ 0 o σ' ∧
      (σ.proc 0).signalHandling = 0 ∧ (σ'.proc 0).signalHandling = 1 ∧
      HandlerProtocol Param.std σ σ' 0 := by
  have h0 := bootSys_reachable (K := Param.std)
  have h1 := h0.step (Step.proc (c := 0) rfl (PStep.sigactionCall (p := 0) 31 4096 0 rfl))
  have h2 := h1.step (Step.proc (c := 0) rfl (PStep.killCall (p := 0) 1 31 (by rfl)))
  have h3 := h2.step (Step.proc (c := 0) rfl
    (PStep.killHit (p := 0) (i := 0) (by rfl) (by decide) (by rfl) (by rfl) (by decide)))
  have h4 := h3.step (Step.proc (c := 0) rfl (PStep.sigCall (p := 0) (by rfl)))
  have h5 := h4.passToOnly (c := 0) (p := 0) (s := 31) rfl rfl rfl rfl rfl rfl (by decide)
  have h6 := h5.step (Step.proc (c := 0) rfl (PStep.sigPriv (p := 0)
    (sigStep_test (K := Param.std) (p := _) (i := 31) rfl (by decide) rfl).1))
  obtain ⟨σ, σ', o, hr, hs, hz, h1⟩ : ∃ (σ σ' : Sys 2 1) (o : Out 2), Reachable Param.std σ ∧
      Step Param.std σ 0 o σ' ∧ (σ.proc 0).signalHandling = 0 ∧ (σ'.proc 0).signalHandling = 1 :=
    ⟨_, _, _, h6, Step.proc (c := 0) (p := 0) rfl
      (PStep.sigUser (fun _ => 0) initMapped 0 0 (by rfl) (by rfl)), rfl, rfl⟩
  exact ⟨σ, σ', o, hr, hs, hz, h1, handler_flag_protocol hr hs 0⟩

end RiscvProc
