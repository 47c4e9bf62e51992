import RiscvProc.Basic

/-!
# Signal state of one process

The signal half of `proc.c` on a single slot record: the bit of a signal number,
`is_pending_and_not_masked`, the mask `sigprocmask` stores, `sigaction`, `sigret`,
`usersignalhandler` with the `copyin`s of its handler descriptor, `sigkill_func`,
`turnoff_sigbit`, and one step of the delivery pass `signalhandler()` with
`search_cont_signals`. The parts of a step that need the machine (taking `p->lock`,
yielding the CPU) are added by `RiscvProc.Step`; here each is the change it makes to
the record.
-/

namespace RiscvProc

variable {np : Nat} (K : Param)

/-! ## Bits -/

/-- `1 << signum` as a `uint`. -/
def sigBit (i : Fin 32) : BitVec 32 := 1#32 <<< i.val

@[simp] theorem getLsbD_sigBit (i : Fin 32) (j : Nat) :
    (sigBit i).getLsbD j = decide (j = i.val) := by
  have := i.isLt
  simp only [sigBit, BitVec.getLsbD_shiftLeft, BitVec.getLsbD_one]
  by_cases h : j = i.val <;> simp [h]; omega

theorem and_sigBit_ne_zero (x : BitVec 32) (i : Fin 32) :
    (x &&& sigBit i != 0) = x.getLsbD i := by
  cases hx : x.getLsbD i
  · have : x &&& sigBit i = 0 := by
      ext j
      simp only [BitVec.getLsbD_and, getLsbD_sigBit, BitVec.getLsbD_zero]
      by_cases h : j.val = i.val
      · simp [h, hx]
      · simp [h]
    simp [this]
  · have : x &&& sigBit i ≠ 0 := by
      intro h
      have := congrArg (fun y => y.getLsbD i) h
      simp [BitVec.getLsbD_and, hx] at this
    simpa using this

/-- `kill` sets bit `s` and no other. -/
@[simp] theorem getLsbD_or_sigBit (x : BitVec 32) (s : Fin 32) (j : Nat) :
    (x ||| sigBit s).getLsbD j = (x.getLsbD j || decide (j = s.val)) := by
  simp [BitVec.getLsbD_or]

/-- `turnoff_sigbit` clears bit `i` and no other. -/
@[simp] theorem getLsbD_and_not_sigBit (x : BitVec 32) (i : Fin 32) (j : Nat) :
    (x &&& ~~~(sigBit i)).getLsbD j = (x.getLsbD j && decide (j ≠ i.val)) := by
  by_cases hj : j < 32
  · simp [BitVec.getLsbD_and, BitVec.getLsbD_not, hj]
  · simp [BitVec.getLsbD_ge x j (by omega)]

/-- `is_pending_and_not_masked(signum)`: bit `i` is pending and not masked, where
the mask's SIGKILL and SIGSTOP bits do not count. -/
def isPendingAndNotMasked (p : Proc np) (i : Fin 32) : Bool :=
  let nonMaskable := ~~~(sigBit K.SIGKILL) &&& ~~~(sigBit K.SIGSTOP)
  (p.pendingSignals &&& sigBit i != 0) && !((p.signalsMask &&& nonMaskable) &&& sigBit i != 0)

theorem isPendingAndNotMasked_eq (p : Proc np) (i : Fin 32) :
    isPendingAndNotMasked K p i = (p.pendingSignals.getLsbD i &&
      !(p.signalsMask.getLsbD i && decide (i ≠ K.SIGKILL) && decide (i ≠ K.SIGSTOP))) := by
  simp only [isPendingAndNotMasked, and_sigBit_ne_zero, BitVec.getLsbD_and, BitVec.getLsbD_not,
    getLsbD_sigBit, i.isLt, decide_True, Bool.true_and, Fin.val_inj, ne_eq, decide_not,
    Bool.and_assoc]

/-- The mask `sigprocmask(mask)` stores: SIGKILL and SIGSTOP cleared. -/
def maskOf (mask : BitVec 32) : BitVec 32 :=
  mask &&& ~~~(sigBit K.SIGKILL ||| sigBit K.SIGSTOP)

@[simp] theorem getLsbD_maskOf (mask : BitVec 32) (j : Nat) :
    (maskOf K mask).getLsbD j =
      (mask.getLsbD j && decide (j ≠ K.SIGKILL.val) && decide (j ≠ K.SIGSTOP.val)) := by
  by_cases hj : j < 32
  · simp [maskOf, BitVec.getLsbD_and, BitVec.getLsbD_not, hj, Bool.and_assoc]
  · simp [BitVec.getLsbD_ge mask j (by omega), BitVec.getLsbD_ge (maskOf K mask) j (by omega)]

/-! ## User memory -/

/-- The user memory of a process through its page table: a byte at each address. -/
abbrev UMem := BitVec 64 → BitVec 8

/-- `copyin(pagetable, dst, srcva, len)` from mapped memory: the `len` bytes at `srcva`. -/
def copyin (m : UMem) (srcva : BitVec 64) (len : Nat) : List (BitVec 8) :=
  (List.range len).map fun k => m (srcva + BitVec.ofNat 64 k)

/-- Modelled from the spec: whether a `copyin` or `copyout` of `len` bytes at `va`
succeeds, given the user addresses the page table maps (for `copyout`, maps writable);
otherwise it returns -1. -/
def copyOk (mapped : BitVec 64 → Bool) (va : BitVec 64) (len : Nat) : Bool :=
  (List.range len).all fun k => mapped (va + BitVec.ofNat 64 k)

/-- The number whose little-endian bytes, lowest first, are `bs`. -/
def leNat : List (BitVec 8) → Nat
  | [] => 0
  | b :: bs => b.toNat + 256 * leNat bs

/-- A `copyin` into a local of `w` bits: the bytes at `va` when the range is mapped.
Otherwise the copy fails, its -1 is not checked, and the local keeps what it held
before (`old`). -/
def copyinLocal {w : Nat} (m : UMem) (mapped : BitVec 64 → Bool) (va : BitVec 64) (len : Nat)
    (old : BitVec w) : BitVec w :=
  if copyOk mapped va len then BitVec.ofNat w (leNat (copyin m va len)) else old

/-- `(struct sigaction*) p->signal_handlers[i]`: the address of the descriptor. -/
def descAddr (p : Proc np) (i : Fin 32) : BitVec 64 := BitVec.ofNat 64 (p.signalHandlers i)

/-- The two `copyin`s of `usersignalhandler(p, i)` from the descriptor
`struct sigaction` at `p->signal_handlers[i]`: `sa_handler`, the 8 bytes at the
descriptor, into `dst`, and `sigmask`, the 4 bytes after them, into `sigmask`;
`dst₀` and `sigmask₀` are what the uninitialised locals held. -/
def readSigaction (p : Proc np) (i : Fin 32) (m : UMem) (mapped : BitVec 64 → Bool)
    (dst₀ : BitVec 64) (sigmask₀ : BitVec 32) : BitVec 64 × BitVec 32 :=
  (copyinLocal m mapped (descAddr p i) 8 dst₀, copyinLocal m mapped (descAddr p i + 8) 4 sigmask₀)

/-- With the descriptor mapped both `copyin`s read its fields. -/
theorem readSigaction_mapped {p : Proc np} {i : Fin 32} {mapped : BitVec 64 → Bool}
    (h₁ : copyOk mapped (descAddr p i) 8 = true) (h₂ : copyOk mapped (descAddr p i + 8) 4 = true)
    (m : UMem) (dst₀ : BitVec 64) (sigmask₀ : BitVec 32) :
    readSigaction p i m mapped dst₀ sigmask₀ =
      (BitVec.ofNat 64 (leNat (copyin m (descAddr p i) 8)),
        BitVec.ofNat 32 (leNat (copyin m (descAddr p i + 8) 4))) := by
  simp only [readSigaction, copyinLocal, h₁, h₂, if_true]

/-- When both `copyin`s fail the locals keep what they held. -/
theorem readSigaction_of_fail {p : Proc np} {i : Fin 32} {mapped : BitVec 64 → Bool}
    (h₁ : copyOk mapped (descAddr p i) 8 = false) (h₂ : copyOk mapped (descAddr p i + 8) 4 = false)
    (m : UMem) (dst₀ : BitVec 64) (sigmask₀ : BitVec 32) :
    readSigaction p i m mapped dst₀ sigmask₀ = (dst₀, sigmask₀) := by
  simp only [readSigaction, copyinLocal, h₁, h₂, Bool.false_eq_true, if_false]

/-- With nothing mapped both `copyin`s fail and the locals keep what they held. -/
@[simp] theorem readSigaction_unmapped (p : Proc np) (i : Fin 32) (m : UMem) (dst₀ : BitVec 64)
    (sigmask₀ : BitVec 32) : readSigaction p i m (fun _ => false) dst₀ sigmask₀ = (dst₀, sigmask₀) :=
  rfl

/-! ## Operations on the caller's record -/

/-- `sigkill_func()`: killed, and woken if it was asleep. -/
def sigkillFunc (p : Proc np) : Proc np :=
  { p with killed := 1, state := if p.state = .SLEEPING then .RUNNABLE else p.state }

/-- `turnoff_sigbit(p, i)`. -/
def turnoffSigbit (p : Proc np) (i : Fin 32) : Proc np :=
  { p with pendingSignals := p.pendingSignals &&& ~~~(sigBit i) }

/-- `usersignalhandler(p, i)` after its two `copyin`s have left the handler's entry in
`dst` and its mask in `sigmask` (`readSigaction`): install the handler mask and
keep the old one, raise the in-flight flag, save the frame below the user stack
pointer, put the return stub below that, and enter the handler with `a0 = i`
and `ra = sp` at the stub. The `copyout`s write user memory only. -/
def usersignalhandler (p : Proc np) (i : Fin 32) (dst : BitVec 64) (sigmask : BitVec 32) :
    Proc np :=
  let spN := p.tf.sp - BitVec.ofNat 64 K.tfSize
  let stub := spN - BitVec.ofNat 64 K.stubSize
  { p with signalsMaskBackup := p.signalsMask, signalsMask := maskOf K sigmask,
           signalHandling := 1, userTfBackup := spN,
           tf := { p.tf with epc := dst, sp := stub, a0 := BitVec.ofNat 64 i.val, ra := stub } }

/-- `sigaction(signum, act, oldact)` on the caller's record: the result and the new
record. `actAddr` is the address of the parameter `act` itself, which the SIG_DFL
branch stores; both branches copy the old handler into the local `oldact`, which
the caller never sees. -/
def sigaction (p : Proc np) (signum : Int) (act actAddr : Nat) : Int × Proc np :=
  if h : signum < 0 ∨ 31 < signum then (-1, p)
  else
    let k : Fin 32 := ⟨signum.toNat, by omega⟩
    if k = K.SIGKILL ∨ k = K.SIGSTOP then (-1, p)
    else if act = 0 then (-1, p)
    else
      let h := Function.update p.signalHandlers k (if act = K.SIG_DFL then actAddr else act)
      (0, { p with signalHandlers := h })

/-- `sigaction` changes the handler table and nothing else of the record. -/
theorem sigaction_snd (p : Proc np) (signum : Int) (act actAddr : Nat) :
    ∃ h, (sigaction K p signum act actAddr).2 = { p with signalHandlers := h } := by
  dsimp only [sigaction]; split_ifs <;> exact ⟨_, rfl⟩

/-- `sigret()`: the `copyin` of the frame saved at `user_tf_backup` (`tf'` is what
the copy leaves in the trap frame), the saved mask back, nothing in flight. -/
def sigret (p : Proc np) (tf' : Trapframe) : Proc np :=
  { p with tf := tf', signalsMask := p.signalsMaskBackup, userTfBackup := 0,
           signalHandling := 0 }

/-! ## The delivery pass -/

/-- The dispatch of `signalhandler()` on `signal_handlers[i]` for a pending,
unmasked `i`: SIG_IGN goes on to the next signal (its `continue` skips
`turnoff_sigbit`); SIG_DFL and the handler values SIGSTOP, SIGCONT and SIGKILL run
a built-in action and then clear the bit; any other value is a user handler. -/
def dispatch (p : Proc np) (i : Fin 32) : Proc np :=
  let h := p.signalHandlers i
  let next : Pc np := .sigTurnoff i (.sigLoop (i.val + 1))
  if h = K.SIG_IGN then { p with pc := .sigLoop (i.val + 1) }
  else if h = K.SIG_DFL then
    if i = K.SIGSTOP then { p with stopped := 1, pc := next }
    else if i = K.SIGCONT then { p with stopped := 0, pc := next }
    else { p with pc := .sigKill next }
  else if h = K.SIGSTOP.val then { p with stopped := 1, pc := next }
  else if h = K.SIGCONT.val then { p with stopped := 0, pc := next }
  else if h = K.SIGKILL.val then { p with pc := .sigKill next }
  else { p with pc := .sigUser i }

/-- What `signalhandler()` does for a pending signal. -/
inductive Act
  | ign | kill | stop | cont | user
  deriving DecidableEq, Repr

/-- The action of handler value `h` for signal `i`: SIG_IGN discards; SIG_DFL stops
SIGSTOP, continues SIGCONT and kills on any other signal; the handler values
SIGSTOP, SIGCONT and SIGKILL stop, continue and kill; any other value is a user
handler. -/
def handlerAct (h : Nat) (i : Fin 32) : Act :=
  if h = K.SIG_IGN then .ign
  else if h = K.SIG_DFL then
    if i = K.SIGSTOP then .stop else if i = K.SIGCONT then .cont else .kill
  else if h = K.SIGSTOP.val then .stop
  else if h = K.SIGCONT.val then .cont
  else if h = K.SIGKILL.val then .kill
  else .user

/-- `dispatch` carries out the action of the installed handler. -/
theorem dispatch_eq (p : Proc np) (i : Fin 32) :
    dispatch K p i = match handlerAct K (p.signalHandlers i) i with
      | .ign => { p with pc := .sigLoop (i.val + 1) }
      | .stop => { p with stopped := 1, pc := .sigTurnoff i (.sigLoop (i.val + 1)) }
      | .cont => { p with stopped := 0, pc := .sigTurnoff i (.sigLoop (i.val + 1)) }
      | .kill => { p with pc := .sigKill (.sigTurnoff i (.sigLoop (i.val + 1))) }
      | .user => { p with pc := .sigUser i } := by
  dsimp only [dispatch, handlerAct]; split_ifs <;> rfl

/-- `dispatch` moves the point and may set `stopped`; nothing else of the record
changes. -/
theorem dispatch_frame (p : Proc np) (i : Fin 32) :
    dispatch K p i = { p with pc := (dispatch K p i).pc, stopped := (dispatch K p i).stopped } := by
  rw [dispatch_eq]; cases handlerAct K (p.signalHandlers i) i <;> rfl

@[simp] theorem dispatch_pc (p : Proc np) (k : Pc np) (i : Fin 32) :
    dispatch K { p with pc := k } i = dispatch K p i := rfl

/-- One step of `signalhandler()` at a point that touches only the process's own
record; the pending bits are read there without `p->lock`. `none` at the points
that take `p->lock` (`sigKill`, `sigUser`, `sigTurnoff`), at the `yield()` after an
unsuccessful `search_cont_signals`, and outside the pass. -/
def sigStep (p : Proc np) : Option (Proc np) :=
  match p.pc with
  | .sigEntry => some { p with pc := if p.signalHandling ≠ 0 then .user else .sigLoop 0 }
  | .sigLoop i =>
      let next : Pc np := if h : i < 32 then (if p.killed ≠ 0 then .user else .sigStop ⟨i, h⟩)
        else .user
      some { p with pc := next }
  | .sigStop i => some { p with pc := if p.stopped ≠ 0 then .searchCont i else .sigTest i }
  | .searchCont i => some <|
      if isPendingAndNotMasked K p K.SIGCONT then
        { p with stopped := 0, pc := .sigTurnoff K.SIGCONT (.sigTest i) }
      else { p with pc := .searchKill i }
  | .searchKill i =>
      let next : Pc np := if isPendingAndNotMasked K p K.SIGKILL
        then .sigKill (.sigTurnoff K.SIGKILL (.sigTest i)) else .searchLoop i 0
      some { p with pc := next }
  | .searchLoop i j =>
      if h : j < 32 then some <|
        if isPendingAndNotMasked K p ⟨j, h⟩ ∧ p.signalHandlers ⟨j, h⟩ = K.SIGCONT.val then
          { p with stopped := 0, pc := .sigTurnoff ⟨j, h⟩ (.sigTest i) }
        else { p with pc := .searchLoop i (j + 1) }
      else none
  | .sigTest i => some <|
      if isPendingAndNotMasked K p i then
        (if p.signalHandling ≠ 0 then { p with pc := .user } else dispatch K p i)
      else { p with pc := .sigLoop (i.val + 1) }
  | _ => none

end RiscvProc
