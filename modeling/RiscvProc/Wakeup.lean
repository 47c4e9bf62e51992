import RiscvProc.Frame

/-!
# No lost wakeup

`sleep(chan, lk)` is entered holding `lk` and, in one section under `p->lock`,
releases `lk`, records `chan` and goes SLEEPING. A thread that takes `lk` after
that call has begun can only get it once the sleeper is SLEEPING on `chan`; a
`wakeup(chan)` it calls afterwards scans every slot and runs `wakeup1` on the
sleeper's, which makes it RUNNABLE unless something else already has.

The run is a sequence of states (`Trace`), so that the theorem can name the
moments of the argument:

- `step_sleepCall`: the caller of `sleep` stays put until its own `sleep` step;
- `step_sleeping`: a SLEEPING thread keeps its point and channel until it is
  RUNNABLE;
- `step_inWakeup`: a step moves the scan of a `wakeup` call by at most one slot,
  and past slot `i` only by `wakeup1` on it;
- `no_lost_wakeup`, from these and the first-crossing lemma `exists_first`.
-/

namespace RiscvProc

variable {np nc : Nat} {K : Param}

/-- A run as a sequence of states, each reached from the one before by a step of
some CPU. -/
def Trace (K : Param) (τ : Nat → Sys np nc) (n : Nat) : Prop :=
  ∀ t, t < n → ∃ c o, Step K (τ t) c o (τ (t + 1))

variable {τ : Nat → Sys np nc} {n : Nat}

theorem Trace.reachable (htr : Trace K τ n) (hr : Reachable K (τ 0)) :
    ∀ t, t ≤ n → Reachable K (τ t)
  | 0, _ => hr
  | t + 1, h =>
    let ⟨_, _, hs⟩ := htr t (by omega)
    (htr.reachable hr t (by omega)).step hs

/-- A concrete run written as the list of its states after the first, each a step of
some CPU from the one before. -/
theorem Trace.of_chain {a : Sys np nc} {l : List (Sys np nc)} (d : Sys np nc)
    (h : List.Chain (fun x y => ∃ c o, Step K x c o y) a l) :
    Trace K (fun t => (a :: l).getD t d) l.length := by
  induction h with
  | nil => intro t ht; exact absurd ht (Nat.not_lt_zero t)
  | cons hab _ ih =>
    rintro (_ | t) ht
    · exact hab
    · exact ih t (Nat.lt_of_succ_lt_succ ht)

/-- Where a property first holds after a moment where it fails. -/
theorem exists_first {P : Nat → Prop} {a b : Nat} (hab : a ≤ b) (ha : ¬ P a) (hb : P b) :
    ∃ t, a ≤ t ∧ t < b ∧ (∀ s, a ≤ s → s ≤ t → ¬ P s) ∧ P (t + 1) := by
  classical
  have hex : ∃ m, P (a + m) := ⟨b - a, by rwa [Nat.add_sub_cancel' hab]⟩
  have hm0 : Nat.find hex ≠ 0 := fun h => ha (by simpa [h] using Nat.find_spec hex)
  refine ⟨a + (Nat.find hex - 1), by omega, ?_, fun s h1 h2 hs => ?_, ?_⟩
  · have := Nat.find_min' hex (show P (a + (b - a)) by rwa [Nat.add_sub_cancel' hab])
    omega
  · exact Nat.find_min hex (show s - a < Nat.find hex by omega) (by rwa [Nat.add_sub_cancel' h1])
  · rw [show a + (Nat.find hex - 1) + 1 = a + Nat.find hex by omega]
    exact Nat.find_spec hex

variable {σ σ' : Sys np nc} {c : Fin nc} {o : Out np}

/-! ## The sleeper -/

/-- The own step of a thread that has called `sleep(chan, lk)` is its `sleep`. -/
theorem pstep_sleepCall (hw : Wf σ) {S : Fin np} (hc : (σ.cpus c).proc = some S) {chan : Chan np}
    {lk : Lk np} {k : Pc np} (hpc : (σ.proc S).pc = .sleepCall chan lk k)
    (hs : PStep K σ c S o σ') :
    (σ'.proc S).state = .SLEEPING ∧ (σ'.proc S).chan = chan ∧
      (σ'.proc S).pc = .sleepRet chan lk k := by
  have hk : (σ.proc S).pc.Holds lk := by rw [hpc]; rfl
  have ha := hw.active hc
  rw [hpc] at ha
  have hl := (hw.holds_iff hc (Pc.Active.not_slot ha.1 ((ha.2 lk).2 rfl))).1 hk
  cases hs
  case sleep hpc' _ _ _ =>
    obtain ⟨rfl, rfl, rfl⟩ := Pc.sleepCall.inj (hpc.symm.trans hpc')
    simp
  case yield hn _ => exact absurd hl (hn _)
  case sigPriv q hq => exact absurd hk ((sigStep_wf hq).2.2.2.2.2.2 _)
  case callWakeup _ h => rcases h with h | ⟨_, h⟩ <;> rw [hpc] at h <;> cases h
  all_goals simp only [hpc, reduceCtorEq] at *

/-- A thread that has called `sleep(chan, lk)` stays there until its own `sleep`
step, which leaves it SLEEPING on `chan` in that call. -/
theorem step_sleepCall (hw : Wf σ) (hs : Step K σ c o σ') {S : Fin np} {chan : Chan np}
    {lk : Lk np} {k : Pc np} (hS : (σ.proc S).state = .RUNNING)
    (hpc : (σ.proc S).pc = .sleepCall chan lk k) :
    ((σ'.proc S).state = .RUNNING ∧ (σ'.proc S).pc = .sleepCall chan lk k) ∨
    ((σ'.proc S).state = .SLEEPING ∧ (σ'.proc S).chan = chan ∧
      (σ'.proc S).pc = .sleepRet chan lk k) := by
  cases hs with
  | @proc p _ _ hc hs =>
    by_cases hSp : S = p
    · subst hSp; exact .inr (pstep_sleepCall hw hc hpc hs)
    · obtain ⟨h1, h2, -⟩ := pstep_other hw hc hs hSp (by simp [hS])
      exact .inl ⟨(h2 (.inl hS)).trans hS, h1.trans hpc⟩
  | schedSkip | schedWrap | intrCall | intrDone => exact .inl ⟨hS, hpc⟩
  | intrSlot =>
    rw [Sys.setIntr_proc, setProc_wakeup1_of_not_sleeping (σ := σ) (z := S) (by rw [hS]; decide)]
    exact .inl ⟨hS, hpc⟩
  | schedRun i hc hi hl hs' hr =>
    have : S ≠ i := by rintro rfl; rw [hS] at hs'; cases hs'
    exact .inl (by simp [this, hS, hpc])
  | userinit i e cwd hc h0 hfirst hu hl hpl ha =>
    have : S ≠ i := by rintro rfl; rw [hS] at hu; cases hu
    exact .inl (by simp [this, hS, hpc])

/-- A SLEEPING thread keeps its point and its channel until a step makes it
RUNNABLE. -/
theorem step_sleeping (hw : Wf σ) (hs : Step K σ c o σ') {S : Fin np}
    (hS : (σ.proc S).state = .SLEEPING) :
    ((σ'.proc S).state = .SLEEPING ∧ (σ'.proc S).pc = (σ.proc S).pc ∧
      (σ'.proc S).chan = (σ.proc S).chan) ∨ (σ'.proc S).state = .RUNNABLE := by
  cases hs with
  | @proc p _ _ hc hs =>
    have hSp : S ≠ p := by rintro rfl; rw [hw.running hc] at hS; cases hS
    obtain ⟨h1, -, h3⟩ := pstep_other hw hc hs hSp (by simp [hS])
    rcases pstep_state hw hc hs S with e | ⟨he, -⟩
    · exact .inl ⟨e.trans hS, h1, h3 hS⟩
    · rw [hS] at he
      exact .inr (by generalize (σ'.proc S).state = s at he; cases he; rfl)
  | schedSkip | schedWrap | intrCall | intrDone => exact .inl ⟨hS, rfl, rfl⟩
  | intrSlot =>
    simp only [Sys.setIntr_proc, Sys.setProc_proc]
    split_ifs with h
    · subst h; unfold wakeup1; split_ifs <;> simp [hS]
    · exact .inl ⟨hS, rfl, rfl⟩
  | schedRun i hc hi hl hs' hr =>
    have : S ≠ i := by rintro rfl; rw [hS] at hs'; cases hs'
    exact .inl (by simp [this, hS])
  | userinit i e cwd hc h0 hfirst hu hl hpl ha =>
    have : S ≠ i := by rintro rfl; rw [hS] at hu; cases hu
    exact .inl (by simp [this, hS])

/-- Along a stretch of a run where a thread is SLEEPING throughout, its channel
stays. -/
theorem trace_sleeping_chan (hr : Reachable K (τ 0)) (htr : Trace K τ n) {S : Fin np}
    {a b : Nat} (hab : a ≤ b) (hb : b ≤ n)
    (hsl : ∀ t, a ≤ t → t ≤ b → ((τ t).proc S).state = .SLEEPING) :
    ((τ b).proc S).chan = ((τ a).proc S).chan := by
  induction b, hab using Nat.le_induction with
  | base => rfl
  | succ b hab ih =>
    obtain ⟨c, o, hs⟩ := htr b (by omega)
    rcases step_sleeping ((htr.reachable hr b (by omega)).wf) hs (hsl b hab (by omega)) with
      ⟨-, -, hch⟩ | hrun
    · exact hch.trans (ih (by omega) fun t h1 h2 => hsl t h1 (by omega))
    · rw [hsl (b + 1) (by omega) le_rfl] at hrun; cases hrun

/-! ## The waker -/

/-- The thread is inside the call `wakeup(chan)` that returns to `k`, with its
scan at slot `i`: running, or switched out in `yield`. -/
def Pc.InWakeup (m : Pc np) (chan : Chan np) (k : Pc np) (i : Nat) : Prop :=
  m = .wakeupScan chan i k ∨ m = .yieldRet (.wakeupScan chan i k)

variable {chan : Chan np} {k m : Pc np} {i j : Nat}

theorem Pc.InWakeup.idx_eq (h1 : m.InWakeup chan k i) (h2 : m.InWakeup chan k j) : i = j := by
  rcases h1 with rfl | rfl <;> rcases h2 with h | h <;> simp_all

/-- The call's continuation is not itself inside the call. -/
theorem Pc.InWakeup.not_self (h : k.InWakeup chan k i) : False := by
  rcases h with h | h <;> have := congrArg sizeOf h <;> simp at this; omega

/-- The own steps of a thread in the scan of `wakeup(chan)`: `wakeup1` on the slot
and on to the next, the return, or `yield`. -/
theorem pstep_wakeupScan {W : Fin np} (hpc : (σ.proc W).pc = .wakeupScan chan i k) (hs : PStep K σ c W o σ') :
    ((σ'.proc W).pc = .wakeupScan chan (i + 1) k ∧
      ∀ z : Fin np, z.val = i → z ≠ W → σ'.proc z = wakeup1 (σ.proc z) chan) ∨
    (σ'.proc W).pc = k ∨ (σ'.proc W).pc = .yieldRet (.wakeupScan chan i k) := by
  cases hs
  case wakeupSelf hpc' hi =>
    obtain ⟨rfl, rfl, rfl⟩ := Pc.wakeupScan.inj (hpc.symm.trans hpc')
    exact .inl ⟨by simp, fun z hz hzW => absurd (Fin.ext (hz.trans hi)) hzW⟩
  case wakeupSlot hpc' hi _ _ =>
    obtain ⟨rfl, rfl, rfl⟩ := Pc.wakeupScan.inj (hpc.symm.trans hpc')
    refine .inl ⟨by simp, fun z hz hzW => ?_⟩
    obtain rfl : z = ⟨_, hi⟩ := Fin.ext hz
    simp [hzW]
  case wakeupDone hpc' _ =>
    obtain ⟨rfl, rfl, rfl⟩ := Pc.wakeupScan.inj (hpc.symm.trans hpc')
    exact .inr (.inl (by simp))
  case yield => exact .inr (.inr (by simp [hpc]))
  case sigPriv q hq => simp [sigStep, hpc] at hq
  case callWakeup _ h => rcases h with h | ⟨_, h⟩ <;> rw [hpc] at h <;> cases h
  all_goals simp only [hpc, reduceCtorEq] at *

/-- A step moves the scan of a `wakeup(chan)` call by at most one slot, and moves it
past a slot other than the caller's only by `wakeup1` on that slot. -/
theorem step_inWakeup (hw : Wf σ) (hs : Step K σ c o σ') {W : Fin np}
    (hu : (σ.proc W).state ≠ .UNUSED) (h1 : (σ.proc W).pc.InWakeup chan k i)
    (h2 : (σ'.proc W).pc.InWakeup chan k j) :
    j = i ∨ (j = i + 1 ∧ ∀ z : Fin np, z.val = i → z ≠ W → σ'.proc z = wakeup1 (σ.proc z) chan) := by
  cases hs with
  | @proc p _ _ hc hs =>
    by_cases hWp : W = p
    · subst hWp
      have hpc : (σ.proc W).pc = .wakeupScan chan i k := by
        have ha := hw.active hc
        rcases h1 with h1 | h1 <;> rw [h1] at ha ⊢; exact ha.elim
      rcases pstep_wakeupScan hpc hs with ⟨e, hwake⟩ | e | e <;> rw [e] at h2
      · exact .inr ⟨h2.idx_eq (.inl rfl), hwake⟩
      · exact h2.not_self.elim
      · exact .inl (h2.idx_eq (.inr rfl))
    · exact .inl (h2.idx_eq ((pstep_other hw hc hs hWp hu).1 ▸ h1))
  | schedSkip | schedWrap | intrCall | intrDone => exact .inl (h2.idx_eq h1)
  | intrSlot => exact .inl (h2.idx_eq (by simpa only [Sys.setIntr_proc, setProc_wakeup1_pc] using h1))
  | schedRun i' hc hi hl hs' hr =>
    by_cases hWi : W = i'
    · subst hWi
      have hres := (hw.cpu.slot W).runnable hs'
      rcases h1 with h1 | h1
      · rw [h1] at hres; exact hres.elim
      · simp only [resume, h1, Option.some.injEq] at hr
        subst hr
        exact .inl (h2.idx_eq (by simp [Pc.InWakeup]))
    · exact .inl (h2.idx_eq (by simpa [hWi] using h1))
  | userinit i' e cwd hc h0 hfirst hu' hl hpl ha =>
    have hWi : W ≠ i' := by rintro rfl; exact hu hu'
    exact .inl (h2.idx_eq (by simpa [hWi] using h1))

/-- A thread inside a `wakeup` call is not a slot the step frees. -/
theorem step_inWakeup_alive (hw : Wf σ) (hs : Step K σ c o σ') {W : Fin np}
    (hu : (σ.proc W).state ≠ .UNUSED) (h1 : (σ.proc W).pc.InWakeup chan k i) :
    (σ'.proc W).state ≠ .UNUSED := by
  intro h0
  rcases step_moves hw hs W with e | ⟨he, -⟩ | ⟨he, -⟩
  · exact hu (e ▸ h0)
  · rw [h0] at he
    have hslot := hw.cpu.slot W
    have : (σ.proc W).state = .USED ∨ (σ.proc W).state = .ZOMBIE := by
      generalize (σ.proc W).state = s at he; cases he <;> simp
    rcases this with h | h
    · rw [hslot.used h] at h1; rcases h1 with h1 | h1 <;> cases h1
    · rw [hslot.zombie h] at h1; rcases h1 with h1 | h1 <;> cases h1
  · exact hu (by generalize (σ.proc W).state = s at he; cases he; rfl)

/-- A `wakeup(chan)` call whose scan goes from slot 0 past the end of the table runs
`wakeup1` on every slot other than the caller's on the way. -/
theorem trace_wakeup_visits (hr : Reachable K (τ 0)) (htr : Trace K τ n) {W S : Fin np}
    (hSW : S ≠ W) {t2 t3 i3 : Nat} (h23 : t2 ≤ t3) (h3 : t3 ≤ n)
    (hu : ((τ t2).proc W).state ≠ .UNUSED)
    (hcall : ∀ t, t2 ≤ t → t ≤ t3 → ∃ i, ((τ t).proc W).pc.InWakeup chan k i)
    (h0 : ((τ t2).proc W).pc.InWakeup chan k 0) (hend : ((τ t3).proc W).pc.InWakeup chan k i3)
    (hi3 : np ≤ i3) :
    ∃ tv, t2 ≤ tv ∧ tv < t3 ∧ (τ (tv + 1)).proc S = wakeup1 ((τ tv).proc S) chan := by
  have alive : ∀ t, t2 ≤ t → t ≤ t3 → ((τ t).proc W).state ≠ .UNUSED := by
    intro t h1 h2
    induction t, h1 using Nat.le_induction with
    | base => exact hu
    | succ t ht ih =>
      obtain ⟨c, o, hs⟩ := htr t (by omega)
      obtain ⟨i, hi⟩ := hcall t ht (by omega)
      exact step_inWakeup_alive ((htr.reachable hr t (by omega)).wf) hs (ih (by omega)) hi
  obtain ⟨t, ht2, ht3, hbefore, hafter⟩ := exists_first
    (P := fun t => ∃ i, S.val < i ∧ ((τ t).proc W).pc.InWakeup chan k i) h23
    (fun ⟨i, hi, h⟩ => by rw [h.idx_eq h0] at hi; omega) ⟨i3, by omega, hend⟩
  obtain ⟨i, hi⟩ := hcall t ht2 (by omega)
  obtain ⟨j, hj, hj'⟩ := hafter
  have hle : i ≤ S.val := Nat.le_of_not_lt fun h => hbefore t ht2 le_rfl ⟨i, h, hi⟩
  obtain ⟨c, o, hs⟩ := htr t (by omega)
  rcases step_inWakeup ((htr.reachable hr t (by omega)).wf) hs (alive t ht2 (by omega)) hi hj'
    with rfl | ⟨rfl, hwake⟩
  · omega
  · exact ⟨t, ht2, ht3, hwake S (by omega) hSW⟩

/-! ## No lost wakeup -/

/-- `S` has called `sleep(chan, lk)` holding `lk` at `t0`; `lk` is free at `t1`,
where another thread takes it; from `t2` on, a thread `W ≠ S` runs a call
`wakeup(chan)` returning to `k'`, whose scan starts at slot 0 and by `t3` has passed
the end of the table. Then `S` went to sleep in its call at `ts + 1` and was
RUNNABLE again at some `te ≤ t3`. -/
theorem no_lost_wakeup (hr : Reachable K (τ 0)) (htr : Trace K τ n) {S W : Fin np}
    (hSW : S ≠ W) {lk : Lk np} {k' : Pc np} {t0 t1 t2 t3 i3 : Nat}
    (h01 : t0 ≤ t1) (h12 : t1 ≤ t2) (h23 : t2 ≤ t3) (h3 : t3 ≤ n)
    (hS : ((τ t0).proc S).state = .RUNNING) (hpc : ((τ t0).proc S).pc = .sleepCall chan lk k)
    (hlk : (τ t1).lock lk = none)
    (hW : ((τ t2).proc W).state = .RUNNING) (hW2 : ((τ t2).proc W).pc = .wakeupScan chan 0 k')
    (hcall : ∀ t, t2 ≤ t → t ≤ t3 → ∃ i, ((τ t).proc W).pc.InWakeup chan k' i)
    (hW3 : ((τ t3).proc W).pc.InWakeup chan k' i3) (hi3 : np ≤ i3) :
    ∃ ts te, t0 ≤ ts ∧ ts < te ∧ te ≤ t3 ∧
      (∀ t, t0 ≤ t → t ≤ ts → ((τ t).proc S).pc = .sleepCall chan lk k) ∧
      ((τ (ts + 1)).proc S).pc = .sleepRet chan lk k ∧
      (∀ t, ts < t → t < te → ((τ t).proc S).state = .SLEEPING) ∧
      ((τ te).proc S).state = .RUNNABLE := by
  have hwf := fun t (h : t ≤ n) => (htr.reachable hr t h).wf
  -- the sleep step comes before `lk` is free
  obtain ⟨ts, hts0, hts1, hcall0, hslept⟩ := exists_first
    (P := fun t => ¬ (((τ t).proc S).state = .RUNNING ∧
      ((τ t).proc S).pc = .sleepCall chan lk k)) h01 (not_not.2 ⟨hS, hpc⟩) fun ⟨h1, h2⟩ => by
      obtain ⟨d, hd⟩ := (hwf t1 (by omega)).cpu.run_cpu S h1
      have ha := (hwf t1 (by omega)).active hd
      rw [h2] at ha
      have := ((hwf t1 (by omega)).holds_iff hd (Pc.Active.not_slot ha.1 ((ha.2 lk).2 rfl))).1
        (by rw [h2]; rfl)
      rw [hlk] at this; cases this
  have hcall0 := fun t h1 h2 => not_not.1 (hcall0 t h1 h2)
  obtain ⟨c, o, hs⟩ := htr ts (by omega)
  obtain ⟨hsl, hch, hret⟩ := (step_sleepCall (hwf ts (by omega)) hs (hcall0 ts hts0 le_rfl).1
    (hcall0 ts hts0 le_rfl).2).resolve_left hslept
  -- the scan passes `S`
  obtain ⟨tv, htv2, htv3, hwake⟩ := trace_wakeup_visits hr htr hSW h23 h3 (by simp [hW]) hcall
    (.inl hW2) hW3 hi3
  -- so the sleep of that call ends by `tv + 1`
  have hend : ∃ b, ts + 1 ≤ b ∧ b ≤ tv + 1 ∧ ((τ b).proc S).state ≠ .SLEEPING := by
    by_contra hno
    push_neg at hno
    have hchv := trace_sleeping_chan hr htr (by omega : ts + 1 ≤ tv) (by omega)
      fun t h1 h2 => hno t h1 (by omega)
    have := hno (tv + 1) (by omega) le_rfl
    rw [hwake, wakeup1, if_pos ⟨hno tv (by omega) (by omega), hchv.trans hch⟩] at this
    cases this
  obtain ⟨b, hb1, hb2, hb⟩ := hend
  obtain ⟨t, ht1, ht2, hsleep, hwoke⟩ := exists_first (P := fun t => ((τ t).proc S).state ≠ .SLEEPING)
    hb1 (not_not.2 hsl) hb
  obtain ⟨c', o', hs'⟩ := htr t (by omega)
  have hSt := not_not.1 (hsleep t ht1 le_rfl)
  refine ⟨ts, t + 1, hts0, by omega, by omega, fun t' h1 h2 => (hcall0 t' h1 h2).2, hret,
    fun t' h1 h2 => not_not.1 (hsleep t' (by omega) (by omega)), ?_⟩
  exact (step_sleeping (hwf t (by omega)) hs' hSt).resolve_left fun h => hwoke h.1

/-- `initcode` forks, takes an outside lock and sleeps on it; its child calls
`wakeup` on the same channel, whose scan makes the parent RUNNABLE. -/
theorem no_lost_wakeup_boot :
    ∃ τ : Nat → Sys 2 1, Reachable Param.std (τ 0) ∧ Trace Param.std τ 5 ∧
      ((τ 0).proc 0).state = .RUNNING ∧
      ((τ 0).proc 0).pc = .sleepCall (.proc 0) (.ext 7) (.extHeld 7) ∧
      (τ 1).lock (.ext 7) = none ∧
      ((τ 3).proc 1).state = .RUNNING ∧ ((τ 3).proc 1).pc = .wakeupScan (.proc 0) 0 .user ∧
      (∀ t, 3 ≤ t → t ≤ 5 → ∃ i, ((τ t).proc 1).pc.InWakeup (.proc 0) .user i) ∧
      ((τ 5).proc 1).pc.InWakeup (.proc 0) .user 2 ∧
      ∃ ts te, 0 ≤ ts ∧ ts < te ∧ te ≤ 5 ∧
        (∀ t, 0 ≤ t → t ≤ ts → ((τ t).proc 0).pc = .sleepCall (.proc 0) (.ext 7) (.extHeld 7)) ∧
        ((τ (ts + 1)).proc 0).pc = .sleepRet (.proc 0) (.ext 7) (.extHeld 7) ∧
        (∀ t, ts < t → t < te → ((τ t).proc 0).state = .SLEEPING) ∧
        ((τ te).proc 0).state = .RUNNABLE := by
  have h0 := bootSys_reachable (K := Param.std)
  have h1 := h0.step (Step.proc (c := 0) rfl (PStep.forkCall rfl))
  have h2 := h1.step (Step.proc (c := 0) rfl (PStep.allocBusy (i := 0) rfl (by decide) rfl
    (by decide)))
  have h3 := h2.step (Step.proc (c := 0) rfl (PStep.allocOk (i := 1) ⟨1, 1, true, true, true⟩ rfl (by decide)
    rfl rfl rfl rfl rfl))
  have h4 := h3.step (Step.proc (c := 0) rfl (PStep.forkParent rfl rfl))
  have h5 := h4.step (Step.proc (c := 0) rfl (PStep.forkRunnable rfl rfl))
  have h6 := h5.step (Step.proc (c := 0) rfl (PStep.extAcquire 7 rfl rfl))
  have h7 := h6.step (Step.proc (c := 0) (p := 0) rfl (PStep.extSleep (.proc 0) (by rfl)))
  obtain ⟨s0, s1, s2, s3, s4, s5, hr, st0, st1, st2, st3, st4, hS, hpc, hlk, hW, hW2, hc4, hc5⟩ :
      ∃ s0 s1 s2 s3 s4 s5 : Sys 2 1, Reachable Param.std s0 ∧
        (∃ c o, Step Param.std s0 c o s1) ∧ (∃ c o, Step Param.std s1 c o s2) ∧
        (∃ c o, Step Param.std s2 c o s3) ∧ (∃ c o, Step Param.std s3 c o s4) ∧
        (∃ c o, Step Param.std s4 c o s5) ∧
        (s0.proc 0).state = .RUNNING ∧ (s0.proc 0).pc = .sleepCall (.proc 0) (.ext 7) (.extHeld 7) ∧
        s1.lock (.ext 7) = none ∧
        (s3.proc 1).state = .RUNNING ∧ (s3.proc 1).pc = .wakeupScan (.proc 0) 0 .user ∧
        (s4.proc 1).pc = .wakeupScan (.proc 0) 1 .user ∧
        (s5.proc 1).pc = .wakeupScan (.proc 0) 2 .user :=
    ⟨_, _, _, _, _, _, h7,
      ⟨0, _, Step.proc (p := 0) (by rfl) (PStep.sleep (by rfl) (by rfl) (by rfl) fun l h => by
        by_contra hne
        exact absurd h (by
          show Function.update (fun _ => none) (Lk.ext 7) (some (0 : Fin 1)) l ≠ some 0
          simp [hne]))⟩,
      ⟨0, _, Step.schedRun 1 (by rfl) (by rfl) (by rfl) (by rfl) (by rfl)⟩,
      ⟨0, _, Step.proc (p := 1) (by rfl) (PStep.callWakeup (.proc 0) (.inl (by rfl)))⟩,
      ⟨0, _, Step.proc (p := 1) (by rfl) (PStep.wakeupSlot (i := 0) (by rfl) (by decide)
        (by decide) (by rfl))⟩,
      ⟨0, _, Step.proc (p := 1) (by rfl) (PStep.wakeupSelf (i := 1) (by rfl) rfl)⟩,
      by rfl, by rfl, by rfl, by rfl, by rfl, by rfl, by rfl⟩
  let τ : Nat → Sys 2 1 := fun t => [s0, s1, s2, s3, s4, s5].getD t s0
  have htr : Trace Param.std τ 5 := fun t ht => by
    match t, ht with
    | 0, _ => exact st0
    | 1, _ => exact st1
    | 2, _ => exact st2
    | 3, _ => exact st3
    | 4, _ => exact st4
  have hcall : ∀ t, 3 ≤ t → t ≤ 5 → ∃ i, ((τ t).proc 1).pc.InWakeup (.proc 0) .user i := by
    intro t h1 h2
    match t, h1, h2 with
    | 3, _, _ => exact ⟨0, .inl hW2⟩
    | 4, _, _ => exact ⟨1, .inl hc4⟩
    | 5, _, _ => exact ⟨2, .inl hc5⟩
  have hlk' : (τ 1).lock (.ext 7) = none := hlk
  have hW' : ((τ 3).proc 1).state = .RUNNING := hW
  have hW2' : ((τ 3).proc 1).pc = .wakeupScan (.proc 0) 0 .user := hW2
  exact ⟨τ, hr, htr, hS, hpc, hlk, hW, hW2, hcall, .inl hc5,
    no_lost_wakeup (S := 0) (W := 1) hr htr (by decide) (Nat.zero_le _)
      (by decide) (by decide) le_rfl hS hpc hlk' hW' hW2' hcall (.inl hc5) le_rfl⟩

/-! ## The whole call -/

variable (K) in
/-- A call `wakeup(chan)` by `W` on CPU `c` that returns to `k`, from its scan at slot
`i` to its return, made of `W`'s own steps only: one for each slot, then the return. -/
inductive WakeupRun (c : Fin nc) (W : Fin np) (chan : Chan np) (k : Pc np) :
    Nat → Sys np nc → Sys np nc → Prop
  | done {i σ σ' o} : (σ.proc W).pc = .wakeupScan chan i k → PStep K σ c W o σ' →
      (σ'.proc W).pc = k → WakeupRun c W chan k i σ σ'
  | next {i σ σ₁ σ' o} : (σ.proc W).pc = .wakeupScan chan i k → PStep K σ c W o σ₁ →
      (σ₁.proc W).pc = .wakeupScan chan (i + 1) k → WakeupRun c W chan k (i + 1) σ₁ σ' →
      WakeupRun c W chan k i σ σ'

/-- A step of the scan that moves on or returns changes the caller's point, runs
`wakeup1` on slot `i` if that is another's, and touches no other slot; it returns only
past the end of the table. -/
theorem pstep_wakeupScan_frame {W : Fin np} (hpc : (σ.proc W).pc = .wakeupScan chan i k)
    (hs : PStep K σ c W o σ')
    (hnext : (σ'.proc W).pc = .wakeupScan chan (i + 1) k ∨ (σ'.proc W).pc = k) :
    σ'.proc W = { σ.proc W with pc := (σ'.proc W).pc } ∧ ((σ'.proc W).pc = k → np ≤ i) ∧
      ∀ z, z ≠ W → σ'.proc z = if z.val = i then wakeup1 (σ.proc z) chan else σ.proc z := by
  cases hs
  case wakeupSelf hpc' hi =>
    obtain ⟨rfl, rfl, rfl⟩ := Pc.wakeupScan.inj (hpc.symm.trans hpc')
    refine ⟨by simp, fun h => (Pc.InWakeup.not_self (.inl (by simpa using h.symm))).elim,
      fun z hz => ?_⟩
    have : z.val ≠ W.val := fun h => hz (Fin.ext h)
    simp [hz, hi, this]
  case wakeupSlot hpc' hi hne _ =>
    obtain ⟨rfl, rfl, rfl⟩ := Pc.wakeupScan.inj (hpc.symm.trans hpc')
    refine ⟨by simp, fun h => (Pc.InWakeup.not_self (.inl (by simpa using h.symm))).elim,
      fun z hz => ?_⟩
    by_cases h : z.val = i
    · obtain rfl : z = ⟨i, hi⟩ := Fin.ext h
      simp [hz]
    · simp [hz, h, Fin.ext_iff]
  case wakeupDone hpc' hi =>
    obtain ⟨rfl, rfl, rfl⟩ := Pc.wakeupScan.inj (hpc.symm.trans hpc')
    refine ⟨by simp, fun _ => hi, fun z hz => ?_⟩
    have : z.val ≠ i := by have := z.isLt; omega
    simp [hz, this]
  case yield =>
    simp only [Sys.switchOut_proc, Sys.setProc_proc, if_true] at hnext
    rcases hnext with h | h
    · cases h
    · rw [hpc] at h
      exact (Pc.InWakeup.not_self (.inr h.symm)).elim
  case sigPriv q hq => simp [sigStep, hpc] at hq
  case callWakeup _ h => rcases h with h | ⟨_, h⟩ <;> rw [hpc] at h <;> cases h
  all_goals simp only [hpc, reduceCtorEq] at *

/-- From slot `i` on, the call runs `wakeup1` on every slot but the caller's and returns. -/
theorem WakeupRun.tables {W : Fin np} (h : WakeupRun K c W chan k i σ σ') :
    σ'.proc W = { σ.proc W with pc := k } ∧
      ∀ z, z ≠ W → σ'.proc z = if i ≤ z.val then wakeup1 (σ.proc z) chan else σ.proc z := by
  induction h with
  | done hpc hs hk =>
    obtain ⟨hW, hnp, hz⟩ := pstep_wakeupScan_frame hpc hs (.inr hk)
    refine ⟨by rw [hW, hk], fun z hzW => ?_⟩
    have := hnp hk
    rw [hz z hzW, if_neg (by omega), if_neg (by omega)]
  | @next i σ σ₁ σ' o hpc hs h1 _ ih =>
    obtain ⟨hW, -, hz⟩ := pstep_wakeupScan_frame hpc hs (.inl h1)
    refine ⟨by rw [ih.1, hW], fun z hzW => ?_⟩
    rw [ih.2 z hzW, hz z hzW]
    by_cases h : z.val = i
    · simp [h]
    · by_cases h' : i ≤ z.val
      · simp [h, h', show i + 1 ≤ z.val by omega]
      · simp [h, h', show ¬ i + 1 ≤ z.val by omega]

theorem wakeup_broadcast {W : Fin np} (h : WakeupRun K c W chan k 0 σ σ') :
    σ'.proc W = { σ.proc W with pc := k } ∧ ∀ z, z ≠ W →
      σ'.proc z = if (σ.proc z).state = .SLEEPING ∧ (σ.proc z).chan = chan then
        { σ.proc z with state := .RUNNABLE } else σ.proc z := by
  obtain ⟨hW, hz⟩ := h.tables
  exact ⟨hW, fun z hzW => by rw [hz z hzW, if_pos (Nat.zero_le _), wakeup1]⟩

/-- With the other slots' locks free, the scan from slot `i` always gets to its return. -/
theorem wakeupRun_exists {W : Fin np} (hl : ∀ z, z ≠ W → σ.lock (.proc z) = none)
    (hpc : (σ.proc W).pc = .wakeupScan chan i k) : ∃ σ', WakeupRun K c W chan k i σ σ' := by
  generalize hd : np - i = d
  induction d generalizing σ i with
  | zero => exact ⟨_, .done hpc (.wakeupDone hpc (by omega)) (by simp)⟩
  | succ d ih =>
    have hi : i < np := by omega
    by_cases hW : i = W.val
    · obtain ⟨σ', h⟩ := ih (i := i + 1) (σ := σ.setProc W { σ.proc W with pc := .wakeupScan chan (i + 1) k })
        (by simpa using hl) (by simp) (by omega)
      exact ⟨σ', .next hpc (.wakeupSelf hpc hW) (by simp) h⟩
    · have hz : (⟨i, hi⟩ : Fin np) ≠ W := fun h => hW (by rw [← h])
      obtain ⟨σ', h⟩ := ih (i := i + 1) (σ := (σ.setProc ⟨i, hi⟩ (wakeup1 (σ.proc ⟨i, hi⟩) chan)).setProc W
          { σ.proc W with pc := .wakeupScan chan (i + 1) k }) (by simpa using hl) (by simp) (by omega)
      exact ⟨σ', .next hpc (.wakeupSlot hpc hi hW (hl _ hz)) (by simp) h⟩

/-- Slot 0 calls `wakeup` on its own channel while slot 1 sleeps on it: slot 1 becomes
RUNNABLE and slot 0 returns to user space. -/
theorem wakeup_broadcast_sleeper :
    ∃ σ σ' : Sys 2 1, WakeupRun Param.std 0 0 (.proc 0) .user 0 σ σ' ∧
      (σ.proc 1).state = .SLEEPING ∧ (σ'.proc 1).state = .RUNNABLE ∧ (σ'.proc 0).pc = .user := by
  let σ : Sys 2 1 := { procinit Param.std with
    proc := fun z => if z = 0 then { Proc.zero Param.std with
        state := .RUNNING, pc := .wakeupScan (.proc 0) 0 .user }
      else { Proc.zero Param.std with state := .SLEEPING, chan := .proc 0 } }
  obtain ⟨σ', h⟩ := wakeupRun_exists (K := Param.std) (c := 0) (σ := σ) (W := 0)
    (fun _ _ => rfl) rfl
  have hb := wakeup_broadcast h
  refine ⟨σ, σ', h, rfl, ?_, by rw [hb.1]⟩
  rw [hb.2 1 (by decide)]
  rfl

/-! ## Nothing else wakes a sleeper -/

/-- A step of the thread of `p` takes a sleeper out of SLEEPING only as the step of a
scan of `wakeup` on the sleeper's channel, at the sleeper's slot. `kill` only
raises a pending bit, and `sigkill_func` looks at its own, RUNNING, process. -/
theorem pstep_wakes (hw : Wf σ) {p : Fin np} (hc : (σ.cpus c).proc = some p)
    (hs : PStep K σ c p o σ') {S : Fin np} (hS : (σ.proc S).state = .SLEEPING)
    (hS' : (σ'.proc S).state ≠ .SLEEPING) :
    ∃ k, (σ.proc p).pc = .wakeupScan (σ.proc S).chan S.val k := by
  have hSp : S ≠ p := by rintro rfl; rw [hw.running hc] at hS; cases hS
  cases hs
  case wakeupSlot chan i k hpc hi hne hl =>
    simp only [Sys.setProc_proc, hSp, if_false] at hS'
    split_ifs at hS' with hSi
    · subst hSi
      unfold wakeup1 at hS'
      split_ifs at hS' with hw1
      · exact ⟨k, by rw [hpc, hw1.2]⟩
      · exact absurd hS hS'
    · exact absurd hS hS'
  case forkRunnable ch pid hpc hl =>
    obtain ⟨hU, -, -⟩ := hw.child p ch ⟨by simp [hw.running hc], by simp [hpc, Pc.forkChild]⟩
    have : S ≠ ch := by rintro rfl; rw [hS] at hU; cases hU
    simp [this, hSp, hS] at hS'
  case killRange => exact absurd hS hS'
  all_goals
    simp only [Sys.setProc_proc, Sys.setLock_proc, Sys.switchOut_proc, Sys.setPc_eq, hSp,
      if_false] at hS'
    first
      | exact absurd hS hS'
      | split_ifs at hS' <;> subst_vars <;> first | exact absurd hS hS' | simp only [hS, reduceCtorEq] at *

/-- Who makes a step that takes slot `S` out of SLEEPING: the thread `W` on the stepping
CPU, whose scan of `wakeup` stands at `S` on `S`'s channel, or, with no process on that
CPU, the scan of an interrupt handler's `wakeup` standing at `S`, on the kernel object
`S` sleeps on. -/
def Wakes (σ : Sys np nc) (c : Fin nc) (S : Fin np) : Prop :=
  (∃ W k, (σ.cpus c).proc = some W ∧ W ≠ S ∧
    (σ.proc W).pc = .wakeupScan (σ.proc S).chan S.val k) ∨
  ((σ.cpus c).proc = none ∧ ∃ a, σ.intr c = some (a, S.val) ∧ (σ.proc S).chan = .obj a)

theorem step_wakes (hw : Wf σ) (hs : Step K σ c o σ') {S : Fin np}
    (hS : (σ.proc S).state = .SLEEPING) (hS' : (σ'.proc S).state ≠ .SLEEPING) : Wakes σ c S := by
  cases hs with
  | proc hc hs =>
    obtain ⟨k, hk⟩ := pstep_wakes hw hc hs hS hS'
    exact .inl ⟨_, k, hc, (by rintro rfl; rw [hw.running hc] at hS; cases hS), hk⟩
  | schedSkip | schedWrap | intrCall | intrDone => exact absurd hS hS'
  | @intrSlot a i hc hn hi _ =>
    simp only [Sys.setIntr_proc, Sys.setProc_proc] at hS'
    split_ifs at hS' with hSi
    · subst hSi
      unfold wakeup1 at hS'
      split_ifs at hS' with hw1
      · exact .inr ⟨hc, a, hn, hw1.2⟩
      · exact absurd hS hS'
    · exact absurd hS hS'
  | schedRun i _ _ _ hi _ =>
    have : S ≠ i := by rintro rfl; rw [hS] at hi; cases hi
    simp [this, hS] at hS'
  | userinit i _ _ _ _ _ hu =>
    have : S ≠ i := by rintro rfl; rw [hS] at hu; cases hu
    simp [this, hS] at hS'

theorem sleeper_woken_only_by_wakeup (hr : Reachable K σ) (hs : Step K σ c o σ') {S : Fin np}
    (hS : (σ.proc S).state = .SLEEPING) (hS' : (σ'.proc S).state ≠ .SLEEPING) :
    (σ'.proc S).state = .RUNNABLE ∧
      ((∃ W k, (σ.cpus c).proc = some W ∧ W ≠ S ∧
        (σ.proc W).pc = .wakeupScan (σ.proc S).chan S.val k) ∨
      ((σ.cpus c).proc = none ∧ ∃ a, σ.intr c = some (a, S.val) ∧ (σ.proc S).chan = .obj a)) :=
  ⟨(step_sleeping hr.wf hs hS).resolve_left fun h => hS' h.1, step_wakes hr.wf hs hS hS'⟩

/-- `initcode` takes an outside lock and sleeps on a kernel object; CPU 0, idle,
takes an interrupt whose `wakeup` on that object wakes it. -/
theorem sleeper_woken_boot :
    ∃ (σ σ' : Sys 2 1) (o : Out 2), Reachable Param.std σ ∧ Step Param.std σ 0 o σ' ∧
      (σ.proc 0).state = .SLEEPING ∧ (σ'.proc 0).state ≠ .SLEEPING ∧
      (σ'.proc 0).state = .RUNNABLE ∧
      ((∃ W k, (σ.cpus 0).proc = some W ∧ W ≠ 0 ∧
        (σ.proc W).pc = .wakeupScan (σ.proc 0).chan (0 : Fin 2).val k) ∨
      ((σ.cpus 0).proc = none ∧ ∃ a, σ.intr 0 = some (a, (0 : Fin 2).val) ∧
        (σ.proc 0).chan = .obj a)) := by
  have h0 := bootSys_reachable (K := Param.std)
  have h1 := h0.step (Step.proc (c := 0) rfl (PStep.extAcquire 7 rfl rfl))
  have h2 := h1.step (Step.proc (c := 0) (p := 0) rfl (PStep.extSleep (.obj 5) (by rfl)))
  have h3 := h2.step (Step.proc (c := 0) (p := 0) (by rfl) (PStep.sleep (by rfl) (by rfl) (by rfl)
    fun l h => by
      by_contra hne
      exact absurd h (by
        show Function.update (fun _ => none) (Lk.ext 7) (some (0 : Fin 1)) l ≠ some 0
        simp [hne])))
  have h4 := h3.step (Step.intrCall (c := 0) 5 (by rfl) (by rfl) fun _ => by rfl)
  obtain ⟨σ, σ', o, hr, hs, hS, hR⟩ : ∃ (σ σ' : Sys 2 1) (o : Out 2), Reachable Param.std σ ∧
      Step Param.std σ 0 o σ' ∧ (σ.proc 0).state = .SLEEPING ∧ (σ'.proc 0).state = .RUNNABLE :=
    ⟨_, _, _, h4, Step.intrSlot (i := 0) (by rfl) (by rfl) (by decide) (by rfl), by rfl, by rfl⟩
  have hS' : (σ'.proc 0).state ≠ .SLEEPING := by rw [hR]; decide
  exact ⟨σ, σ', o, hr, hs, hS, hS', sleeper_woken_only_by_wakeup hr hs hS hS'⟩

end RiscvProc
