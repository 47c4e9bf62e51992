import RiscvProc.Run

/-!
# Parent links

`fork` links the child to its parent before making it RUNNABLE, `exit` hands
every child to `initproc` (`reparent`) before the caller becomes a ZOMBIE, and
`wait` frees a ZOMBIE, which by then has no children. So in every reachable state,
whether `wait_lock` is held or not (`ParentOk`, `Reachable.parentOk`):

- `initproc` has no parent and never exits;
- a parent link only ever points at a RUNNABLE, RUNNING or SLEEPING slot;
- a RUNNABLE, RUNNING, SLEEPING or ZOMBIE slot other than `initproc` has a parent;
- following parent links from any slot ends (`RootPath`), for such a slot at
  `initproc`.

What a thread in the middle of `exit` or `fork` has done to the links is read off
its point (`PcOk`).
-/

namespace RiscvProc

variable {np nc : Nat} {K : Param}

/-- What the parent links depend on of a slot's state: free (0), being built by
`fork` (1), RUNNABLE, RUNNING or SLEEPING (2), exited (3). -/
def Procstate.kind : Procstate → Nat
  | .UNUSED => 0
  | .USED => 1
  | .ZOMBIE => 3
  | _ => 2

@[simp] theorem Procstate.kind_eq_zero (s : Procstate) : s.kind = 0 ↔ s = .UNUSED := by
  cases s <;> simp [Procstate.kind]

@[simp] theorem Procstate.kind_eq_one (s : Procstate) : s.kind = 1 ↔ s = .USED := by
  cases s <;> simp [Procstate.kind]

namespace Pc

/-- The point a thread inside `yield`, `sleep`, `wakeup`, `sigkill_func` or
`turnoff_sigbit` returns to in the end. -/
def base : Pc np → Pc np
  | .yieldRet k | .sleepCall _ _ k | .sleepRet _ _ k | .sleepReacq _ k | .wakeupScan _ _ k
  | .sigKill k | .sigTurnoff _ k => base k
  | k => k

/-- How far `exit` has got: past `exitStart`, with `reparent` done below the index. -/
def exitProgress : Pc np → Option Nat
  | .exitStart _ => some 0
  | .reparentScan _ i => some i
  | .exitZombie _ => some np
  | _ => none

/-- The child `fork` has linked to its parent (`np->parent = p`) and not yet made
RUNNABLE. -/
def forkLinked : Pc np → Option (Fin np)
  | .forkRunnable ch _ => some ch
  | _ => none

/-- A child `fork` has linked is a child it builds. -/
theorem forkChild_of_forkLinked : ∀ {k : Pc np} {ch : Fin np},
    k.base.forkLinked = some ch → k.forkChild = some ch
  | .yieldRet k, _, h | .sleepCall _ _ k, _, h | .sleepRet _ _ k, _, h | .sleepReacq _ k, _, h
  | .wakeupScan _ _ k, _, h | .sigKill k, _, h | .sigTurnoff _ k, _, h =>
      forkChild_of_forkLinked (k := k) h
  | .forkRunnable _ _, _, h => h
  | .user, _, h | .forkret, _, h | .extHeld _, _, h | .allocScan _, _, h
  | .forkParent _ _, _, h | .exitStart _, _, h | .reparentScan _ _, _, h | .exitZombie _, _, h
  | .exited _, _, h | .waitStart _, _, h | .waitScan _ _ _, _, h | .killScan _ _ _, _, h
  | .sigEntry, _, h | .sigLoop _, _, h | .sigStop _, _, h | .searchCont _, _, h
  | .searchKill _, _, h | .searchLoop _ _, _, h | .sigTest _, _, h | .sigUser _, _, h => by
      cases h

end Pc

/-! ## Paths to a root -/

/-- Following parent links from slot `i` ends at slot `r`, which has none. -/
inductive RootPath (σ : Sys np nc) : Fin np → Fin np → Prop
  | root {i} : (σ.proc i).parent = none → RootPath σ i i
  | parent {i j r} : (σ.proc i).parent = some j → RootPath σ j r → RootPath σ i r

namespace RootPath

variable {σ τ : Sys np nc} {i j r : Fin np}

/-- A slot with a path to a root is not its own parent. -/
theorem no_self (h : RootPath σ i r) : (σ.proc i).parent ≠ some i := by
  induction h with
  | root h => simp [h]
  | parent hj _ ih => intro hi; rw [hi] at hj; cases hj; exact ih hi

/-- A path survives any change that keeps every slot's parent. -/
theorem congr (h : RootPath σ i r) (hp : ∀ k, (τ.proc k).parent = (σ.proc k).parent) :
    RootPath τ i r := by
  induction h with
  | root h => exact .root ((hp _).trans h)
  | parent h _ ih => exact .parent ((hp _).trans h) ih

/-- When the parent of `j` alone changes, a path from any slot exists if one from
`j` does. -/
theorem frame (h : RootPath σ i r) (hp : ∀ k, k ≠ j → (τ.proc k).parent = (σ.proc k).parent)
    (hj : ∃ r', RootPath τ j r') : ∃ r', RootPath τ i r' := by
  induction h with
  | @root i h =>
    by_cases hij : i = j
    · exact hij ▸ hj
    · exact ⟨i, .root ((hp i hij).trans h)⟩
  | @parent i _ _ h _ ih =>
    by_cases hij : i = j
    · exact hij ▸ hj
    · obtain ⟨r', ih⟩ := ih; exact ⟨r', .parent ((hp i hij).trans h) ih⟩

/-- A path that does not pass `j` survives a change of the parent of `j` alone. -/
theorem avoid (h : RootPath σ i r) (hp : ∀ k, k ≠ j → (τ.proc k).parent = (σ.proc k).parent)
    (hin : ∀ k, (σ.proc k).parent ≠ some j) (hij : i ≠ j) : RootPath τ i r := by
  induction h with
  | root h => exact .root ((hp _ hij).trans h)
  | @parent i k _ h _ ih =>
    exact .parent ((hp _ hij).trans h) (ih fun e => hin i (e ▸ h))

end RootPath

/-! ## What the steps leave of a record -/

@[simp] theorem wakeup1_kind (q : Proc np) (ch : Chan np) :
    (wakeup1 q ch).state.kind = q.state.kind := by
  unfold wakeup1; split_ifs with h
  · simp [h.1, Procstate.kind]
  · rfl

@[simp] theorem wakeup1_parent (q : Proc np) (ch : Chan np) : (wakeup1 q ch).parent = q.parent := by
  unfold wakeup1; split_ifs <;> rfl

@[simp] theorem wakeup1_pc (q : Proc np) (ch : Chan np) : (wakeup1 q ch).pc = q.pc := by
  unfold wakeup1; split_ifs <;> rfl

/-- `swtch` into a slot keeps its parent and lands inside the call it was switched
out in, or in user space. -/
theorem resume_parent {p q : Proc np} (h : resume p = some q) :
    q.parent = p.parent ∧ (q.pc.base = p.pc.base ∨ q.pc = .user) := by
  unfold resume at h
  split at h <;> cases h <;> rename_i hpc <;> simp [hpc, Pc.base]

theorem dispatch_parent (p : Proc np) (i : Fin 32) :
    (dispatch K p i).parent = p.parent ∧ (dispatch K p i).pc.base.exitProgress = none ∧
    (dispatch K p i).pc.base.forkLinked = none := by
  rw [dispatch_eq]; cases handlerAct K (p.signalHandlers i) i <;> exact ⟨rfl, rfl, rfl⟩

/-- The delivery pass keeps the parent and is neither inside `exit` nor `fork`. -/
theorem sigStep_parent {p q : Proc np} (h : sigStep K p = some q) :
    q.parent = p.parent ∧ q.pc.base.exitProgress = none ∧ q.pc.base.forkLinked = none := by
  dsimp only [sigStep] at h
  split at h
  all_goals first | cases h | (split_ifs at h <;> cases h)
  all_goals (try split_ifs) <;> first | exact ⟨rfl, rfl, rfl⟩ | exact dispatch_parent _ _

/-! ## The invariant -/

/-- What slot `j`'s point `k` asks of the links: an `exit` past `exitStart` is not
`initproc`'s and has handed the slots below its scan index over, and a `fork` past
`np->parent = p` has linked its child. -/
def PcOk (σ : Sys np nc) (j : Fin np) (k : Pc np) : Prop :=
  (∀ n, k.base.exitProgress = some n →
    σ.initproc ≠ some j ∧ ∀ i : Fin np, i.val < n → (σ.proc i).parent ≠ some j) ∧
  ∀ ch, k.base.forkLinked = some ch → (σ.proc ch).parent = some j

/-- The parent links of a state. -/
structure ParentOk (σ : Sys np nc) : Prop where
  root : ∀ r, σ.initproc = some r → (σ.proc r).parent = none ∧ (σ.proc r).state.kind = 2
  boot : σ.initproc = none → ∀ i, (σ.proc i).state = .UNUSED
  free : ∀ i, (σ.proc i).state = .UNUSED → (σ.proc i).parent = none
  alive : ∀ i j, (σ.proc i).parent = some j → (σ.proc j).state.kind = 2
  orphan : ∀ i, 2 ≤ (σ.proc i).state.kind → (σ.proc i).parent = none → σ.initproc = some i
  pcOk : ∀ j, (σ.proc j).state ≠ .UNUSED → PcOk σ j (σ.proc j).pc
  rooted : ∀ i, ∃ r, RootPath σ i r

variable {σ τ : Sys np nc} {c : Fin nc} {p j : Fin np} {k m : Pc np} {q : Proc np}

namespace PcOk

theorem of_none (he : m.base.exitProgress = none) (hl : m.base.forkLinked = none) :
    PcOk σ j m :=
  ⟨fun _ hn => absurd (he ▸ hn) nofun, fun _ hc => absurd (hl ▸ hc) nofun⟩

theorem of_base (h : PcOk σ j k) (hb : m.base = k.base) : PcOk σ j m := by
  unfold PcOk; rw [hb]; exact h

/-- `exit`'s scan moves its index from `a` to `b`, having handed over the slots
in between. -/
theorem advance (h : PcOk σ j k) {a b : Nat} (hk : k.base.exitProgress = some a)
    (hm : m.base.exitProgress = some b) (hl : m.base.forkLinked = none)
    (hn : ∀ i : Fin np, a ≤ i.val → i.val < b → (σ.proc i).parent ≠ some j) : PcOk σ j m := by
  refine ⟨fun n hn' => ?_, fun _ hc => absurd (hl ▸ hc) nofun⟩
  rw [hm] at hn'; cases hn'
  obtain ⟨hi, hlt⟩ := h.1 a hk
  exact ⟨hi, fun i hi' => if hai : a ≤ i.val then hn i hai hi' else hlt i (by omega)⟩

/-- What a point asks survives a change that keeps `initproc`, adds no link to `j`
while `j` exits, and keeps the links of the child `j` has linked. -/
theorem transfer (h : PcOk σ j k) (hinit : τ.initproc = σ.initproc)
    (hex : ∀ n, k.base.exitProgress = some n → ∀ i, (σ.proc i).parent ≠ some j →
      (τ.proc i).parent ≠ some j)
    (hlk : ∀ ch, k.base.forkLinked = some ch → (σ.proc ch).parent = some j →
      (τ.proc ch).parent = some j) : PcOk τ j k :=
  ⟨fun n hn => ⟨hinit ▸ (h.1 n hn).1, fun i hi => hex n hn i ((h.1 n hn).2 i hi)⟩,
    fun ch hc => hlk ch hc (h.2 ch hc)⟩

end PcOk

theorem parentOk_procinit (K : Param) : ParentOk (procinit K : Sys np nc) where
  root := by simp [procinit]
  boot _ _ := rfl
  free _ _ := rfl
  alive := by simp [procinit, Proc.zero]
  orphan := by simp [procinit, Proc.zero, Procstate.kind]
  pcOk := by simp [procinit, Proc.zero]
  rooted i := ⟨i, .root rfl⟩

namespace ParentOk

/-- Nothing the links read changes: the slots and `initproc`. -/
theorem congr (h : ParentOk σ) (hp : τ.proc = σ.proc) (hi : τ.initproc = σ.initproc) :
    ParentOk τ where
  root := by rw [hp, hi]; exact h.root
  boot := by rw [hp, hi]; exact h.boot
  free := by rw [hp]; exact h.free
  alive := by rw [hp]; exact h.alive
  orphan := by rw [hp, hi]; exact h.orphan
  pcOk j hj := by unfold PcOk; rw [hp, hi]; exact h.pcOk j (hp ▸ hj)
  rooted i := (h.rooted i).imp fun _ hr => hr.congr fun k => by rw [hp]

theorem setCpu (h : ParentOk σ) (x : Cpu np) : ParentOk (σ.setCpu c x) := h.congr rfl rfl
theorem setLock (h : ParentOk σ) (l : Lk np) (x : Option (Fin nc)) :
    ParentOk (σ.setLock l x) := h.congr rfl rfl
theorem switchOut (h : ParentOk σ) : ParentOk (σ.switchOut c) := h.congr rfl rfl
theorem setNextpid (h : ParentOk σ) (n : Int) : ParentOk { σ with nextpid := n } :=
  h.congr rfl rfl

/-- A slot that is not free: `initproc` has been set. -/
theorem initproc_ne (h : ParentOk σ) (hs : (σ.proc p).state ≠ .UNUSED) : σ.initproc ≠ none :=
  fun h0 => hs (h.boot h0 p)

theorem no_self (h : ParentOk σ) (j : Fin np) : (σ.proc j).parent ≠ some j :=
  let ⟨_, hr⟩ := h.rooted j; hr.no_self

/-- No link points at a slot that is not RUNNABLE, RUNNING or SLEEPING. -/
theorem unlinked (h : ParentOk σ) (hj : (σ.proc j).state.kind ≠ 2) (i : Fin np) :
    (σ.proc i).parent ≠ some j := fun hi => hj (h.alive i j hi)

/-- One slot changes; it keeps its parent, or loses it when no `fork` is building
it; it is linked to only while RUNNABLE, RUNNING or SLEEPING; it has a parent
unless it is `initproc` or neither alive nor exited; and its point is right. -/
theorem setProc (h : ParentOk σ) (hi : σ.initproc ≠ none)
    (hroot : σ.initproc = some j → q.state.kind = 2)
    (hpar : q.parent = (σ.proc j).parent ∨ (q.parent = none ∧ ∀ r, ¬ Claims σ r j))
    (hfree : q.state = .UNUSED → q.parent = none)
    (hin : q.state.kind ≠ 2 → ∀ i, (σ.proc i).parent ≠ some j)
    (horph : 2 ≤ q.state.kind → q.parent = none → σ.initproc = some j)
    (hpc : q.state ≠ .UNUSED → PcOk σ j q.pc) : ParentOk (σ.setProc j q) := by
  have hqp : ∀ e, q.parent = some e → (σ.proc j).parent = some e := fun e he => by
    rcases hpar with hp | ⟨hp, -⟩ <;> rw [hp] at he
    exacts [he, absurd he nofun]
  have hqj : q.parent ≠ some j := fun he => h.no_self j (hqp j he)
  refine ⟨fun r hr => ?_, fun h0 => absurd h0 hi, fun i hu => ?_, fun i e he => ?_,
    fun i h2 hn => ?_, fun e he => ?_, fun i => ?_⟩
  · by_cases hrj : r = j
    · subst hrj
      refine ⟨?_, by simpa using hroot hr⟩
      rcases hpar with hp | ⟨hp, -⟩ <;> simp [hp, (h.root r hr).1]
    · simpa [hrj] using h.root r hr
  · by_cases hij : i = j
    · subst hij; simp only [Sys.setProc_proc, if_true] at hu ⊢; exact hfree hu
    · simp only [Sys.setProc_proc, hij, if_false] at hu ⊢; exact h.free i hu
  · by_cases hij : i = j
    · subst hij
      simp only [Sys.setProc_proc, if_true] at he
      have hne : e ≠ i := by rintro rfl; exact hqj he
      simpa [hne] using h.alive i e (hqp e he)
    · simp only [Sys.setProc_proc, hij, if_false] at he
      by_cases hej : e = j
      · subst hej; simp only [Sys.setProc_proc, if_true]; by_contra hk; exact hin hk i he
      · simpa [hej] using h.alive i e he
  · by_cases hij : i = j
    · subst hij; simp only [Sys.setProc_proc, if_true] at h2 hn; exact horph h2 hn
    · simp only [Sys.setProc_proc, hij, if_false] at h2 hn; exact h.orphan i h2 hn
  · by_cases hej : e = j
    · subst hej
      simp only [Sys.setProc_proc, if_true] at he ⊢
      refine (hpc he).transfer rfl (fun _ _ i hi => ?_) (fun ch _ hch => ?_)
      · by_cases hij : i = e <;> simp [hij, hqj, hi]
      · have : ch ≠ e := by rintro rfl; exact h.no_self ch hch
        simpa [this] using hch
    · simp only [Sys.setProc_proc, hej, if_false] at he ⊢
      refine (h.pcOk e he).transfer rfl (fun _ _ i hi => ?_) (fun ch hc hch => ?_)
      · by_cases hij : i = j
        · subst hij; simp only [Sys.setProc_proc, if_true]; exact fun he' => hi (hqp e he')
        · simpa [hij] using hi
      · by_cases hcj : ch = j
        · subst hcj
          rcases hpar with hp | ⟨-, hcl⟩
          · simp [hp, hch]
          · exact absurd ⟨he, Pc.forkChild_of_forkLinked hc⟩ (hcl e)
        · simpa [hcj] using hch
  · obtain ⟨r, hr⟩ := h.rooted i
    rcases hpar with hp | ⟨hp, -⟩
    · exact ⟨r, hr.congr fun k => by by_cases hk : k = j <;> simp [hk, hp]⟩
    · exact hr.frame (j := j) (fun k hk => by simp [hk]) ⟨j, .root (by simp [hp])⟩

/-- One slot changes fields other than its state's kind and its parent, to a
point that is right. -/
theorem setSame (h : ParentOk σ) (hi : σ.initproc ≠ none)
    (hk : q.state.kind = (σ.proc j).state.kind) (hp : q.parent = (σ.proc j).parent)
    (hpc : q.state ≠ .UNUSED → PcOk σ j q.pc) : ParentOk (σ.setProc j q) := by
  have hu : q.state = .UNUSED ↔ (σ.proc j).state = .UNUSED := by
    rw [← Procstate.kind_eq_zero, hk, Procstate.kind_eq_zero]
  refine h.setProc hi (fun hr => hk ▸ (h.root j hr).2) (.inl hp)
    (fun hq => hp ▸ h.free j (hu.1 hq)) (fun hq => h.unlinked (hk ▸ hq)) (fun h2 hn => ?_) hpc
  exact h.orphan j (hk ▸ h2) (hp ▸ hn)

/-- The thread of `p` moves on to a point that is right. -/
theorem setPc (h : ParentOk σ) (hs : (σ.proc p).state ≠ .UNUSED) (hm : PcOk σ p m) :
    ParentOk (σ.setProc p { σ.proc p with pc := m }) :=
  h.setSame (h.initproc_ne hs) rfl rfl fun _ => hm

/-- Slot `j`, which no `fork` has linked to another parent, gets the parent `x`:
a RUNNABLE, RUNNING or SLEEPING slot that is not exiting, with a path to a root. -/
theorem setParent (h : ParentOk σ) (hi : σ.initproc ≠ none) {x : Fin np}
    (hx : (σ.proc x).state.kind = 2) (hxj : x ≠ j) (hxe : (σ.proc x).pc.base.exitProgress = none)
    (hj : σ.initproc ≠ some j) (hju : (σ.proc j).state ≠ .UNUSED)
    (hlinked : ∀ r, (σ.proc r).state ≠ .UNUSED → (σ.proc r).pc.base.forkLinked = some j → r = x)
    (hrx : ∃ r, RootPath (σ.setProc j { σ.proc j with parent := some x }) x r) :
    ParentOk (σ.setProc j { σ.proc j with parent := some x }) := by
  have hxj' : j ≠ x := Ne.symm hxj
  refine ⟨fun r hr => ?_, fun h0 => absurd h0 hi, fun i hu => ?_, fun i e he => ?_,
    fun i h2 hn => ?_, fun e he => ?_, fun i => ?_⟩
  · have : r ≠ j := by rintro rfl; exact hj hr
    simpa [this] using h.root r hr
  · have : i ≠ j := by rintro rfl; simp at hu; exact hju hu
    simpa [this] using h.free i (by simpa [this] using hu)
  · have hst : ((σ.setProc j { σ.proc j with parent := some x }).proc e).state =
        (σ.proc e).state := by by_cases hej : e = j <;> simp [hej]
    rw [hst]
    by_cases hij : i = j
    · subst hij; simp only [Sys.setProc_proc, if_true, Option.some.injEq] at he; exact he ▸ hx
    · simp only [Sys.setProc_proc, hij, if_false] at he; exact h.alive i e he
  · have hij : i ≠ j := by rintro rfl; simp at hn
    simp only [Sys.setProc_proc, hij, if_false] at h2 hn; exact h.orphan i h2 hn
  · by_cases hej : e = j
    · subst hej
      simp only [Sys.setProc_proc, if_true] at he ⊢
      refine (h.pcOk e he).transfer rfl (fun _ _ i hi => ?_) (fun ch _ hch => ?_)
      · by_cases hij : i = e <;> simp [hij, hxj, hi]
      · have : ch ≠ e := by rintro rfl; exact h.no_self ch hch
        simpa [this] using hch
    · simp only [Sys.setProc_proc, hej, if_false] at he ⊢
      refine (h.pcOk e he).transfer rfl (fun n hn i hi => ?_) (fun ch hc hch => ?_)
      · by_cases hij : i = j
        · subst hij; simp only [Sys.setProc_proc, if_true, ne_eq, Option.some.injEq]
          rintro rfl; rw [hxe] at hn; cases hn
        · simpa [hij] using hi
      · by_cases hcj : ch = j
        · subst hcj; simp [hlinked e he hc]
        · simpa [hcj] using hch
  · exact (h.rooted i).elim fun r hr => hr.frame (j := j) (fun k hk => by simp [hk]) (by
      obtain ⟨r', hr'⟩ := hrx; exact ⟨r', .parent (by simp) hr'⟩)

/-- One slot changes fields other than its state's kind, its parent and its point. -/
theorem setKeep (h : ParentOk σ) (hi : σ.initproc ≠ none)
    (hk : q.state.kind = (σ.proc j).state.kind) (hp : q.parent = (σ.proc j).parent)
    (hpc : q.pc = (σ.proc j).pc) : ParentOk (σ.setProc j q) :=
  h.setSame hi hk hp fun hq => hpc ▸ h.pcOk j fun hu => hq (by
    rwa [← Procstate.kind_eq_zero, hk, Procstate.kind_eq_zero])

/-- After slot `j` changed, the thread of `p ≠ j` moves on to a point that is right. -/
theorem setPcAfter {x : Proc np} (h : ParentOk (σ.setProc j x)) (hne : j ≠ p)
    (hs : (σ.proc p).state ≠ .UNUSED)
    (hm : PcOk (σ.setProc j x) p (σ.proc p).pc → PcOk (σ.setProc j x) p m) :
    ParentOk ((σ.setProc j x).setProc p { σ.proc p with pc := m }) := by
  have e : (σ.setProc j x).proc p = σ.proc p := by simp [Ne.symm hne]
  rw [← e] at hs hm ⊢
  exact h.setPc hs (hm (h.pcOk p hs))

/-- `initproc` is not inside `exit`. -/
theorem init_not_exiting (h : ParentOk σ) {r : Fin np} (hr : σ.initproc = some r) :
    (σ.proc r).pc.base.exitProgress = none := by
  have hu : (σ.proc r).state ≠ .UNUSED := fun hu => by simpa [hu, Procstate.kind] using (h.root r hr).2
  cases he : (σ.proc r).pc.base.exitProgress with
  | none => rfl
  | some n => exact absurd hr ((h.pcOk r hu).1 n he).1

/-- Every step of a kernel thread keeps the links right. -/
theorem pstep (h : ParentOk σ) (hw : Wf σ) (hc : (σ.cpus c).proc = some p) {o : Out np}
    {σ' : Sys np nc} (hs : PStep K σ c p o σ') : ParentOk σ' := by
  have hrun := hw.running hc
  have hu : (σ.proc p).state ≠ .UNUSED := by simp [hrun]
  have hi := h.initproc_ne hu
  have hpk := h.pcOk p hu
  have hk2 : (σ.proc p).state.kind = 2 := by simp [hrun, Procstate.kind]
  cases hs with
  | yield =>
    apply ParentOk.switchOut
    exact h.setSame hi (by simp [hrun, Procstate.kind]) rfl fun _ => hpk.of_base rfl
  | sleep hpc =>
    rw [Sys.setLock_setProc]; apply ParentOk.switchOut; apply ParentOk.setLock
    exact h.setSame hi (by simp [hrun, Procstate.kind]) rfl fun _ => hpk.of_base (by rw [hpc]; rfl)
  | sleepReacq hpc =>
    rw [Sys.setLock_setProc]; apply ParentOk.setLock
    exact h.setPc hu (hpk.of_base (by rw [hpc]; rfl))
  | wakeupSelf hpc | wakeupDone hpc => exact h.setPc hu (hpk.of_base (by rw [hpc]; rfl))
  | @wakeupSlot chan i k hpc hi' hne =>
    exact (h.setKeep hi (j := ⟨i, hi'⟩) (by simp) (by simp) (by simp)).setPcAfter
      (by simp [Fin.ext_iff, hne]) hu fun hk => hk.of_base (by rw [hpc]; rfl)
  | callWakeup => exact h.setPc hu (hpk.of_base rfl)
  | extAcquire | extRelease | waitStart | waitCopyFail | waitNone | killRefused =>
    rw [Sys.setLock_setProc]; apply ParentOk.setLock; exact h.setPc hu (.of_none rfl rfl)
  | exitStart hpc =>
    rw [Sys.setLock_setProc]; apply ParentOk.setLock
    exact h.setPc hu (hpk.advance (a := 0) (b := 0) (by rw [hpc]; rfl) rfl rfl
      fun _ _ h2 => absurd h2 (by omega))
  | @allocFail i q e hpc hi' hl hpl hu' ha | @copyFail i q e hpc hi' hl hpl hu' ha =>
    have hne : (⟨i, hi'⟩ : Fin np) ≠ p := by rintro rfl; rw [hrun] at hu'; cases hu'
    have h1 := h.setPc hu (m := .user) (.of_none rfl rfl)
    apply ParentOk.setNextpid
    first
    | exact h1.setSame hi (by simp [hne, hu', (allocproc_error K ha).1])
        (by simp [hne, h.free _ hu', (allocproc_error K ha).2.1])
        fun hq => absurd (allocproc_error K ha).1 hq
    | exact h1.setSame hi (by simp [hne, hu']) (by simp [hne, h.free _ hu']) fun hq => absurd rfl hq
  | @allocOk i q e hpc hi' hl hpl hu' ha hok =>
    have hne : (⟨i, hi'⟩ : Fin np) ≠ p := by rintro rfl; rw [hrun] at hu'; cases hu'
    obtain ⟨hU, hf, -, hpar⟩ := allocproc_ok K ha
    have h1 := h.setPc hu (m := .forkParent ⟨i, hi'⟩ σ.nextpid) (.of_none rfl rfl)
    apply ParentOk.setNextpid
    refine h1.setProc hi (fun hr => absurd (h.root _ hr).2 (by simp [hu', Procstate.kind]))
      (.inl (by simp [forkCopy, hpar, hne])) (by simp [forkCopy, hU])
      (fun _ => h1.unlinked (by simp [hne, hu', Procstate.kind]))
      (by simp [forkCopy, hU, Procstate.kind]) fun _ => ?_
    simp only [forkCopy, hf]; exact .of_none rfl rfl
  | forkCall | allocBusy | allocNone | extSleep | waitCall | waitSkip | waitChild | waitSleep
  | killCall | killMiss | killDone | sigCall => exact h.setPc hu (.of_none rfl rfl)
  | @forkParent ch pid hpc =>
    obtain ⟨hU, hne, huniq⟩ := hw.child p ch ⟨hu, by simp [hpc, Pc.forkChild]⟩
    have hch : (σ.proc ch).state.kind ≠ 2 := by simp [hU, Procstate.kind]
    refine (h.setParent hi hk2 (Ne.symm hne) (by rw [hpc]; rfl)
      (fun hr => hch (h.root ch hr).2) (by simp [hU]) (fun r hr hl => huniq r ⟨hr,
        Pc.forkChild_of_forkLinked hl⟩) ((h.rooted p).imp fun _ hr => hr.avoid (j := ch)
        (fun k hk => by simp [hk]) (h.unlinked hch) (Ne.symm hne))).setPcAfter hne hu
      fun _ => ⟨fun _ hn => absurd hn nofun, fun ch' hc => ?_⟩
    obtain rfl : ch = ch' := Option.some.inj hc
    simp
  | @forkRunnable ch pid hpc =>
    obtain ⟨hU, hne, -⟩ := hw.child p ch ⟨hu, by simp [hpc, Pc.forkChild]⟩
    have hlink : (σ.proc ch).parent = some p := hpk.2 ch (by rw [hpc]; rfl)
    have hslot := (hw.cpu.slot ch).used hU
    have h1 : ParentOk (σ.setProc ch { σ.proc ch with state := .RUNNABLE }) :=
      h.setProc hi (fun hr => absurd (h.root ch hr).2 (by simp [hU, Procstate.kind]))
        (.inl rfl) (by simp) (by simp [Procstate.kind]) (fun _ hn => by simp [hlink] at hn)
        fun _ => by simp only [hslot]; exact .of_none rfl rfl
    exact h1.setPcAfter (m := .user) hne hu fun _ => .of_none rfl rfl
  | exitCall status hpc hi' =>
    refine h.setSame hi rfl rfl fun _ => ⟨fun n hn => ⟨hi', fun i hlt => ?_⟩, fun _ hc => absurd hc nofun⟩
    obtain rfl : 0 = n := Option.some.inj hn
    omega
  | @reparentHit status i hpc hi' hp =>
    obtain ⟨r, hr⟩ := Option.ne_none_iff_exists'.mp hi
    have hrj : r ≠ ⟨i, hi'⟩ := by rintro rfl; rw [(h.root _ hr).1] at hp; cases hp
    have hne : (⟨i, hi'⟩ : Fin np) ≠ p := by rintro rfl; exact h.no_self _ hp
    rw [hr]
    refine (h.setParent hi (h.root r hr).2 hrj (h.init_not_exiting hr)
      (fun e => hrj (Option.some.inj (hr.symm.trans e))) (fun hU => by simp [h.free _ hU] at hp)
      (fun r' hr' hl => ?_) ⟨r, .root (by simp [hrj, (h.root r hr).1])⟩).setPcAfter hne hu
      fun hk => hk.advance (a := i) (b := i + 1) (by rw [hpc]; rfl) rfl rfl fun i' h1 h2 => ?_
    · obtain rfl : p = r' := Option.some.inj (hp.symm.trans ((h.pcOk r' hr').2 _ hl))
      rw [hpc] at hl; cases hl
    · obtain rfl : i' = ⟨i, hi'⟩ := Fin.ext (show i'.val = i by omega)
      simp [Ne.symm hrj]; rintro rfl; exact absurd hr ((hpk.1 i (by rw [hpc]; rfl)).1)
  | @reparentMiss status i hpc hi' hp =>
    exact h.setPc hu (hpk.advance (a := i) (b := i + 1) (by rw [hpc]; rfl) rfl rfl fun i' h1 h2 => by
      obtain rfl : i' = ⟨i, hi'⟩ := Fin.ext (show i'.val = i by omega); exact hp)
  | @reparentDone status i hpc hi' =>
    exact h.setPc hu (hpk.advance (a := i) (b := np) (by rw [hpc]; rfl) rfl rfl
      fun i' h1 _ => absurd i'.isLt (by omega))
  | @exitZombie status hpc =>
    obtain ⟨hni, hgone⟩ := hpk.1 np (by rw [hpc]; rfl)
    rw [Sys.setLock_setProc]; apply ParentOk.switchOut; apply ParentOk.setLock
    exact h.setProc hi (fun hr => absurd hr hni) (.inl rfl) (by simp) (fun _ i => hgone i i.isLt)
      (fun _ hn => h.orphan p (by simp [hk2]) hn) fun _ => .of_none rfl rfl
  | @waitReap addr i hk hpc hi' hp hl hz =>
    have hne : (⟨i, hi'⟩ : Fin np) ≠ p := by rintro rfl; rw [hrun] at hz; cases hz
    rw [Sys.setLock_setProc, Sys.setLock_setProc]; apply ParentOk.setLock
    exact (h.setProc hi (fun hr => absurd (h.root _ hr).2 (by simp [hz, Procstate.kind]))
      (.inr ⟨rfl, hw.unclaimed (by simp [hz])⟩) (fun _ => rfl)
      (fun _ => h.unlinked (by simp [hz, Procstate.kind])) (by simp [Procstate.kind])
      fun hq => absurd rfl hq).setPcAfter (m := .user) hne hu fun _ => .of_none rfl rfl
  | killRange => exact h
  | @killHit pid s i hpc hi' =>
    have h1 := h.setKeep hi (j := ⟨i, hi'⟩) (q := { σ.proc ⟨i, hi'⟩ with
      pendingSignals := (σ.proc ⟨i, hi'⟩).pendingSignals ||| sigBit s }) rfl rfl rfl
    have hpc' : ((σ.setProc ⟨i, hi'⟩ { σ.proc ⟨i, hi'⟩ with
        pendingSignals := (σ.proc ⟨i, hi'⟩).pendingSignals ||| sigBit s }).proc p).state =
        (σ.proc p).state := by by_cases hj : p = ⟨i, hi'⟩ <;> simp [hj]
    exact h1.setPc (m := .user) (hpc' ▸ hu) (.of_none rfl rfl)
  | sigprocmask | sigretCall | fileCall => exact h.setKeep hi rfl rfl rfl
  | sigactionCall signum act actAddr =>
    obtain ⟨hd, e⟩ := sigaction_snd K (σ.proc p) signum act actAddr
    rw [e]; exact h.setKeep hi rfl rfl rfl
  | sigPriv hq =>
    obtain ⟨hst, -⟩ := sigStep_wf hq
    obtain ⟨hp, he, hl⟩ := sigStep_parent hq
    exact h.setSame hi (by rw [hst]) hp fun _ => .of_none he hl
  | sigKill hpc =>
    exact h.setSame hi (by simp [sigkillFunc, hrun]) rfl fun _ => hpk.of_base (by rw [hpc]; rfl)
  | sigTurnoff hpc => exact h.setSame hi rfl rfl fun _ => hpk.of_base (by rw [hpc]; rfl)
  | sigUser => exact h.setSame hi rfl rfl fun _ => .of_none (by rfl) (by rfl)
  | stopYield =>
    apply ParentOk.switchOut
    exact h.setSame hi (by simp [hrun, Procstate.kind]) rfl fun _ => .of_none rfl rfl

/-- `userinit` on the boot table: slot `i`, the first, becomes `initproc`. -/
theorem userinit (h : ParentOk σ) {i : Fin np} {q : Proc np} (h0 : σ.initproc = none)
    (hpar : q.parent = none) (hs : q.state = .RUNNABLE) (hpc : q.pc = .forkret) (n : Int) :
    ParentOk { σ.setProc i q with nextpid := n, initproc := some i } := by
  have hp : ∀ k, ((σ.setProc i q).proc k).parent = none := fun k => by
    by_cases hk : k = i <;> simp [hk, hpar, h.free k (h.boot h0 k)]
  have hst : ∀ k, k ≠ i → ((σ.setProc i q).proc k).state = .UNUSED := fun k hk => by
    simp [hk, h.boot h0 k]
  refine ⟨fun r hr => ?_, fun h0 => absurd h0 nofun, fun k _ => hp k,
    fun k j hk => absurd (hp k ▸ hk) nofun, fun k h2 _ => ?_, fun k hk => ?_,
    fun k => ⟨k, .root (hp k)⟩⟩
  · obtain rfl : i = r := Option.some.inj hr
    exact ⟨hp i, by simp [hs, Procstate.kind]⟩
  · by_cases hki : k = i
    · rw [hki]
    · dsimp only at h2; rw [hst k hki] at h2; exact absurd h2 (by decide)
  · by_cases hki : k = i
    · subst hki; simp only [Sys.setProc_proc, if_true, hpc]; exact .of_none rfl rfl
    · exact absurd (hst k hki) hk

/-- Every step of the machine keeps the links right. -/
theorem step (h : ParentOk σ) (hw : Wf σ) {o : Out np} {σ' : Sys np nc} (hs : Step K σ c o σ') :
    ParentOk σ' := by
  cases hs with
  | proc hc hs => exact h.pstep hw hc hs
  | schedSkip | schedWrap => exact h.setCpu _
  | intrCall | intrDone => exact h.congr rfl rfl
  | @intrSlot a i _ _ hi _ =>
    by_cases hs : (σ.proc ⟨i, hi⟩).state = .UNUSED
    · exact h.congr (by simp [wakeup1, hs]) rfl
    · exact (h.setKeep (h.initproc_ne hs) (wakeup1_kind _ _) (wakeup1_parent _ _)
        (wakeup1_pc _ _)).congr rfl rfl
  | schedRun i hc hi hl hs hr =>
    obtain ⟨hp, hb⟩ := resume_parent hr
    have hu : (σ.proc i).state ≠ .UNUSED := by simp [hs]
    apply ParentOk.setCpu
    refine h.setSame (h.initproc_ne hu) (by simp [hs, Procstate.kind]) hp fun _ => ?_
    rcases hb with hb | hb
    · exact (h.pcOk i hu).of_base hb
    · rw [hb]; exact .of_none rfl rfl
  | userinit i e cwd hc h0 hfirst hu hl hpl ha =>
    obtain ⟨-, hf, -, hpar⟩ := allocproc_ok K ha
    exact h.userinit h0 (by simp [userinitProc, hpar, h.free i hu]) rfl (by simp [userinitProc, hf]) _

end ParentOk

/-- The parent links are right in every reachable state. -/
theorem Reachable.parentOk {σ : Sys np nc} (h : Reachable K σ) : ParentOk σ := by
  induction h with
  | init => exact parentOk_procinit K
  | step hr hs ih => exact ih.step hr.wf hs

/-! ## The tree of processes -/

theorem Procstate.two_le_kind {s : Procstate} (h0 : s ≠ .UNUSED) (h1 : s ≠ .USED) : 2 ≤ s.kind := by
  cases s <;> simp_all [Procstate.kind]

/-- The path from a RUNNABLE, RUNNING, SLEEPING or ZOMBIE slot ends at `initproc`. -/
theorem ParentOk.root_of_path (h : ParentOk σ) {i r : Fin np} (hp : RootPath σ i r)
    (hi : 2 ≤ (σ.proc i).state.kind) : σ.initproc = some r := by
  induction hp with
  | root hn => exact h.orphan _ hi hn
  | parent hj _ ih => exact ih (h.alive _ _ hj).ge

/-- The parent links form a tree: `initproc` has no parent; a link only ever points
at a slot that is neither UNUSED nor a ZOMBIE; every other RUNNABLE, RUNNING,
SLEEPING or ZOMBIE slot has a parent; and the links from each such slot lead to
`initproc`. -/
def ParentTree (σ : Sys np nc) : Prop :=
  (∀ r, σ.initproc = some r → (σ.proc r).parent = none) ∧
  (∀ i j, (σ.proc i).parent = some j → (σ.proc j).state ≠ .UNUSED ∧ (σ.proc j).state ≠ .ZOMBIE) ∧
  (∀ i, σ.initproc ≠ some i → (σ.proc i).state ≠ .UNUSED → (σ.proc i).state ≠ .USED →
    ∃ j, (σ.proc i).parent = some j) ∧
  (∀ i, (σ.proc i).state ≠ .UNUSED → (σ.proc i).state ≠ .USED →
    ∃ r, σ.initproc = some r ∧ RootPath σ i r)

/-- Every zombie has a parent able to reap it, in every reachable state, whether
`wait_lock` is held or not. -/
theorem reachable_parent_tree {σ : Sys np nc} (hr : Reachable K σ) : ParentTree σ := by
  have h := hr.parentOk
  refine ⟨fun r hr => (h.root r hr).1, fun i j hj => ?_, fun i hi h0 h1 => ?_, fun i h0 h1 => ?_⟩
  · have := h.alive i j hj
    constructor <;> rintro he <;> simp [he, Procstate.kind] at this
  · cases hp : (σ.proc i).parent with
    | none => exact absurd (h.orphan i (Procstate.two_le_kind h0 h1) hp) hi
    | some j => exact ⟨j, rfl⟩
  · obtain ⟨r, hp⟩ := h.rooted i
    exact ⟨r, h.root_of_path hp (Procstate.two_le_kind h0 h1), hp⟩

theorem reachable_parent_tree_boot :
    ∃ σ σ' : Sys 2 1, Reachable Param.std σ ∧ (σ.proc 1).state = .ZOMBIE ∧
      (σ.proc 1).parent = some 0 ∧ ParentTree σ ∧ Reachable Param.std σ' ∧
      (σ'.proc 1).state = .UNUSED ∧ ParentTree σ' := by
  obtain ⟨σ, σ', _, hr, hs, hz, hp, -, -, -, hu, -⟩ := child_reaped_boot
  exact ⟨σ, σ', hr, hz, hp, reachable_parent_tree hr, hr.step hs, hu,
    reachable_parent_tree (hr.step hs)⟩

end RiscvProc
