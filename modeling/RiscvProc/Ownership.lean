import RiscvProc.Parent
import RiscvProc.Pass
import RiscvProc.Pid
import Mathlib.Algebra.BigOperators.Group.Finset
import Mathlib.Data.Multiset.OrderedMonoid

/-!
# What a slot owns

A slot holds a trap-frame page from `kalloc`, a page table from `uvmcreate` with
the trampoline and trap-frame mapped in it, references to open files and an inode
for its cwd. `allocproc`, `fork`, `exit`, `freeproc` and `userinit` take and
give these through the calls each step logs (`Out.calls`).

`OwnOk` is the per-slot invariant of every reachable state: an UNUSED slot is
cleared, a live one has both pages, and a slot past the start of `exit` holds no file.
Besides `fork`'s `filedup`s, a slot takes a file reference in the file layer's `open`
(from `filealloc`) and gives one back in `close`.
`Accounts` is the ledger of one record across calls, and `SlotAccounts` says a
step's calls are those of one slot; summed over the table, what the slots hold plus
what a run took is what they hold now plus what it gave back (`FreshRun.ledger`).

The page allocator and the file layer are not in the source. Their contract enters
only as `Fresh`: `kalloc` returns a page that is not allocated. Under it no page is
held twice (`ownership_invariant`). A `fork` that fails gives back all it took and
leaves every slot as it found it (`fork_failure_rolls_back`); that needs the tried
slot to be cleared, which holds in every reachable state.
-/

namespace RiscvProc

variable {np nc : Nat} (K : Param)

/-- A record's open files and cwd are all null. -/
def Proc.Closed (q : Proc np) : Prop := (∀ f ∈ q.ofile, f = 0) ∧ q.cwd = 0

/-- What a slot owns: an UNUSED slot nothing, with its size and pid cleared; any
other a trap-frame page and a page table; a thread past the start of `exit`, and a
ZOMBIE, no file and no cwd. The descriptor table keeps its `NOFILE` entries. -/
structure Proc.OwnOk (q : Proc np) : Prop where
  nofile : q.ofile.length = K.NOFILE
  unused : q.state = .UNUSED →
    q.trapframe = 0 ∧ q.pagetable = 0 ∧ q.sz = 0 ∧ q.pid = 0 ∧ q.Closed
  live : q.state ≠ .UNUSED → q.trapframe ≠ 0 ∧ q.pagetable ≠ 0
  exiting : q.pc.base.exitProgress ≠ none ∨ q.state = .ZOMBIE → q.Closed

/-- Every slot owns what its state says. -/
def OwnOk (σ : Sys np nc) : Prop := ∀ j, (σ.proc j).OwnOk K

variable {K} {q q' : Proc np}

theorem Proc.OwnOk.congr (h : q.OwnOk K) (hf : q'.ofile = q.ofile) (hcwd : q'.cwd = q.cwd)
    (ht : q'.trapframe = q.trapframe) (hp : q'.pagetable = q.pagetable) (hsz : q'.sz = q.sz)
    (hpid : q'.pid = q.pid) (hu : q'.state = .UNUSED ↔ q.state = .UNUSED)
    (hx : q'.pc.base.exitProgress ≠ none ∨ q'.state = .ZOMBIE →
      q.pc.base.exitProgress ≠ none ∨ q.state = .ZOMBIE) : q'.OwnOk K where
  nofile := hf ▸ h.nofile
  unused hs := by
    simpa only [Proc.Closed, hf, hcwd, ht, hp, hsz, hpid] using h.unused (hu.1 hs)
  live hs := ht ▸ hp ▸ h.live (mt hu.2 hs)
  exiting hx' := by simpa only [Proc.Closed, hf, hcwd] using h.exiting (hx hx')

theorem allocproc_ok_eq {pid : Int} {e : ForkEnv} (h : allocproc K q pid e = .ok q') :
    e.tfPage ≠ 0 ∧ (procPagetable e e.tfPage).1 ≠ 0 ∧ q' = { q with
      pid := pid, state := .USED, signalHandlers := fun _ => K.SIG_DFL, signalsMask := 0,
      pendingSignals := 0, stopped := 0, signalHandling := 0, trapframe := e.tfPage,
      pagetable := (procPagetable e e.tfPage).1, pc := .forkret } := by
  unfold allocproc at h; split_ifs at h with h1 h2; cases h; exact ⟨h1, h2, rfl⟩

/-- A failed `allocproc` leaves the slot UNUSED with nothing of its own, and its
files, cwd and point as they were. -/
theorem allocproc_error_fields {pid : Int} {e : ForkEnv} (h : allocproc K q pid e = .error q') :
    q'.state = .UNUSED ∧ q'.trapframe = 0 ∧ q'.pagetable = 0 ∧ q'.sz = 0 ∧ q'.pid = 0 ∧
      q'.ofile = q.ofile ∧ q'.cwd = q.cwd ∧ q'.pc = q.pc := by
  unfold allocproc at h; split_ifs at h <;> cases h <;> exact ⟨rfl, rfl, rfl, rfl, rfl, rfl, rfl, rfl⟩

theorem Proc.OwnOk.setPc (h : q.OwnOk K) {k : Pc np}
    (hx : k.base.exitProgress ≠ none → q.pc.base.exitProgress ≠ none) :
    ({ q with pc := k } : Proc np).OwnOk K :=
  h.congr rfl rfl rfl rfl rfl rfl Iff.rfl (Or.imp_left hx)

theorem Proc.OwnOk.setPc_of_none (h : q.OwnOk K) {k : Pc np} (hk : k.base.exitProgress = none) :
    ({ q with pc := k } : Proc np).OwnOk K :=
  h.setPc fun h' => absurd hk h'

theorem wakeup1_ownOk (h : q.OwnOk K) (ch : Chan np) : (wakeup1 q ch).OwnOk K := by
  unfold wakeup1
  split_ifs with hs
  · exact h.congr rfl rfl rfl rfl rfl rfl (by simp [hs.1]) (by simp [hs.1])
  · exact h

theorem freeproc_ownOk (h : q.OwnOk K) (hc : q.Closed) : (freeproc q).OwnOk K where
  nofile := h.nofile
  unused _ := ⟨rfl, rfl, rfl, rfl, hc⟩
  live hs := absurd rfl hs
  exiting _ := hc

section Alloc

variable {pid : Int} {e : ForkEnv} (h : q.OwnOk K) (hu : q.state = .UNUSED)
include h hu

/-- A failed `allocproc` leaves the slot owning nothing. -/
theorem allocproc_error_ownOk (ha : allocproc K q pid e = .error q') : q'.OwnOk K := by
  obtain ⟨hs, ht, hp, hsz, hpid, hf, hc, -⟩ := allocproc_error_fields ha
  have hcl : q'.Closed := by rw [Proc.Closed, hf, hc]; exact (h.unused hu).2.2.2.2
  exact ⟨hf ▸ h.nofile, fun _ => ⟨ht, hp, hsz, hpid, hcl⟩, fun h' => absurd hs h', fun _ => hcl⟩

/-- A successful `allocproc` gives the slot its two pages and no file. -/
theorem allocproc_ok_ownOk (ha : allocproc K q pid e = .ok q') : q'.OwnOk K ∧ q'.Closed := by
  obtain ⟨ht, hp, rfl⟩ := allocproc_ok_eq ha
  have hcl := (h.unused hu).2.2.2.2
  exact ⟨⟨h.nofile, (fun h' => nomatch h'), fun _ => ⟨ht, hp⟩, fun _ => hcl⟩, hcl⟩

end Alloc

/-- `exit` closes every file and the cwd of a live slot. -/
theorem Proc.OwnOk.exit (h : q.OwnOk K) (hs : q.state ≠ .UNUSED) (k : Pc np) :
    ({ q with ofile := q.ofile.map (fun _ => 0), cwd := 0, pc := k } : Proc np).OwnOk K where
  nofile := by simp [h.nofile]
  unused h' := absurd h' hs
  live _ := h.live hs
  exiting _ := ⟨by simp, rfl⟩

theorem forkCopy_ownOk {par : Proc np} (hp : par.OwnOk K) (hq : q.OwnOk K)
    (hs : q.state = .USED) (hpc : q.pc = .forkret) : (forkCopy par q).OwnOk K where
  nofile := by simp [forkCopy, dupFiles, hp.nofile, hq.nofile]
  unused h' := absurd (hs ▸ h') nofun
  live _ := hq.live (by rw [hs]; nofun)
  exiting h' := by simp [forkCopy, hs, hpc, Pc.base, Pc.exitProgress] at h'

variable {σ σ' : Sys np nc} {c : Fin nc} {p : Fin np} {o : Out np}

theorem pstep_ownOk (hw : Wf σ) (hc : (σ.cpus c).proc = some p) (hs : PStep K σ c p o σ')
    (h : OwnOk K σ) : OwnOk K σ' := by
  have hrun := hw.cpu.running hc
  intro j
  cases hs
  case wakeupSlot chan i k hpc hi _ _ =>
    simp only [Sys.setProc_proc]
    split_ifs
    exacts [(h p).setPc (by simp [hpc, Pc.base]), wakeup1_ownOk (h _) chan, h j]
  case allocFail i q e hpc hi _ _ hu ha =>
    simp only [Sys.setProc_proc]
    split_ifs with h1
    · subst h1; exact allocproc_error_ownOk (h _) hu ha
    · exact (h p).setPc_of_none rfl
    · exact h j
  case copyFail i q e hpc hi _ _ hu ha _ =>
    simp only [Sys.setProc_proc]
    split_ifs with h1
    · subst h1; exact freeproc_ownOk (allocproc_ok_ownOk (h _) hu ha).1 (allocproc_ok_ownOk (h _) hu ha).2
    · exact (h p).setPc_of_none rfl
    · exact h j
  case allocOk i q e hpc hi _ _ hu ha _ =>
    simp only [Sys.setProc_proc]
    split_ifs with h1
    · subst h1
      obtain ⟨hs, hq, -⟩ := allocproc_ok K ha
      exact forkCopy_ownOk (h p) (allocproc_ok_ownOk (h _) hu ha).1 hs hq
    · exact (h p).setPc_of_none rfl
    · exact h j
  case forkRunnable ch _ hpc _ =>
    have hch := (hw.child p ch ⟨by rw [hrun]; nofun, by rw [hpc]; rfl⟩).1
    simp only [Sys.setProc_proc]
    split_ifs with h1 h2
    · exact (h p).setPc_of_none rfl
    · subst h2; exact (h _).congr rfl rfl rfl rfl rfl rfl (by simp [hch]) (by simp [hch])
    · exact h j
  case exitCall hpc _ =>
    simp only [Sys.setProc_proc]
    split_ifs with h1
    · subst h1; exact (h j).exit (by rw [hrun]; nofun) _
    · exact h j
  case waitReap i _ hpc hi _ _ hz =>
    simp only [Sys.setProc_proc, Sys.setLock_proc]
    split_ifs with h1 h2
    · exact (h p).setPc_of_none rfl
    · subst h2; exact freeproc_ownOk (h _) ((h _).exiting (.inr hz))
    · exact h j
  case sigactionCall signum act actAddr _ =>
    obtain ⟨hd, e⟩ := sigaction_snd K (σ.proc p) signum act actAddr
    simp only [Sys.setProc_proc, e]
    split_ifs
    exacts [(h p).congr rfl rfl rfl rfl rfl rfl Iff.rfl id, h j]
  case sigPriv q hq =>
    simp only [Sys.setProc_proc]
    split_ifs with h1
    · subst h1; rw [sigStep_frame hq]
      exact (h _).congr rfl rfl rfl rfl rfl rfl Iff.rfl
        (Or.imp_left fun h' => absurd (sigStep_parent hq).2.1 h')
    · exact h j
  case fileCall r hpc hf =>
    simp only [Sys.setProc_proc]
    split_ifs with h1
    · subst h1
      have hu : (σ.proc j).state ≠ .UNUSED := by rw [hrun]; nofun
      exact ⟨hf.length.trans (h j).nofile, fun h' => absurd h' hu, fun _ => (h j).live hu,
        fun h' => by simp [hpc, hrun, Pc.base, Pc.exitProgress] at h'⟩
    · exact h j
  case killHit i _ hi _ _ _ =>
    have hk : ∀ x, ({ σ.proc ⟨i, hi⟩ with pendingSignals := x } : Proc np).OwnOk K :=
      fun _ => (h _).congr rfl rfl rfl rfl rfl rfl Iff.rfl id
    simp only [Sys.setPc_eq, Sys.setProc_proc]
    split_ifs
    exacts [(hk _).setPc_of_none rfl, (h p).setPc_of_none rfl, hk _, h j]
  all_goals try simp only [Sys.setProc_proc, Sys.setLock_proc, Sys.switchOut_proc, Sys.setPc_eq,
    Sys.setCpu_proc]
  all_goals (try split_ifs) <;> try first
    | exact h j
    | exact (h _).setPc_of_none rfl
    | (refine (h _).congr rfl rfl rfl rfl rfl rfl ?_ ?_ <;> first
        | exact Iff.rfl
        | exact id
        | simp [*, Pc.base, Pc.exitProgress, sigkillFunc, turnoffSigbit, usersignalhandler, sigret])

theorem step_ownOk (hw : Wf σ) (hs : Step K σ c o σ') (h : OwnOk K σ) : OwnOk K σ' := by
  cases hs with
  | proc hc h' => exact pstep_ownOk hw hc h' h
  | schedSkip | schedWrap | intrCall | intrDone => exact h
  | @intrSlot a i _ _ hi _ =>
    intro j
    show ((σ.setProc _ _).proc j).OwnOk K
    rcases eq_or_ne j ⟨i, hi⟩ with rfl | hj
    · simpa using wakeup1_ownOk (h _) (.obj a)
    · simpa [hj] using h j
  | schedRun i _ _ _ hs hr =>
    intro j
    simp only [Sys.setCpu_proc, Sys.setProc_proc]
    split_ifs with h1
    · subst h1
      unfold resume at hr
      split at hr <;> cases hr <;>
        exact (h _).congr rfl rfl rfl rfl rfl rfl (by simp [hs]) (by simp_all [Pc.base, Pc.exitProgress])
    · exact h j
  | userinit i e cwd _ _ _ hu _ _ ha =>
    intro j
    simp only [Sys.setProc_proc]
    split_ifs with h1
    · subst h1
      obtain ⟨hs, hpc, -⟩ := allocproc_ok K ha
      have hq := (allocproc_ok_ownOk (h _) hu ha).1
      exact ⟨hq.nofile, (fun h' => nomatch h'), fun _ => hq.live (by rw [hs]; nofun),
        fun h' => by simp [userinitProc, hpc, Pc.base, Pc.exitProgress] at h'⟩
    · exact h j

theorem Reachable.ownOk (hr : Reachable K σ) : OwnOk K σ := by
  induction hr with
  | init =>
    have hcl : (Proc.zero K : Proc np).Closed := ⟨by simp [Proc.zero], rfl⟩
    exact fun _ => ⟨by simp [procinit, Proc.zero], fun _ => ⟨rfl, rfl, rfl, rfl, hcl⟩,
      fun h => absurd rfl h, fun _ => hcl⟩
  | step hr hs ih => exact step_ownOk hr.wf hs ih

/-! ## Accounting -/

/-- What a record can hold a reference to: a trap-frame page, a page table, the
trampoline and trap-frame mappings in its page table, an open file, an inode. -/
inductive Res
  | page | pagetable | trampoline | tfMap | file | inode
  deriving DecidableEq, Repr

/-- A pointer as a reference: none when null. -/
def nonNull (x : Nat) : Multiset Nat := if x = 0 then 0 else {x}

/-- The references of kind `r` a record holds. -/
def Proc.owned (q : Proc np) : Res → Multiset Nat
  | .page => nonNull q.trapframe
  | .pagetable | .trampoline | .tfMap => nonNull q.pagetable
  | .file => ↑(q.ofile.filter (· ≠ 0))
  | .inode => nonNull q.cwd

/-- The references of kind `r` the whole table holds. -/
def Sys.owned (σ : Sys np nc) (r : Res) : Multiset Nat := ∑ j, (σ.proc j).owned r

/-- Modelled from the spec: the page allocator, the page-table code and the file
layer (kalloc.c, vm.c, file.c and fs.c are not under src/). `kalloc` and
`uvmcreate` hand out a page or a page table, a `mappages` that succeeds adds a
mapping to the page table, `filealloc` hands out a file with one reference,
`filedup`, `idup` and `namei` take one more reference to a file or an inode; `kfree`,
`uvmfree`, `uvmunmap`, `fileclose` and `iput` give one back. -/
def Call.takes : Call → Res → Multiset Nat
  | .kalloc x, .page | .uvmcreate x, .pagetable | .mapTrampoline x true, .trampoline
  | .mapTrapframe x _ true, .tfMap | .filealloc x, .file | .filedup x, .file | .idup x, .inode
  | .namei x, .inode => nonNull x
  | _, _ => 0

/-- Modelled from the spec: what a call gives back (see `Call.takes`). -/
def Call.gives : Call → Res → Multiset Nat
  | .kfree x, .page | .uvmfree x, .pagetable | .unmapTrampoline x, .trampoline
  | .unmapTrapframe x, .tfMap | .fileclose x, .file | .iput x, .inode => nonNull x
  | _, _ => 0

/-- The references of kind `r` a list of calls takes, and gives back. -/
def taken (L : List Call) (r : Res) : Multiset Nat := (L.map fun c => c.takes r).sum
def given (L : List Call) (r : Res) : Multiset Nat := (L.map fun c => c.gives r).sum

@[simp] theorem taken_nil (r : Res) : taken [] r = 0 := rfl
@[simp] theorem given_nil (r : Res) : given [] r = 0 := rfl
@[simp] theorem taken_cons (c : Call) (L : List Call) (r : Res) :
    taken (c :: L) r = c.takes r + taken L r := by simp [taken]
@[simp] theorem given_cons (c : Call) (L : List Call) (r : Res) :
    given (c :: L) r = c.gives r + given L r := by simp [given]
@[simp] theorem taken_append (L L' : List Call) (r : Res) :
    taken (L ++ L') r = taken L r + taken L' r := by simp [taken]
@[simp] theorem given_append (L L' : List Call) (r : Res) :
    given (L ++ L') r = given L r + given L' r := by simp [given]

@[simp] theorem nonNull_zero : nonNull 0 = 0 := rfl

/-- `q'` is `q` after the calls `L`: what `q` holds and `L` takes is what `q'` holds
and `L` gives back. -/
def Accounts (q : Proc np) (L : List Call) (q' : Proc np) : Prop :=
  ∀ r, q.owned r + taken L r = q'.owned r + given L r

theorem Accounts.trans {q'' : Proc np} {L L' : List Call} (h₁ : Accounts q L q')
    (h₂ : Accounts q' L' q'') : Accounts q (L ++ L') q'' := fun r => by
  rw [taken_append, given_append, ← add_assoc, h₁ r, add_right_comm, h₂ r, add_assoc,
    add_comm (given L' r)]

/-- A record with its files closed holds no file and no inode. -/
theorem Proc.Closed.ofile_filter (h : q.Closed) : q.ofile.filter (fun f => !decide (f = 0)) = [] :=
  List.filter_eq_nil_iff.2 fun f hf => by simp [h.1 f hf]

theorem Proc.Closed.owned (h : q.Closed) : q.owned .file = 0 ∧ q.owned .inode = 0 :=
  ⟨by simp [Proc.owned, h.ofile_filter], by simp [Proc.owned, h.2]⟩

theorem Proc.OwnOk.owned_unused (h : q.OwnOk K) (hu : q.state = .UNUSED) (r : Res) :
    q.owned r = 0 := by
  obtain ⟨ht, hp, -, -, hc⟩ := h.unused hu
  cases r <;> first | exact hc.owned.1 | exact hc.owned.2 | simp [Proc.owned, ht, hp]

/-- `freeproc` gives back the trap-frame page, the page table and its two mappings. -/
theorem accounts_freeproc (q : Proc np) : Accounts q (freeprocCalls q) (freeproc q) := by
  intro r
  unfold freeprocCalls procFreepagetable
  by_cases ht : q.trapframe = 0 <;> by_cases hp : q.pagetable = 0 <;>
    cases r <;> simp [Proc.owned, freeproc, Call.takes, Call.gives, nonNull, ht, hp]

/-- The references a list of pointers holds: its non-null entries. -/
theorem sum_map_nonNull (fs : List Nat) : (fs.map nonNull).sum = ↑(fs.filter (· ≠ 0)) := by
  induction fs with
  | nil => rfl
  | cons f fs ih => by_cases hf : f = 0 <;> simp [nonNull, hf, ih, List.filter_cons]

/-- A failed `proc_pagetable` undoes what it did. -/
theorem procPagetable_balanced {e : ForkEnv} {pa : Nat} (h : (procPagetable e pa).1 = 0)
    (r : Res) : taken (procPagetable e pa).2 r = given (procPagetable e pa).2 r := by
  simp only [procPagetable] at h ⊢
  split_ifs at h ⊢ <;> cases r <;> simp_all [Call.takes, Call.gives]

theorem procPagetable_ok {e : ForkEnv} {pa : Nat} (h : (procPagetable e pa).1 ≠ 0) :
    procPagetable e pa = (e.pagetable,
      [.uvmcreate e.pagetable, .mapTrampoline e.pagetable true, .mapTrapframe e.pagetable pa true]) := by
  simp only [procPagetable] at h ⊢
  split_ifs at h ⊢ <;> simp_all

/-- Over a child table of nulls, `fork`'s copy is the parent's table. -/
theorem dupFiles_of_null {parent child : List Nat} (hc : ∀ g ∈ child, g = 0)
    (hl : parent.length = child.length) : dupFiles parent child = parent := by
  induction parent generalizing child with
  | nil => rfl
  | cons f fs ih =>
    cases child with
    | nil => cases hl
    | cons g gs =>
      simp only [dupFiles, List.zipWith_cons_cons] at ih ⊢
      rw [ih (fun x hx => hc x (List.mem_cons_of_mem g hx)) (Nat.succ.inj hl),
        hc g (List.mem_cons_self g gs)]
      by_cases hf : f = 0 <;> simp [hf]

section Alloc

variable {pid : Int} {e : ForkEnv} (h : q.OwnOk K) (hu : q.state = .UNUSED)
include h hu

/-- A failed `allocproc` gives back everything it took. -/
theorem accounts_allocproc_error (ha : allocproc K q pid e = .error q') :
    Accounts q (allocprocCalls q e) q' := by
  have hp := (h.unused hu).2.1
  intro r
  rw [h.owned_unused hu, (allocproc_error_ownOk h hu ha).owned_unused (allocproc_error_fields ha).1]
  unfold allocproc at ha
  unfold allocprocCalls
  split_ifs at ha ⊢ with h1 h2
  · cases r <;> simp [freeprocCalls, Call.takes, Call.gives, nonNull, hp, h1]
  · cases r <;> simp [freeprocCalls, Call.takes, Call.gives, nonNull, h1, procPagetable_balanced h2,
      ← Multiset.singleton_add, add_comm]

/-- A successful `allocproc` takes the trap-frame page, the page table and its two
mappings, and the slot holds them. -/
theorem accounts_allocproc_ok (ha : allocproc K q pid e = .ok q') :
    Accounts q (allocprocCalls q e) q' := by
  obtain ⟨ht, hpt, rfl⟩ := allocproc_ok_eq ha
  have hc := (h.unused hu).2.2.2.2
  intro r
  rw [h.owned_unused hu, allocprocCalls, if_neg ht, if_neg hpt, procPagetable_ok hpt]
  cases r <;> simp [Proc.owned, Call.takes, Call.gives, nonNull, ht, hpt, hc.ofile_filter, hc.2]

end Alloc

/-- `fork` takes a reference to each open file of the parent and to its cwd, and the
child, whose own table was null, holds exactly those. -/
theorem accounts_forkCopy {par : Proc np} (hp : par.OwnOk K) (hq : q.OwnOk K) (hc : q.Closed) :
    Accounts q (forkCalls par) (forkCopy par q) := by
  have hd : dupFiles par.ofile q.ofile = par.ofile :=
    dupFiles_of_null hc.1 (hp.nofile.trans hq.nofile.symm)
  intro r
  cases r <;> simp [forkCalls, forkCopy, Proc.owned, taken, given, Function.comp_def, hd, hc.2,
    hc.ofile_filter, Call.takes, Call.gives, sum_map_nonNull, List.filter_filter, nsmul_zero]

/-- `exit` gives back every open file and the cwd. -/
theorem accounts_exit (q : Proc np) (k : Pc np) :
    Accounts q (exitCalls q) { q with ofile := q.ofile.map (fun _ => 0), cwd := 0, pc := k } := by
  intro r
  cases r <;> simp [exitCalls, Proc.owned, taken, given, Call.takes, Call.gives,
    sum_map_nonNull, List.filter_filter, Function.comp_def, nsmul_zero]

theorem accounts_userinit (hc : q.Closed) (cwd : Nat) :
    Accounts q [.namei cwd] (userinitProc K q cwd) := by
  intro r
  cases r <;> simp [userinitProc, Proc.owned, Call.takes, Call.gives, hc.2, nonNull]

/-- Writing a descriptor changes the references a table holds by the old and the new
entry. -/
theorem coe_filter_set {l : List Nat} {fd g : Nat} (h : l[fd]? = some g) (f : Nat) :
    (↑((l.set fd f).filter (· ≠ 0)) : Multiset Nat) + nonNull g =
      ↑(l.filter (· ≠ 0)) + nonNull f := by
  induction l generalizing fd with
  | nil => simp at h
  | cons x xs ih =>
    cases fd with
    | zero =>
      obtain rfl : x = g := by simpa using h
      by_cases hg : x = 0 <;> by_cases hf : f = 0 <;>
        simp [List.filter_cons, nonNull, hg, hf, ← Multiset.cons_coe, add_comm, Multiset.cons_swap]
    | succ fd =>
      have := ih (by simpa using h)
      simp only [ne_eq, decide_not] at this
      by_cases hx : x = 0 <;>
        simp [List.filter_cons, hx, ← Multiset.cons_coe, Multiset.cons_add, this]

/-- `open` takes a fresh reference from `filealloc` into the first null descriptor, or
gives it back at once when there is none; `close` gives back the descriptor's
reference. -/
theorem accounts_fileCall {r : FdResult} (h : FileCall q.ofile r) :
    Accounts q r.calls { q with ofile := r.ofile } := by
  intro res
  cases h with
  | openFile f =>
    unfold sysOpen
    split_ifs with hf
    · cases res <;> simp [Proc.owned, Call.takes, Call.gives, hf]
    · split
      · rename_i fd hfd
        have key := coe_filter_set (fdalloc_some hfd) f
        cases res <;> simp_all [Proc.owned, Call.takes, Call.gives]
      · cases res <;> simp [Proc.owned, Call.takes, Call.gives]
  | close fd =>
    unfold sysClose
    split
    · rename_i g hg
      split_ifs with h0
      · cases res <;> simp [Proc.owned, Call.takes, Call.gives]
      · have key := coe_filter_set hg 0
        cases res <;> simp_all [Proc.owned, Call.takes, Call.gives]
    · cases res <;> simp [Proc.owned, Call.takes, Call.gives]

/-! ## The ledger of a step -/

theorem Accounts.of_eq (htf : q'.trapframe = q.trapframe) (hpt : q'.pagetable = q.pagetable)
    (hf : q'.ofile = q.ofile) (hcwd : q'.cwd = q.cwd) : Accounts q [] q' := by
  intro r
  cases r <;> simp [Proc.owned, htf, hpt, hf, hcwd]

theorem accounts_wakeup1 (q : Proc np) (ch : Chan np) : Accounts q [] (wakeup1 q ch) := by
  unfold wakeup1
  split_ifs <;> exact Accounts.of_eq rfl rfl rfl rfl

/-- The calls of a step are made for one slot `i` and every other slot keeps what it
holds; a step without calls may change no slot's holdings at all. -/
def SlotAccounts (σ σ' : Sys np nc) (L : List Call) : Prop :=
  (L = [] ∧ ∀ j, Accounts (σ.proc j) [] (σ'.proc j)) ∨
    ∃ i, ∀ j, Accounts (σ.proc j) (if j = i then L else []) (σ'.proc j)

theorem SlotAccounts.of_frame {σ σ' : Sys np nc} (h : ∀ j, Accounts (σ.proc j) [] (σ'.proc j)) :
    SlotAccounts σ σ' [] :=
  .inl ⟨rfl, h⟩

/-- Summed over the table: what the slots hold plus what the step takes is what they hold
afterwards plus what it gives back. -/
theorem SlotAccounts.ledger {σ σ' : Sys np nc} {L : List Call} (h : SlotAccounts σ σ' L)
    (r : Res) : σ.owned r + taken L r = σ'.owned r + given L r := by
  rcases h with ⟨rfl, h⟩ | ⟨i, h⟩
  · have hsum := Finset.sum_congr rfl fun j (_ : j ∈ Finset.univ) => h j r
    simpa only [Finset.sum_add_distrib, taken_nil, given_nil, Finset.sum_const_zero] using hsum
  · have hsum := Finset.sum_congr rfl fun j (_ : j ∈ Finset.univ) => h j r
    simpa only [Finset.sum_add_distrib, apply_ite (taken · r), apply_ite (given · r), taken_nil,
      given_nil, Finset.sum_ite_eq', Finset.mem_univ, if_true] using hsum

/-- A slot UNUSED before the step holds afterwards only what the step took for it. -/
theorem SlotAccounts.owned_le_of_unused {σ σ' : Sys np nc} {L : List Call} (hs : SlotAccounts σ σ' L)
    (hj : ∀ r, (σ.proc j).owned r = 0) (r : Res) : (σ'.proc j).owned r ≤ taken L r := by
  rcases hs with ⟨rfl, h⟩ | ⟨i, h⟩
  · simpa [hj] using (h j r).symm.le
  · have := h j r
    rw [hj, zero_add] at this
    split_ifs at this
    · rw [this]; exact Multiset.le_add_right _ _
    · simp only [taken_nil, given_nil, add_zero] at this
      rw [← this]; exact Multiset.zero_le _

theorem pstep_slotAccounts (hw : Wf σ) (hc : (σ.cpus c).proc = some p) (hs : PStep K σ c p o σ')
    (h : OwnOk K σ) : SlotAccounts σ σ' o.calls := by
  have hrun := hw.cpu.running hc
  cases hs
  case allocFail i q e hpc hi _ _ hu ha =>
    refine .inr ⟨⟨i, hi⟩, fun j => ?_⟩
    simp only [Sys.setProc_proc]
    split_ifs with h1 <;> subst_vars
    · exact accounts_allocproc_error (h _) hu ha
    all_goals exact Accounts.of_eq rfl rfl rfl rfl
  case copyFail i q e hpc hi _ _ hu ha _ =>
    refine .inr ⟨⟨i, hi⟩, fun j => ?_⟩
    simp only [Sys.setProc_proc]
    split_ifs with h1 <;> subst_vars
    · exact (accounts_allocproc_ok (h _) hu ha).trans (accounts_freeproc q)
    all_goals exact Accounts.of_eq rfl rfl rfl rfl
  case allocOk i q e hpc hi _ _ hu ha _ =>
    refine .inr ⟨⟨i, hi⟩, fun j => ?_⟩
    simp only [Sys.setProc_proc]
    split_ifs with h1 <;> subst_vars
    · have hq := allocproc_ok_ownOk (h _) hu ha
      exact (accounts_allocproc_ok (h _) hu ha).trans (accounts_forkCopy (h p) hq.1 hq.2)
    all_goals exact Accounts.of_eq rfl rfl rfl rfl
  case exitCall hpc _ =>
    refine .inr ⟨p, fun j => ?_⟩
    simp only [Sys.setProc_proc]
    split_ifs with h1 <;> subst_vars
    · exact accounts_exit _ _
    · exact Accounts.of_eq rfl rfl rfl rfl
  case waitReap i _ hpc hi _ _ hz =>
    refine .inr ⟨⟨i, hi⟩, fun j => ?_⟩
    simp only [Sys.setProc_proc, Sys.setLock_proc]
    split_ifs with h1 h2 <;> subst_vars
    · exact absurd (hrun.symm.trans hz) nofun
    · exact accounts_freeproc _
    all_goals exact Accounts.of_eq rfl rfl rfl rfl
  case sigactionCall signum act actAddr _ =>
    obtain ⟨_, e⟩ := sigaction_snd K (σ.proc p) signum act actAddr
    refine SlotAccounts.of_frame fun j => ?_
    simp only [Sys.setProc_proc, e]
    split_ifs <;> subst_vars <;> exact Accounts.of_eq rfl rfl rfl rfl
  case sigPriv q hq =>
    refine SlotAccounts.of_frame fun j => ?_
    simp only [Sys.setProc_proc]
    split_ifs <;> subst_vars
    · rw [sigStep_frame hq]; exact Accounts.of_eq rfl rfl rfl rfl
    · exact Accounts.of_eq rfl rfl rfl rfl
  case fileCall r hpc hf =>
    refine .inr ⟨p, fun j => ?_⟩
    simp only [Sys.setProc_proc]
    split_ifs with h1 <;> subst_vars
    · exact accounts_fileCall hf
    · exact Accounts.of_eq rfl rfl rfl rfl
  all_goals refine SlotAccounts.of_frame fun j => ?_
  all_goals try simp only [Sys.setProc_proc, Sys.setLock_proc, Sys.switchOut_proc, Sys.setPc_eq,
    Sys.setCpu_proc]
  all_goals (try split_ifs) <;> (try subst_vars) <;> first
    | exact Accounts.of_eq rfl rfl rfl rfl
    | exact accounts_wakeup1 _ _

theorem step_slotAccounts (hr : Reachable K σ) (hs : Step K σ c o σ') : SlotAccounts σ σ' o.calls := by
  cases hs with
  | proc hc h' => exact pstep_slotAccounts hr.wf hc h' hr.ownOk
  | schedSkip | schedWrap | intrCall | intrDone =>
    exact SlotAccounts.of_frame fun j => Accounts.of_eq rfl rfl rfl rfl
  | @intrSlot a i _ _ hi _ =>
    refine SlotAccounts.of_frame fun j => ?_
    show Accounts _ [] ((σ.setProc _ _).proc j)
    rcases eq_or_ne j ⟨i, hi⟩ with rfl | hj
    · simpa using accounts_wakeup1 _ _
    · simpa [hj] using Accounts.of_eq (q := σ.proc j) rfl rfl rfl rfl
  | schedRun i _ _ _ _ hr' =>
    refine SlotAccounts.of_frame fun j => ?_
    simp only [Sys.setCpu_proc, Sys.setProc_proc]
    split_ifs <;> subst_vars
    · unfold resume at hr'
      split at hr' <;> cases hr' <;> exact Accounts.of_eq rfl rfl rfl rfl
    · exact Accounts.of_eq rfl rfl rfl rfl
  | userinit i e cwd _ _ _ hu _ _ ha =>
    refine .inr ⟨i, fun j => ?_⟩
    simp only [Sys.setProc_proc]
    split_ifs <;> subst_vars
    · have h := hr.ownOk
      exact (accounts_allocproc_ok (h _) hu ha).trans
        (accounts_userinit (allocproc_ok_ownOk (h _) hu ha).2 cwd)
    · exact Accounts.of_eq rfl rfl rfl rfl

/-! ## Runs with a fresh allocator -/

/-- The pages the slots hold: trap-frame pages and page tables, both from `kalloc`. -/
def Sys.pages (σ : Sys np nc) : Multiset Nat := σ.owned .page + σ.owned .pagetable

/-- The pages a list of calls takes from `kalloc`, directly or through `uvmcreate`. -/
def takenPages (L : List Call) : Multiset Nat := taken L .page + taken L .pagetable

/-- Modelled from the spec: the physical page allocator hands out a page that is not
allocated, so the pages one step takes are distinct and none of them is held by a slot. -/
def Fresh (σ : Sys np nc) (o : Out np) : Prop := (σ.pages + takenPages o.calls).Nodup

variable (K) in
/-- A run from `procinit`, with the calls it made, in which the allocator keeps its
contract at every step. -/
inductive FreshRun : Sys np nc → List Call → Prop
  | init : FreshRun (procinit K) []
  | step {σ c o σ' L} : FreshRun σ L → Step K σ c o σ' → Fresh σ o → FreshRun σ' (L ++ o.calls)

variable {L : List Call}

theorem FreshRun.reachable (h : FreshRun K σ L) : Reachable K σ := by
  induction h with
  | init => exact .init
  | step _ hs _ ih => exact ih.step hs

theorem procinit_owned (r : Res) : (procinit K : Sys np nc).owned r = 0 :=
  Finset.sum_eq_zero fun j _ => (Reachable.init.ownOk j).owned_unused rfl r

/-- Over a whole run, every reference taken is held by a slot or has been given back
once. -/
theorem FreshRun.ledger (h : FreshRun K σ L) (r : Res) : taken L r = σ.owned r + given L r := by
  induction h with
  | init => simp [procinit_owned]
  | @step σ c o σ' L hf hs _ ih =>
    calc taken (L ++ o.calls) r = σ.owned r + taken o.calls r + given L r := by
          rw [taken_append, ih, add_right_comm]
      _ = σ'.owned r + given (L ++ o.calls) r := by
          rw [(step_slotAccounts hf.reachable hs).ledger r, given_append, add_right_comm, add_assoc]

theorem FreshRun.pages_nodup (h : FreshRun K σ L) : σ.pages.Nodup := by
  induction h with
  | init => simp [Sys.pages, procinit_owned]
  | @step σ c o σ' L hf hs hfr _ =>
    have hl := (step_slotAccounts hf.reachable hs).ledger
    have he : σ'.pages + (given o.calls .page + given o.calls .pagetable) =
        σ.pages + takenPages o.calls := by
      rw [Sys.pages, takenPages, add_add_add_comm, ← hl, ← hl, add_add_add_comm, Sys.pages]
    exact Multiset.nodup_of_le (he ▸ Multiset.le_add_right _ _) hfr

/-- A step that takes no page keeps the allocator's contract. -/
theorem FreshRun.fresh (h : FreshRun K σ L) {o : Out np} (ho : takenPages o.calls = 0) :
    Fresh σ o := by
  rw [Fresh, ho, add_zero]; exact h.pages_nodup

theorem nodup_pair_of_nodup_sum {f : Fin np → Multiset Nat} (h : (∑ j, f j).Nodup) {j k : Fin np}
    (hjk : j ≠ k) : (f j + f k).Nodup := by
  rw [Finset.sum_eq_add_sum_diff_singleton (Finset.mem_univ j),
    Finset.sum_eq_add_sum_diff_singleton (show k ∈ Finset.univ \ {j} by simp [Ne.symm hjk])] at h
  exact Multiset.nodup_of_le (add_le_add_left (Multiset.le_add_right _ _) _) h

theorem ne_of_nodup_nonNull {a b : Nat} (ha : a ≠ 0) (h : (nonNull a + nonNull b).Nodup) : a ≠ b := by
  rintro rfl
  simp [nonNull, ha] at h

theorem mem_owned_page (hj : (σ.proc j).trapframe ≠ 0) : (σ.proc j).trapframe ∈ σ.owned .page :=
  (Finset.mem_sum _ _).2 ⟨j, Finset.mem_univ j, by simp [Proc.owned, nonNull, hj]⟩

theorem mem_owned_pagetable (hj : (σ.proc j).pagetable ≠ 0) :
    (σ.proc j).pagetable ∈ σ.owned .pagetable :=
  (Finset.mem_sum _ _).2 ⟨j, Finset.mem_univ j, by simp [Proc.owned, nonNull, hj]⟩

/-- No page is held twice: two slots never share a trap-frame page or a page table, and no
trap-frame page is anyone's page table. -/
theorem Sys.pages_distinct (h : σ.pages.Nodup) {j k : Fin np} (hj : (σ.proc j).trapframe ≠ 0)
    (hpj : (σ.proc j).pagetable ≠ 0) :
    (σ.proc j).trapframe ≠ (σ.proc k).pagetable ∧
      (j ≠ k → (σ.proc j).trapframe ≠ (σ.proc k).trapframe ∧
        (σ.proc j).pagetable ≠ (σ.proc k).pagetable) := by
  obtain ⟨h1, h2, hd⟩ := Multiset.nodup_add.1 h
  refine ⟨fun he => Multiset.disjoint_left.1 hd (mem_owned_page hj) ?_, fun hjk =>
    ⟨ne_of_nodup_nonNull hj (nodup_pair_of_nodup_sum h1 hjk),
      ne_of_nodup_nonNull hpj (nodup_pair_of_nodup_sum h2 hjk)⟩⟩
  rw [he]
  exact mem_owned_pagetable (he ▸ hj)

/-! ## File references are released by `exit` -/

section Release

variable {r : Res} (hr : r = .file ∨ r = .inode)
include hr

theorem given_freeprocCalls (q : Proc np) : given (freeprocCalls q) r = 0 := by
  unfold freeprocCalls procFreepagetable
  rcases hr with rfl | rfl <;> split_ifs <;> simp [Call.gives]

theorem given_allocprocCalls (q : Proc np) (e : ForkEnv) : given (allocprocCalls q e) r = 0 := by
  have hp : given (procPagetable e e.tfPage).2 r = 0 := by
    simp only [procPagetable]
    rcases hr with rfl | rfl <;> split_ifs <;> simp [Call.gives]
  rw [allocprocCalls, given_cons]
  split_ifs <;> simp [given_freeprocCalls hr, hp] <;> rcases hr with rfl | rfl <;> rfl

theorem given_forkCalls (par : Proc np) : given (forkCalls par) r = 0 := by
  rcases hr with rfl | rfl <;> simp [forkCalls, given, Function.comp_def, Call.gives, nsmul_zero]

/-- Only `exit`, and the file layer's `close` or an `open` that finds no null
descriptor, give back a file or cwd reference. -/
theorem step_gives_refs (hs : Step K σ c o σ') (hg : given o.calls r ≠ 0) :
    (∃ p, o.calls = exitCalls (σ.proc p)) ∨
      ∃ p res, FileCall (σ.proc p).ofile res ∧ o.calls = res.calls := by
  cases hs with
  | proc _ h' =>
    cases h' <;> first
      | exact absurd (given_nil r) hg
      | exact .inl ⟨_, rfl⟩
      | exact .inr ⟨_, _, ‹FileCall _ _›, rfl⟩
      | exact absurd (by simp [given_allocprocCalls hr, given_freeprocCalls hr, given_forkCalls hr]) hg
  | userinit =>
    exact absurd (by rcases hr with rfl | rfl <;> simp [given_allocprocCalls, Call.gives]) hg
  | _ => exact absurd (given_nil r) hg

end Release

/-! ## The ownership invariant -/

variable (K) in
/-- What the slots own after a run that made the calls `L`: an UNUSED slot is cleared; a
live one holds a trap-frame page and a page table no other slot holds; a ZOMBIE holds no
file and no cwd; every reference taken is held or was given back once; a slot that
starts UNUSED holds after a step only what that step took; and only `exit`, `close`
and an `open` with no null descriptor give back file and cwd references. -/
structure Ownership (σ : Sys np nc) (L : List Call) : Prop where
  unused : ∀ j, (σ.proc j).state = .UNUSED →
    (σ.proc j).trapframe = 0 ∧ (σ.proc j).pagetable = 0 ∧ (σ.proc j).sz = 0 ∧
      (σ.proc j).pid = 0 ∧ (σ.proc j).parent = none ∧ (σ.proc j).Closed
  live : ∀ j, (σ.proc j).state ≠ .UNUSED → (σ.proc j).trapframe ≠ 0 ∧ (σ.proc j).pagetable ≠ 0
  distinct : ∀ j k, (σ.proc j).state ≠ .UNUSED →
    (σ.proc j).trapframe ≠ (σ.proc k).pagetable ∧
      (j ≠ k → (σ.proc j).trapframe ≠ (σ.proc k).trapframe ∧
        (σ.proc j).pagetable ≠ (σ.proc k).pagetable)
  zombie : ∀ j, (σ.proc j).state = .ZOMBIE → (σ.proc j).Closed
  ledger : ∀ r, taken L r = σ.owned r + given L r
  fresh : ∀ c o σ', Step K σ c o σ' → ∀ j, (σ.proc j).state = .UNUSED →
    ∀ r, (σ'.proc j).owned r ≤ taken o.calls r
  release : ∀ c o σ', Step K σ c o σ' → ∀ r, (r = .file ∨ r = .inode) →
    given o.calls r ≠ 0 → (∃ p, o.calls = exitCalls (σ.proc p)) ∨
      ∃ p res, FileCall (σ.proc p).ofile res ∧ o.calls = res.calls

theorem ownership_invariant (h : FreshRun K σ L) : Ownership K σ L where
  unused j hu :=
    let ⟨ht, hp, hsz, hpid, hc⟩ := (h.reachable.ownOk j).unused hu
    ⟨ht, hp, hsz, hpid, h.reachable.parentOk.free j hu, hc⟩
  live j := (h.reachable.ownOk j).live
  distinct j _ hj :=
    let ⟨ht, hp⟩ := (h.reachable.ownOk j).live hj
    Sys.pages_distinct h.pages_nodup ht hp
  zombie j hz := (h.reachable.ownOk j).exiting (.inr hz)
  ledger := h.ledger
  fresh _ _ _ hs j hu :=
    (step_slotAccounts h.reachable hs).owned_le_of_unused ((h.reachable.ownOk j).owned_unused hu)
  release _ _ _ hs _ hr := step_gives_refs hr hs

/-- The boot machine after initcode has opened file 7 into its descriptor 0. -/
theorem freshRun_open : ∃ (σ : Sys 2 1) (L : List Call), FreshRun Param.std σ L ∧
    .filealloc 7 ∈ L ∧ (σ.cpus 0).proc = some 0 ∧ (σ.proc 0).pc = .user ∧
    (σ.proc 0).ofile = 7 :: List.replicate 15 0 := by
  have h0 : FreshRun Param.std (procinit Param.std : Sys 2 1) [] := .init
  have h1 := h0.step (Step.userinit (c := 0) 0 ⟨1, 2, true, true, true⟩ 3 rfl rfl
    (fun j hj => absurd hj (Fin.not_lt_zero j)) rfl rfl rfl rfl) (by
      simp [Fresh, Sys.pages, procinit_owned, takenPages, allocprocCalls, procPagetable,
        Call.takes, nonNull])
  have h2 := h1.step (Step.schedRun (c := 0) 0 rfl rfl rfl rfl rfl) (h1.fresh rfl)
  have h3 := h2.step (Step.proc (c := 0) (p := 0) rfl (PStep.fileCall rfl (.openFile 7)))
    (h2.fresh (by simp [takenPages, sysOpen, fdalloc, Call.takes]))
  exact ⟨_, _, h3, by simp [sysOpen, fdalloc], rfl, rfl, rfl⟩

theorem ownership_after_open :
    ∃ (σ : Sys 2 1) (L : List Call), FreshRun Param.std σ L ∧ .filealloc 7 ∈ L ∧
      (σ.proc 0).ofile.head? = some 7 ∧ Ownership Param.std σ L := by
  obtain ⟨σ, L, h, hL, -, -, hf⟩ := freshRun_open
  exact ⟨σ, L, h, hL, by rw [hf]; rfl, ownership_invariant h⟩

/-- initcode opens file 7, which takes a fresh reference from `filealloc` into its
descriptor 0, and closes it: the reference, which no `filedup`, `idup` or `namei`
took, is given back by `close` and not by `exit`. -/
theorem file_released_by_close :
    ∃ (σ σ' : Sys 2 1) (o : Out 2) (L : List Call), FreshRun Param.std σ L ∧
      Step Param.std σ 0 o σ' ∧ .filealloc 7 ∈ L ∧ (σ.proc 0).ofile.head? = some 7 ∧
      o.calls = [.fileclose 7] ∧ given o.calls .file = {7} ∧
      (∀ p, o.calls ≠ exitCalls (σ.proc p)) ∧ (σ'.proc 0).ofile.head? = some 0 := by
  obtain ⟨σ, L, h, hL, hc, hpc, hf⟩ := freshRun_open
  have hs := Step.proc (K := Param.std) hc (PStep.fileCall hpc (.close 0))
  have ho : (sysClose (σ.proc 0).ofile 0).calls = [.fileclose 7] := by rw [hf]; rfl
  refine ⟨σ, _, _, L, h, hs, hL, by rw [hf]; rfl, ho, by rw [ho]; rfl, fun p he => ?_,
    by simp [hf, sysClose]⟩
  have := congrArg List.getLast? he
  simp [ho, exitCalls] at this

/-! ## A failed `fork` rolls back -/

/-- The fields of a slot that a failed `fork` must leave as they were. -/
def Proc.allocFields (q : Proc np) : Procstate × Int × Option (Fin np) × Nat × Nat × BitVec 64 :=
  (q.state, q.pid, q.parent, q.trapframe, q.pagetable, q.sz)

/-- Two cleared UNUSED records agree on those fields. -/
theorem Proc.OwnOk.allocFields_eq (h : q.OwnOk K) (h' : q'.OwnOk K) (hu : q.state = .UNUSED)
    (hu' : q'.state = .UNUSED) (hp : q.parent = none) (hp' : q'.parent = none) :
    q'.allocFields = q.allocFields := by
  obtain ⟨ht, hpt, hsz, hpid, -⟩ := h.unused hu
  obtain ⟨ht', hpt', hsz', hpid', -⟩ := h'.unused hu'
  simp only [Proc.allocFields, hu, hu', hp, hp', ht, ht', hpt, hpt', hsz, hsz', hpid, hpid']

/-- Calls made for a record that is cleared before and after give back all they took. -/
theorem Accounts.balanced (h : Accounts q L q') (hq : ∀ r, q.owned r = 0)
    (hq' : ∀ r, q'.owned r = 0) (r : Res) : taken L r = given L r := by
  simpa [hq, hq'] using h r

theorem fork_failure_rolls_back (hr : Reachable K σ) (hc : (σ.cpus c).proc = some p) {i : Nat}
    (hpc : (σ.proc p).pc = .allocScan i) (hs : PStep K σ c p o σ') (hret : o.ret = some (-1)) :
    (∀ j, (σ'.proc j).allocFields = (σ.proc j).allocFields) ∧
      σ'.proc p = { σ.proc p with pc := .user } ∧ ∀ r, taken o.calls r = given o.calls r := by
  have h := hr.ownOk
  have hfree := hr.parentOk.free
  have hrun := hr.wf.cpu.running hc
  cases hs
  case allocFail i q e _ hi _ _ hu ha =>
    have hne : p ≠ ⟨i, hi⟩ := by rintro rfl; exact absurd (hu.symm.trans hrun) nofun
    have hq := allocproc_error_ownOk (h _) hu ha
    have hqu := (allocproc_error_fields ha).1
    refine ⟨fun j => ?_, by simp [hne], (accounts_allocproc_error (h _) hu ha).balanced
      ((h _).owned_unused hu) (hq.owned_unused hqu)⟩
    simp only [Sys.setProc_proc]
    split_ifs <;> subst_vars
    · exact (h _).allocFields_eq hq hu hqu (hfree _ hu) (allocproc_error K ha).2.1
    all_goals rfl
  case copyFail i q e _ hi _ _ hu ha _ =>
    have hne : p ≠ ⟨i, hi⟩ := by rintro rfl; exact absurd (hu.symm.trans hrun) nofun
    have hq := allocproc_ok_ownOk (h _) hu ha
    have hf := freeproc_ownOk hq.1 hq.2
    refine ⟨fun j => ?_, by simp [hne], ((accounts_allocproc_ok (h _) hu ha).trans
      (accounts_freeproc q)).balanced ((h _).owned_unused hu) (hf.owned_unused rfl)⟩
    simp only [Sys.setProc_proc]
    split_ifs <;> subst_vars
    · exact (h _).allocFields_eq hf hu rfl (hfree _ hu) rfl
    all_goals rfl
  case allocNone =>
    refine ⟨fun j => ?_, by simp, fun _ => rfl⟩
    simp only [Sys.setProc_proc]
    split_ifs <;> subst_vars <;> rfl
  case allocBusy | allocOk | yield => cases hret
  all_goals simp only [hpc, reduceCtorEq] at *

theorem fork_failure_rolls_back_boot :
    ∃ (σ σ' : Sys 2 1) (o : Out 2), Reachable Param.std σ ∧ PStep Param.std σ 0 0 o σ' ∧
      o.calls ≠ [] ∧ o.ret = some (-1) ∧ (∀ j, (σ'.proc j).allocFields = (σ.proc j).allocFields) ∧
      σ'.proc 0 = { σ.proc 0 with pc := .user } ∧ ∀ r, taken o.calls r = given o.calls r := by
  obtain ⟨σ, hr, hc, hpc, h1, hl, hpl, hn⟩ : ∃ σ : Sys 2 1, Reachable Param.std σ ∧
      (σ.cpus 0).proc = some 0 ∧ (σ.proc 0).pc = .allocScan 1 ∧
      σ.proc ⟨1, by decide⟩ = (bootSys Param.std).proc 1 ∧ σ.lock (.proc ⟨1, by decide⟩) = none ∧
      σ.lock .pidLock = none ∧ σ.nextpid = (bootSys Param.std).nextpid :=
    ⟨_, fork_scan bootSys_reachable bootSys_forkReady, rfl, by simp, by simp, rfl, rfl, rfl⟩
  obtain ⟨q, hq⟩ : ∃ q, allocproc Param.std ((bootSys Param.std).proc 1) (bootSys Param.std).nextpid
    ⟨1, 2, true, true, false⟩ = .ok q := ⟨_, rfl⟩
  have hs := PStep.copyFail (σ := σ) (c := 0) (i := 1) ⟨1, 2, true, true, false⟩ hpc (by decide) hl hpl
    (by rw [h1]; rfl) (by rw [h1, hn]; exact hq) rfl
  exact ⟨σ, _, _, hr, hs, by simp [allocprocCalls], rfl, fork_failure_rolls_back hr hc hpc hs rfl⟩

end RiscvProc
