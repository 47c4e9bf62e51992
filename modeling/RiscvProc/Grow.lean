import RiscvProc.Basic

/-!
# `growproc`

`growproc(n)` keeps the size in a local `uint sz`: it starts from the low 32 bits of
the 64-bit `p->sz`, `sz + n` is computed in 32 bits, and what `uvmalloc` or
`uvmdealloc` returns is cut back to 32 bits before it is tested and stored. The two
calls are not in the source; they follow the contract the spec gives them.

Below 2^32 the truncations change nothing, and `growproc` fails with `p->sz` as it
was or records `p->sz + n` (`growproc_below_4g`). At 2^32 they do: a process of
size 2^32 that grows by a page is recorded with size 4096, and one of size
2^32 - 4096 that grows by a page keeps its size, both with success reported.
-/

namespace RiscvProc

variable {np : Nat}

/-- Modelled from the spec: `uvmalloc(pagetable, oldsz, newsz)` returns `oldsz` when
`newsz < oldsz`, and otherwise `newsz`, or 0 when an allocation fails (`ok = false`). -/
def uvmalloc (ok : Bool) (oldsz newsz : BitVec 64) : BitVec 64 :=
  if newsz < oldsz then oldsz else if ok then newsz else 0

/-- Modelled from the spec: `uvmdealloc(pagetable, oldsz, newsz)` returns `oldsz` when
`newsz >= oldsz`, and otherwise `newsz`. -/
def uvmdealloc (oldsz newsz : BitVec 64) : BitVec 64 :=
  if oldsz ≤ newsz then oldsz else newsz

/-- `growproc(n)` on the caller's record, `uvmalloc` succeeding when `ok`: the result
and the new record. -/
def growproc (p : Proc np) (n : Int) (ok : Bool) : Int × Proc np :=
  let sz : BitVec 32 := p.sz.setWidth 32
  let new : BitVec 64 := (sz + BitVec.ofInt 32 n).setWidth 64
  if 0 < n then
    let sz' : BitVec 32 := (uvmalloc ok (sz.setWidth 64) new).setWidth 32
    if sz' = 0 then (-1, p) else (0, { p with sz := sz'.setWidth 64 })
  else if n < 0 then (0, { p with sz := ((uvmdealloc (sz.setWidth 64) new).setWidth 32).setWidth 64 })
  else (0, { p with sz := sz.setWidth 64 })

/-- Below 2^32 the local size is exact: the old size and the new one as 64-bit values. -/
theorem growproc_sizes {p : Proc np} {n : Int} (hsz : p.sz.toNat < 2 ^ 32)
    (h0 : 0 ≤ p.sz.toNat + n) (h1 : p.sz.toNat + n < 2 ^ 32) :
    (p.sz.setWidth 32).setWidth 64 = p.sz ∧
      (p.sz.setWidth 32 + BitVec.ofInt 32 n).setWidth 64 = BitVec.ofInt 64 (p.sz.toNat + n) := by
  constructor <;> apply BitVec.eq_of_toNat_eq <;> simp [Nat.mod_eq_of_lt hsz] <;> omega

/-- Below 2^32, `growproc(n)` keeps its contract: it fails, with the record as it was,
exactly when it grows and `uvmalloc` fails, and otherwise records `p->sz + n`. -/
theorem growproc_below_4g {p : Proc np} {n : Int} (ok : Bool) (hsz : p.sz.toNat < 2 ^ 32)
    (h0 : 0 ≤ p.sz.toNat + n) (h1 : p.sz.toNat + n < 2 ^ 32) :
    growproc p n ok = if 0 < n ∧ ok = false then (-1, p)
      else (0, { p with sz := BitVec.ofInt 64 (p.sz.toNat + n) }) := by
  obtain ⟨ho, hn⟩ := growproc_sizes hsz h0 h1
  have hw : ((BitVec.ofInt 64 (p.sz.toNat + n)).setWidth 32).setWidth 64 =
      BitVec.ofInt 64 (p.sz.toNat + n) := by
    apply BitVec.eq_of_toNat_eq; simp; omega
  unfold growproc
  simp only [ho, hn]
  rcases lt_trichotomy n 0 with hneg | rfl | hpos
  · have hlt : ¬ p.sz ≤ BitVec.ofInt 64 (p.sz.toNat + n) := by
      rw [BitVec.le_def]; simp; omega
    simp [hneg, not_lt.2 hneg.le, uvmdealloc, hlt, hw]
  · simp [ho]
  · have hge : ¬ BitVec.ofInt 64 (p.sz.toNat + n) < p.sz := by
      rw [BitVec.lt_def]; simp; omega
    have hne : (BitVec.ofInt 64 (p.sz.toNat + n)).setWidth 32 ≠ 0 := by
      intro h; have := congrArg BitVec.toNat h; simp at this; omega
    cases ok <;> simp [hpos, uvmalloc, hge, hw]
    exact hne

/-- The two failing inputs, for any record: a size of 2^32 grown by a page is
recorded as 4096, and a size of 2^32 - 4096 grown by a page stays as it was; both
calls report success. -/
theorem growproc_truncates_size (p : Proc np) :
    growproc { p with sz := BitVec.ofNat 64 (2 ^ 32) } 4096 true =
        (0, { p with sz := BitVec.ofNat 64 4096 }) ∧
      growproc { p with sz := BitVec.ofNat 64 (2 ^ 32 - 4096) } 4096 true =
        (0, { p with sz := BitVec.ofNat 64 (2 ^ 32 - 4096) }) := by
  constructor <;> simp [growproc, uvmalloc]

end RiscvProc
