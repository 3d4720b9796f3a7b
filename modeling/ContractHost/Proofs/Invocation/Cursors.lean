import ContractHost.Proofs.Request.Cursors
import Mathlib.Algebra.Group.Nat.Defs
import Mathlib.Data.List.Induction

/-!
# Numbers of cursors

Cursors of both kinds get their numbers from one counter, and nobody looks whether a number is in
use.  A cursor that is opened stays under its number until it is closed, or until the counter has
gone around all numbers of 32 bits and another cursor of its kind is opened just then, which takes
its place.  So a cursor is safe for as long as fewer cursors are opened after it than there are
numbers, whatever their kinds, and it is lost only at the end of such a round.

## Main definitions

* `Context.CursorOp`, `Context.perform`, `Context.performAll` — opening and closing, and runs.
* `Context.openings` — how many cursors a run opens.
* `Context.Displaces` — a number is in use when it is given out.

## Main results

* `Context.isSome_due_performAll_iff` — **which cursors are open after a run.**
* `Context.displaces_iff` — **when the next cursor takes the place of one that is open.**
-/

namespace ContractHost

open StateKey

namespace Context

/-! ### Opening and closing -/

/-- What is done to the cursors of an invocation. -/
inductive CursorOp
  /-- A cursor over pairs is opened. -/
  | openPairs (pairs : List Pair)
  /-- A cursor over rows is opened. -/
  | openRows (rows : List Row)
  /-- A cursor is closed. -/
  | close (k : CursorKind) (index : Int32)

namespace CursorOp

/-- The kind of the cursor that is opened, and what it has to give. -/
def opened? : CursorOp → Option (CursorKind × List Bytes)
  | .openPairs pairs => some (.pairs, pairs.map encodePair)
  | .openRows rows => some (.rows, rows.map Row.encode)
  | .close _ _ => none

/-- The cursor that is closed. -/
def closed? : CursorOp → Option (CursorKind × Int32)
  | .openPairs _ => none
  | .openRows _ => none
  | .close k index => some (k, index)

end CursorOp

/-- The context after a cursor was opened or closed.  Where there is none to be closed, nothing
changes. -/
def perform (c : Context) : CursorOp → Context
  | .openPairs pairs => (c.openPairs pairs).2
  | .openRows rows => (c.openRows rows).2
  | .close k index => (c.close k index).toOption.getD c

/-- The context after a run. -/
def performAll (c : Context) (ops : List CursorOp) : Context :=
  ops.foldl perform c

/-- How many cursors a run opens. -/
def openings (ops : List CursorOp) : Nat :=
  ops.countP fun op => op.opened?.isSome

/-- A cursor of a kind that is opened now is given the number of another one that is open. -/
def Displaces (c : Context) (k : CursorKind) : Prop :=
  (c.due k c.nextCursor).isSome = true

variable {c : Context} {op : CursorOp} {ops early late : List CursorOp}
variable {k : CursorKind} {index : Int32} {blobs : List Bytes}

theorem performAll_append (c : Context) (ops ops' : List CursorOp) :
    c.performAll (ops ++ ops') = (c.performAll ops).performAll ops' :=
  List.foldl_append

theorem openings_append (ops ops' : List CursorOp) :
    openings (ops ++ ops') = openings ops + openings ops' :=
  List.countP_append

theorem openings_cons_of_opened (h : op.opened? = some (k, blobs)) (ops : List CursorOp) :
    openings (op :: ops) = openings ops + 1 := by
  unfold openings
  rw [List.countP_cons_of_pos (by rw [h]; rfl)]

/-- **A cursor that is opened is put under the number that comes next**, and the counter moves. -/
theorem perform_of_opened (h : op.opened? = some (k, blobs)) :
    Turns k c.nextCursor (some blobs) c (c.perform op) ∧
      (c.perform op).nextCursor = c.nextCursor + 1 := by
  cases op with
  | openPairs pairs =>
    cases h
    exact ⟨turns_insertPairs c c.nextCursor { rest := pairs }, rfl⟩
  | openRows rows =>
    cases h
    exact ⟨turns_insertRows c c.nextCursor { rest := rows }, rfl⟩
  | close k index => cases h

theorem turns_none_self (h : c.due k index = none) : Turns k index none c c := by
  intro k' index'
  by_cases hself : k' = k ∧ index' = index
  · rw [if_pos hself, hself.1, hself.2, h]
  · rw [if_neg hself]

/-- **A cursor that is closed is taken away**, if it is there, and the counter stays. -/
theorem perform_of_closed (h : op.closed? = some (k, index)) :
    Turns k index none c (c.perform op) ∧ (c.perform op).nextCursor = c.nextCursor := by
  cases op with
  | openPairs pairs => cases h
  | openRows rows => cases h
  | close k index =>
    cases h
    show Turns k index none c ((c.close k index).toOption.getD c) ∧
      ((c.close k index).toOption.getD c).nextCursor = c.nextCursor
    -- closing what is not open changes nothing, whatever is open elsewhere
    cases hdue : c.due k index with
    | none =>
      rw [close_of_due_none hdue]
      exact ⟨turns_none_self hdue, rfl⟩
    | some blobs =>
      obtain ⟨after, hclose, hturns, hnext⟩ := close_of_due_some hdue
      rw [hclose]
      exact ⟨hturns, hnext⟩

theorem CursorOp.opened_or_closed (op : CursorOp) :
    (∃ k blobs, op.opened? = some (k, blobs)) ∨ (∃ k index, op.closed? = some (k, index)) := by
  cases op with
  | openPairs pairs => exact .inl ⟨_, _, rfl⟩
  | openRows rows => exact .inl ⟨_, _, rfl⟩
  | close k index => exact .inr ⟨_, _, rfl⟩

theorem CursorOp.closed?_of_opened (h : op.opened? = some (k, blobs)) : op.closed? = none := by
  cases op with
  | openPairs pairs => rfl
  | openRows rows => rfl
  | close k index => cases h

theorem CursorOp.opened?_of_closed (h : op.closed? = some (k, index)) : op.opened? = none := by
  cases op with
  | openPairs pairs => cases h
  | openRows rows => cases h
  | close k index => rfl

/-! ### The counter -/

/-- **The counter is moved by the cursors that are opened**, of either kind. -/
theorem nextCursor_performAll (ops : List CursorOp) :
    ∀ c : Context, (c.performAll ops).nextCursor = c.nextCursor + Int32.ofNat (openings ops) := by
  induction ops with
  | nil => exact fun c => (Int32.add_zero _).symm
  | cons op ops ih =>
    intro c
    have hrest := ih (c.perform op)
    -- only an opening moves the counter
    obtain ⟨k, blobs, hopened⟩ | ⟨k, index, hclosed⟩ := op.opened_or_closed
    · have hstep := (perform_of_opened (c := c) hopened).2
      show ((c.perform op).performAll ops).nextCursor = _
      rw [hrest, hstep, openings_cons_of_opened hopened, Int32.ofNat_add,
        Int32.add_comm (Int32.ofNat _), ← Int32.add_assoc]
      rfl
    · have hstep := (perform_of_closed (c := c) hclosed).2
      have hcount : openings (op :: ops) = openings ops := by
        unfold openings
        rw [List.countP_cons_of_neg (by rw [CursorOp.opened?_of_closed hclosed]; decide)]
      show ((c.perform op).performAll ops).nextCursor = _
      rw [hrest, hstep, hcount]

/-- A number of 32 bits counts rounds for nothing. -/
theorem ofNat_eq_zero_iff (n : Nat) : Int32.ofNat n = 0 ↔ 2 ^ 32 ∣ n := by
  rw [← Int32.toBitVec_inj]
  show BitVec.ofNat 32 n = BitVec.ofNat 32 0 ↔ _
  rw [← BitVec.toNat_inj, BitVec.toNat_ofNat, BitVec.toNat_ofNat]
  exact Nat.dvd_iff_mod_eq_zero.symm

/-- **The counter comes back to a number after whole rounds.** -/
theorem nextCursor_performAll_eq_iff (c : Context) (ops : List CursorOp) :
    (c.performAll ops).nextCursor = c.nextCursor ↔ 2 ^ 32 ∣ openings ops := by
  rw [nextCursor_performAll, Int32.add_eq_left, ofNat_eq_zero_iff]

/-! ### What is open after a run -/

/-- **After one step a place is taken** if a cursor was put there just now, or if it was taken
before and no cursor was closed there. -/
theorem isSome_due_perform_iff :
    ((c.perform op).due k index).isSome = true ↔
      (∃ blobs, op.opened? = some (k, blobs) ∧ c.nextCursor = index) ∨
      (c.due k index).isSome = true ∧ op.closed? ≠ some (k, index) := by
  -- an opening puts something at the counter, and a closing takes something away; all else stays
  obtain ⟨k', blobs, hopened⟩ | ⟨k', index', hclosed⟩ := op.opened_or_closed
  · rw [(perform_of_opened hopened).1 k index, hopened, CursorOp.closed?_of_opened hopened]
    split
    · rename_i hself
      obtain ⟨rfl, rfl⟩ := hself
      exact iff_of_true rfl (.inl ⟨blobs, rfl, rfl⟩)
    · rename_i hself
      refine ⟨fun h => .inr ⟨h, nofun⟩, ?_⟩
      rintro (⟨_, ⟨⟩, rfl⟩ | ⟨h, -⟩)
      · exact absurd ⟨rfl, rfl⟩ hself
      · exact h
  · rw [(perform_of_closed hclosed).1 k index, hclosed, CursorOp.opened?_of_closed hclosed]
    split
    · rename_i hself
      obtain ⟨rfl, rfl⟩ := hself
      simp
    · rename_i hself
      constructor
      · intro h
        refine .inr ⟨h, ?_⟩
        rintro ⟨⟩
        exact hself ⟨rfl, rfl⟩
      · rintro (⟨_, ⟨⟩, -⟩ | ⟨h, -⟩)
        exact h

theorem isSome_due_performAll (h : (c.due k index).isSome = true)
    (hclosed : ∀ op ∈ ops, op.closed? ≠ some (k, index)) :
    ((c.performAll ops).due k index).isSome = true := by
  induction ops generalizing c with
  | nil => exact h
  | cons op ops ih =>
    rw [List.forall_mem_cons] at hclosed
    exact ih (isSome_due_perform_iff.mpr (.inr ⟨h, hclosed.1⟩)) hclosed.2

/-- **After a run a place is taken if a cursor was put there and none was closed there since.** -/
theorem isSome_due_performAll_iff (hc : ∀ k index, c.due k index = none) (ops : List CursorOp)
    (k : CursorKind) (index : Int32) :
    ((c.performAll ops).due k index).isSome = true ↔
      ∃ early op late blobs, ops = early ++ op :: late ∧ op.opened? = some (k, blobs) ∧
        (c.performAll early).nextCursor = index ∧ ∀ op ∈ late, op.closed? ≠ some (k, index) := by
  constructor
  · intro h
    induction ops using List.reverseRecOn with
    | nil =>
      rw [show c.performAll [] = c from rfl, hc] at h
      cases h
    | append_singleton ops op ih =>
      rw [performAll_append] at h
      -- the last step has put the cursor there, or it was there before and was let be
      obtain ⟨blobs, hopened, hindex⟩ | ⟨hbefore, hlet⟩ := isSome_due_perform_iff.mp h
      · exact ⟨ops, op, [], blobs, rfl, hopened, hindex, by simp⟩
      · obtain ⟨early, op', late, blobs, rfl, hopened, hindex, hkept⟩ := ih hbefore
        refine ⟨early, op', late ++ [op], blobs, by simp, hopened, hindex, ?_⟩
        simpa [or_imp, forall_and] using ⟨hkept, hlet⟩
  · rintro ⟨early, op, late, blobs, rfl, hopened, hindex, hkept⟩
    rw [performAll_append]
    apply isSome_due_performAll (c := (c.performAll early).perform op)
    · exact isSome_due_perform_iff.mpr (.inl ⟨blobs, hopened, hindex⟩)
    · exact hkept

/-- A cursor keeps what it has to give as long as it is not closed, and no other cursor is given its
number. -/
theorem due_performAll (h : c.due k index = some blobs)
    (hclosed : ∀ op ∈ ops, op.closed? ≠ some (k, index))
    (hgiven : ∀ early op late, ops = early ++ op :: late → op.opened?.isSome = true →
      (c.performAll early).nextCursor ≠ index) :
    (c.performAll ops).due k index = some blobs := by
  -- forwards, one operation at a time: none closes it, and none opens another one in its place
  induction ops generalizing c with
  | nil => exact h
  | cons op ops ih =>
    rw [List.forall_mem_cons] at hclosed
    show ((c.perform op).performAll ops).due k index = some blobs
    apply ih
    · obtain ⟨k', blobs', hopened⟩ | ⟨k', index', hother⟩ := op.opened_or_closed
      · have hne : c.nextCursor ≠ index := hgiven [] op ops rfl (by rw [hopened]; rfl)
        rw [(perform_of_opened hopened).1.due_of_ne fun hself => hne hself.2.symm]
        exact h
      · rw [(perform_of_closed hother).1.due_of_ne, h]
        rintro ⟨rfl, rfl⟩
        exact hclosed.1 hother
    · exact hclosed.2
    · intro early op' late hsplit
      exact hgiven (op :: early) op' late (congrArg _ hsplit)

/-- Up to a whole round after a cursor was opened, no other one is given its number. -/
theorem nextCursor_ne_of_le (hopened : op.opened? = some (k, blobs))
    (hround : openings (op :: ops) ≤ 2 ^ 32) {op' : CursorOp}
    (hsplit : ops = early ++ op' :: late) (hop' : op'.opened?.isSome = true) :
    (c.performAll (op :: early)).nextCursor ≠ c.nextCursor := by
  obtain ⟨⟨k', blobs'⟩, hopened'⟩ := Option.isSome_iff_exists.mp hop'
  have hlate := openings_cons_of_opened hopened' late
  have hearly := openings_cons_of_opened hopened early
  rw [hsplit, openings_cons_of_opened hopened, openings_append, hlate] at hround
  rw [Ne, nextCursor_performAll_eq_iff, hearly]
  intro hdvd
  have hle := Nat.le_of_dvd (Nat.succ_pos _) hdvd
  omega

/-- **The next cursor takes the place of one that is open exactly if that one was opened whole
rounds of the counter ago**, and was not closed since.  Up to then every cursor is found under its
number, with all that it was opened with. -/
theorem displaces_iff (hc : ∀ k index, c.due k index = none) (ops : List CursorOp)
    (k : CursorKind) :
    ((c.performAll ops).Displaces k ↔
      ∃ early op late blobs, ops = early ++ op :: late ∧ op.opened? = some (k, blobs) ∧
        2 ^ 32 ∣ openings (op :: late) ∧
        ∀ op ∈ late, op.closed? ≠ some (k, (c.performAll early).nextCursor)) ∧
    ∀ early op late blobs, ops = early ++ op :: late → op.opened? = some (k, blobs) →
      openings (op :: late) ≤ 2 ^ 32 →
      (∀ op ∈ late, op.closed? ≠ some (k, (c.performAll early).nextCursor)) →
      (c.performAll ops).due k (c.performAll early).nextCursor = some blobs := by
  -- the counter is back where it was after whole rounds of openings
  have hrounds (early : List CursorOp) (op : CursorOp) (late : List CursorOp) :
      (c.performAll early).nextCursor = (c.performAll (early ++ op :: late)).nextCursor ↔
        2 ^ 32 ∣ openings (op :: late) := by
    rw [performAll_append, eq_comm, nextCursor_performAll_eq_iff]
  constructor
  · unfold Displaces
    rw [isSome_due_performAll_iff hc]
    constructor
    · rintro ⟨early, op, late, blobs, rfl, hopened, hindex, hkept⟩
      refine ⟨early, op, late, blobs, rfl, hopened, (hrounds early op late).mp hindex, ?_⟩
      rw [hindex]
      exact hkept
    · rintro ⟨early, op, late, blobs, rfl, hopened, hdvd, hkept⟩
      have hindex := (hrounds early op late).mpr hdvd
      exact ⟨early, op, late, blobs, rfl, hopened, hindex, hindex ▸ hkept⟩
  · rintro early op late blobs rfl hopened hround hkept
    rw [performAll_append]
    apply due_performAll (c := (c.performAll early).perform op)
    · exact (perform_of_opened hopened).1.due_self
    · exact hkept
    · intro early' op' late' hsplit hop'
      exact nextCursor_ne_of_le (c := c.performAll early) hopened hround hsplit hop'

/-- An invocation that has just begun. -/
def fresh : Context := { contract := ⟨"counter", "1"⟩, method := "run" }

theorem due_fresh (k : CursorKind) (index : Int32) : fresh.due k index = none := by
  cases k
  · rfl
  · rfl

/-- Of two cursors over rows the first is still found under its number, and a third one does not
take its place. -/
theorem displaces_iff_two :
    ¬ (fresh.performAll [.openRows [∅], .openRows []]).Displaces .rows ∧
      (fresh.performAll [.openRows [∅], .openRows []]).due .rows 0 = some [Row.encode ∅] := by
  obtain ⟨hiff, hfound⟩ := displaces_iff due_fresh [.openRows [∅], .openRows []] .rows
  refine ⟨fun hdisplaces => ?_, hfound [] (.openRows [∅]) [.openRows []] _ rfl rfl ?_ ?_⟩
  · obtain ⟨early, op, late, blobs, hops, hopened, hdvd, -⟩ := hiff.mp hdisplaces
    have htwo : openings [.openRows [∅], .openRows []] = 2 := rfl
    rw [hops, openings_append] at htwo
    have hpos := openings_cons_of_opened hopened late
    have hle := Nat.le_of_dvd (by omega) hdvd
    omega
  · show 2 ≤ 2 ^ 32
    omega
  · simp [CursorOp.closed?]

/-- A cursor over one pair is opened, and a number of cursors over no rows. -/
def rowsAfterPair (n : Nat) : List CursorOp :=
  .openPairs [([1], [2])] :: List.replicate n (.openRows [])

theorem openings_rowsAfterPair (n : Nat) : openings (rowsAfterPair n) = n + 1 := by
  unfold rowsAfterPair
  rw [openings_cons_of_opened rfl]
  unfold openings
  rw [List.countP_replicate, if_pos (by rfl)]

theorem closed?_of_mem_replicate (n : Nat) (k : CursorKind) (index : Int32) :
    ∀ op ∈ List.replicate n (CursorOp.openRows []), op.closed? ≠ some (k, index) := by
  intro op hop
  rw [List.eq_of_mem_replicate hop]
  exact nofun

/-- A cursor over one pair, after as many others as bring the counter around: it still has its pair
to give, and another one is given its number. -/
theorem displaces_rowsAfterPair {n : Nat} (hsize : n + 1 = 2 ^ 32) :
    (fresh.performAll (rowsAfterPair n)).nextCursor = 0 ∧
      (fresh.performAll (rowsAfterPair n)).due .pairs 0 = some [encodePair ([1], [2])] := by
  have hcount : openings (rowsAfterPair n) = 2 ^ 32 := by
    rw [openings_rowsAfterPair, hsize]
  constructor
  · apply (nextCursor_performAll_eq_iff fresh _).mpr
    exact ⟨1, hcount.trans (Nat.mul_one _).symm⟩
  · have hopened : (CursorOp.openPairs [([1], [2])]).opened? = some (.pairs, _) := rfl
    apply due_performAll (c := fresh.perform (.openPairs [([1], [2])])) rfl
    · exact closed?_of_mem_replicate n .pairs 0
    · intro early op late hsplit hop
      exact nextCursor_ne_of_le (c := fresh) hopened hcount.le hsplit hop

/-- **An open cursor is displaced** when the counter has gone around: after that there is no way
left to ask for its pair. -/
theorem displaced_after_round :
    ∃ ops : List CursorOp, (fresh.performAll ops).due .pairs 0 = some [encodePair ([1], [2])] ∧
      ((fresh.performAll ops).openPairs []).1 = 0 ∧
      ((fresh.performAll ops).openPairs []).2.due .pairs 0 = some [] ∧
      (fresh.performAll ops).Displaces .pairs := by
  obtain ⟨n, hsize⟩ : ∃ n, n + 1 = 2 ^ 32 := ⟨2 ^ 32 - 1, by omega⟩
  obtain ⟨hnext, hdue⟩ := displaces_rowsAfterPair hsize
  refine ⟨rowsAfterPair n, hdue, hnext, ?_, ?_⟩
  · have hopened : (CursorOp.openPairs []).opened? = some (.pairs, []) := rfl
    rw [← hnext]
    exact (perform_of_opened hopened).1.due_self
  · unfold Displaces
    rw [hnext, hdue]
    rfl

end Context

end ContractHost
