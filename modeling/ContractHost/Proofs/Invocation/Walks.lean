import ContractHost.Invocation.Context
import ContractHost.Proofs.OrderedMap

/-!
# Walks that look ahead

The cursors that an invocation has opened cannot tell whether there is a next element before they
have taken it, so they put it aside.  What such a walk puts aside it has still to give.  Seen this
way it is a cursor that knows all that is to come, and neither question can tell the two apart.

## Main definitions

* `LookingAhead.cursor` — the cursor that a walk comes to.
* `Context.SameCursors` — every open cursor has as much to give as before.
* `Context.Looked` — at most cursors have looked ahead.

## Main results

* `LookingAhead.hasNext_eq`, `LookingAhead.next?_eq` — **a walk that looks ahead is a cursor.**
* `Context.looked_insertPairs`, `looked_insertRows` — **looking ahead takes nothing away.**
-/

namespace ContractHost

namespace LookingAhead

variable {α : Type}

/-- The walk as a cursor: the elements that are still to come, with the one that was put aside. -/
def cursor (w : LookingAhead α) : Cursor α :=
  ⟨w.aside.toList ++ w.rest⟩

@[simp]
theorem cursor_begun (l : List α) : cursor { rest := l } = ⟨l⟩ := rfl

/-- What is put aside is not lost. -/
@[simp]
theorem cursor_look (w : LookingAhead α) : w.look.cursor = w.cursor := by
  obtain ⟨aside, rest⟩ := w
  cases aside with
  | some a => rfl
  | none => cases rest <;> rfl

/-- **Looking ahead tells what the cursor tells.** -/
theorem hasNext_eq (w : LookingAhead α) : w.hasNext = w.cursor.hasNext := by
  obtain ⟨aside, rest⟩ := w
  cases aside with
  | some a => rfl
  | none => cases rest <;> rfl

/-- **The next element is that of the cursor**, whether it was put aside or not. -/
theorem next?_eq (w : LookingAhead α) :
    w.next?.map (fun next => (next.1, next.2.cursor)) = w.cursor.next? := by
  obtain ⟨aside, rest⟩ := w
  cases aside with
  | some a => rfl
  | none => cases rest <;> rfl

variable {w : LookingAhead α}

theorem next?_of_nil (h : w.cursor.remaining = []) : w.next? = none := by
  have heq := w.next?_eq
  unfold Cursor.next? at heq
  rw [h] at heq
  exact Option.map_eq_none_iff.mp heq

theorem next?_of_cons {a : α} {rest : List α} (h : w.cursor.remaining = a :: rest) :
    ∃ moved, w.next? = some (a, moved) ∧ moved.cursor.remaining = rest := by
  have heq := w.next?_eq
  unfold Cursor.next? at heq
  rw [h] at heq
  obtain ⟨⟨b, moved⟩, hnext, hpair⟩ := Option.map_eq_some_iff.mp heq
  cases hpair
  exact ⟨moved, hnext, rfl⟩

/-- The elements that a walk gives were all to come. -/
theorem remaining_of_next? {a : α} {moved : LookingAhead α} (h : w.next? = some (a, moved)) :
    w.cursor.remaining = a :: moved.cursor.remaining := by
  cases hremaining : w.cursor.remaining with
  | nil =>
    rw [next?_of_nil hremaining] at h
    cases h
  | cons b rest =>
    obtain ⟨moved', hnext, hrest⟩ := next?_of_cons hremaining
    rw [h] at hnext
    cases hnext
    rw [hrest]

end LookingAhead

namespace Context

/-- Every open cursor has as much to give as before, and none was opened or closed. -/
structure SameCursors (c c' : Context) : Prop where
  /-- The cursors over pairs have. -/
  pairs : ∀ index,
    (c'.pairCursors.get? index).map (·.cursor) = (c.pairCursors.get? index).map (·.cursor)
  /-- So have those over rows. -/
  rows : ∀ index,
    (c'.rowCursors.get? index).map (·.cursor) = (c.rowCursors.get? index).map (·.cursor)

/-- At most cursors have looked ahead, and nothing else has changed. -/
structure Looked (c c' : Context) : Prop where
  /-- At most the cursors have changed. -/
  context : ∃ pairCursors rowCursors, c' = { c with pairCursors, rowCursors }
  /-- They have as much to give as before. -/
  cursors : c.SameCursors c'

variable {c : Context}

theorem SameCursors.of_eq {c' : Context} (hpairs : c'.pairCursors = c.pairCursors)
    (hrows : c'.rowCursors = c.rowCursors) : c.SameCursors c' :=
  ⟨fun _ => by rw [hpairs], fun _ => by rw [hrows]⟩

theorem SameCursors.refl (c : Context) : c.SameCursors c :=
  .of_eq rfl rfl

/-- A walk that looks ahead has as much to give as before. -/
theorem map_cursor_look {α : Type} {m : OrderedMap Int32 (LookingAhead α)} {index : Int32}
    {w : LookingAhead α} (h : m.get? index = some w) (index' : Int32) :
    ((m.insert index w.look).get? index').map (·.cursor) = (m.get? index').map (·.cursor) := by
  rw [OrderedMap.get?_insert_ite]
  by_cases heq : index = index'
  · rw [if_pos heq, ← heq, h]
    simp only [Option.map_some, LookingAhead.cursor_look]
  · rw [if_neg heq]

theorem get?_of_pairs {index : Int32} {w : LookingAhead Pair} (h : c.pairs index = .ok w) :
    c.pairCursors.get? index = some w := by
  unfold pairs at h
  split at h
  · cases h
    assumption
  · cases h

theorem get?_of_rows {index : Int32} {w : LookingAhead Row} (h : c.rows index = .ok w) :
    c.rowCursors.get? index = some w := by
  unfold rows at h
  split at h
  · cases h
    assumption
  · cases h

/-- **A cursor that looks ahead has as much to give as before.** -/
theorem looked_insertPairs {index : Int32} {w : LookingAhead Pair} (h : c.pairs index = .ok w) :
    c.Looked { c with pairCursors := c.pairCursors.insert index w.look } :=
  ⟨⟨_, _, rfl⟩, map_cursor_look (get?_of_pairs h), fun _ => rfl⟩

theorem looked_insertRows {index : Int32} {w : LookingAhead Row} (h : c.rows index = .ok w) :
    c.Looked { c with rowCursors := c.rowCursors.insert index w.look } :=
  ⟨⟨_, _, rfl⟩, fun _ => rfl, map_cursor_look (get?_of_rows h)⟩

end Context

end ContractHost
