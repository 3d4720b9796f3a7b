import ContractHost.Bytes
import Std.Data.TreeMap.Lemmas

/-!
# Linear memory

A contract computes on a linear memory of whole pages, all zero at first.  Only the bytes that were
ever written are kept.

## Main definitions

* `Memory` — a memory; `Memory.size` is its size in bytes and `Memory.byte` its contents.
* `Memory.read?`, `write?` — access to a region, refused unless the region lies inside.
* `Memory.readWord?`, `writeWord?` — the same for a word.
* `Memory.grow?` — more pages, within a limit.
-/

namespace ContractHost

/-- The size of a page in bytes. -/
def pageSize : Nat := 65536

/-- A linear memory. -/
structure Memory where
  /-- The number of pages. -/
  pages : Nat
  /-- The bytes that were written. -/
  written : Std.TreeMap Nat UInt8 := ∅

namespace Memory

/-- The size in bytes. -/
def size (m : Memory) : Nat :=
  m.pages * pageSize

/-- The byte at an address, zero unless something was written there. -/
def byte (m : Memory) (a : Nat) : UInt8 :=
  m.written.getD a 0

/-- The bytes from an address on, without a check of bounds. -/
def bytesFrom (m : Memory) (a len : Nat) : Bytes :=
  (List.range len).map fun i => m.byte (a + i)

/-- The memory with bytes put in from an address on, without a check of bounds. -/
def put (m : Memory) (a : Nat) (b : Bytes) : Memory :=
  { m with
    written := (b.foldl (fun (s : Nat × Std.TreeMap Nat UInt8) x => (s.1 + 1, s.2.insert s.1 x))
      (a, m.written)).2 }

@[simp] theorem length_bytesFrom (m : Memory) (a len : Nat) : (m.bytesFrom a len).length = len := by
  simp [bytesFrom]

@[simp] theorem size_put (m : Memory) (a : Nat) (b : Bytes) : (m.put a b).size = m.size := rfl

theorem byte_put (m : Memory) (a : Nat) (b : Bytes) (i : Nat) :
    (m.put a b).byte i = if a ≤ i then b.getD (i - a) (m.byte i) else m.byte i := by
  obtain ⟨pages, written⟩ := m
  simp only [put, byte]
  induction b generalizing a written with
  | nil => simp
  | cons x rest ih =>
    simp only [List.foldl_cons, ih, Std.TreeMap.getD_insert, Std.LawfulEqCmp.compare_eq_iff_eq]
    rcases Nat.lt_trichotomy i a with h | h | h
    · rw [if_neg (by omega), if_neg (by omega), if_neg (by omega)]
    · rw [if_neg (by omega), if_pos h.symm, if_pos (by omega), h, Nat.sub_self]
      rfl
    · obtain ⟨n, rfl⟩ : ∃ n, i = a + 1 + n := ⟨i - (a + 1), by omega⟩
      rw [if_pos (by omega), if_neg (by omega), if_pos (by omega), Nat.add_sub_cancel_left,
        show a + 1 + n - a = n + 1 by omega]
      rfl

/-- The bytes of a region. -/
def read? (m : Memory) (a len : Nat) : Option Bytes :=
  if a + len ≤ m.size then some (m.bytesFrom a len) else none

/-- The memory with a region overwritten. -/
def write? (m : Memory) (a : Nat) (b : Bytes) : Option Memory :=
  if a + b.length ≤ m.size then some (m.put a b) else none

/-- The word at an address. -/
def readWord? (m : Memory) (a : Nat) : Option UInt32 :=
  (m.read? a 4).bind Bytes.toWord?

/-- The memory with the word at an address overwritten. -/
def writeWord? (m : Memory) (a : Nat) (w : UInt32) : Option Memory :=
  m.write? a (Bytes.ofWord w)

/-- The memory with more pages, unless there would be more than `limit`. -/
def grow? (m : Memory) (more limit : Nat) : Option Memory :=
  if m.pages + more ≤ limit then some { m with pages := m.pages + more } else none

end Memory

end ContractHost
