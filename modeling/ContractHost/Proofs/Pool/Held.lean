import ContractHost.Proofs.Pool.Sources

/-!
# What comes into a pool

The control task brings new instances into a pool, and moves those that are there.  So a pool that
holds no instance of some kind comes to hold none by its work, if new ones are not of that kind.
Which kind is meant may depend on the module of which the pool makes its instances.

## Main definitions

* `Pool.Free` — the pool holds no instance of a kind.
* `Supply.Faithful` — new instances are instances of the module that was asked for.
* `Pool.Spares` — a kind that new instances are not of.

## Main results

* `Pool.workStable_free` — **the work of the control task brings in new instances only.**
* `Pool.free_settle`, `Pool.free_create` — so does settling, and a new pool has no others.
* `Pool.free_release` — an instance that is given back comes in besides, unless it has failed too
  often.
-/

namespace ContractHost

variable {σ : Type}

/-- A new instance is one of the module that was asked for. -/
def Supply.Faithful (s : Supply σ) : Prop :=
  ∀ {m x i y}, s.create m x = (.ok i, y) → i.script = m.script

namespace Pool

/-- The pool holds no instance of a kind. -/
def Free (kind : Instance → Bool) (p : Pool) : Prop :=
  p.tally kind = 0

/-- Of what kind an instance is, where instances are made of a module, depends on its number, on its
failures, and on its own module.  New instances, of which the first has the number `n`, are not of
this kind. -/
structure Spares (n : Nat) (kind : Module → Instance → Bool) : Prop where
  /-- Nothing else tells the kind. -/
  told : ∀ {m : Module} {i j : Instance}, j.id = i.id → j.errors = i.errors →
    j.script = i.script → kind m j = kind m i
  /-- New instances are not of it. -/
  new : ∀ {m : Module} {i : Instance}, n ≤ i.id → i.errors = 0 → i.script = m.script →
    kind m i = false

namespace Free

variable {kind : Instance → Bool} {p q : Pool}

theorem mono (h : p.Free kind) (hless : q.tally kind ≤ p.tally kind) : q.Free kind :=
  Nat.le_zero.mp (hless.trans_eq h)

theorem of_held (h : p.Free kind) {i : Instance} (hi : i ∈ p.held) : kind i = false :=
  eq_false_of_ne_true (List.countP_eq_zero.mp h i hi)

theorem push (h : p.Free kind) {i : Instance} (hi : kind i = false) : (p.push i).Free kind := by
  have hpush := tally_push kind p i
  rw [hi] at hpush
  exact h.mono hpush.le

theorem acquire (h : p.Free kind) : p.acquire.2.Free kind :=
  h.mono (tally_acquire kind p).le

theorem cancel (h : p.Free kind) (ticket : Ticket) : (p.cancel ticket).Free kind :=
  h.mono (tally_cancel kind p ticket).le

/-- What a caller takes is not of the kind, and what stays is not either. -/
theorem claim (h : p.Free kind) (ticket : Ticket) : (p.claim ticket).2.Free kind ∧
    ∀ i, (p.claim ticket).1 = some (.ok i) → kind i = false := by
  have htally := (tally_claim kind p ticket).symm.trans h
  obtain ⟨hfree, hnone⟩ := Nat.add_eq_zero_iff.mp htally
  refine ⟨hfree, fun i hi => eq_false_of_ne_true (List.countP_eq_zero.mp hnone i ?_)⟩
  rw [hi]
  exact List.mem_singleton_self i

theorem requestReset (h : p.Free kind) : p.requestReset.2.Free kind :=
  h.mono (tally_signal kind p _).le

theorem requestShutdown (h : p.Free kind) : p.requestShutdown.Free kind :=
  h.mono (tally_requestShutdown kind p).le

end Free

theorem program_eq_of_label {p q : Pool} (h : q.label = p.label) : q.program = p.program :=
  congrArg (·.2.1) h

section

variable (s : NumberedSupply σ) {kind : Module → Instance → Bool} {n : Nat}

/-- **The work of the control task brings in new instances only.** -/
theorem workStable_free (hfresh : s.Fresh) (hfaithful : s.Faithful) (hspares : Spares n kind)
    (m : Module) :
    WorkStable s.toSupply fun p x => p.program = m ∧ p.Free (kind m) ∧ n ≤ s.next x where
  resume _ h := ⟨(program_eq_of_label (label_resume _ _ _)).trans h.1,
    h.2.1.mono (tally_resume (kind m) _ _ _).le, h.2.2⟩
  growOne {p x} h := by
    obtain ⟨hprogram, hfree, hnext⟩ := h
    unfold growOne
    split
    · -- a new instance has a number that is not smaller, no failures, and the script of the module
      rename_i i y hcreate
      obtain ⟨hle, hlt, -⟩ := s.next_create_ok hcreate
      obtain ⟨-, herrors⟩ := hfresh hcreate
      have hscript : i.script = m.script := hprogram ▸ hfaithful hcreate
      have hsize : { p with size := p.size + 1 }.Free (kind m) := hfree
      exact ⟨(program_eq_of_label (label_push _ _)).trans hprogram,
        hsize.push (hspares.new (hnext.trans hle) herrors hscript), hnext.trans (hle.trans hlt.le)⟩
    · rename_i e y hcreate
      exact ⟨hprogram, hfree, hnext.trans (s.next_create_error hcreate)⟩
  keep {p q x} h hstock := by
    have hprogram : q.stock.program = p.stock.program := by rw [hstock]
    have htally : q.stock.tally (kind m) = p.stock.tally (kind m) := by rw [hstock]
    exact ⟨hprogram.trans h.1, h.2.1.mono htally.le, h.2.2⟩
  join h := h
  leave h := h
  takeReady {p i rest x} hready h := by
    have hless := tally_ready (kind m) hready
    exact ⟨h.1, h.2.1.mono (hless ▸ Nat.le_add_right _ _), h.2.2.trans (s.next_teardown i x)⟩

variable {p : Pool} {x : σ}

/-- **Settling brings in new instances only.** -/
theorem free_settle (hfresh : s.Fresh) (hfaithful : s.Faithful) (hspares : Spares n kind)
    (h : p.Free (kind p.program)) (hnext : n ≤ s.next x) :
    (p.settle s.toSupply x).1.Free (kind p.program) := by
  exact ((workStable_free s hfresh hfaithful hspares p.program).settle (fun hq => hq)
    ⟨rfl, h, hnext⟩).2.1

/-- **A new pool has new instances only.** -/
theorem free_create (hfresh : s.Fresh) (hfaithful : s.Faithful) (hspares : Spares n kind)
    {contract : ContractId} {program : Module} {settings : PoolTerms} {y : σ} (hnext : n ≤ s.next x)
    (h : create s.toSupply contract program settings x = (.ok p, y)) :
    p.program = program ∧ p.Free (kind program) := by
  obtain ⟨trial, z, htrial, rfl, -⟩ := create_eq_ok h
  obtain ⟨hle, hlt, -⟩ := s.next_create_ok htrial
  have hstart : n ≤ s.next (s.teardown trial z) :=
    (hnext.trans (hle.trans hlt.le)).trans (s.next_teardown trial z)
  obtain ⟨hprogram, hfree, -⟩ := (workStable_free s hfresh hfaithful hspares program).grow
    (p := { contract, program, settings }) settings.minSize ⟨rfl, rfl, hstart⟩
  exact ⟨hprogram, hfree⟩

end

variable {kind : Instance → Bool} {p : Pool}

variable (s : Supply σ)

/-- **An instance that is given back** may come in, if it has not failed too often. -/
theorem free_release (h : p.Free kind) {i : Instance}
    (hi : i.errors ≤ p.settings.discardThreshold → kind i.unbind = false) (x : σ) :
    (p.release s i x).1.Free kind := by
  by_cases hfailed : p.settings.discardThreshold < i.errors
  · exact h.mono (tally_release_failed kind s x hfailed).le
  · have hrelease := tally_release kind s p i x
    rw [hi (UInt32.not_lt.mp hfailed)] at hrelease
    exact h.mono hrelease

theorem free_discard (h : p.Free kind) (i : Instance) (x : σ) : (p.discard s i x).1.Free kind :=
  h.mono (tally_discard kind s p i x).le

end Pool

end ContractHost
