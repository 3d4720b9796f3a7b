import ContractHost.Proofs.Pool.Places
import ContractHost.Proofs.Pool.Steady

/-!
# The books of a pool

The books of a pool say that the living instances are those in its places and with the users, each
once, and that the size counts them.

Work inside the pool moves instances from place to place, makes new ones, and ends some.  What it
does to the books is stated for each of these three only.

## Main definitions

* `Census.Proper` — the numbers of a census are all different, and have been given out.
* `Pool.Sound` — the books are in order.

## Main results

* `Pool.Sound.born`, `Pool.Sound.leave` — what makes and ends them.
* `Pool.Sound.grow`, `Pool.Sound.shrink` — **the control task keeps the books.**
-/

namespace ContractHost

/-! ### Births and deaths -/

/-- The numbers of a census are all different, and have been given out. -/
structure Census.Proper {σ : Type} (s : NumberedSupply σ) (x : Census σ) : Prop where
  /-- No number is there twice. -/
  nodup : x.live.Nodup
  /-- No number is there that is still to be given out. -/
  fresh : ∀ n ∈ x.live, n < s.next x.host

namespace Census.Proper

variable {σ : Type} {s : NumberedSupply σ} {x : Census σ}

theorem empty (s : NumberedSupply σ) (host : σ) : Census.Proper s ⟨host, []⟩ :=
  ⟨List.nodup_nil, fun _ hn => absurd hn List.not_mem_nil⟩

theorem later (h : x.Proper s) {host : σ} (hnext : s.next x.host ≤ s.next host) :
    Census.Proper s ⟨host, x.live⟩ :=
  ⟨h.nodup, fun n hn => (h.fresh n hn).trans_le hnext⟩

theorem erase (h : x.Proper s) {host : σ} (hnext : s.next x.host ≤ s.next host) (n : Nat) :
    Census.Proper s ⟨host, x.live.erase n⟩ :=
  ⟨h.nodup.erase n, fun m hm => (h.fresh m (List.mem_of_mem_erase hm)).trans_le hnext⟩

theorem teardownAll (l : List Instance) (h : x.Proper s) :
    (s.counted.teardownAll l x).Proper s := by
  induction l generalizing x with
  | nil => exact h
  | cons i l ih => exact ih (h.erase (s.next_teardown i x.host) i.id)

theorem create_ok (h : x.Proper s) {m : Module} {i : Instance} {y : Census σ}
    (hcreate : s.counted.create m x = (.ok i, y)) :
    y.Proper s ∧ y.live = i.id :: x.live ∧ i.detached = false := by
  unfold Supply.counted at hcreate
  dsimp only at hcreate
  split at hcreate
  · rename_i i' host hmade
    cases hcreate
    obtain ⟨hle, hlt, hdetached⟩ := s.next_create_ok hmade
    -- all living instances have smaller numbers
    have hnew : i.id ∉ x.live := fun hm => absurd (h.fresh _ hm) (Nat.not_lt.mpr hle)
    refine ⟨⟨List.nodup_cons.mpr ⟨hnew, h.nodup⟩, fun n hn => ?_⟩, rfl, hdetached⟩
    rcases List.mem_cons.mp hn with rfl | hold
    · exact hlt
    · exact (h.fresh n hold).trans (hle.trans_lt hlt)
  · cases hcreate

theorem create_error (h : x.Proper s) {m : Module} {e : ExecutionError} {y : Census σ}
    (hcreate : s.counted.create m x = (.error e, y)) : y.Proper s ∧ y.live = x.live := by
  unfold Supply.counted at hcreate
  dsimp only at hcreate
  split at hcreate
  · cases hcreate
  · rename_i e' host hmade
    cases hcreate
    exact ⟨h.later (s.next_create_error hmade), rfl⟩

end Census.Proper

theorem Supply.count_teardownAll {σ : Type} (s : Supply σ) (l : List Instance) (x : Census σ)
    (n : Nat) :
    (s.counted.teardownAll l x).live.count n = x.live.count n - l.countP (·.id == n) := by
  induction l generalizing x with
  | nil => rfl
  | cons i l ih =>
    have hrest := ih (s.counted.teardown i x)
    have hone : (s.counted.teardown i x).live.count n
        = x.live.count n - if i.id == n then 1 else 0 := List.count_erase
    rw [List.countP_cons, Nat.add_comm, ← Nat.sub_sub, ← hone]
    exact hrest

namespace Pool

variable {σ : Type}

/-! ### The books -/

/-- The books of a pool over a census are in order, while the instances `others` are elsewhere and
`extra` counts towards the size besides what the pool holds. -/
structure Sound (s : NumberedSupply σ) (others : List Instance) (extra : Nat) (p : Pool)
    (x : Census σ) : Prop where
  /-- The census is. -/
  proper : x.Proper s
  /-- Every living instance is in one place, and there is no other. -/
  count : ∀ n, x.live.count n = p.tally (·.id == n) + others.countP (·.id == n)
  /-- The pool holds instances of its own only. -/
  pooled : p.tally (·.detached) = 0
  /-- The size counts them. -/
  size : p.size = UInt32.ofNat (p.tally (fun _ => true) + extra)

namespace Sound

variable {s : NumberedSupply σ} {others others' : List Instance} {extra extra' : Nat}
variable {p p' : Pool} {x y : Census σ}

/-- Work that moves instances only inside the pool keeps the books. -/
theorem congr (h : p.Sound s others extra x) (htally : ∀ q, p'.tally q = p.tally q)
    (hsize : p'.size = p.size) : p'.Sound s others extra x :=
  { proper := h.proper
    count := fun n => by rw [htally]; exact h.count n
    pooled := by rw [htally]; exact h.pooled
    size := by rw [htally, hsize]; exact h.size }

/-- Instances go from the pool to its users, or come back from them. -/
theorem move (h : p.Sound s others extra x)
    (hplace : ∀ n, p.tally (·.id == n) + others.countP (·.id == n) =
      p'.tally (·.id == n) + others'.countP (·.id == n))
    (hpooled : p'.tally (·.detached) = 0)
    (htotal : p.tally (fun _ => true) + extra = p'.tally (fun _ => true) + extra')
    (hsize : p'.size = p.size) : p'.Sound s others' extra' x :=
  { proper := h.proper
    count := fun n => by rw [← hplace]; exact h.count n
    pooled := hpooled
    size := by rw [hsize, ← htotal]; exact h.size }

/-- What else happens on the host does not concern the books. -/
theorem later (h : p.Sound s others extra x) {host : σ} (hnext : s.next x.host ≤ s.next host) :
    p.Sound s others extra ⟨host, x.live⟩ :=
  { h with proper := h.proper.later hnext }

theorem born (h : p.Sound s others extra x) {i : Instance} (hproper : y.Proper s)
    (hlive : y.live = i.id :: x.live) (hpooled : i.detached = false) :
    ({ p with size := p.size + 1 }.push { i with epoch := p.epoch }).Sound s others extra y := by
  have htally (q : Instance → Bool) :
      ({ p with size := p.size + 1 }.push { i with epoch := p.epoch }).tally q
        = p.tally q + if q { i with epoch := p.epoch } then 1 else 0 :=
    tally_push q { p with size := p.size + 1 } _
  refine ⟨hproper, fun n => ?_, ?_, ?_⟩
  · have hcount := h.count n
    rw [htally, hlive, List.count_cons]
    dsimp only
    omega
  · rw [htally, h.pooled, hpooled]
    rfl
  · rw [size_push, htally, if_pos rfl, Nat.add_right_comm, UInt32.ofNat_add, ← h.size]
    rfl

theorem resume (h : p.Sound s others extra x) (woken : List Waiter) (ticket : Ticket)
    (since : Nat) : ({ p with woken }.resume ticket since).Sound s others extra x :=
  h.congr (fun q => tally_resume q { p with woken } ticket since) (size_resume _ ticket since)

theorem grow (h : p.Sound s others extra x) (n : UInt32) :
    (p.grow s.counted n x).1.Sound s others extra (p.grow s.counted n x).2 := by
  have hstable : GrowthStable s.counted fun q y => q.Sound s others extra y :=
    { resume := fun _ hq => hq.resume _ _ _
      growOne := fun {q y} hq => by
        unfold growOne
        split
        · rename_i i y' hcreate
          obtain ⟨hproper, hlive, hpooled⟩ := hq.proper.create_ok hcreate
          exact hq.born hproper hlive hpooled
        · rename_i e y' hcreate
          obtain ⟨hproper, hlive⟩ := hq.proper.create_error hcreate
          exact { hq with proper := hproper, count := fun n => hlive ▸ hq.count n } }
  exact hstable.grow n h

/-- The instances `l` leave: the pool or its users held them, and the census strikes them out. -/
theorem leave (h : p.Sound s others extra x) (l : List Instance) (hproper : y.Proper s)
    (hlive : ∀ n, y.live.count n = x.live.count n - l.countP (·.id == n))
    (hplace : ∀ n, p.tally (·.id == n) + others.countP (·.id == n) =
      p'.tally (·.id == n) + others'.countP (·.id == n) + l.countP (·.id == n))
    (hpooled : p'.tally (·.detached) = 0)
    (hsize : p'.size = UInt32.ofNat (p'.tally (fun _ => true) + extra')) :
    p'.Sound s others' extra' y := by
  refine ⟨hproper, fun n => ?_, hpooled, hsize⟩
  rw [hlive, h.count, hplace, Nat.add_sub_cancel]

/-- Instances that the pool holds end, and are taken off the size. -/
theorem retire (h : p.Sound s others extra x) (l : List Instance)
    (htally : ∀ q, p.tally q = p'.tally q + l.countP q)
    (hsize : p'.size = p.size - UInt32.ofNat l.length) :
    p'.Sound s others extra (s.counted.teardownAll l x) := by
  refine h.leave l (h.proper.teardownAll l) (s.count_teardownAll l x) (fun n => ?_) ?_ ?_
  · rw [htally]
    exact Nat.add_right_comm _ _ _
  · have hpooled := htally (·.detached)
    rw [h.pooled] at hpooled
    omega
  · have hlength : l.countP (fun _ => true) = l.length := congrFun List.countP_true l
    rw [hsize, h.size, htally, hlength, Nat.add_right_comm, UInt32.ofNat_add,
      UInt32.add_sub_cancel]

theorem takeReady (h : p.Sound s others extra x) {i : Instance} {rest : List Instance}
    (hready : p.ready = i :: rest) :
    { p with ready := rest, size := p.size - 1 }.Sound s others extra
      (s.counted.teardown i x) := by
  refine h.retire [i] (fun q => ?_) rfl
  rw [tally_ready q hready, List.countP_singleton]
  rfl

theorem shrink (n : Nat) {p : Pool} {x : Census σ} (h : p.Sound s others extra x) :
    (Pool.shrink s.counted n p x).1.Sound s others extra (Pool.shrink s.counted n p x).2 := by
  refine shrink_induction
    (P := fun _ p x r => p.Sound s others extra x → r.1.Sound s others extra r.2)
    (fun p x h => ?_) (fun {n p x permits i rest r} _ _ hready hrest h => hrest ?_)
    (fun {n p x r} _ _ _ hrest h => hrest ?_) (fun {n p x} _ h => ?_)
    (fun {n p x} _ _ h => ?_) n p x h
  · exact h.congr (fun _ => rfl) rfl
  · exact (h.takeReady hready).congr (fun _ => rfl) rfl
  · exact h.congr (fun _ => rfl) rfl
  · exact h.congr (fun _ => rfl) rfl
  · exact h.congr (fun _ => rfl) rfl

/-- Emptying the pool ends what nobody has a claim to. -/
theorem clear (h : p.Sound s others extra x) :
    p.cleared.Sound s others extra (s.counted.teardownAll (p.ready.take p.unclaimed) x) := by
  refine h.retire _ (fun q => tally_cleared q p) ?_
  rw [length_unclaimed]
  rfl

/-- **Obeying a signal keeps the books**, but for a removal, which changes the size alone. -/
theorem obey (h : p.Sound s others extra x) {signal : Signal} (hsignal : signal ≠ .remove) :
    (p.obey s.counted x signal).1.Sound s others extra (p.obey s.counted x signal).2 := by
  -- a removal is left out, for it takes away the place of an instance that is gone already
  cases signal with
  | grow =>
    have hcount : p.countGrowth.Sound s others extra x := h.congr (fun _ => rfl) rfl
    obtain ⟨-, heq⟩ | ⟨-, heq⟩ | ⟨-, heq⟩ := obey_grow_cases s.counted p x
    · rw [heq]
      exact hcount.congr (fun _ => rfl) rfl
    · rw [heq]
      exact hcount
    · rw [heq]
      exact (hcount.grow p.settings.growStep).congr (fun _ => rfl) rfl
  | add => exact h.grow 1
  | remove => exact absurd rfl hsignal
  | reset request =>
    have hnext : { p with epoch := p.epoch + 1 }.Sound s others extra x :=
      h.congr (fun _ => rfl) rfl
    rw [obey_reset]
    exact (hnext.clear.grow p.renewed.missing).congr (fun _ => rfl) rfl
  | shutdown =>
    rw [obey_shutdown]
    exact h.clear.congr (fun _ => rfl) rfl

/-- **A regular look keeps the books.** -/
theorem tick (h : p.Sound s others extra x) :
    (p.tick s.counted x).1.Sound s others extra (p.tick s.counted x).2 := by
  have hp : { p with ticked := p.ticked + 1 }.Sound s others extra x :=
    h.congr (fun _ => rfl) rfl
  obtain ⟨-, heq⟩ | ⟨-, heq⟩ | ⟨-, -, heq⟩ | ⟨-, -, heq⟩ := tick_cases s.counted p x
  · rw [heq]
    exact hp.congr (fun _ => rfl) rfl
  · rw [heq]
    exact (hp.grow p.settings.growStep).congr (fun _ => rfl) rfl
  · rw [heq]
    exact shrink _ hp
  · rw [heq]
    exact h.congr (fun _ => rfl) rfl

/-- **Going on keeps the books.** -/
theorem goOn (h : p.Sound s others extra x) :
    (p.goOn s.counted x).1.Sound s others extra (p.goOn s.counted x).2 := by
  have hleft : { p with woken := p.woken.erase .control }.Sound s others extra x :=
    h.congr (fun _ => rfl) rfl
  obtain heq | ⟨left, -, ⟨-, heq⟩ | ⟨-, -, -, heq⟩ | ⟨-, -, i, rest, hready, heq⟩⟩ :=
    goOn_cases s.counted p x
  · rw [heq]
    exact h
  · rw [heq]
    exact shrink _ hleft
  · rw [heq]
    exact shrink _ hleft
  · rw [heq]
    exact shrink _ (hleft.takeReady hready)

end Sound

end Pool

end ContractHost
