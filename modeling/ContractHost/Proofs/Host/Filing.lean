import ContractHost.Proofs.Host.Frame

/-!
# Whose pool is found

Pools are filed under the flat keys of their contracts.  So whoever asks for the pool of a contract
is given a pool of a contract with the same key, and it is the pool of that contract itself as long
as no key is shared.  Two contracts may share a key: the joining character may stand in either of
their parts.  Then whichever was opened first answers for both, with a module that was made of its
own code, and even a contract without a name may be answered.

## Main definitions

* `Order`, `Host.carryOutAll` — what may be asked of the pools of a host, in any order.
* `Host.Accounted` — every pool that is filed was opened under its key.
* `Host.AnswersOwn` — among some contracts, none is ever answered with the pool of another.

## Main results

* `Host.accounted_carryOutAll` — **what is filed under a key was opened under that key.**
* `Host.answersOwn_iff` — **every contract is answered with its own pool exactly if keys are not
  shared.**
-/

namespace ContractHost

/-- What may be asked of the pools of a host. -/
inductive Order
  /-- The pool of a contract, to be made of its code if there is none. -/
  | open (c : ContractId) (code : Code)
  /-- The end of the pool of a contract. -/
  | close (c : ContractId)
  /-- The end of all pools. -/
  | closeAll
  /-- New instances in the pool of a contract. -/
  | reset (c : ContractId)
  /-- New instances in all pools. -/
  | resetAll

namespace Host

/-- A module that was made of a code with which the pool of a contract was asked for. -/
def Supplied (setup : HostSetup) (orders : List Order) (c : ContractId) (m : Module) : Prop :=
  ∃ code, .open c code ∈ orders ∧ Module.ofCode setup.config.engine code = .ok m

theorem Supplied.mono {setup : HostSetup} {orders : List Order} {c : ContractId} {m : Module}
    (h : Supplied setup orders c m) (more : List Order) : Supplied setup (orders ++ more) c m := by
  obtain ⟨code, hmem, hcode⟩ := h
  exact ⟨code, List.mem_append_left _ hmem, hcode⟩

variable {τ : Type}

/-- Every pool that is filed is that of a complete contract with that key, and its module was made
of a code with which this contract was opened.  Without a slot nothing is filed. -/
def Accounted (setup : HostSetup) (orders : List Order) (x : Host τ) : Prop :=
  x.Files fun key c m =>
    c.key = key ∧ c.isComplete = true ∧ Supplied setup orders c m ∧ HasSlot setup

theorem Accounted.mono {setup : HostSetup} {x : Host τ} {orders : List Order}
    (h : Accounted setup orders x) (more : List Order) : Accounted setup (orders ++ more) x :=
  Files.mono h fun ⟨hkey, hcomplete, hsupplied, hslot⟩ =>
    ⟨hkey, hcomplete, hsupplied.mono more, hslot⟩

variable [LedgerAccess τ]

/-- Carries an order out. -/
def carryOut (setup : HostSetup) (x : Host τ) : Order → Host τ
  | .open c code => (x.openPool setup c code).2
  | .close c => x.closePool setup c
  | .closeAll => x.closeAll setup
  | .reset c => x.resetPool setup c
  | .resetAll => x.resetAll setup

/-- Carries orders out one after another. -/
def carryOutAll (setup : HostSetup) (x : Host τ) (orders : List Order) : Host τ :=
  orders.foldl (carryOut setup) x

variable {setup : HostSetup} {x y : Host τ} {orders : List Order}

namespace Accounted

theorem openPool (h : Accounted setup orders x) (c : ContractId) (code : Code) :
    Accounted setup (orders ++ [.open c code]) (x.openPool setup c code).2 := by
  refine Files.openPool (h.mono [.open c code]) fun {m trial z} hm htrial => ?_
  obtain ⟨hcomplete, hcode⟩ := making_eq_ok hm
  have hmem : Order.open c code ∈ orders ++ [.open c code] :=
    List.mem_append_right _ List.mem_cons_self
  exact ⟨rfl, hcomplete, ⟨code, hmem, hcode⟩, hasSlot_of_create htrial⟩

/-- **One order keeps the account.** -/
theorem carryOut (h : Accounted setup orders x) (order : Order) :
    Accounted setup (orders ++ [order]) (x.carryOut setup order) := by
  cases order with
  | «open» c code => exact h.openPool c code
  | close c => exact mono (Files.closeKey h c.key) _
  | closeAll => exact mono (Files.foldl (fun key hy => hy.closeKey key) x.poolKeys h) _
  | reset c => exact mono (Files.resetKey h c.key) _
  | resetAll => exact mono (Files.foldl (fun key hy => hy.resetKey key) x.poolKeys h) _

theorem carryOutAll (h : Accounted setup orders x) (more : List Order) :
    Accounted setup (orders ++ more) (x.carryOutAll setup more) := by
  induction more generalizing orders x with
  | nil => rwa [List.append_nil]
  | cons order more ih =>
    have hrest := ih (h.carryOut order)
    rwa [List.append_assoc] at hrest

end Accounted

/-- **What is filed under a key was opened under that key**, whatever orders were carried out. -/
theorem accounted_carryOutAll (setup : HostSetup) (ledger : τ) (orders : List Order) :
    Accounted setup orders (({ ledger } : Host τ).carryOutAll setup orders) := by
  have hempty : Accounted setup [] ({ ledger } : Host τ) := Files.of_empty ledger
  have hrun := hempty.carryOutAll orders
  rwa [List.nil_append] at hrun

/-! ### Answers -/

/-- The pool that answers is that of a complete contract with the key that was asked for, and its
module was made of a code with which this contract was opened. -/
theorem Accounted.answer (h : Accounted setup orders x) {c : ContractId} {code : Code} {id : PoolId}
    (hopen : x.openPool setup c code = (.ok id, y)) :
    ∃ p, y.pools.get? id = some p ∧ p.contract.key = c.key ∧ p.contract.isComplete = true ∧
      Supplied setup (orders ++ [.open c code]) p.contract p.program ∧ HasSlot setup := by
  obtain ⟨-, p, hp, hfiled⟩ := openPool_eq_ok h.orderly hopen
  have hy := h.openPool c code
  rw [hopen] at hy
  exact ⟨p, hp, hy.each hfiled⟩

/-- The code of a module without contents. -/
def blankCode : Code :=
  { image := imageMagic ++ imageVersion }

/-- **A complete contract can be opened** on a new host, if the engine can hold an instance. -/
theorem openPool_blankCode (hslot : HasSlot setup) (ledger : τ) {c : ContractId}
    (hc : c.isComplete = true) :
    ∃ id y, ({ ledger } : Host τ).openPool setup c blankCode = (.ok id, y) := by
  have hcode : Module.ofCode setup.config.engine blankCode = .ok ⟨.blank, digest blankCode.image⟩ :=
    rfl
  obtain ⟨i, y, hcreate⟩ := createInstance_blank (m := ⟨.blank, digest blankCode.image⟩) rfl
    { ledger } hslot
  have hcomplete : ¬ (!c.isComplete) = true := by simp [hc]
  -- the pool is created empty after one instance on trial, which succeeds
  have hpool : ∃ p z, Pool.create (supply setup) c ⟨.blank, digest blankCode.image⟩
      setup.config.pool ({ ledger } : Host τ) = (.ok p, z) := by
    unfold Pool.create
    simp only [supply, hcreate]
    exact ⟨_, _, rfl⟩
  obtain ⟨p, z, hp⟩ := hpool
  show ∃ id y, ({ ledger } : Host τ).createPool setup c blankCode = (.ok id, y)
  unfold createPool
  rw [if_neg hcomplete, if_neg (by decide), hcode]
  dsimp only
  rw [hp]
  exact ⟨_, _, rfl⟩

/-- Contracts with one key are given the same pool. -/
theorem openPool_of_key (h : x.Orderly) {c d : ContractId} (hkey : c.key = d.key)
    {code : Code} (code' : Code) {id : PoolId}
    (hopen : x.openPool setup d code = (.ok id, y)) : y.openPool setup c code' = (.ok id, y) := by
  have hid : y.poolId? c = some id := by
    unfold poolId?
    rw [hkey]
    exact (openPool_eq_ok h hopen).1
  unfold openPool
  rw [hid]

/-! ### Contracts that share no key -/

/-- Among some contracts, the key of a complete one belongs to it alone. -/
def KeysTell (S : ContractId → Prop) : Prop :=
  ∀ {c d}, S c → S d → d.isComplete = true → c.key = d.key → c = d

/-- Among some contracts, and whatever was asked of the pools before, none is ever answered with the
pool of another, nor with a module that was made for another, and none that is not complete is
answered. -/
def AnswersOwn (setup : HostSetup) (ledger : τ) (S : ContractId → Prop) : Prop :=
  ∀ orders : List Order, (∀ c code, .open c code ∈ orders → S c) →
    ∀ {c : ContractId} {code : Code} {id : PoolId} {y : Host τ}, S c →
      (({ ledger } : Host τ).carryOutAll setup orders).openPool setup c code = (.ok id, y) →
      c.isComplete = true ∧ ∃ p, y.pools.get? id = some p ∧ p.contract = c ∧
        Supplied setup (orders ++ [.open c code]) c p.program

/-- **Every contract is answered with its own pool exactly if keys are not shared**, or if no pool
can be made at all. -/
theorem answersOwn_iff (ledger : τ) (S : ContractId → Prop) :
    AnswersOwn setup ledger S ↔ (HasSlot setup → KeysTell S) := by
  constructor
  · intro hown hslot c d hc hd hcomplete hkey
    -- the complete contract is opened first; the other one is then given the same pool
    obtain ⟨id, y, hopen⟩ := openPool_blankCode hslot ledger hcomplete
    obtain ⟨-, p, hp, hpd, -⟩ := hown [] (fun _ _ h => nomatch h) hd hopen
    have hrun : ({ ledger } : Host τ).carryOutAll setup [.open d blankCode] = y := by
      show (({ ledger } : Host τ).openPool setup d blankCode).2 = y
      rw [hopen]
    have hsecond := openPool_of_key (.of_empty ledger) hkey blankCode hopen
    rw [← hrun] at hsecond
    obtain ⟨-, q, hq, hqc, -⟩ := hown [.open d blankCode]
      (fun e code hmem => by cases List.mem_singleton.mp hmem; exact hd) hc hsecond
    rw [hrun, hp] at hq
    cases hq
    exact hqc.symm.trans hpd
  · intro htell orders hS c code id y hc hopen
    have haccount := accounted_carryOutAll setup ledger orders
    obtain ⟨p, hp, hkey, hcomplete, hsupplied, hslot⟩ := haccount.answer hopen
    -- whatever contract the pool was opened for is one of those that were asked for
    have hmember : S p.contract := by
      obtain ⟨code', hmem, -⟩ := hsupplied
      rcases List.mem_append.mp hmem with hbefore | hnow
      · exact hS _ _ hbefore
      · cases List.mem_singleton.mp hnow
        exact hc
    have hsame : c = p.contract := htell hslot hc hmember hcomplete hkey.symm
    rw [hsame]
    exact ⟨hcomplete, p, hp, rfl, hsame ▸ hsupplied⟩

/-- A contract without a name is answered with the pool of one that was opened before it. -/
theorem nameless_answered_by_another :
    ∃ id y p, (({ ledger := default } : Host Session).carryOutAll { chainId := "chain1" }
        [.open ⟨"_", "x"⟩ blankCode]).openPool { chainId := "chain1" } ⟨"", "_x"⟩ blankCode =
          (.ok id, y) ∧
      y.pools.get? id = some p ∧ p.contract = ⟨"_", "x"⟩ := by
  have hslot : HasSlot { chainId := "chain1" } := fun _ => by decide
  obtain ⟨id, y, hopen⟩ := openPool_blankCode hslot (default : Session) (c := ⟨"_", "x"⟩) rfl
  have hsecond := openPool_of_key (.of_empty default) (c := ⟨"", "_x"⟩) (d := ⟨"_", "x"⟩)
    rfl blankCode hopen
  have hempty : Accounted { chainId := "chain1" } [] ({ ledger := default } : Host Session) :=
    Files.of_empty default
  obtain ⟨p, hp, -, -, ⟨code, hmem, -⟩, -⟩ := hempty.answer hopen
  have hcontract : p.contract = ⟨"_", "x"⟩ := (Order.open.inj (List.mem_singleton.mp hmem)).1
  refine ⟨id, y, p, ?_, hp, hcontract⟩
  show ((({ ledger := default } : Host Session).openPool _ ⟨"_", "x"⟩ blankCode).2).openPool _ _
    _ = _
  rw [hopen]
  exact hsecond

end Host

end ContractHost
