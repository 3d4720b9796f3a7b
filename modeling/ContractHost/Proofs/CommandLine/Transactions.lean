import ContractHost.CommandLine.Run
import ContractHost.Proofs.CommandLine.Report
import ContractHost.Proofs.Host.Events
import ContractHost.Proofs.Host.Nesting
import ContractHost.Proofs.Ledger.Interleaving

/-!
# The transactions of a command

An invocation from the command line is a number of transactions one after another: one that sets the
contract up, if it is asked for, and then the rounds.  Calls work on the transaction, and never on
the committed state.  Only when a transaction is over, and its outcome is a success, its writes are
put over the committed state, which later transactions find.

A round that fails does not keep the next one from being carried out.  A transaction without an
outcome does, and so does a contract that could not be set up.

## Main definitions

* `Session.Open` — a transaction that has not committed.
* `CommandLine.Requested`, `CommandLine.requested` — the transactions that are asked for.
* `CommandLine.Carried`, `CommandLine.history` — those that are carried out.
* `Carried.committed` — what a transaction commits.

## Main results

* `Session.stable_open` — **no operation of a contract commits.**
* `CommandLine.transacted_runTransaction` — **what one transaction comes to.**
* `CommandLine.executeInvoke_eq` — a command is its history.
* `CommandLine.committed_throughout` — **the committed state at every point of a command.**
-/

namespace ContractHost

/-! ### A transaction and its ledger -/

/-- The writes may be replayed in parts. -/
theorem Ledger.replay_replay (l : Ledger) (writes later : List Write) :
    (l.replay writes).replay later = l.replay (writes ++ later) :=
  List.foldl_append.symm

/-- A transaction that has not committed: it works on a ledger under a name, what it has buffered is
what its writes make of the ledger, and it has written to stored keys only. -/
structure Session.Open (l : Ledger) (id : String) (s : Session) : Prop where
  /-- It works on the ledger. -/
  ledger : s.ledger = l
  /-- This is its name. -/
  id : s.tx.id = id
  /-- Its writes are what it has buffered. -/
  overlay : s.overlay = l.replay s.tx.writes
  /-- Every key is a text. -/
  keys : ∀ w ∈ s.tx.writes, ∃ key, w.key = Utf8.encode key

namespace Session

variable {l : Ledger} {id : String}

theorem open_begin (l : Ledger) (id : String) : Open l id ⟨l, { id }⟩ :=
  ⟨rfl, rfl, rfl, nofun⟩

theorem Open.record {s : Session} (h : s.Open l id) (contract key field : String)
    (value : Option Bytes) : (s.record contract (StateKey.join key field) value).Open l id := by
  let w : Write := ⟨contract, StateKey.join key field, value⟩
  refine ⟨h.ledger, h.id, ?_, fun w' hw' => ?_⟩
  · have hbuffered := overlay_record s w
    rw [h.overlay, ← Ledger.replay_append] at hbuffered
    exact hbuffered
  · rcases List.mem_append.mp hw' with hw' | hw'
    · exact h.keys w' hw'
    · rw [List.mem_singleton.mp hw']
      exact ⟨_, StateKey.join_eq_encode key field⟩

/-- **No operation of a contract commits.** -/
theorem stable_open (l : Ledger) (id : String) : Stable (Open l id) := by
  constructor
  · rintro t t' name key field value ht ⟨rfl⟩
    exact ht.record name key field (some value)
  · rintro t t' name key field ht ⟨rfl⟩
    exact ht.record name key field none
  all_goals exact fun _ _ ht => ht

theorem Open.ledger_commit {s : Session} (h : s.Open l id) :
    s.commit.ledger = l.replay s.tx.writes :=
  h.overlay

end Session

namespace CommandLine

variable {setup : HostSetup} {h : Host Session}

/-! ### One transaction -/

/-- A host on which a transaction begins. -/
def begun (id : String) (h : Host Session) : Host Session :=
  { h with ledger := ⟨h.ledger.ledger, { id }⟩ }

theorem orderly_begun (hx : h.Orderly) (id : String) : (begun id h).Orderly :=
  hx.congr rfl rfl rfl

/-- What a transaction comes to, and the host that it leaves. -/
inductive Transacted (setup : HostSetup) (id : String) (call : Call) (h : Host Session) :
    Except Failure Outcome → Host Session → Prop
  /-- It has succeeded, and commits what the call has left. -/
  | committed {o : Outcome} {y : Host Session}
      (hinvoke : ((begun id h).invoke setup call).1 = .finished (.ok o)) (ho : o.isSuccess = true)
      (horderly : y.Orderly) (hy : y.ledger.Open h.ledger.ledger id) :
      Transacted setup id call h (.ok o) { y with ledger := y.ledger.commit }
  /-- It has failed. -/
  | failed {o : Outcome} {y : Host Session}
      (hinvoke : ((begun id h).invoke setup call).1 = .finished (.ok o)) (ho : o.isSuccess = false)
      (horderly : y.Orderly) (hy : y.ledger.Open h.ledger.ledger id) :
      Transacted setup id call h (.ok o) y
  /-- It has no outcome. -/
  | broken {f : Failure} {y : Host Session} (hy : y.ledger.Open h.ledger.ledger id) :
      Transacted setup id call h (.error f) y

/-- **What every transaction comes to.** -/
theorem transacted_runTransaction (hx : h.Orderly) (setup : HostSetup) (id : String) (call : Call) :
    Transacted setup id call h (runTransaction setup id call h).1
      (runTransaction setup id call h).2 := by
  have hbegun := orderly_begun hx id
  have hcalled : (Host.invokeWithin setup false (setup.gasLimit + 1) call
      (begun id h)).2.ledger.Open h.ledger.ledger id :=
    Host.stable_invokeWithin (Session.stable_open _ id) setup false (setup.gasLimit + 1) hbegun
      (Session.open_begin _ id)
  have hcall : (Host.invokeWithin setup false (setup.gasLimit + 1) call (begun id h)).2.Orderly :=
    Host.orderly_perform hbegun setup (setup.gasLimit + 1) (.new call)
  -- whoever waits for an instance no longer does so, and the ledger is left as it is
  have hsaved : ((begun id h).invoke setup call).2.ledger.Open h.ledger.ledger id :=
    Host.withdraw_of_leave (P := fun x => x.ledger.Open h.ledger.ledger id) (fun hx => hx)
      (fun htended hx => htended.ledger ▸ hx) hcall hcalled _
  have htidy : Invoker.Tidy (Host.invokeWithin (τ := Session) setup false (setup.gasLimit + 1)) :=
    Host.tidy_invokeWithin setup false (setup.gasLimit + 1)
  have hbegins : { h with ledger := { h.ledger with tx := { id } } } = begun id h := rfl
  unfold runTransaction
  rw [hbegins]
  dsimp only
  cases hinvoke : (begun id h).invoke setup call with
  | mk completion y =>
    rw [hinvoke] at hsaved
    cases completion with
    | suspended => exact .broken hsaved
    | finished result =>
      obtain ⟨hy, -⟩ := htidy hbegun (Host.perform_of_invoke hinvoke)
      cases result with
      | error e => exact .broken hsaved
      | ok o =>
        dsimp only
        split
        · exact .committed (congrArg Prod.fst hinvoke) ‹_› hy hsaved
        · exact .failed (congrArg Prod.fst hinvoke) (Bool.eq_false_iff.mpr ‹_›) hy hsaved

/-! ### The history of a command -/

/-- A transaction that a command asks for. -/
structure Requested where
  /-- The name of the transaction. -/
  id : String
  /-- What is called in it. -/
  call : Call
  /-- It sets the contract up: it is not reported, and the command fails unless it succeeds. -/
  setsUp : Bool := false

/-- A transaction that was carried out. -/
structure Carried where
  /-- What was asked for. -/
  request : Requested
  /-- The host before it. -/
  before : Host Session
  /-- What it has come to. -/
  result : Except Failure Outcome
  /-- The host after it. -/
  after : Host Session

/-- Carries out a transaction. -/
def Requested.carryOut (setup : HostSetup) (r : Requested) (h : Host Session) : Carried :=
  ⟨r, h, (runTransaction setup r.id r.call h).1, (runTransaction setup r.id r.call h).2⟩

namespace Carried

/-- The code of its outcome is zero. -/
def succeeded (c : Carried) : Bool :=
  match c.result with
  | .ok o => o.code = 0
  | .error _ => false

/-- What it adds to the committed state: all its writes if it has succeeded, and nothing else. -/
def committed (c : Carried) : List Write :=
  if c.succeeded then c.after.ledger.tx.writes else []

/-- The failure of the command to which it leads. -/
def failure? (c : Carried) : Option Failure :=
  match c.result with
  | .error f => some f
  | .ok o =>
    if c.request.setsUp && !o.isSuccess then
      some { message := s!"init_contract failed: {o.message}" }
    else none

/-- The report on it. -/
def report? (c : Carried) : Option Node :=
  match c.result with
  | .error _ => none
  | .ok o => if c.request.setsUp then none else some (Report.ofRound o c.after.ledger.tx.writes)

/-- The call in it, with the host that the call finds. -/
def root (setup : HostSetup) (c : Carried) : Attempt Session :=
  (begun c.request.id c.before).root setup (.new c.request.call)

variable {c : Carried}

theorem of_error {f : Failure} (hc : c.result = .error f) :
    c.failure? = some f ∧ c.report? = none := by
  unfold failure? report?
  rw [hc]
  exact ⟨rfl, rfl⟩

theorem report?_of_setsUp (h : c.request.setsUp = true) : c.report? = none := by
  unfold report?
  rw [h]
  split <;> rfl

theorem report?_eq_some {document : Node} (h : c.report? = some document) :
    ∃ o, document = Report.ofRound o c.after.ledger.tx.writes := by
  unfold report? at h
  split at h
  · cases h
  · rename_i o _
    split at h
    · cases h
    · exact ⟨o, (Option.some.inj h).symm⟩

theorem of_round {o : Outcome} (hround : c.request.setsUp = false) (hc : c.result = .ok o) :
    c.failure? = none ∧ c.report? = some (Report.ofRound o c.after.ledger.tx.writes) := by
  unfold failure? report?
  rw [hc, hround]
  exact ⟨rfl, rfl⟩

end Carried

/-- Transactions that are carried out one after another, until one leads to a failure. -/
def history (setup : HostSetup) : List Requested → Host Session → List Carried
  | [], _ => []
  | r :: rest, h =>
    r.carryOut setup h ::
      if (r.carryOut setup h).failure?.isSome then []
      else history setup rest (r.carryOut setup h).after

theorem history_of_failure {r : Requested} {f : Failure}
    (hfailure : (r.carryOut setup h).failure? = some f) (rest : List Requested) :
    history setup (r :: rest) h = [r.carryOut setup h] := by
  unfold history
  rw [hfailure, if_pos Option.isSome_some]

theorem history_of_none {r : Requested} (hfailure : (r.carryOut setup h).failure? = none)
    (rest : List Requested) : history setup (r :: rest) h =
      r.carryOut setup h :: history setup rest (r.carryOut setup h).after := by
  rw [history, hfailure, if_neg (by exact Bool.false_ne_true)]

/-- The host after a number of transactions. -/
def final : Host Session → List Carried → Host Session
  | h, [] => h
  | _, c :: rest => final c.after rest

/-- The transaction of one round. -/
def roundOf (call : Call) (round : Nat) : Requested :=
  { id := s!"tx-{round}", call }

/-- The call of all rounds. -/
def callOfRounds (code : Code) (o : InvokeOptions) : Call :=
  { contract := ⟨o.name, o.version⟩, code, method := o.method,
    params := OrderedMap.ofList (o.params.map fun p => (p.1, Utf8.encode p.2)),
    gasUsed := o.gasUsed }

/-- The transaction that sets the contract up. -/
def setUp (code : Code) (o : InvokeOptions) : Requested :=
  { id := "tx-init", setsUp := true
    call := { contract := ⟨o.name, o.version⟩, code, method := exportNames.init } }

/-- The transactions that a command asks for. -/
def requested (code : Code) (o : InvokeOptions) : List Requested :=
  (if o.init then [setUp code o] else []) ++
    (List.range o.rounds).map (roundOf (callOfRounds code o))

/-- The host on which a command begins: the contract is deployed beside the other ones. -/
def startOf (code : Code) (o : InvokeOptions) (ledger : Ledger) : Host Session :=
  { ledger := ⟨ledger.deploy ⟨o.name, o.version⟩ code, { id := "" }⟩ }

theorem runRound_of_error {call : Call} {round : Nat} {f : Failure}
    (hresult : ((roundOf call round).carryOut setup h).result = .error f) (documents : List Node) :
    runRound setup call ({ documents }, h) round =
      ({ documents, failure := some f }, ((roundOf call round).carryOut setup h).after) := by
  unfold Requested.carryOut roundOf at hresult ⊢
  unfold runRound
  dsimp only at hresult ⊢
  generalize runTransaction setup s!"tx-{round}" call h = ended at hresult ⊢
  obtain ⟨result, y⟩ := ended
  rw [show result = .error f from hresult]
  rfl

theorem runRound_of_ok {call : Call} {round : Nat} {o : Outcome}
    (hresult : ((roundOf call round).carryOut setup h).result = .ok o) (documents : List Node) :
    runRound setup call ({ documents }, h) round =
      let y := ((roundOf call round).carryOut setup h).after
      ({ documents := documents ++ [Report.ofRound o y.ledger.tx.writes] }, y) := by
  unfold Requested.carryOut roundOf at hresult ⊢
  unfold runRound
  dsimp only at hresult ⊢
  generalize runTransaction setup s!"tx-{round}" call h = ended at hresult ⊢
  obtain ⟨result, y⟩ := ended
  rw [show result = .ok o from hresult]
  rfl

theorem foldl_runRound_failed {call : Call} {printed : Printed} (hfailed : printed.failure.isSome)
    (rounds : List Nat) (h : Host Session) :
    rounds.foldl (runRound setup call) (printed, h) = (printed, h) := by
  induction rounds with
  | nil => rfl
  | cons n rest ih =>
    have hround : runRound setup call (printed, h) n = (printed, h) := if_pos hfailed
    rw [List.foldl_cons, hround, ih]

/-- **The rounds are their history.** -/
theorem foldl_runRound (setup : HostSetup) (call : Call) (rounds : List Nat)
    (documents : List Node) (h : Host Session) :
    rounds.foldl (runRound setup call) ({ documents }, h) =
      ({ documents := documents ++
          (history setup (rounds.map (roundOf call)) h).filterMap Carried.report?
         failure := (history setup (rounds.map (roundOf call)) h).findSome? Carried.failure? },
        final h (history setup (rounds.map (roundOf call)) h)) := by
  -- by induction on the rounds: a round that fails ends the command, and no later one prints
  induction rounds generalizing documents h with
  | nil => exact congrArg (fun documents => (({ documents } : Printed), h)) (List.append_nil _).symm
  | cons n rest ih =>
    let c := (roundOf call n).carryOut setup h
    rw [List.foldl_cons, List.map_cons]
    cases hresult : c.result with
    | error f =>
      obtain ⟨hfailure, hreport⟩ := Carried.of_error hresult
      rw [runRound_of_error hresult, history_of_failure hfailure, foldl_runRound_failed rfl,
        List.filterMap_cons_none hreport, List.findSome?_cons, hfailure]
      exact congrArg (fun documents => (({ documents, failure := some f } : Printed), c.after))
        (List.append_nil documents).symm
    | ok o =>
      obtain ⟨hfailure, hreport⟩ := Carried.of_round (c := c) rfl hresult
      rw [runRound_of_ok hresult, history_of_none hfailure, List.filterMap_cons_some hreport,
        List.findSome?_cons, hfailure, List.append_cons]
      exact ih _ c.after

/-- Setting the contract up is a transaction, too. -/
theorem runInit_eq (setup : HostSetup) (call : Call) (h : Host Session) :
    runInit setup call h =
      let c := Requested.carryOut setup
        { id := "tx-init", call := { call with method := exportNames.init }, setsUp := true } h
      (c.failure?.elim (.ok ()) .error, c.after) := by
  unfold runInit Carried.failure? Requested.carryOut
  dsimp only
  generalize runTransaction setup "tx-init" { call with method := exportNames.init } h = ended
  obtain ⟨result, y⟩ := ended
  cases result with
  | error f => rfl
  | ok o =>
    dsimp only
    cases o.isSuccess <;> rfl

/-- **A command is its history**: it prints the reports, fails as the last transaction says, and
leaves the host that the last transaction leaves. -/
theorem executeInvoke_eq (setup : HostSetup) (code : Code) (o : InvokeOptions) (ledger : Ledger) :
    executeInvoke setup code o ledger =
      ({ documents := (history setup (requested code o) (startOf code o ledger)).filterMap
          Carried.report?
         failure := (history setup (requested code o) (startOf code o ledger)).findSome?
          Carried.failure? },
        final (startOf code o ledger)
          (history setup (requested code o) (startOf code o ledger))) := by
  have hrounds (h : Host Session) := foldl_runRound setup (callOfRounds code o)
    (List.range o.rounds) [] h
  simp only [List.nil_append] at hrounds
  unfold executeInvoke requested
  -- the initialisation, if there is one, prints nothing unless it fails
  cases hinit : o.init with
  | false => exact hrounds (startOf code o ledger)
  | true =>
    let c := (setUp code o).carryOut setup (startOf code o ledger)
    have hsetUp : runInit setup { contract := ⟨o.name, o.version⟩, code, method := o.method }
        { ledger := ⟨ledger.deploy ⟨o.name, o.version⟩ code, { id := "" }⟩ } =
          (c.failure?.elim (.ok ()) .error, c.after) := runInit_eq setup _ _
    have hreport : c.report? = none := Carried.report?_of_setsUp rfl
    simp only [if_true, List.cons_append, List.nil_append, hsetUp]
    cases hfailure : c.failure? with
    | some f =>
      rw [history_of_failure hfailure, List.filterMap_cons_none hreport, List.findSome?_cons,
        hfailure]
      rfl
    | none =>
      rw [history_of_none hfailure, List.filterMap_cons_none hreport, List.findSome?_cons,
        hfailure]
      exact hrounds c.after

/-! ### The committed state -/

/-- What a number of transactions make of the committed state: the writes of those with the code
zero, in their order. -/
def committedBy (l : Ledger) (done : List Carried) : Ledger :=
  l.replay (done.flatMap Carried.committed)

theorem committedBy_cons (l : Ledger) (c : Carried) (done : List Carried) :
    committedBy l (c :: done) = committedBy (l.replay c.committed) done :=
  (l.replay_replay _ _).symm

theorem committedBy_concat (l : Ledger) (done : List Carried) (c : Carried) :
    committedBy l (done ++ [c]) = (committedBy l done).replay c.committed := by
  unfold committedBy
  rw [List.flatMap_append, List.flatMap_singleton, Ledger.replay_replay]

/-- **A transaction adds what it commits to the committed state**, and nothing else. -/
theorem ledger_carryOut (hx : h.Orderly) (setup : HostSetup) (r : Requested) :
    (r.carryOut setup h).after.ledger.ledger =
        h.ledger.ledger.replay (r.carryOut setup h).committed ∧
      (∀ w ∈ (r.carryOut setup h).after.ledger.tx.writes, ∃ key, w.key = Utf8.encode key) ∧
      ((r.carryOut setup h).failure? = none → (r.carryOut setup h).after.Orderly) := by
  have htransacted := transacted_runTransaction hx setup r.id r.call
  unfold Carried.committed Carried.succeeded Carried.failure? Requested.carryOut
  dsimp only
  generalize runTransaction setup r.id r.call h = ended at htransacted ⊢
  obtain ⟨result, after⟩ := ended
  -- committed, or rolled back after a failed call, or never finished
  cases htransacted with
  | committed hinvoke ho horderly hy =>
    have hcode : decide (_ = (0 : UInt32)) = true := ho
    dsimp only
    rw [if_pos hcode]
    exact ⟨hy.ledger_commit, hy.keys, fun _ => horderly.congr rfl rfl rfl⟩
  | failed hinvoke ho horderly hy =>
    have hcode : ¬ decide (_ = (0 : UInt32)) = true := Bool.eq_false_iff.mp ho
    dsimp only
    rw [if_neg hcode]
    exact ⟨hy.ledger, hy.keys, fun _ => horderly⟩
  | broken hy => exact ⟨hy.ledger, hy.keys, nofun⟩

/-- Transactions are carried out in the order in which they are asked for. -/
theorem request_history (setup : HostSetup) (requests : List Requested) (h : Host Session) :
    (history setup requests h).map Carried.request <+: requests := by
  induction requests generalizing h with
  | nil => exact List.prefix_refl []
  | cons r rest ih =>
    cases hfailure : (r.carryOut setup h).failure? with
    | some f =>
      rw [history_of_failure hfailure]
      exact ⟨rest, rfl⟩
    | none =>
      rw [history_of_none hfailure]
      exact List.cons_prefix_cons.mpr ⟨rfl, ih _⟩

/-- They are all carried out, unless one of them leads to a failure. -/
theorem request_history_of_none {requests : List Requested} {h : Host Session}
    (hnone : (history setup requests h).findSome? Carried.failure? = none) :
    (history setup requests h).map Carried.request = requests := by
  induction requests generalizing h with
  | nil => rfl
  | cons r rest ih =>
    cases hfailure : (r.carryOut setup h).failure? with
    | some f =>
      rw [history_of_failure hfailure, List.findSome?_cons, hfailure] at hnone
      cases hnone
    | none =>
      rw [history_of_none hfailure, List.findSome?_cons, hfailure] at hnone
      rw [history_of_none hfailure, List.map_cons, ih hnone]
      rfl

/-- **Every transaction finds what the earlier ones have committed.** -/
theorem ledger_before {requests : List Requested} (hx : h.Orderly) {done later : List Carried}
    {c : Carried} (hrun : history setup requests h = done ++ c :: later) :
    c = c.request.carryOut setup c.before ∧ c.before.Orderly ∧
      c.before.ledger.ledger = committedBy h.ledger.ledger done := by
  induction requests generalizing h done with
  | nil => exact absurd hrun.symm (List.append_ne_nil_of_right_ne_nil _ (List.cons_ne_nil _ _))
  | cons r rest ih =>
    obtain ⟨hledger, -, horderly⟩ := ledger_carryOut hx setup r
    cases done with
    | nil =>
      have hfirst : r.carryOut setup h = c := by
        unfold history at hrun
        exact (List.cons.inj hrun).1
      rw [← hfirst]
      exact ⟨rfl, hx, rfl⟩
    | cons d done =>
      cases hfailure : (r.carryOut setup h).failure? with
      | some f =>
        -- nothing comes after a failure
        rw [history_of_failure hfailure] at hrun
        obtain ⟨-, hnil⟩ := List.cons.inj hrun
        exact absurd hnil.symm (List.append_ne_nil_of_right_ne_nil _ (List.cons_ne_nil _ _))
      | none =>
        rw [history_of_none hfailure] at hrun
        obtain ⟨hfirst, hrest⟩ := List.cons.inj hrun
        obtain ⟨hc, hbefore, hnow⟩ := ih (horderly hfailure) hrest
        refine ⟨hc, hbefore, ?_⟩
        rw [hnow, hledger, ← hfirst, committedBy_cons]

/-- **In the end all is committed that some transaction has committed.** -/
theorem ledger_final (hx : h.Orderly) (setup : HostSetup) (requests : List Requested) :
    (final h (history setup requests h)).ledger.ledger =
      committedBy h.ledger.ledger (history setup requests h) := by
  induction requests generalizing h with
  | nil => rfl
  | cons r rest ih =>
    obtain ⟨hledger, -, horderly⟩ := ledger_carryOut hx setup r
    cases hfailure : (r.carryOut setup h).failure? with
    | some f =>
      rw [history_of_failure hfailure, committedBy_cons, ← hledger]
      rfl
    | none =>
      rw [history_of_none hfailure, committedBy_cons, ← hledger]
      exact ih (horderly hfailure)

/-- **No call of a transaction changes the committed state**, nor do the calls nested in it, even if
they never come to an end. -/
theorem ledger_throughout {c : Carried} (hx : c.before.Orderly) (setup : HostSetup) :
    ∀ t ∈ (c.root setup).family setup, t.host.ledger.ledger = c.before.ledger.ledger ∧
      ∀ v ∈ t.visits setup, v.before.world.ledger.ledger = c.before.ledger.ledger := by
  intro t ht
  obtain ⟨-, hhost, hvisits⟩ := (c.root setup).saved (orderly_begun hx c.request.id)
    (Session.stable_open c.before.ledger.ledger c.request.id) (Session.open_begin _ _) t ht
  exact ⟨hhost.ledger, fun v hv => (hvisits v hv).ledger⟩

/-- **The committed state at every point of a command.**  The transactions are carried out in the
order in which they are asked for: the one that sets the contract up, if it is asked for, and then
the rounds.  They are all carried out unless the command fails.  Every transaction finds what
exactly those before it have committed whose outcome has the code zero, and so does every call in
it, at every request.  After it its own writes are committed, too, if its code is zero; otherwise
nothing is changed.  The reports are printed in the same order, and the writes that a report tells
of a success are the change that was made. -/
theorem committed_throughout (setup : HostSetup) (code : Code) (o : InvokeOptions)
    (ledger : Ledger) :
    let start := startOf code o ledger
    let run := history setup (requested code o) start
    let committed := committedBy start.ledger.ledger
    run.map Carried.request <+: requested code o ∧
    ((executeInvoke setup code o ledger).1.failure = none →
      run.map Carried.request = requested code o) ∧
    (∀ done c later, run = done ++ c :: later →
      c.before.ledger.ledger = committed done ∧
      (∀ t ∈ (c.root setup).family setup, t.host.ledger.ledger = committed done ∧
        ∀ v ∈ t.visits setup, v.before.world.ledger.ledger = committed done) ∧
      c.after.ledger.ledger = committed (done ++ [c]) ∧
      ∀ document, c.report? = some document →
        ∃ writes, Report.writeSet? document = some writes ∧
          c.after.ledger.ledger =
            if c.succeeded then c.before.ledger.ledger.replay writes
            else c.before.ledger.ledger) ∧
    (executeInvoke setup code o ledger).1.documents = run.filterMap Carried.report? ∧
    (executeInvoke setup code o ledger).2.ledger.ledger = committed run := by
  intro start run committed
  have hstart : start.Orderly := .of_empty _
  rw [executeInvoke_eq]
  refine ⟨request_history setup _ _, request_history_of_none, fun done c later hrun => ?_, rfl,
    ledger_final hstart setup _⟩
  -- before a request the ledger holds what the ones before have committed
  obtain ⟨hc, hbefore, hnow⟩ := ledger_before hstart hrun
  obtain ⟨hafter, hkeys, -⟩ := ledger_carryOut hbefore setup c.request
  rw [← hc] at hafter hkeys
  refine ⟨hnow, ?_, ?_, fun document hdocument => ?_⟩
  · have hduring := ledger_throughout hbefore setup
    rwa [hnow] at hduring
  · rw [hafter, hnow]
    exact (committedBy_concat _ done c).symm
  · obtain ⟨outcome, rfl⟩ := Carried.report?_eq_some hdocument
    refine ⟨_, Report.writeSet?_ofRound outcome hkeys, ?_⟩
    rw [hafter]
    unfold Carried.committed
    split <;> rfl

/-! ### A command with a success and a failure -/

/-- The body of a request that sets the value of a key to one byte. -/
def settingOf (key : String) : Bytes :=
  Packet.encode ⟨[⟨.user, "key", .text key⟩, ⟨.user, "value", .bytes [1]⟩]⟩

/-- A contract that writes when it is set up, and when it is invoked writes and traps. -/
def keepingCode : Code :=
  let first := headerOf 1 .putState
  let second := headerOf 2 .putState
  let script : Script :=
    { data := [(1024, first ++ settingOf "a"), (2048, second ++ settingOf "b")]
      methods := [(exportNames.init, { body := [Host.askedAt 1024 first (settingOf "a")] }),
        ("run", { body := [Host.askedAt 2048 second (settingOf "b"), .trap] })] }
  ⟨[1], some script⟩

/-- A command that sets the contract up and invokes it once. -/
def keepingOptions : InvokeOptions :=
  { wasm := "", name := "keeping", method := "run", init := true }

/-- What the transactions of the command come to. -/
theorem history_keeping :
    (history Host.singleSetup (requested keepingCode keepingOptions)
      (startOf keepingCode keepingOptions {})).map
        (fun c => (c.request.id, c.succeeded, c.after.ledger.tx.writes, c.committed)) =
      [("tx-init", true, [⟨"keeping", [97], some [1]⟩], [⟨"keeping", [97], some [1]⟩]),
        ("tx-0", false, [⟨"keeping", [98], some [1]⟩], [])] := by decide +kernel

/-- Of the two writes one is committed. -/
theorem committed_throughout_keeping :
    (executeInvoke Host.singleSetup keepingCode keepingOptions {}).2.ledger.ledger =
      (startOf keepingCode keepingOptions {}).ledger.ledger.replay
        [⟨"keeping", [97], some [1]⟩] := by
  obtain ⟨-, -, -, -, hend⟩ :=
    committed_throughout Host.singleSetup keepingCode keepingOptions {}
  have hcommitted := congrArg (List.flatMap fun found => found.2.2.2) history_keeping
  rw [List.flatMap_map] at hcommitted
  rw [hend]
  exact congrArg (Ledger.replay _) hcommitted

end CommandLine

end ContractHost
