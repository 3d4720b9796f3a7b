import ContractHost.Proofs.Host.Letters

/-!
# Regions of memories

A contract names regions of its memory by numbers of its own choice, and the place for a reply comes
out of a body that it has written.  A request reads two regions, in which header and body stand, and
only if both lie inside memory; a reply is written if it fits.  So of the memory a request has no
use but for these two regions and for its size.

A text is logged if it lies inside memory, which is checked once more, and in another way.  Both
checks come to the same.

## Main definitions

* `Memory.Inside`, `Memory.InRegion`, `Memory.Fits` — regions, and the addresses in them.
* `Memory.Written` — what has become of a memory into which bytes were written.
* `Host.reply?` — the reply that a request gets.
* `Host.requestBlind` — a request, where of the memory only the size is known.

## Main results

* `readText?_eq` — **both checks of a region come to the same.**
* `readRequest_congr` — **nothing is read but header and body.**
* `Memory.writeRegion_eq`, `applyReply_eq` — **a reply is written if it fits.**
* `Host.request_eq` — **a request knows no more of the memory than its size and what was asked.**
-/

namespace ContractHost

/-! ### Regions -/

namespace Memory

variable {m m' : Memory} {ptr len : Int32} {b : Bytes}

/-- A region that a contract names lies inside memory. -/
def Inside (m : Memory) (ptr len : Int32) : Prop :=
  0 ≤ ptr.toInt ∧ 0 ≤ len.toInt ∧ ptr.toInt + len.toInt ≤ m.size

instance (m : Memory) (ptr len : Int32) : Decidable (m.Inside ptr len) :=
  inferInstanceAs (Decidable (_ ∧ _ ∧ _))

/-- An address lies in a region that a contract names. -/
def InRegion (ptr len : Int32) (a : Nat) : Prop :=
  ptr.toInt ≤ a ∧ (a : Int) < ptr.toInt + len.toInt

/-- Bytes can be written from a place on that a contract names. -/
def Fits (size : Nat) (ptr : Int32) (b : Bytes) : Prop :=
  0 ≤ ptr.toInt ∧ ptr.toInt + b.length ≤ size

instance (size : Nat) (ptr : Int32) (b : Bytes) : Decidable (Fits size ptr b) :=
  inferInstanceAs (Decidable (_ ∧ _))

/-- Bytes have been written to a region inside memory, and nothing else has changed. -/
structure Written (m m' : Memory) (ptr : Int32) (b : Bytes) : Prop where
  /-- The region lies inside memory. -/
  fits : Fits m.size ptr b
  /-- It holds the bytes. -/
  held : m'.bytesFrom ptr.toInt.toNat b.length = b
  /-- All other bytes are as before. -/
  others : ∀ a, ¬ (ptr.toInt.toNat ≤ a ∧ a < ptr.toInt.toNat + b.length) → m'.byte a = m.byte a
  /-- So is the size. -/
  size : m'.size = m.size

/-- The memory after bytes were written to it, if any were. -/
def changed (m : Memory) : Option (Int32 × Bytes) → Memory
  | none => m
  | some (ptr, b) => m.put ptr.toInt.toNat b

/-- The error that is reported for a region outside memory. -/
def outside (size : Nat) (ptr : Int32) (len : Int) : SyscallError :=
  .memoryOutOfBounds ptr.toInt len size

/-- **A region is accepted exactly if it lies inside memory.** -/
theorem region_eq (m : Memory) (ptr len : Int32) :
    m.region ptr len =
      if m.Inside ptr len then .ok (ptr.toInt.toNat, len.toInt.toNat)
      else .error (outside m.size ptr len.toInt) :=
  rfl

theorem readRegion_eq (m : Memory) (ptr len : Int32) :
    m.readRegion ptr len =
      if m.Inside ptr len then .ok (m.bytesFrom ptr.toInt.toNat len.toInt.toNat)
      else .error (outside m.size ptr len.toInt) := by
  unfold readRegion
  rw [region_eq]
  split
  · rfl
  · rfl

theorem readRegion_congr (hsize : m'.size = m.size)
    (hbytes : ∀ a, InRegion ptr len a → m'.byte a = m.byte a) :
    m'.readRegion ptr len = m.readRegion ptr len := by
  have hinside : m'.Inside ptr len ↔ m.Inside ptr len := by
    unfold Inside
    rw [hsize]
  rw [readRegion_eq, readRegion_eq, hsize]
  by_cases h : m.Inside ptr len
  · rw [if_pos (hinside.mpr h), if_pos h]
    obtain ⟨hptr, hlen, -⟩ := h
    refine congrArg Except.ok (List.map_congr_left fun i hi => hbytes _ ?_)
    rw [List.mem_range] at hi
    unfold InRegion
    omega
  · rw [if_neg (mt hinside.mp h), if_neg h]

theorem written_put (h : Fits m.size ptr b) : m.Written (m.put ptr.toInt.toNat b) ptr b where
  fits := h
  held := by
    have hread := bytesFrom_put m ptr.toInt.toNat [] b []
    simpa using hread
  others a ha := by
    rw [byte_put]
    split
    · rw [List.getD_eq_getElem?_getD, List.getElem?_eq_none (by omega), Option.getD_none]
    · rfl
  size := rfl

/-- **A reply is written if it fits**, and otherwise nothing is. -/
theorem writeRegion_eq (m : Memory) (ptr : Int32) (hshort : b.length < 0x80000000) :
    m.writeRegion ptr b =
      if Fits m.size ptr b then .ok (m.put ptr.toInt.toNat b)
      else .error (outside m.size ptr b.length) := by
  have hlen : (Int32.ofNat b.length).toInt = b.length := Int32.toInt_ofNat_of_lt hshort
  have hfits : m.Inside ptr (Int32.ofNat b.length) ↔ Fits m.size ptr b := by
    unfold Inside Fits
    rw [hlen]
    omega
  unfold writeRegion
  rw [if_pos hshort]
  dsimp only
  rw [region_eq, hlen]
  by_cases h : Fits m.size ptr b
  · rw [if_pos (hfits.mpr h), if_pos h]
    rfl
  · rw [if_neg (mt hfits.mp h), if_neg h]
    rfl

end Memory

open Memory

/-- **The check of a text to be logged accepts the same regions**, and the text is what stands
there. -/
theorem readText?_eq (linkage : Linkage) (m : Memory) (ptr len : Int32) :
    readText? linkage m ptr len =
      ((exportedMemory linkage m >>= fun memory => memory.readRegion ptr len).toOption).map
        Utf8.decodeLossy := by
  have hsigns : (ptr < 0 ∨ len < 0) ↔ ptr.toInt < 0 ∨ len.toInt < 0 :=
    or_congr Int32.lt_iff_toInt_lt Int32.lt_iff_toInt_lt
  unfold readText? exportedMemory
  cases linkage.exportsMemory with
  | false =>
    split
    · rfl
    · rfl
  | true =>
    show _ = ((m.readRegion ptr len).toOption).map Utf8.decodeLossy
    rw [readRegion_eq]
    -- the text is read just where a region could be
    by_cases hinside : m.Inside ptr len
    · obtain ⟨hptr, hlen, hend⟩ := id hinside
      have hroom : ¬ m.size < ptr.toInt.toNat + len.toInt.toNat := by omega
      rw [if_pos hinside, if_neg (by rw [hsigns]; omega)]
      simp only [hroom, Nat.add_sub_cancel_left]
      rfl
    · rw [if_neg hinside]
      unfold Inside at hinside
      by_cases hnegative : ptr < 0 ∨ len < 0
      · rw [if_pos hnegative]
        rfl
      · have hroom : m.size < ptr.toInt.toNat + len.toInt.toNat := by
          rw [hsigns] at hnegative
          omega
        rw [if_neg hnegative]
        simp only [hroom]
        rfl

/-! ### What is read -/

section

variable {linkage : Linkage} {m m' : Memory} {r : Regions}

/-- Header and body lie inside memory. -/
def Regions.Inside (r : Regions) (linkage : Linkage) (m : Memory) : Prop :=
  linkage.exportsMemory = true ∧ m.Inside r.headerPtr r.headerLen ∧ m.Inside r.bodyPtr r.bodyLen

/-- Two memories of one size hold the same header and the same body. -/
structure Regions.SameIn (r : Regions) (m m' : Memory) : Prop where
  /-- They are of one size. -/
  size : m'.size = m.size
  /-- The header is the same. -/
  header : ∀ a, InRegion r.headerPtr r.headerLen a → m'.byte a = m.byte a
  /-- So is the body. -/
  body : ∀ a, InRegion r.bodyPtr r.bodyLen a → m'.byte a = m.byte a

theorem readRequest_of_not_inside (h : ¬ r.Inside linkage m) :
    (readRequest linkage m r).toOption = none := by
  unfold readRequest exportedMemory
  unfold Regions.Inside at h
  cases hexports : linkage.exportsMemory with
  | false => rfl
  | true =>
    show (do
      let header ← m.readRegion r.headerPtr r.headerLen
      let body ← m.readRegion r.bodyPtr r.bodyLen
      pure (header, body)).toOption = none
    rw [readRegion_eq, readRegion_eq]
    -- the header is read first; if it is inside, the body is not
    by_cases hheader : m.Inside r.headerPtr r.headerLen
    · have hbody : ¬ m.Inside r.bodyPtr r.bodyLen := fun hbody => h ⟨hexports, hheader, hbody⟩
      rw [if_pos hheader, if_neg hbody]
      rfl
    · rw [if_neg hheader]
      rfl

/-- **Nothing is read but header and body.** -/
theorem readRequest_congr (linkage : Linkage) (h : r.SameIn m m') :
    readRequest linkage m' r = readRequest linkage m r := by
  unfold readRequest exportedMemory
  cases linkage.exportsMemory with
  | false => rfl
  | true =>
    show (do
      let header ← m'.readRegion r.headerPtr r.headerLen
      let body ← m'.readRegion r.bodyPtr r.bodyLen
      pure (header, body)) = (do
      let header ← m.readRegion r.headerPtr r.headerLen
      let body ← m.readRegion r.bodyPtr r.bodyLen
      pure (header, body))
    rw [readRegion_congr h.size h.header, readRegion_congr h.size h.body]

end

/-! ### What is written -/

/-- The reply is short enough for its length to be a number of 32 bits. -/
def Reply.Short : Reply → Prop
  | .write _ b => b.length < 0x80000000
  | _ => True

/-- What a reply makes of a memory of which only the size is known: the signal, and what is
written. -/
def Reply.signalled (linkage : Linkage) (size : Nat) :
    Reply → Except SyscallError (Int32 × Option (Int32 × Bytes))
  | .done => .ok (signals.success, none)
  | .rejected => .ok (signals.failure, none)
  | .write ptr b =>
    if linkage.exportsMemory = false then .error .memoryNotExported
    else if Fits size ptr b then .ok (signals.success, some (ptr, b))
    else .error (outside size ptr b.length)

/-- **A reply takes no more than the size of the memory to be followed.** -/
theorem applyReply_eq (linkage : Linkage) (caller : Caller) {reply : Reply} (h : reply.Short) :
    applyReply linkage caller reply =
      (reply.signalled linkage caller.memory.size).map fun s =>
        (s.1, { caller with memory := caller.memory.changed s.2 }) := by
  cases reply with
  | done => rfl
  | rejected => rfl
  | write ptr b =>
    unfold applyReply Reply.signalled exportedMemory
    cases linkage.exportsMemory with
    | false => rfl
    | true =>
      show (do
        let memory ← caller.memory.writeRegion ptr b
        pure (signals.success, { caller with memory })) =
        (if Fits caller.memory.size ptr b then Except.ok (signals.success, some (ptr, b))
          else Except.error (outside caller.memory.size ptr b.length)).map fun s =>
            (s.1, { caller with memory := caller.memory.changed s.2 })
      rw [writeRegion_eq caller.memory ptr h]
      -- the reply is written whole, or the size of the memory says why not
      by_cases hfits : Fits caller.memory.size ptr b
      · rw [if_pos hfits, if_pos hfits]
        rfl
      · rw [if_neg hfits, if_neg hfits]
        rfl

variable {τ : Type} [LedgerAccess τ]

namespace Host

omit [LedgerAccess τ] in
/-- How a request that was served is answered, where only the size of the memory is known: the
answer, what is written, and the host. -/
def settled (linkage : Linkage) (c : Context) (size : Nat) (served : Served) (y : Host τ) :
    Answer × Option (Int32 × Bytes) × Host τ :=
  match served with
  | .suspended => (.suspended, none, y)
  | .finished (.error (.crashed message)) => (.crashed message, none, y)
  | .finished (.error (.failed e)) => (.signal signals.failure, none, y.record c e)
  | .finished (.ok reply) =>
    match reply.signalled linkage size with
    | .ok (signal, change) => (.signal signal, change, y)
    | .error e => (.signal signals.failure, none, y.record c e)

omit [LedgerAccess τ] in
theorem answer_eq (linkage : Linkage) (c : Context) {served : Served}
    (h : ∀ reply, served = .finished (.ok reply) → reply.Short) (caller : Caller) (y : Host τ) :
    y.answer linkage c served caller =
      ((y.settled linkage c caller.memory.size served).1,
        { caller with
          memory := caller.memory.changed (y.settled linkage c caller.memory.size served).2.1 },
        (y.settled linkage c caller.memory.size served).2.2) := by
  unfold answer settled
  cases served with
  | suspended => rfl
  | finished result =>
    cases result with
    | error e =>
      cases e with
      | failed e => rfl
      | crashed message => rfl
    | ok reply =>
      dsimp only
      rw [applyReply_eq linkage caller (h reply rfl)]
      cases reply.signalled linkage caller.memory.size with
      | ok signalled => rfl
      | error e => rfl

/-- A call of another contract has no use for the memory of its caller. -/
theorem serveCall_memory (setup : HostSetup) (invoke : Invoker τ) (c : Context) (body : Bytes)
    (m : Memory) (caller : Caller) (x : Host τ) :
    x.serveCall setup invoke c body { caller with memory := m } =
      ((x.serveCall setup invoke c body caller).1,
        { (x.serveCall setup invoke c body caller).2.1 with memory := m },
        (x.serveCall setup invoke c body caller).2.2) := by
  unfold serveCall
  dsimp only
  split
  · rfl
  · split
    · rfl
    · rfl
    · rfl

theorem serveRequest_memory (setup : HostSetup) (invoke : Invoker τ) (c : Context) (name : String)
    (body : Bytes) (m : Memory) (caller : Caller) (x : Host τ) :
    x.serveRequest setup invoke c name body { caller with memory := m } =
      ((x.serveRequest setup invoke c name body caller).1,
        { (x.serveRequest setup invoke c name body caller).2.1 with memory := m },
        (x.serveRequest setup invoke c name body caller).2.2) := by
  unfold serveRequest
  split
  · exact serveCall_memory setup invoke c body m caller x
  · rfl

/-- The reply that a request gets, if it gets one. -/
def reply? (setup : HostSetup) (invoke : Invoker τ) (linkage : Linkage) (r : Regions)
    (caller : Caller) (x : Host τ) : Option Reply :=
  match x.addressee? linkage r caller.memory with
  | none => none
  | some (c, name, body) =>
    match (x.serveRequest setup invoke c name body caller).1 with
    | .finished (.ok reply) => some reply
    | _ => none

/-- A request, where of the memory only its size is known, and what was asked of whom: the answer,
what is written, the gas that is left, and the host. -/
def requestBlind (setup : HostSetup) (invoke : Invoker τ) (linkage : Linkage)
    (asked : Option (Context × String × Bytes)) (size gas : Nat) (x : Host τ) :
    Answer × Option (Int32 × Bytes) × Nat × Host τ :=
  match asked with
  | none => (.signal signals.failure, none, gas, x)
  | some (c, name, body) =>
    let (served, caller, y) := x.serveRequest setup invoke c name body ⟨{ pages := 0 }, gas⟩
    let (answer, change, z) := y.settled linkage c size served
    (answer, change, caller.gas, z)

/-- **A request knows no more of the memory than its size and what was asked of whom.** -/
theorem request_eq {setup : HostSetup} {invoke : Invoker τ} {linkage : Linkage} {r : Regions}
    {caller : Caller} {x : Host τ}
    (h : ∀ reply, x.reply? setup invoke linkage r caller = some reply → reply.Short) :
    x.request setup invoke linkage r caller =
      let t := x.requestBlind setup invoke linkage (x.addressee? linkage r caller.memory)
        caller.memory.size caller.gas
      (t.1, ⟨caller.memory.changed t.2.1, t.2.2.1⟩, t.2.2.2) := by
  unfold reply? at h
  unfold request requestBlind
  cases hasked : x.addressee? linkage r caller.memory with
  | none => rfl
  | some asked =>
    obtain ⟨c, name, body⟩ := asked
    rw [hasked] at h
    -- serving does not look at the memory, so any other would do as well
    have hmemory := serveRequest_memory setup invoke c name body caller.memory
      ⟨{ pages := 0 }, caller.gas⟩ x
    dsimp only at h hmemory ⊢
    have hcaller : caller = { memory := caller.memory, gas := caller.gas } := rfl
    rw [← hcaller] at hmemory
    rw [hmemory] at h ⊢
    generalize x.serveRequest setup invoke c name body ⟨{ pages := 0 }, caller.gas⟩ = t at h ⊢
    obtain ⟨served, caller', y⟩ := t
    dsimp only
    rw [answer_eq]
    rintro reply rfl
    exact h reply rfl

end Host

end ContractHost
