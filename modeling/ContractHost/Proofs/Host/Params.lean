import ContractHost.Proofs.Host.Events
import ContractHost.Proofs.Packet.Params

/-!
# The parameters of a nested call

A contract that calls another one sends the parameters along, as a packet within the body of its
request.  The host reads this packet, and writes what it has read into the memory of the instance
that is called, together with the handle of the new invocation.  That is a packet again, and the
script that is called may hand it back to its host as it is.

The host has accepted the packet, so it has at most `Packet.maxItems` items.  If each of them is a
parameter of its own, and none is named like the handle, the packet that is written has one item
more than a host accepts.

## Main definitions

* `Context.written` — the parameters of an invocation as they are written for its instance.
* `Host.requestOf` — the body of a request for a call, with parameters.

## Main results

* `Host.params_of_callAsked` — a call has the parameters that its caller has sent along.
* `Host.written_of_callGuest` — **a method finds its parameters in its memory.**
* `Host.nested_params` — **when the parameters of a nested call can be read again.**
* `Host.crowded_params` — accepted parameters that cannot.
-/

namespace ContractHost

variable {τ : Type} [LedgerAccess τ] {setup : HostSetup}

/-! ### From the caller to the instance -/

/-- The parameters of an invocation as they are written for its instance. -/
def Context.written (c : Context) : Bytes :=
  (Packet.ofParams handleParam c.handle c.params).encode

section

open Serving

/-- Whoever asks for a call, and sends parameters along, asks for a call with these parameters. -/
theorem comesTo_params_callOf (gas : Nat) {body blob : Bytes} {b q : Packet}
    (hbody : Packet.decode body = .ok b) (hblob : b.getBytes "param" = .ok blob)
    (hparams : Packet.decode blob = .ok q) (d : Desk τ) :
    ComesTo (fun asked _ => ∀ ptr call, asked = .ok (ptr, call) → call.params = q.toMap)
      d (callOf setup gas body) := by
  have herror (e : RequestFault) : ∀ ptr call,
      (.error e : Except RequestFault (Int32 × Call)) = .ok (ptr, call) → call.params = q.toMap :=
    fun _ _ h => by cases h
  have hlisted (ptr : Int32) (name method : String) :
      ComesTo (fun asked _ => ∀ ptr call, asked = .ok (ptr, call) → call.params = q.toMap) d
        (Host.callListed (UInt64.ofNat (setup.gasLimit - gas)) ptr name method q.toMap) := by
    refine reads_ledger.comesTo_bind herror fun t => ?_
    refine (reads_ofLedger _).comesTo_bind herror fun listed => comesTo_context_bind ?_
    refine comesTo_deeper_bind herror fun _ ptr call hcall => ?_
    cases hcall
    rfl
  refine comesTo_ofPacket_bind herror fun b' hb' => ?_
  obtain rfl : b = b' := Except.ok.inj (hbody.symm.trans hb')
  refine (reads_place b).comesTo_bind herror fun ptr => ?_
  refine (reads_ofPacket _).comesTo_bind herror fun name => ?_
  refine (reads_ofPacket _).comesTo_bind herror fun method => ?_
  dsimp only
  split
  · exact herror _
  · split
    · refine comesTo_ofPacket_bind herror fun blob' hblob' => ?_
      obtain rfl : blob = blob' := Except.ok.inj (hblob.symm.trans hblob')
      refine comesTo_ofPacket_bind herror fun q' hq' => ?_
      obtain rfl : q = q' := Except.ok.inj (hparams.symm.trans hq')
      exact hlisted ptr name method
    · -- there is an item for the parameters, since it was read
      rename_i hnone
      unfold Packet.getBytes at hblob
      rw [hnone] at hblob
      cases hblob

end

namespace Host

variable {x z : Host τ} {c : Context} {call : Call}

/-- A call has the parameters that its caller has sent along. -/
theorem params_of_callAsked {gas : Nat} {body blob : Bytes} {b q : Packet} {y : Host τ}
    (hbody : Packet.decode body = .ok b) (hblob : b.getBytes "param" = .ok blob)
    (hparams : Packet.decode blob = .ok q)
    (hasked : x.callAsked? setup c gas body = some (call, y)) : call.params = q.toMap := by
  have hcall : Serving.ComesTo _ (x.desk c) (callOf setup gas body) :=
    comesTo_params_callOf gas hbody hblob hparams (x.desk c)
  unfold Serving.ComesTo at hcall
  unfold callAsked? serveOn at hasked
  generalize (x.desk c).run (callOf setup gas body) = ran at hcall hasked
  obtain ⟨asked, d⟩ := ran
  cases asked with
  | error e => cases hasked
  | ok found =>
    cases hasked
    exact hcall _ _ rfl

theorem params_of_begin {s : Begun τ} (h : z.begin setup call = .ok s) :
    s.context.params = call.params :=
  (context_of_enter (e := .new call) h).2.2.2

end Host

section

variable {σ : Type} {guest : Guest} {calls : HostCalls σ} {breaksOff : Bool} {i j : Instance}
variable {world w : σ}

/-- What was written into the memory of an instance can be read there. -/
theorem Instance.written_of_writeParams {params : Bytes} {ptr : Int32}
    (h : i.writeParams calls breaksOff params world guest = (.ok ptr, j, w)) :
    j.memory.bytesFrom ptr.toInt.toNat params.length = params := by
  unfold writeParams at h
  split at h
  · cases h
  · split at h
    · cases h
    · rename_i k y ptr' hcall
      dsimp only at h
      split at h
      · cases h
      · split at h
        · cases h
        · split at h
          · cases h
          · rename_i memory hwrite
            cases h
            -- the bytes are put where the allocator said, if they fit there
            unfold Memory.write? at hwrite
            split at hwrite
            · cases hwrite
              have hread := Memory.bytesFrom_put y.memory ptr.toInt.toNat [] params []
              simpa using hread
            · cases hwrite

/-- **A method finds its parameters in its memory.**  A run that comes to a good end has called the
method when they were written there. -/
theorem Host.written_of_callGuest {c : Context} {budget : UInt64}
    (h : callGuest guest calls breaksOff c budget i world = (.ok (), j, w)) :
    ∃ (k : Instance) (start : σ) (place : Nat),
      k.memory.bytesFrom place c.written.length = c.written ∧
        k.callMethod calls breaksOff c.method start guest = (.ok (), j, w) := by
  unfold callGuest at h
  split at h
  · cases h
  · split at h
    · cases h
    · dsimp only at h
      split at h
      · cases h
      · rename_i ptr k start hwritten
        exact ⟨k, start, _, Instance.written_of_writeParams hwritten, h⟩

end

/-! ### When they can be read again -/

theorem length_handleParam_le : (Utf8.encode handleParam).length ≤ Packet.maxKeyLength := by
  decide +kernel

/-- **When the parameters of a nested call can be read again.**  A request for a call has sent
parameters along, and the host has accepted them.  Then the invocation of the call has these
parameters.  What is written of them for its instance is accepted again if they are fewer than
`Packet.maxItems`, not counting one that is named like the handle; and what is found in it then are
the same parameters, with the handle in place of that one.  Otherwise there are as many of them as
items may be, and what is written is refused, for the handle is one item too many.  The method that
is called finds what is written in its memory. -/
theorem Host.nested_params {body blob : Bytes} {b q : Packet} (hbody : Packet.decode body = .ok b)
    (hblob : b.getBytes "param" = .ok blob) (hparams : Packet.decode blob = .ok q) {x y z : Host τ}
    {c : Context} {gas : Nat} {call : Call} {s : Begun τ}
    (hasked : x.callAsked? setup c gas body = some (call, y))
    (hbegin : z.begin setup call = .ok s) :
    s.context.params = q.toMap ∧ (q.toMap.erase handleParam).size ≤ Packet.maxItems ∧
      (if (q.toMap.erase handleParam).size < Packet.maxItems then
        ∃ p, Packet.decode s.context.written = .ok p ∧
          p.toMap = q.toMap.insert handleParam (Utf8.encode (toString s.context.handle.toInt))
      else Packet.decode s.context.written = .error (.tooManyItems (Packet.maxItems + 1))) ∧
      ∀ {σ : Type} {guest : Guest} {calls : HostCalls σ} {breaksOff : Bool} {budget : UInt64}
        {j : Instance} {start w : σ},
        callGuest guest calls breaksOff s.context budget s.inst start = (.ok (), j, w) →
          ∃ (k : Instance) (start : σ) (place : Nat),
            k.memory.bytesFrom place s.context.written.length = s.context.written ∧
              k.callMethod calls breaksOff s.context.method start guest = (.ok (), j, w) := by
  have hlimits : q.WithinLimits := (Packet.decode_eq_ok_iff.mp hparams).2
  have hsame : s.context.params = q.toMap :=
    (params_of_begin hbegin).trans (params_of_callAsked hbody hblob hparams hasked)
  refine ⟨hsame, Packet.size_erase_toMap_le hlimits handleParam, ?_, written_of_callGuest⟩
  have hdecode := Packet.decode_ofParams hlimits length_handleParam_le s.context.handle
  unfold Context.written
  rw [hsame]
  split
  · rename_i hroom
    rw [if_pos hroom] at hdecode
    exact ⟨_, hdecode, Packet.toMap_ofParams handleParam s.context.handle q.toMap⟩
  · rename_i hfull
    rw [if_neg hfull] at hdecode
    exact hdecode

namespace Host

/-- A request for a call of the contract that replies, with parameters. -/
def requestPacket (params : Packet) : Packet :=
  ⟨[⟨.user, "contract_name", .text "replying"⟩, ⟨.user, "method", .text "run"⟩,
    ⟨.user, "value_ptr", .int32 0⟩, ⟨.user, "param", .bytes params.encode⟩]⟩

/-- Its body. -/
def requestOf (params : Packet) : Bytes :=
  (requestPacket params).encode

/-- An invocation that asks for a call. -/
def asking : Context :=
  { handle := 1, contract := ⟨"asking", "1"⟩, method := "run" }

/-- A packet with one parameter. -/
def oneParam : Packet :=
  ⟨[⟨.user, "amount", .bytes [1]⟩]⟩

/-- A packet with as many parameters as it may have items, under the numbers from 999 downwards. -/
def manyParams : Packet :=
  ⟨(List.range Packet.maxItems).map fun n => ⟨.user, toString (999 - n), .bytes []⟩⟩

/-- What a request for a call comes to, and the beginning of the call. -/
def begins? (params : Packet) : Option (Begun Session) :=
  (replyingHost.callAsked? singleSetup asking 1000 (requestOf params)).bind fun asked =>
    (asked.2.begin singleSetup asked.1).toOption

theorem exists_begin (params : Packet) (h : (begins? params).isSome = true) :
    ∃ call y s, replyingHost.callAsked? singleSetup asking 1000 (requestOf params) =
      some (call, y) ∧ y.begin singleSetup call = .ok s := by
  obtain ⟨s, hs⟩ := Option.isSome_iff_exists.mp h
  obtain ⟨⟨call, y⟩, hasked, hs⟩ := Option.bind_eq_some_iff.mp hs
  cases hbegin : y.begin singleSetup call with
  | error ended =>
    rw [hbegin] at hs
    cases hs
  | ok s' => exact ⟨call, y, s', hasked, hbegin⟩

/-- One parameter leaves room for the handle. -/
theorem nested_params_oneParam :
    ∃ call y s, replyingHost.callAsked? singleSetup asking 1000 (requestOf oneParam) =
        some (call, y) ∧ y.begin singleSetup call = .ok s ∧
      ∃ p, Packet.decode s.context.written = .ok p ∧
        p.toMap = oneParam.toMap.insert handleParam
          (Utf8.encode (toString s.context.handle.toInt)) := by
  obtain ⟨call, y, s, hasked, hbegin⟩ := exists_begin oneParam (by decide +kernel)
  have hbody : Packet.decode (requestOf oneParam) = .ok (requestPacket oneParam) :=
    Packet.decode_encode (by decide +kernel)
  have hparams : Packet.decode oneParam.encode = .ok oneParam :=
    Packet.decode_encode (by decide +kernel)
  obtain ⟨-, -, hreadable, -⟩ := nested_params hbody (by decide +kernel) hparams hasked hbegin
  rw [if_pos (by decide +kernel)] at hreadable
  exact ⟨call, y, s, hasked, hbegin, hreadable⟩

/-- **Accepted parameters that cannot be read again.**  There are as many of them as a packet may
have items, and the call begins; but what is written for its instance is no packet that its host
accepts. -/
theorem crowded_params :
    Packet.decode manyParams.encode = .ok manyParams ∧
    ∃ call y s, replyingHost.callAsked? singleSetup asking 1000 (requestOf manyParams) =
        some (call, y) ∧ y.begin singleSetup call = .ok s ∧
      Packet.decode s.context.written = .error (.tooManyItems 129) := by
  obtain ⟨call, y, s, hasked, hbegin⟩ := exists_begin manyParams (by decide +kernel)
  have hlimits : manyParams.WithinLimits := by decide +kernel
  have hparams : Packet.decode manyParams.encode = .ok manyParams := Packet.decode_encode hlimits
  have hbody : Packet.decode (requestOf manyParams) = .ok (requestPacket manyParams) :=
    Packet.decode_encode (by decide +kernel)
  have hsame : s.context.params = manyParams.toMap :=
    (params_of_begin hbegin).trans (params_of_callAsked hbody (by rfl) hparams hasked)
  have hdecode := Packet.decode_ofParams hlimits length_handleParam_le s.context.handle
  rw [if_neg (by decide +kernel), ← hsame] at hdecode
  exact ⟨hparams, call, y, s, hasked, hbegin, hdecode⟩

end Host

end ContractHost
