import ContractHost.Proofs.Host.Underway
import ContractHost.Proofs.Packet.Reading

/-!
# Memories that hold a request

A script may write anything into its memory before it asks its host for something.  So there is no
request that it cannot make, as long as header and body find room in its memory, and the memory is
exported.

## Main definitions

* `headerOf` — the header of a request.
* `letter`, `letterRegions` — a memory that holds a request, and where it stands.
* `Host.askingCode` — a contract that makes one request after another.

## Main results

* `Host.Underway.addressee_letter` — **a script may ask for anything in its own name.**
-/

namespace ContractHost

theorem Memory.bytesFrom_put (m : Memory) (a : Nat) (before b after : Bytes) :
    (m.put a (before ++ b ++ after)).bytesFrom (a + before.length) b.length = b := by
  refine List.ext_getElem (length_bytesFrom _ _ _) fun i hi hi' => ?_
  have hindex : a + before.length + i - a = before.length + i := by omega
  simp only [bytesFrom, List.getElem_map, List.getElem_range, byte_put]
  rw [if_pos (by omega), hindex, List.getD_eq_getElem?_getD, List.append_assoc,
    List.getElem?_append_right (Nat.le_add_right _ _), Nat.add_sub_cancel_left,
    List.getElem?_append_left hi', List.getElem?_eq_getElem hi']
  rfl

/-! ### Headers -/

/-- The packet of a header. -/
def headerPacket (handle : Int32) (m : Method) : Packet :=
  ⟨[⟨.system, headerKeys.handle, .int32 handle⟩, ⟨.system, headerKeys.method, .text m.name⟩]⟩

/-- The header of a request for an invocation. -/
def headerOf (handle : Int32) (m : Method) : Bytes :=
  (headerPacket handle m).encode

theorem Method.length_name_le (m : Method) : (Utf8.encode m.name).length ≤ 30 := by
  cases m <;> decide +kernel

theorem readHeader_headerOf (handle : Int32) (m : Method) :
    readHeader (headerOf handle m) = .ok (handle, m.name) := by
  have hkeys : (Utf8.encode headerKeys.handle).length ≤ Packet.maxKeyLength ∧
      (Utf8.encode headerKeys.method).length ≤ Packet.maxKeyLength := by decide +kernel
  have hlimits : (headerPacket handle m).WithinLimits := by
    refine ⟨show 2 ≤ Packet.maxItems by decide, ?_⟩
    simp only [headerPacket, List.forall_mem_cons]
    refine ⟨⟨hkeys.1, ?_⟩, ⟨hkeys.2, ?_⟩, nofun⟩
    · show 4 ≤ Packet.maxValueLength
      decide
    · exact Nat.le_trans m.length_name_le (by decide)
  unfold readHeader headerOf
  rw [Packet.decode_encode hlimits]
  rfl

theorem length_headerOf (handle : Int32) (m : Method) :
    0 < (headerOf handle m).length ∧ (headerOf handle m).length ≤ 100 := by
  have hname := m.length_name_le
  have hhandle : (⟨.system, headerKeys.handle, .int32 handle⟩ : Item).encode.length = 27 := rfl
  have hmethod : (⟨.system, headerKeys.method, .text m.name⟩ : Item).encode.length =
      16 + 6 + (Utf8.encode m.name).length := Item.length_encode _
  unfold headerOf headerPacket
  rw [Packet.encode_cons, Packet.encode_cons, Packet.encode_nil, List.append_nil,
    List.length_append, hhandle, hmethod]
  omega

/-! ### Letters -/

/-- A memory that holds a header and a body. -/
def letter (header body : Bytes) : Memory :=
  Memory.put { pages := 1 } 0 (header ++ body)

/-- Where they stand. -/
def letterRegions (header body : Bytes) : Regions :=
  ⟨0, Int32.ofNat header.length, Int32.ofNat header.length, Int32.ofNat body.length⟩

theorem toInt_ofNat {n : Nat} (h : n ≤ pageSize) : (Int32.ofNat n).toInt = n := by
  refine Int32.toInt_ofNat_of_lt ?_
  unfold pageSize at h
  omega

theorem Memory.readRegion_put (before b after : Bytes)
    (hroom : (before ++ b ++ after).length ≤ pageSize) :
    (Memory.put { pages := 1 } 0 (before ++ b ++ after)).readRegion (Int32.ofNat before.length)
      (Int32.ofNat b.length) = .ok b := by
  have hlengths : before.length + b.length + after.length ≤ pageSize := by
    simpa only [List.length_append] using hroom
  have hread := bytesFrom_put { pages := 1 } 0 before b after
  rw [Nat.zero_add] at hread
  have hsize : (Memory.put { pages := 1 } 0 (before ++ b ++ after)).size = pageSize :=
    Nat.one_mul _
  unfold readRegion region
  rw [toInt_ofNat (by omega), toInt_ofNat (by omega), hsize, if_pos (by omega)]
  exact congrArg Except.ok hread

/-- **A header and a body are read where they were written.** -/
theorem readRequest_letter {linkage : Linkage} (hexports : linkage.exportsMemory = true)
    (header body : Bytes) (hroom : header.length + body.length ≤ pageSize) :
    readRequest linkage (letter header body) (letterRegions header body) = .ok (header, body) := by
  have hheader := Memory.readRegion_put [] header body (by
    simpa using hroom)
  have hbody := Memory.readRegion_put header body [] (by
    simpa using hroom)
  rw [List.nil_append] at hheader
  rw [List.append_nil] at hbody
  unfold readRequest exportedMemory
  rw [if_pos hexports]
  show (do
    let h ← (letter header body).readRegion 0 (Int32.ofNat header.length)
    let b ← (letter header body).readRegion (Int32.ofNat header.length) (Int32.ofNat body.length)
    pure (h, b)) = _
  -- the header comes first and the body right after it
  unfold letter
  rw [show (0 : Int32) = Int32.ofNat ([] : Bytes).length from rfl, hheader, hbody]
  rfl

variable {τ : Type} {base : OrderedMap Int32 Context} {c : Context} {x : Host τ}

/-- **A script may ask for anything in its own name.** -/
theorem Host.Underway.addressee_letter (h : Underway base c x) {linkage : Linkage}
    (hbound : linkage.bound = some c.handle) (hexports : linkage.exportsMemory = true) (m : Method)
    {body : Bytes} (hroom : body.length ≤ 60000) :
    x.addressee? linkage (letterRegions (headerOf c.handle m) body)
      (letter (headerOf c.handle m) body) = some (c, m.name, body) := by
  obtain ⟨hpositive, hshort⟩ := length_headerOf c.handle m
  have hread := readRequest_letter hexports (headerOf c.handle m) body (by
    unfold pageSize
    omega)
  have hnonempty : (letterRegions (headerOf c.handle m) body).headerLen ≠ 0 := by
    intro hzero
    have hlength := toInt_ofNat (n := (headerOf c.handle m).length) (by unfold pageSize; omega)
    rw [show Int32.ofNat (headerOf c.handle m).length = 0 from hzero] at hlength
    have hnothing : (0 : Int32).toInt = 0 := rfl
    omega
  unfold addressee?
  rw [if_neg hnonempty, hread]
  simp only [Except.toOption, Option.bind_eq_bind, Option.bind_some, readHeader_headerOf,
    hbound, if_true, h.get?]

namespace Host

/-- What a script asks its host, a header and a body, at some place in its memory. -/
def askedAt (ptr : Nat) (header body : Bytes) : Action :=
  .request (Int32.ofNat ptr) (Int32.ofNat header.length) (Int32.ofNat (ptr + header.length))
    (Int32.ofNat body.length)

/-- A contract that asks its host for one thing after another. -/
def askingCode (asked : List (Nat × Bytes × Bytes)) : Code :=
  let body := asked.map fun (ptr, header, body) => askedAt ptr header body
  let data := asked.map fun (ptr, header, body) => (ptr, header ++ body)
  ⟨[1], some { data, methods := [("run", { body })] }⟩

end Host

end ContractHost
