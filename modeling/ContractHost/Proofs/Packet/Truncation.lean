import ContractHost.Proofs.Packet.Faults

/-!
# Packets that are cut off

A packet that is cut off need not be refused: between two items nothing shows that something is
missing.  Anywhere else the cut goes through a field, or stands before a field other than the first
of an item, and then the reader reports that field.  No check fires before it, since all fields
before the cut are those of a packet that can be read.

## Main definitions

* `Item.fields`, `Packet.fields` — the fields that are written.
* `Packet.CutAt` — the field that is cut.

## Main results

* `Packet.exists_cutAt` — whatever is cut off, there is such a field.
* `Packet.decode_of_shortened` — **what a reader makes of a packet that is cut off.**
-/

namespace ContractHost

/-! ### The fields of a packet -/

/-- The fields of an item, as they are written. -/
def Item.fields (i : Item) : List Bytes :=
  [Bytes.ofWord i.origin.tag, Bytes.ofWord (Utf8.encode i.key).lengthWord, Utf8.encode i.key,
    Bytes.ofWord i.value.kind.tag, Bytes.ofWord i.value.toBytes.lengthWord, i.value.toBytes]

theorem Item.flatten_fields (i : Item) : i.fields.flatten = i.encode := by
  simp [fields, encode]

namespace Packet

/-- The fields of a packet, as they are written. -/
def fields (p : Packet) : List Bytes :=
  p.items.flatMap Item.fields

theorem flatten_fields (p : Packet) : p.fields.flatten = p.encode := by
  obtain ⟨l⟩ := p
  induction l with
  | nil => rfl
  | cons i l ih =>
    have hfields : fields ⟨i :: l⟩ = i.fields ++ fields ⟨l⟩ := rfl
    rw [hfields, List.flatten_append, ih, Item.flatten_fields, encode_cons]

/-- When `n` bytes of a packet are left, the field `field` is cut: the fields `before` it are there
in full, and of this one some bytes are missing. -/
structure CutAt (p : Packet) (n : Nat) (before : List Bytes) (field : Bytes) : Prop where
  /-- The packet has the field. -/
  is_field : ∃ after, p.fields = before ++ field :: after
  /-- It begins among the bytes that are left, or behind the last of them. -/
  start_le : before.flatten.length ≤ n
  /-- It needs more bytes than are left. -/
  lt_end : n < before.flatten.length + field.length

theorem exists_split {n : Nat} : ∀ {l : List Bytes}, n < l.flatten.length →
    ∃ before field after, l = before ++ field :: after ∧ before.flatten.length ≤ n ∧
      n < before.flatten.length + field.length := by
  intro l
  induction l generalizing n with
  | nil =>
    intro h
    simp at h
  | cons b l ih =>
    intro h
    rw [List.flatten_cons, List.length_append] at h
    by_cases hn : n < b.length
    · exact ⟨[], b, l, rfl, by simp, by simpa using hn⟩
    · obtain ⟨before, field, after, rfl, hstart, hend⟩ := ih (n := n - b.length) (by omega)
      refine ⟨b :: before, field, after, rfl, ?_, ?_⟩
      all_goals
        rw [List.flatten_cons, List.length_append]
        omega

/-- Whatever is cut off, some field is cut. -/
theorem exists_cutAt {p : Packet} {n : Nat} (h : n < p.encode.length) :
    ∃ before field, p.CutAt n before field := by
  rw [← flatten_fields] at h
  obtain ⟨before, field, after, hfields, hstart, hend⟩ := exists_split h
  exact ⟨before, field, ⟨after, hfields⟩, hstart, hend⟩

/-- A field of a packet is a field of one of its items. -/
theorem item_of_fields : ∀ {l : List Item} {before : List Bytes} {field : Bytes}
    {after : List Bytes}, fields ⟨l⟩ = before ++ field :: after →
    ∃ l₁ i l₂ before' after', l = l₁ ++ i :: l₂ ∧ before = fields ⟨l₁⟩ ++ before' ∧
      i.fields = before' ++ field :: after' := by
  intro l
  induction l with
  | nil =>
    intro before field after h
    simp [fields] at h
  | cons i l ih =>
    intro before field after h
    have hcons (l : List Item) : fields ⟨i :: l⟩ = i.fields ++ fields ⟨l⟩ := rfl
    -- a field of a later item
    have hlater : ∀ more, fields ⟨l⟩ = more ++ field :: after → before = i.fields ++ more →
        ∃ l₁ j l₂ before' after', i :: l = l₁ ++ j :: l₂ ∧ before = fields ⟨l₁⟩ ++ before' ∧
          j.fields = before' ++ field :: after' := by
      rintro more hmore rfl
      obtain ⟨l₁, j, l₂, before', after', rfl, rfl, hj⟩ := ih hmore
      refine ⟨i :: l₁, j, l₂, before', after', rfl, ?_, hj⟩
      rw [hcons, List.append_assoc]
    rw [hcons] at h
    obtain ⟨more, hbefore, hmore⟩ | ⟨more, hi, hmore⟩ := List.append_eq_append_iff.mp h
    · exact hlater more hmore hbefore
    · cases more with
      | nil => exact hlater [] (by simpa using hmore.symm) (by simpa using hi.symm)
      | cons field' more =>
        obtain ⟨rfl, -⟩ := List.cons.inj hmore
        exact ⟨[], i, l, before, more, rfl, rfl, hi⟩

/-- What stands before a field of an item within the limits leads up to it. -/
theorem lead_of_fields {i : Item} {before : List Bytes} {field : Bytes} {after : List Bytes}
    (hi : i.WithinLimits) (h : i.fields = before ++ field :: after) :
    ∃ f, Lead before.flatten f ∧ f.size = field.length := by
  obtain ⟨hkey, hvalue⟩ := hi
  have hkeyLength := Lead.originTag i.origin .start
  have hkeyField := hkeyLength.keyLength hkey
  have hkindTag := hkeyField.key
  have hvalueLength := hkindTag.kindTag i.value.kind.tag
  have hvalueField := hvalueLength.valueLength hvalue
  unfold Item.fields Bytes.lengthWord at h
  match before, h with
  | [], h =>
    cases h
    exact ⟨_, .start, rfl⟩
  | [_], h =>
    cases h
    exact ⟨_, hkeyLength, rfl⟩
  | [_, _], h =>
    cases h
    exact ⟨_, hkeyField, rfl⟩
  | [_, _, _], h =>
    cases h
    exact ⟨.kindTag, by simpa using hkindTag, rfl⟩
  | [_, _, _, _], h =>
    cases h
    exact ⟨.valueLength _, by simpa using hvalueLength, rfl⟩
  | [_, _, _, _, _], h =>
    cases h
    exact ⟨.value _ _, by simpa using hvalueField, rfl⟩
  | _ :: _ :: _ :: _ :: _ :: _ :: _, h => simp at h

/-! ### Reading what is left -/

/-- Reading a packet that is cut within an item fails at the field that is cut. -/
theorem decode_of_cutAt {p : Packet} {b : Bytes} {before : List Bytes} {field : Bytes}
    (hp : p.WithinLimits) (hb : b <+: p.encode) (hinside : ∀ j, b ≠ encode ⟨p.items.take j⟩)
    (hcut : p.CutAt b.length before field) :
    decode b = .error (.truncated before.flatten.length) := by
  obtain ⟨l⟩ := p
  obtain ⟨⟨after, hfields⟩, hstart, hend⟩ := hcut
  -- what is left: the fields before the one that is cut, and a part of this one
  obtain ⟨left, rfl⟩ : before.flatten <+: b := by
    refine List.prefix_of_prefix_length_le ?_ hb hstart
    rw [← flatten_fields, hfields, List.flatten_append]
    exact List.prefix_append ..
  rw [List.length_append, Nat.add_lt_add_iff_left] at hend
  obtain ⟨l₁, i, l₂, before', after', rfl, rfl, hi⟩ := item_of_fields hfields
  have hitems := List.forall_mem_append.mp hp.2
  obtain ⟨f, hlead, hsize⟩ := lead_of_fields (List.forall_mem_cons.mp hitems.2).1 hi
  have hwhole : (fields ⟨l₁⟩ ++ before').flatten = encode ⟨l₁⟩ ++ before'.flatten := by
    rw [List.flatten_append, flatten_fields]
  have hlength : l₁.length < maxItems := by
    have hmax := hp.1
    simp only [List.length_append, List.length_cons] at hmax
    omega
  rw [hwhole, List.append_assoc]
  refine decode_eq_error_iff.mpr ⟨l₁, before'.flatten ++ left, rfl,
    ⟨Nat.le_of_lt hlength, hitems.1⟩, ?_, .inr ⟨hlength, ?_⟩⟩
  · intro hnil
    refine hinside l₁.length ?_
    rw [hwhole, List.append_assoc, hnil]
    simp
  · rw [List.length_append]
    exact .truncated hlead (by omega)

/-- **What a reader makes of a packet that is cut off.**  When the cut is between two items, the
items before it are read, and no others.  Anywhere else some field is cut, and reading fails with
an error that says where this field begins. -/
theorem decode_of_shortened {p : Packet} {b : Bytes} (hp : p.WithinLimits) (hb : b <+: p.encode) :
    (∀ j, b = encode ⟨p.items.take j⟩ → decode b = .ok ⟨p.items.take j⟩) ∧
    ((∀ j, b ≠ encode ⟨p.items.take j⟩) →
      (∃ before field, p.CutAt b.length before field) ∧
        ∀ before field, p.CutAt b.length before field →
          decode b = .error (.truncated before.flatten.length)) := by
  constructor
  · rintro j rfl
    refine decode_encode ⟨?_, fun i hi => hp.2 i (List.mem_of_mem_take hi)⟩
    exact Nat.le_trans (List.length_take_le' j p.items) hp.1
  · intro hinside
    refine ⟨exists_cutAt (Nat.lt_of_le_of_ne hb.length_le fun hlength => ?_),
      fun before field hcut => decode_of_cutAt hp hb hinside hcut⟩
    refine hinside p.items.length ?_
    rw [List.take_length]
    exact hb.eq_of_length hlength

/-- A key of which the last byte is missing. -/
theorem decode_of_shortened_key :
    decode [1, 0, 0, 0, 2, 0, 0, 0, 97] = .error (.truncated 8) := by
  let p : Packet := ⟨[⟨.user, "ab", .bytes []⟩]⟩
  have hb : [1, 0, 0, 0, 2, 0, 0, 0, 97] <+: p.encode := by decide
  refine ((decode_of_shortened (p := p) (by decide) hb).2 fun j => ?_).2
    [Bytes.ofWord 1, Bytes.ofWord 2] (Utf8.encode "ab") ⟨⟨_, rfl⟩, by decide, by decide⟩
  cases j with
  | zero => decide
  | succ j =>
    rw [List.take_of_length_le (by simp [p])]
    decide

end Packet

end ContractHost
