import ZoneStore.Name.Buffer
import ZoneStore.Proofs.Name.Wire

/-!
# Reading in place

A draft stands for the buffer that holds its labels in their wire form. The
steps of the buffer keep pace with the steps of the draft, and none of them
touches a place outside the buffer; with them, reading in place keeps pace
with reading into a draft, cursor and offsets included.
-/

namespace ZoneStore

/-! ## The buffer of a draft -/

theorem length_flatMap_wire (labels : List Label) :
    (labels.flatMap Label.wire).length = wireLengthOf labels := by
  induction labels with
  | nil => rfl
  | cons label labels ih =>
    rw [List.flatMap_cons, List.length_append, ih, wireLengthOf_cons, Label.length_wire]

theorem two_mul_length_le (labels : List Label) : 2 * labels.length ≤ wireLengthOf labels := by
  induction labels with
  | nil => exact Nat.le_refl _
  | cons label labels ih =>
    have hPos := List.length_pos_iff.mpr label.ne_nil
    rw [wireLengthOf_cons, List.length_cons, Label.wireLength]
    omega

namespace Name

theorem length_offsetsFrom (start : Nat) (labels : List Label) :
    (offsetsFrom start labels).length = labels.length + 1 := by
  induction labels generalizing start with
  | nil => rfl
  | cons label labels ih => rw [offsetsFrom, List.length_cons, ih, List.length_cons]

theorem offsetsFrom_append (start : Nat) (labels : List Label) (label : Label) :
    offsetsFrom start (labels ++ [label]) =
      offsetsFrom start labels ++ [start + wireLengthOf labels + label.wireLength] := by
  induction labels generalizing start with
  | nil => rfl
  | cons first labels ih =>
    rw [List.cons_append, offsetsFrom, ih, offsetsFrom, wireLengthOf_cons, Nat.add_assoc start,
      List.cons_append]

end Name

theorem Access.andThen_map {α β γ δ : Type} {next : β → Access δ} {f : α → β}
    {g : α → Except NameError γ} {h : γ → δ} (result : Except NameError α)
    (hNext : ∀ value, next (f value) = some ((g value).map h)) :
    Access.andThen (some (result.map f)) next = some ((result.bind g).map h) := by
  cases result with
  | error e => rfl
  | ok value => exact hNext value

namespace Draft

def buffer (draft : Draft) : Buffer where
  wire := draft.done.reverse.flatMap Label.wire ++
    draft.pending.length.toUInt8 :: draft.pending.reverse
  offsets := (Name.offsetsFrom 0 draft.done.reverse).map Nat.toUInt8
  labelStart := wireLengthOf draft.done

theorem toNat_pendingLength (draft : Draft) :
    draft.pending.length.toUInt8.toNat = draft.pending.length :=
  UInt8.toNat_ofNat_of_lt' (Nat.lt_of_le_of_lt draft.pending_le (by decide))

theorem pendingLength_eq_zero_iff (draft : Draft) :
    draft.pending.length.toUInt8 = 0 ↔ draft.pending = [] := by
  rw [← UInt8.toNat_inj, toNat_pendingLength, ← List.length_eq_zero_iff]
  rfl

theorem labelStart_eq (draft : Draft) :
    draft.buffer.labelStart = (draft.done.reverse.flatMap Label.wire).length := by
  rw [length_flatMap_wire, wireLengthOf_reverse]
  rfl

theorem buffer_openLength (draft : Draft) :
    draft.buffer.wire[draft.buffer.labelStart]? = some draft.pending.length.toUInt8 := by
  rw [labelStart_eq, buffer, List.getElem?_append_right (Nat.le_refl _), Nat.sub_self]
  rfl

theorem length_buffer_wire (draft : Draft) :
    draft.buffer.wire.length = wireLengthOf draft.done + draft.pending.length + 1 := by
  rw [buffer, List.length_append, length_flatMap_wire, wireLengthOf_reverse, List.length_cons,
    List.length_reverse]
  omega

theorem length_buffer_offsets (draft : Draft) :
    draft.buffer.offsets.length = draft.done.length + 1 := by
  rw [buffer, List.length_map, Name.length_offsetsFrom, List.length_reverse]

/-- The offsets never fill their buffer before the octets fill theirs. -/
theorem offsets_lt_of_wire_lt (draft : Draft)
    (h : draft.buffer.wire.length < maxWireLength) :
    draft.buffer.offsets.length < maxLabelCount := by
  have hDone := two_mul_length_le draft.done
  rw [length_buffer_wire, maxWireLength] at h
  rw [length_buffer_offsets, maxLabelCount]
  omega

/-! ## Steps -/

theorem set_openLength (draft : Draft) (octet length : UInt8) :
    (draft.buffer.wire ++ [octet]).set draft.buffer.labelStart length =
      draft.done.reverse.flatMap Label.wire ++ length :: (octet :: draft.pending).reverse := by
  rw [labelStart_eq, buffer, List.append_assoc, List.set_append_right _ _ (Nat.le_refl _),
    Nat.sub_self, List.cons_append, List.set_cons_zero, List.reverse_cons]

theorem push_buffer (draft : Draft) (octet : UInt8) :
    draft.buffer.push octet = some ((draft.push octet).map buffer) := by
  rw [Buffer.push, buffer_openLength]
  dsimp only
  rw [toNat_pendingLength, length_buffer_wire, push]
  split
  · rfl
  · split
    · rfl
    · rw [set_openLength]
      simp only [Except.map, buffer, List.length_cons, Nat.toUInt8, UInt8.ofNat_add]
      rfl

theorem close_buffer (draft : Draft) : draft.buffer.close = some (draft.close.map buffer) := by
  rw [Buffer.close, buffer_openLength]
  dsimp only
  rw [close]
  split
  · rename_i hNull
    rw [dif_pos ((pendingLength_eq_zero_iff draft).mp hNull)]
    rfl
  · rename_i hNull
    have hPending : draft.pending ≠ [] := fun h => hNull ((pendingLength_eq_zero_iff draft).mpr h)
    rw [dif_neg hPending]
    split
    · rename_i hFull
      rw [length_buffer_wire] at hFull
      rw [dif_pos hFull]
      rfl
    · rename_i hRoom
      have hOffsets := offsets_lt_of_wire_lt draft (Nat.not_le.mp hRoom)
      rw [if_neg (Nat.not_le.mpr hOffsets)]
      rw [length_buffer_wire] at hRoom ⊢
      rw [dif_neg hRoom]
      simp only [Except.map, buffer, List.reverse_cons, List.flatMap_append, List.flatMap_cons,
        List.flatMap_nil, Label.wire, Label.wireLength, List.length_reverse, List.append_assoc,
        List.cons_append, List.nil_append, Name.offsetsFrom_append, wireLengthOf_reverse,
        wireLengthOf_cons, List.map_append, Nat.zero_add]
      rw [Nat.add_comm (draft.pending.length + 1)]
      rfl

theorem finish_buffer (draft : Draft) :
    draft.buffer.finish = some (draft.finish.map Name.packed) := by
  rw [Buffer.finish, buffer_openLength]
  dsimp only
  rw [finish]
  split
  · rename_i hNull
    have hPending := (pendingLength_eq_zero_iff draft).mp hNull
    rw [if_pos hPending]
    simp only [Except.map, Name.packed, buffer, Name.wire, Name.offsets, hPending]
    rfl
  · rename_i hNull
    rw [if_neg fun h => hNull ((pendingLength_eq_zero_iff draft).mpr h)]
    rfl

theorem pushAll_buffer (draft : Draft) (octets : List UInt8) :
    draft.buffer.pushAll octets = some ((draft.pushAll octets).map buffer) := by
  induction octets generalizing draft with
  | nil => rfl
  | cons octet octets ih =>
    rw [Buffer.pushAll, push_buffer, pushAll]
    exact Access.andThen_map _ ih

end Draft

/-! ## Reading -/

namespace Buffer

theorem readFrom_buffer (octets : List UInt8) (draft : Draft) (cursor : Nat) :
    readFrom octets draft.buffer cursor =
      some ((Name.readWire draft 0 (octets.drop cursor)).map Name.packed) := by
  induction hLeft : octets.length - cursor using Nat.strongRecOn generalizing draft cursor with
  | ind left ih =>
    rw [readFrom]
    cases hOctet : octets[cursor]? with
    | none =>
      rw [List.drop_eq_nil_of_le (List.getElem?_eq_none_iff.mp hOctet)]
      rfl
    | some length =>
      obtain ⟨hCursor, hHead⟩ := List.getElem?_eq_some_iff.mp hOctet
      have hDrop : octets.drop cursor = length :: octets.drop (cursor + 1) := by
        rw [List.drop_eq_getElem_cons hCursor, hHead]
      have hRest : (octets.drop (cursor + 1)).length = octets.length - (cursor + 1) :=
        List.length_drop
      have hNext : octets.drop (cursor + 1 + length.toNat) =
          (octets.drop (cursor + 1)).drop length.toNat := List.drop_drop.symm
      have hRoom : octets.length < cursor + 1 + length.toNat ↔
          (octets.drop (cursor + 1)).length < length.toNat := by omega
      have hEnd : cursor + 1 = octets.length ↔ (octets.drop (cursor + 1)).isEmpty = true := by
        rw [List.isEmpty_iff, ← List.length_eq_zero_iff]
        omega
      dsimp only
      rw [hDrop]
      by_cases hLong : maxLabelLength < length.toNat
      · rw [if_pos hLong, Name.readWire, if_pos hLong]
        rfl
      by_cases hShort : octets.length < cursor + 1 + length.toNat
      · rw [if_neg hLong, if_pos hShort, Name.readWire, if_neg hLong, if_pos (hRoom.mp hShort)]
        rfl
      have hFits := fun h => hShort (hRoom.mpr h)
      by_cases hNull : length = 0
      · rw [if_neg hLong, if_neg hShort, if_pos hNull, Name.readWire, if_neg hLong, if_neg hFits,
          if_pos hNull]
        by_cases hLast : cursor + 1 = octets.length
        · rw [if_pos hLast, if_pos (hEnd.mp hLast)]
          exact Draft.finish_buffer draft
        · rw [if_neg hLast, if_neg fun h => hLast (hEnd.mpr h)]
          rfl
      · rw [if_neg hLong, if_neg hShort, if_neg hNull, Name.readWire_turn draft hNull hLong hFits,
          Draft.pushLabel_bind, Draft.pushAll_buffer, ← hNext]
        refine Access.andThen_map _ fun filled => ?_
        rw [Draft.close_buffer]
        exact Access.andThen_map _ fun next => ih _ (by omega) next _ rfl

/-- Reading in place gives what reading gives, and never touches a place outside the buffers. -/
theorem ofWire_eq (octets : List UInt8) :
    ofWire octets = some ((Name.ofWire octets).map Name.packed) :=
  readFrom_buffer octets .empty 0

end Buffer

/--
Exactly the wire forms of at most 255 octets are names, and a name has the octets and labels that
were read. The octets of every name are read as a name of the same octets and offsets, and a
reader that writes them in place does the same on all octets, without leaving its buffers.
-/
theorem Name.ofWire_accepts_wireForm (octets : List UInt8) :
    (∀ labels, (∃ name, ofWire octets = .ok name ∧ name.labelOctets = labels ++ [[]]) ↔
      WireForm labels octets ∧ octets.length ≤ 255) ∧
    ((∃ name, ofWire octets = .ok name) ↔
      (∃ labels, WireForm labels octets) ∧ octets.length ≤ 255) ∧
    (∀ name, ofWire octets = .ok name → name.wire = octets) ∧
    (∀ name : Name, ∃ copy, ofWire name.wire = .ok copy ∧ copy.wire = name.wire ∧
      copy.offsets = name.offsets) ∧
    Buffer.ofWire octets = some ((ofWire octets).map packed) := by
  refine ⟨fun labels => exists_ofWire_iff, ?_, fun name h => ofWire_eq_ok_iff.mp h,
    fun name => ⟨name, ofWire_eq_ok_iff.mpr rfl, rfl, rfl⟩, Buffer.ofWire_eq octets⟩
  constructor
  · rintro ⟨name, hName⟩
    obtain ⟨hForm, hLength⟩ := exists_ofWire_iff.mp ⟨name, hName, labelOctets_eq_iff.mpr rfl⟩
    exact ⟨⟨_, hForm⟩, hLength⟩
  · rintro ⟨⟨labels, hForm⟩, hLength⟩
    obtain ⟨name, hName, _⟩ := exists_ofWire_iff.mpr ⟨hForm, hLength⟩
    exact ⟨name, hName⟩

end ZoneStore
