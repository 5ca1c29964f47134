import ZoneStore.Proofs.Name.Packed

/-!
# What stored names and buffers can rely on

Every stored name is the packed form of a name, whichever way it came about,
and every buffer that a reader goes through is that of a draft. Both have
the shape that the unchecked accesses to them rely on.
-/

namespace ZoneStore

open Text

theorem Access.of_map_eq_ok {α β : Type} {f : α → β} {result : Except NameError α} {value : β}
    (h : some (result.map f) = some (.ok value)) :
    ∃ source, result = .ok source ∧ f source = value := by
  cases result with
  | error e => cases h
  | ok source =>
    cases h
    exact ⟨source, rfl, rfl⟩

/-! ## Reading text in place -/

namespace Buffer

theorem readText_buffer (draft : Draft) (octets : List UInt8) :
    draft.buffer.readText octets = some ((Name.readInto draft octets).map Name.packed) := by
  fun_induction Name.readInto draft octets
  case case1 draft => exact Draft.finish_buffer draft
  case case2 draft => rfl
  case case3 draft a hDigit b c rest hValue e hPush =>
    rw [readText, if_pos rfl, if_pos hDigit, if_pos hValue, Draft.push_buffer, hPush]
    rfl
  case case4 draft a hDigit b c rest hValue next hPush ih =>
    rw [readText, if_pos rfl, if_pos hDigit, if_pos hValue, Draft.push_buffer, hPush]
    exact ih
  case case5 draft a hDigit b c rest hValue =>
    rw [readText, if_pos rfl, if_pos hDigit, if_neg hValue]
    rfl
  case case6 draft a rest hDigit hShort =>
    rw [readText, if_pos rfl, if_pos hDigit]
    · rfl
    · exact hShort
  case case7 draft a rest hDigit e hPush =>
    rw [readText.eq_def]
    dsimp only
    rw [if_pos rfl, if_neg hDigit, Draft.push_buffer, hPush]
    rfl
  case case8 draft a rest hDigit next hPush ih =>
    rw [readText.eq_def]
    dsimp only
    rw [if_pos rfl, if_neg hDigit, Draft.push_buffer, hPush]
    exact ih
  case case9 draft rest e hClose hDot =>
    rw [readText.eq_def]
    dsimp only
    rw [if_neg hDot, if_pos rfl, Draft.close_buffer, hClose]
    rfl
  case case10 draft rest next hClose hDot ih =>
    rw [readText.eq_def]
    dsimp only
    rw [if_neg hDot, if_pos rfl, Draft.close_buffer, hClose]
    exact ih
  case case11 draft octet rest hEscape hDot hAscii e hPush =>
    rw [readText.eq_def]
    dsimp only
    rw [if_neg hEscape, if_neg hDot, if_pos hAscii, Draft.push_buffer, hPush]
    rfl
  case case12 draft octet rest hEscape hDot hAscii next hPush ih =>
    rw [readText.eq_def]
    dsimp only
    rw [if_neg hEscape, if_neg hDot, if_pos hAscii, Draft.push_buffer, hPush]
    exact ih
  case case13 draft octet rest hEscape hDot hAscii =>
    rw [readText.eq_def]
    dsimp only
    rw [if_neg hEscape, if_neg hDot, if_neg hAscii]
    rfl

theorem ofText_eq (text : String) :
    ofText text = some ((Name.ofText text).map Name.packed) := by
  unfold ofText Name.ofText Name.ofChars
  split
  · rfl
  · split
    · rfl
    · exact readText_buffer .empty _

end Buffer

/-! ## The shape of stored names -/

namespace PackedName

structure WellFormed (name : PackedName) : Prop where
  length_wire : 1 ≤ name.wire.length ∧ name.wire.length ≤ 255
  length_offsets : 1 ≤ name.offsets.length ∧ name.offsets.length ≤ 128
  first : name.offsets[0]? = some 0
  next : ∀ n, n + 1 < name.offsets.length → ∃ offset length following,
    name.offsets[n]? = some offset ∧ name.wire[offset.toNat]? = some length ∧
      1 ≤ length.toNat ∧ length.toNat ≤ 63 ∧ name.offsets[n + 1]? = some following ∧
      following.toNat = offset.toNat + 1 + length.toNat
  last : ∃ offset, name.offsets.getLast? = some offset ∧
    offset.toNat + 1 = name.wire.length ∧ name.wire.getLast? = some 0

theorem wellFormed_packed (name : Name) : name.packed.WellFormed where
  length_wire := by
    have hWire := name.wireLength_le
    rw [maxWireLength] at hWire
    rw [Name.length_wire_packed]
    omega
  length_offsets := by
    have hWire := name.wireLength_le
    have hLabels := two_mul_length_le name.labels
    rw [maxWireLength] at hWire
    rw [Name.length_offsets_packed, Name.labelCount]
    omega
  first := Name.offsets_packed_getElem? (Nat.zero_le _)
  next := by
    intro n hn
    rw [Name.length_offsets_packed, Name.labelCount] at hn
    have hLabel : n < name.labels.length := Nat.lt_of_succ_lt_succ hn
    have hHead := name.head_wire_packed n
    rw [List.drop_eq_getElem_cons hLabel] at hHead
    refine ⟨_, name.labels[n].octets.length.toUInt8, _,
      Name.offsets_packed_getElem? (Nat.le_of_lt hLabel), ?_, ?_, ?_,
      Name.offsets_packed_getElem? hLabel, ?_⟩
    · rw [Name.toNat_offsetOf, hHead]
      rfl
    · rw [Label.toNat_length]
      exact List.length_pos_iff.mpr name.labels[n].ne_nil
    · rw [Label.toNat_length]
      exact name.labels[n].length_le
    -- The next label starts behind this one, its length octet included.
    · rw [Name.toNat_offsetOf, Name.toNat_offsetOf, Label.toNat_length, Name.offsetOf,
        List.take_succ_eq_append_getElem hLabel, wireLengthOf_append, wireLengthOf_cons,
        wireLengthOf_nil, Label.wireLength, Name.offsetOf]
      omega
  last := by
    have hLast : name.packed.offsets.getLast? = name.packed.offsets[name.labels.length]? := by
      rw [List.getLast?_eq_getElem?, Name.length_offsets_packed, Name.labelCount,
        Nat.add_sub_cancel]
    refine ⟨_, hLast.trans (Name.offsets_packed_getElem? (Nat.le_refl _)), ?_, ?_⟩
    · rw [Name.toNat_offsetOf, Name.offsetOf, List.take_length, Name.length_wire_packed]
    · exact List.getLast?_concat

/-- The names that come about by reading, cutting and copying. -/
inductive IsBuilt : PackedName → Prop
  | root : IsBuilt .root
  | ofText {text : String} {name : PackedName} :
      Buffer.ofText text = some (.ok name) → IsBuilt name
  | ofWire {octets : List UInt8} {name : PackedName} :
      Buffer.ofWire octets = some (.ok name) → IsBuilt name
  | superdomain {name zone : PackedName} {skip : Nat} :
      IsBuilt name → name.superdomain? skip = some (some zone) → IsBuilt zone
  | copy {name duplicate : PackedName} {enough : Bool} :
      IsBuilt name → name.copy? enough = some duplicate → IsBuilt duplicate

theorem isBuilt_iff {name : PackedName} : name.IsBuilt ↔ ∃ plain : Name, plain.packed = name := by
  constructor
  · intro h
    induction h with
    | root => exact ⟨.root, rfl⟩
    | ofText hRead =>
      rw [Buffer.ofText_eq] at hRead
      obtain ⟨plain, _, hPlain⟩ := Access.of_map_eq_ok hRead
      exact ⟨plain, hPlain⟩
    | ofWire hRead =>
      rw [Buffer.ofWire_eq] at hRead
      obtain ⟨plain, _, hPlain⟩ := Access.of_map_eq_ok hRead
      exact ⟨plain, hPlain⟩
    | superdomain _ hZone ih =>
      obtain ⟨plain, rfl⟩ := ih
      rw [Name.superdomain?_packed, Option.some.injEq, Option.map_eq_some_iff] at hZone
      obtain ⟨zone, _, hPlain⟩ := hZone
      exact ⟨zone, hPlain⟩
    | copy _ hCopy ih =>
      obtain ⟨plain, rfl⟩ := ih
      unfold copy? at hCopy
      split at hCopy
      · cases hCopy
        exact ⟨plain, rfl⟩
      · cases hCopy
  · rintro ⟨plain, rfl⟩
    -- Its own wire form is one way to come by a name.
    have hRead : Name.ofWire plain.wire = .ok plain := Name.ofWire_eq_ok_iff.mpr rfl
    apply IsBuilt.ofWire
    rw [Buffer.ofWire_eq, hRead]
    rfl

/-- What the accesses to a stored name come to. -/
structure Reliable (name : PackedName) : Prop where
  wellFormed : name.WellFormed
  label?_isSome_iff : ∀ n, (name.label? n).isSome = true ↔ n < name.labelCount
  superdomain?_of_le : ∀ skip, name.labelCount ≤ skip → name.superdomain? skip = some none
  superdomain?_of_lt : ∀ skip, skip < name.labelCount → ∃ zone,
    name.superdomain? skip = some (some zone) ∧ zone.labelCount = name.labelCount - skip ∧
      (∀ n, zone.label? n = name.label? (skip + n)) ∧
      ∀ more, zone.superdomain? more = name.superdomain? (skip + more)

theorem labelCount_packed (name : Name) : name.packed.labelCount = name.labelCount :=
  name.length_offsets_packed

theorem reliable_packed (name : Name) : name.packed.Reliable where
  wellFormed := wellFormed_packed name
  label?_isSome_iff := by
    intro n
    rw [Name.label?_packed, labelCount_packed, Name.label?, ← Name.length_labelOctets]
    simp
  superdomain?_of_le := by
    intro skip hSkip
    rw [labelCount_packed] at hSkip
    rw [Name.superdomain?_packed, Name.superdomain?, if_neg (Nat.not_lt.mpr hSkip)]
    rfl
  superdomain?_of_lt := by
    intro skip hSkip
    rw [labelCount_packed] at hSkip
    obtain ⟨zone, hZone⟩ : ∃ zone, name.superdomain? skip = some zone := ⟨_, if_pos hSkip⟩
    refine ⟨zone.packed, ?_, ?_, ?_, ?_⟩
    · rw [Name.superdomain?_packed, hZone]
      rfl
    · have hCount := Name.labelCount_superdomain? hZone
      rw [labelCount_packed, labelCount_packed]
      omega
    · intro n
      rw [Name.label?_packed, Name.label?_packed, Name.label?_superdomain? hZone]
    · intro more
      rw [Name.superdomain?_packed, Name.superdomain?_packed, Name.superdomain?_superdomain? hZone]

end PackedName

/-! ## Buffers on the way to a name -/

namespace Buffer

/-- The buffers that a reader goes through. -/
inductive IsReached : Buffer → Prop
  | empty : IsReached .empty
  | push {buffer next : Buffer} {octet : UInt8} :
      IsReached buffer → buffer.push octet = some (.ok next) → IsReached next
  | close {buffer next : Buffer} :
      IsReached buffer → buffer.close = some (.ok next) → IsReached next

theorem IsReached.exists_draft {buffer : Buffer} (h : buffer.IsReached) :
    ∃ draft : Draft, draft.buffer = buffer := by
  induction h with
  | empty => exact ⟨.empty, rfl⟩
  | push _ hPush ih =>
    obtain ⟨draft, rfl⟩ := ih
    rw [Draft.push_buffer] at hPush
    obtain ⟨next, _, hNext⟩ := Access.of_map_eq_ok hPush
    exact ⟨next, hNext⟩
  | close _ hClose ih =>
    obtain ⟨draft, rfl⟩ := ih
    rw [Draft.close_buffer] at hClose
    obtain ⟨next, _, hNext⟩ := Access.of_map_eq_ok hClose
    exact ⟨next, hNext⟩

/-- What the next step of a buffer can rely on. -/
structure InStep (buffer : Buffer) : Prop where
  offsets_lt : buffer.wire.length < 255 → buffer.offsets.length < 128
  push_ne_none : ∀ octet, buffer.push octet ≠ none
  close_ne_none : buffer.close ≠ none
  finish_ne_none : buffer.finish ≠ none
  offsets_close : ∀ next, buffer.close = some (.ok next) → ∃ offset,
    next.offsets = buffer.offsets ++ [offset] ∧ offset.toNat = buffer.wire.length

theorem inStep_buffer (draft : Draft) : draft.buffer.InStep where
  offsets_lt := draft.offsets_lt_of_wire_lt
  push_ne_none := by
    intro octet
    rw [Draft.push_buffer]
    exact Option.some_ne_none _
  close_ne_none := by
    rw [Draft.close_buffer]
    exact Option.some_ne_none _
  finish_ne_none := by
    rw [Draft.finish_buffer]
    exact Option.some_ne_none _
  offsets_close := by
    intro next hClose
    unfold close at hClose
    split at hClose
    · cases hClose
    split at hClose
    · cases hClose
    split at hClose
    · cases hClose
    · rename_i hRoom
      split at hClose
      · cases hClose
      · cases hClose
        have hLength : draft.buffer.wire.length < UInt8.size :=
          Nat.lt_trans (Nat.not_le.mp hRoom) (by decide)
        exact ⟨_, rfl, UInt8.toNat_ofNat_of_lt' hLength⟩

end Buffer

/--
Every name that comes about by reading, cutting and copying has the shape that its accesses rely
on, so that none of them leaves its octets, and every buffer that a reader goes through has room
for the offset of each label that its octets have room for.
-/
theorem stored_names_reliable :
    (∀ name : PackedName, name.IsBuilt → name.Reliable) ∧
    (∀ buffer : Buffer, buffer.IsReached → buffer.InStep) ∧
    (∀ text, Buffer.ofText text = some ((Name.ofText text).map Name.packed)) ∧
    (∀ octets, Buffer.ofWire octets = some ((Name.ofWire octets).map Name.packed)) ∧
    ∀ (name : Name) (skip : Nat), name.packed.IsBuilt ∧
      name.packed.superdomain? skip = some ((name.superdomain? skip).map Name.packed) := by
  refine ⟨?_, ?_, Buffer.ofText_eq, Buffer.ofWire_eq, ?_⟩
  · intro name hBuilt
    obtain ⟨plain, rfl⟩ := PackedName.isBuilt_iff.mp hBuilt
    exact PackedName.reliable_packed plain
  · intro buffer hReached
    obtain ⟨draft, rfl⟩ := hReached.exists_draft
    exact Buffer.inStep_buffer draft
  · intro name skip
    exact ⟨PackedName.isBuilt_iff.mpr ⟨name, rfl⟩, name.superdomain?_packed skip⟩

def letterName : PackedName :=
  ⟨[1, 97, 0], [0, 2]⟩

theorem stored_names_reliable_letter :
    Buffer.ofText "a." = some (.ok letterName) ∧ letterName.Reliable ∧
      letterName.superdomain? 1 = some (some .root) ∧ letterName.superdomain? 2 = some none ∧
      Buffer.InStep ⟨[1, 97], [0], 0⟩ := by
  obtain ⟨hName, hBuffer, _⟩ := stored_names_reliable
  have hText : Buffer.ofText "a." = some (.ok letterName) := rfl
  have hPush : Buffer.empty.push 97 = some (.ok ⟨[1, 97], [0], 0⟩) := rfl
  have hReliable := hName letterName (.ofText hText)
  exact ⟨hText, hReliable, rfl, hReliable.superdomain?_of_le 2 (Nat.le_refl 2),
    hBuffer _ (.push .empty hPush)⟩

end ZoneStore
