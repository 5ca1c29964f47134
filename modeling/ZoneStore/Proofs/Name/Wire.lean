import ZoneStore.Name.Wire
import ZoneStore.Proofs.Name.Presentation

/-!
# The wire form

Octets are the wire form of labels if each label stands behind its length
and a zero octet stands behind the last label. Reading accepts a sequence of
octets exactly when it is the wire form of labels that make up a name, and
then it is the wire form of the name that was read.
-/

namespace ZoneStore

/-- Octets that hold the given labels and the null label behind them. -/
inductive WireForm : List (List UInt8) → List UInt8 → Prop
  | root : WireForm [] [0]
  | label {length : UInt8} {octets rest : List UInt8} {labels : List (List UInt8)} :
      1 ≤ length.toNat → length.toNat ≤ 63 → octets.length = length.toNat →
      WireForm labels rest → WireForm (octets :: labels) (length :: (octets ++ rest))

/-! ## One turn of the reader -/

namespace Draft

def pushAll (draft : Draft) : List UInt8 → Except NameError Draft
  | [] => .ok draft
  | octet :: octets => (draft.push octet).bind fun next => next.pushAll octets

def pushLabel (draft : Draft) (octets : List UInt8) : Except NameError Draft :=
  (draft.pushAll octets).bind close

theorem feed_pushAll (draft : Draft) (octets : List UInt8) (moves : List Move) :
    draft.feed (octets.map .push ++ moves) =
      (draft.pushAll octets).bind fun next => next.feed moves := by
  induction octets generalizing draft with
  | nil => rfl
  | cons octet octets ih =>
    rw [List.map_cons, List.cons_append, feed, step, pushAll]
    cases draft.push octet with
    | error e => rfl
    | ok next => exact ih next

theorem pushLabel_bind {α : Type} (draft : Draft) (octets : List UInt8)
    (next : Draft → Except NameError α) :
    (draft.pushLabel octets).bind next =
      (draft.pushAll octets).bind fun filled => filled.close.bind next := by
  rw [pushLabel]
  cases draft.pushAll octets with
  | error e => rfl
  | ok filled => rfl

theorem feed_pushLabel (draft : Draft) (octets : List UInt8) (moves : List Move) :
    draft.feed (octets.map .push ++ .close :: moves) =
      (draft.pushLabel octets).bind fun next => next.feed moves := by
  rw [feed_pushAll, pushLabel_bind]
  cases draft.pushAll octets with
  | error e => rfl
  | ok filled =>
    change filled.feed (.close :: moves) = filled.close.bind fun next => next.feed moves
    rw [feed, step]
    cases filled.close with
    | error e => rfl
    | ok next => rfl

end Draft

namespace Name

/-- While octets of a label are due, they are pushed, and the label is closed with the last. -/
theorem readWire_due (draft : Draft) (octets rest : List UInt8) (h : octets ≠ []) :
    readWire draft octets.length (octets ++ rest) =
      (draft.pushLabel octets).bind fun next => readWire next 0 rest := by
  induction octets generalizing draft with
  | nil => exact absurd rfl h
  | cons octet octets ih =>
    rw [List.length_cons, List.cons_append, readWire, Draft.pushLabel, Draft.pushAll]
    cases draft.push octet with
    | error e => rfl
    | ok next =>
      cases octets with
      | nil =>
        dsimp only [List.length_nil, List.nil_append, Except.bind, Draft.pushAll]
        rw [if_pos rfl]
        cases next.close with
        | error e => rfl
        | ok closed => rfl
      | cons second octets => exact ih next (List.cons_ne_nil second octets)

theorem readWire_label (draft : Draft) {length : UInt8} {octets : List UInt8} (rest : List UInt8)
    (hPos : 1 ≤ length.toNat) (hLe : length.toNat ≤ 63) (hLength : octets.length = length.toNat) :
    readWire draft 0 (length :: (octets ++ rest)) =
      (draft.pushLabel octets).bind fun next => readWire next 0 rest := by
  have hZero : length ≠ 0 := by
    rintro rfl
    cases hPos
  rw [readWire, maxLabelLength, if_neg (Nat.not_lt.mpr hLe),
    if_neg (by rw [List.length_append]; omega), if_neg hZero, ← hLength]
  exact readWire_due draft octets rest (List.ne_nil_of_length_pos (by omega))

theorem readWire_turn (draft : Draft) {length : UInt8} {rest : List UInt8} (hNull : length ≠ 0)
    (hLe : ¬maxLabelLength < length.toNat) (hRoom : ¬rest.length < length.toNat) :
    readWire draft 0 (length :: rest) =
      (draft.pushLabel (rest.take length.toNat)).bind fun next =>
        readWire next 0 (rest.drop length.toNat) := by
  have hPos : 1 ≤ length.toNat := Nat.pos_of_ne_zero fun hZero => hNull (UInt8.toNat_inj.mp hZero)
  have hRead := readWire_label draft (rest.drop length.toNat) hPos (Nat.not_lt.mp hLe)
    (List.length_take_of_le (Nat.not_lt.mp hRoom))
  rwa [List.take_append_drop] at hRead

/-- What the octets are when a read succeeds: the null label alone, or a label and more. -/
theorem readWire_cases {draft : Draft} {octets : List UInt8} {name : Name}
    (h : readWire draft 0 octets = .ok name) :
    octets = [0] ∨
      ∃ (length : UInt8) (label rest : List UInt8) (next : Draft),
        octets = length :: (label ++ rest) ∧ 1 ≤ length.toNat ∧ length.toNat ≤ 63 ∧
        label.length = length.toNat ∧ readWire next 0 rest = .ok name := by
  cases octets with
  | nil => cases h
  | cons length rest =>
    by_cases hLong : maxLabelLength < length.toNat
    · rw [readWire, if_pos hLong] at h
      cases h
    by_cases hShort : rest.length < length.toNat
    · rw [readWire, if_neg hLong, if_pos hShort] at h
      cases h
    by_cases hNull : length = 0
    · rw [readWire, if_neg hLong, if_neg hShort, if_pos hNull] at h
      split at h
      · rename_i hEmpty
        exact .inl (by rw [hNull, List.isEmpty_iff.mp hEmpty])
      · cases h
    · rw [readWire_turn draft hNull hLong hShort] at h
      cases hPush : draft.pushLabel (rest.take length.toNat) with
      | error e =>
        rw [hPush] at h
        cases h
      | ok next =>
        rw [hPush] at h
        exact .inr ⟨length, rest.take length.toNat, rest.drop length.toNat, next,
          by rw [List.take_append_drop],
          Nat.pos_of_ne_zero fun hZero => hNull (UInt8.toNat_inj.mp hZero), Nat.not_lt.mp hLong,
          List.length_take_of_le (Nat.not_lt.mp hShort), h⟩

theorem exists_wireForm_of_readWire {draft : Draft} {octets : List UInt8} {name : Name}
    (h : readWire draft 0 octets = .ok name) : ∃ labels, WireForm labels octets := by
  induction hSize : octets.length using Nat.strongRecOn generalizing draft octets with
  | ind size ih =>
    rcases readWire_cases h with
      rfl | ⟨length, label, rest, next, rfl, hPos, hLe, hLabel, hRest⟩
    · exact ⟨[], .root⟩
    · obtain ⟨labels, hForm⟩ := ih rest.length
        (by rw [← hSize, List.length_cons, List.length_append]; omega) hRest rfl
      exact ⟨label :: labels, .label hPos hLe hLabel hForm⟩

theorem readWire_of_wireForm {labels : List (List UInt8)} {octets : List UInt8}
    (h : WireForm labels octets) (draft : Draft) :
    readWire draft 0 octets = draft.feed (Move.spelling labels) := by
  induction h generalizing draft with
  | root => rfl
  | label hPos hLe hLength _ ih =>
    rw [readWire_label draft _ hPos hLe hLength, Move.spelling_cons, Draft.feed_pushLabel]
    cases draft.pushLabel _ with
    | error e => rfl
    | ok next => exact ih next

theorem ofWire_of_wireForm {labels : List (List UInt8)} {octets : List UInt8}
    (h : WireForm labels octets) {name : Name} :
    ofWire octets = .ok name ↔ name.labels.map Label.octets = labels := by
  rw [ofWire, readWire_of_wireForm h, Draft.feed_empty_eq_ok_iff]
  constructor
  · intro hMoves
    exact Move.spelling_injective hMoves.symm
  · rintro rfl
    rfl

theorem ofWire_eq_ok_iff_wireForm {octets : List UInt8} {name : Name} :
    ofWire octets = .ok name ↔ WireForm (name.labels.map Label.octets) octets := by
  constructor
  · intro h
    obtain ⟨labels, hForm⟩ := exists_wireForm_of_readWire h
    rwa [(ofWire_of_wireForm hForm).mp h]
  · intro h
    exact (ofWire_of_wireForm h).mpr rfl

end Name

/-! ## The wire form of a name -/

theorem WireForm.octets_eq {labels : List (List UInt8)} {octets : List UInt8}
    (h : WireForm labels octets) :
    octets = (labels.flatMap fun label => label.length.toUInt8 :: label) ++ [0] := by
  induction h with
  | root => rfl
  | label _ _ hLength _ ih =>
    rw [List.flatMap_cons, List.append_assoc, ← ih, List.cons_append, hLength, Nat.toUInt8,
      UInt8.ofNat_toNat]

theorem WireForm.length_eq {labels : List (List UInt8)} {octets : List UInt8}
    (h : WireForm labels octets) :
    octets.length = (labels.map fun label => label.length + 1).sum + 1 := by
  induction h with
  | root => rfl
  | label _ _ _ _ ih =>
    rw [List.length_cons, List.length_append, ih, List.map_cons, List.sum_cons]
    omega

theorem WireForm.fitsWire {labels : List (List UInt8)} {octets : List UInt8}
    (h : WireForm labels octets) (hLength : octets.length ≤ 255) : Name.FitsWire labels where
  length_pos := by
    clear hLength
    induction h with
    | root => simp
    | label hPos _ hLength _ ih => exact List.forall_mem_cons.mpr ⟨hLength ▸ hPos, ih⟩
  length_le := by
    clear hLength
    induction h with
    | root => simp
    | label _ hLe hLength _ ih => exact List.forall_mem_cons.mpr ⟨hLength ▸ hLe, ih⟩
  sum_le := by
    rw [← h.length_eq]
    exact hLength

namespace Name

theorem wireForm_labels (labels : List Label) :
    WireForm (labels.map Label.octets) (labels.flatMap Label.wire ++ [0]) := by
  induction labels with
  | nil => exact .root
  | cons label labels ih =>
    have hLe := label.length_le
    have hLength : label.octets.length.toUInt8.toNat = label.octets.length :=
      UInt8.toNat_ofNat_of_lt' (Nat.lt_of_le_of_lt hLe (by decide))
    rw [List.map_cons, List.flatMap_cons, Label.wire, List.append_assoc, List.cons_append]
    exact .label (by rw [hLength]; exact List.length_pos_iff.mpr label.ne_nil)
      (by rw [hLength]; exact hLe) hLength.symm ih

theorem wireForm_wire (name : Name) : WireForm (name.labels.map Label.octets) name.wire :=
  wireForm_labels name.labels

theorem ofWire_eq_ok_iff {octets : List UInt8} {name : Name} :
    ofWire octets = .ok name ↔ name.wire = octets := by
  constructor
  · intro h
    rw [(ofWire_eq_ok_iff_wireForm.mp h).octets_eq, (wireForm_wire name).octets_eq]
  · rintro rfl
    exact ofWire_eq_ok_iff_wireForm.mpr (wireForm_wire name)

theorem wire_injective {a b : Name} (h : a.wire = b.wire) : a = b := by
  have hRead := ofWire_eq_ok_iff.mpr h
  rw [ofWire_eq_ok_iff.mpr rfl] at hRead
  exact (Except.ok.inj hRead).symm

theorem length_wire (name : Name) : name.wire.length = wireLengthOf name.labels + 1 := by
  rw [(wireForm_wire name).length_eq, wireLengthOf_eq_sum]

theorem length_wire_le (name : Name) : name.wire.length ≤ maxWireLength := by
  rw [length_wire]
  exact name.wireLength_le

/-- Octets are read as a name with given labels exactly when they are their wire form. -/
theorem exists_ofWire_iff {octets : List UInt8} {labels : List (List UInt8)} :
    (∃ name, ofWire octets = .ok name ∧ name.labelOctets = labels ++ [[]]) ↔
      WireForm labels octets ∧ octets.length ≤ 255 := by
  constructor
  · rintro ⟨name, hName, hLabels⟩
    rw [← labelOctets_eq_iff.mp hLabels]
    refine ⟨ofWire_eq_ok_iff_wireForm.mp hName, ?_⟩
    rw [← ofWire_eq_ok_iff.mp hName, length_wire]
    exact name.wireLength_le
  · rintro ⟨hForm, hLength⟩
    obtain ⟨name, hLabels⟩ := (hForm.fitsWire hLength).exists_name
    exact ⟨name, (ofWire_of_wireForm hForm).mpr hLabels, labelOctets_eq_iff.mpr hLabels⟩

end Name

end ZoneStore
