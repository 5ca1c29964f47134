import Mathlib.Data.List.Forall2
import ZoneStore.Name.Cursor
import ZoneStore.Name.PackedCursor
import ZoneStore.Proofs.Name.Reliable

/-!
# Labels taken from both ends

The labels that a cursor has given from the front, those still to come and
those that it has given from the back, the last of these first, are the
labels of its name. A call moves the cursor that it names and no other, so
each of them stands where its own calls alone have led it, and where those
of its source had led before it was copied.
-/

namespace ZoneStore

/-! ## Plain cursors -/

namespace LabelEnd

/-- The labels with one more at an end. -/
def put (side : LabelEnd) (label : List UInt8) (labels : List (List UInt8)) : List (List UInt8) :=
  match side with
  | front => label :: labels
  | back => labels ++ [label]

/-- The labels in the order in which they are taken from an end. -/
def arrange (side : LabelEnd) (labels : List (List UInt8)) : List (List UInt8) :=
  match side with
  | front => labels
  | back => labels.reverse

theorem arrange_put (side : LabelEnd) (label : List UInt8) (labels : List (List UInt8)) :
    side.arrange (side.put label labels) = label :: side.arrange labels := by
  cases side with
  | front => rfl
  | back => exact List.reverse_concat

theorem arrange_nil (side : LabelEnd) : side.arrange [] = [] := by
  cases side <;> rfl

theorem length_put (side : LabelEnd) (label : List UInt8) (labels : List (List UInt8)) :
    (side.put label labels).length = labels.length + 1 := by
  cases side with
  | front => rfl
  | back => exact List.length_append

end LabelEnd

namespace LabelCursor

def packed (cursor : LabelCursor) : PackedCursor :=
  ⟨cursor.name.packed, cursor.front, cursor.back⟩

def take (cursor : LabelCursor) : LabelEnd → Option (List UInt8) × LabelCursor
  | .front => cursor.next
  | .back => cursor.nextBack

theorem packed_ofName (name : Name) : (ofName name).packed = name.packed.cursor := by
  rw [packed, ofName, PackedName.cursor, PackedName.labelCount_packed]

theorem back_le_length (cursor : LabelCursor) : cursor.back ≤ cursor.name.labelOctets.length := by
  rw [Name.length_labelOctets]
  exact cursor.back_le

theorem length_remaining (cursor : LabelCursor) : cursor.remaining.length = cursor.size := by
  have hBack := cursor.back_le_length
  rw [remaining, List.length_take, List.length_drop, size]
  omega

theorem remaining_ofName (name : Name) : (ofName name).remaining = name.labelOctets := by
  change (name.labelOctets.drop 0).take (name.labelCount - 0) = _
  rw [List.drop_zero, Nat.sub_zero, ← Name.length_labelOctets, List.take_length]

theorem next_cases (cursor : LabelCursor) :
    (cursor.remaining = [] ∧ cursor.next = (none, cursor)) ∨
      ∃ label shorter, cursor.next = (some label, shorter) ∧ shorter.name = cursor.name ∧
        cursor.remaining = label :: shorter.remaining := by
  by_cases hMore : cursor.front < cursor.back
  · have hFront := Nat.lt_of_lt_of_le hMore cursor.back_le_length
    have hLabel : cursor.name.label? cursor.front = some cursor.name.labelOctets[cursor.front] :=
      List.getElem?_eq_getElem hFront
    have hSize : cursor.back - cursor.front = cursor.back - (cursor.front + 1) + 1 := by omega
    refine .inr ⟨cursor.name.labelOctets[cursor.front],
      { cursor with front := cursor.front + 1, front_le_back := hMore }, ?_, rfl, ?_⟩
    · rw [next, dif_pos hMore, hLabel]
    · rw [remaining, size, hSize, List.drop_eq_getElem_cons hFront, List.take_succ_cons]
      rfl
  · refine .inl ⟨?_, dif_neg hMore⟩
    rw [← List.length_eq_zero_iff, length_remaining, size]
    omega

theorem nextBack_cases (cursor : LabelCursor) :
    (cursor.remaining = [] ∧ cursor.nextBack = (none, cursor)) ∨
      ∃ label shorter, cursor.nextBack = (some label, shorter) ∧ shorter.name = cursor.name ∧
        cursor.remaining = shorter.remaining ++ [label] := by
  by_cases hMore : cursor.front < cursor.back
  · have hBack : cursor.back - 1 < cursor.name.labelOctets.length := by
      have := cursor.back_le_length
      omega
    have hLabel : cursor.name.label? (cursor.back - 1) =
        some cursor.name.labelOctets[cursor.back - 1] := List.getElem?_eq_getElem hBack
    have hSize : cursor.back - cursor.front = cursor.back - 1 - cursor.front + 1 := by omega
    have hLast : cursor.back - 1 - cursor.front <
        (cursor.name.labelOctets.drop cursor.front).length := by
      rw [List.length_drop]
      omega
    have hAt : cursor.front + (cursor.back - 1 - cursor.front) = cursor.back - 1 := by omega
    refine .inr ⟨cursor.name.labelOctets[cursor.back - 1], { cursor with
      back := cursor.back - 1
      front_le_back := by omega
      back_le := Nat.le_trans (Nat.sub_le _ _) cursor.back_le }, ?_, rfl, ?_⟩
    · rw [nextBack, dif_pos hMore, hLabel]
    · rw [remaining, size, hSize, List.take_succ_eq_append_getElem hLast]
      simp only [List.getElem_drop, hAt]
      rfl
  · refine .inl ⟨?_, dif_neg hMore⟩
    rw [← List.length_eq_zero_iff, length_remaining, size]
    omega

/-- An end gives the label that stands there, until none is left. -/
theorem take_cases (cursor : LabelCursor) (side : LabelEnd) :
    (cursor.remaining = [] ∧ cursor.take side = (none, cursor)) ∨
      ∃ label shorter, cursor.take side = (some label, shorter) ∧ shorter.name = cursor.name ∧
        cursor.remaining = side.put label shorter.remaining := by
  cases side with
  | front => exact cursor.next_cases
  | back => exact cursor.nextBack_cases

/-- What holds when no label is left and is kept by each one taken from an end holds throughout. -/
theorem take_induction (side : LabelEnd) {motive : LabelCursor → Prop}
    (ended : ∀ cursor, cursor.remaining = [] → cursor.take side = (none, cursor) → motive cursor)
    (taken : ∀ cursor label shorter, cursor.take side = (some label, shorter) →
      cursor.remaining = side.put label shorter.remaining → motive shorter → motive cursor)
    (cursor : LabelCursor) : motive cursor := by
  generalize hCount : cursor.remaining.length = count
  induction count generalizing cursor with
  | zero =>
    obtain ⟨hNone, hTake⟩ | ⟨label, shorter, -, -, hRest⟩ := cursor.take_cases side
    · exact ended cursor hNone hTake
    · rw [hRest, LabelEnd.length_put] at hCount
      cases hCount
  | succ count ih =>
    obtain ⟨hNone, -⟩ | ⟨label, shorter, hTake, -, hRest⟩ := cursor.take_cases side
    · rw [hNone] at hCount
      cases hCount
    · rw [hRest, LabelEnd.length_put] at hCount
      exact taken cursor label shorter hTake hRest (ih shorter (Nat.succ.inj hCount))

/-! ## Cursors of stored names -/

theorem exists_label?_packed (cursor : LabelCursor) {n : Nat} (hn : n < cursor.back) :
    ∃ label, cursor.name.label? n = some label ∧ cursor.packed.name.label? n = some label := by
  have hAt : cursor.name.label? n = some _ :=
    List.getElem?_eq_getElem (Nat.lt_of_lt_of_le hn cursor.back_le_length)
  exact ⟨_, hAt, (cursor.name.label?_packed n).trans hAt⟩

theorem next?_packed (cursor : LabelCursor) :
    cursor.packed.next? = some (cursor.next.1, cursor.next.2.packed) := by
  by_cases hMore : cursor.front < cursor.back
  · have hPacked : cursor.packed.front < cursor.packed.back := hMore
    obtain ⟨label, hAt, hLabel⟩ : ∃ label, cursor.name.label? cursor.front = some label ∧
        cursor.packed.name.label? cursor.packed.front = some label :=
      cursor.exists_label?_packed hMore
    rw [PackedCursor.next?, if_pos hPacked, hLabel, next, dif_pos hMore, hAt]
    rfl
  · rw [PackedCursor.next?, if_neg (show ¬cursor.packed.front < cursor.packed.back from hMore),
      next, dif_neg hMore]

theorem nextBack?_packed (cursor : LabelCursor) :
    cursor.packed.nextBack? = some (cursor.nextBack.1, cursor.nextBack.2.packed) := by
  by_cases hMore : cursor.front < cursor.back
  · have hPacked : cursor.packed.front < cursor.packed.back := hMore
    obtain ⟨label, hAt, hLabel⟩ : ∃ label, cursor.name.label? (cursor.back - 1) = some label ∧
        cursor.packed.name.label? (cursor.packed.back - 1) = some label :=
      cursor.exists_label?_packed (Nat.sub_one_lt_of_lt hMore)
    rw [PackedCursor.nextBack?, if_pos hPacked, hLabel, nextBack, dif_pos hMore, hAt]
    rfl
  · rw [PackedCursor.nextBack?, if_neg (show ¬cursor.packed.front < cursor.packed.back from hMore),
      nextBack, dif_neg hMore]

theorem take?_packed (cursor : LabelCursor) (side : LabelEnd) :
    cursor.packed.take? side = some ((cursor.take side).1, (cursor.take side).2.packed) := by
  cases side with
  | front => exact cursor.next?_packed
  | back => exact cursor.nextBack?_packed

theorem sizeHint?_packed (cursor : LabelCursor) :
    cursor.packed.sizeHint? = some (cursor.size, some cursor.size) :=
  if_pos cursor.front_le_back

theorem size?_packed (cursor : LabelCursor) : cursor.packed.size? = some cursor.size := by
  rw [PackedCursor.size?, sizeHint?_packed]
  exact if_pos rfl

theorem rest?_packed (cursor : LabelCursor) (side : LabelEnd) :
    cursor.packed.rest? side = some (side.arrange cursor.remaining) := by
  induction cursor using take_induction side with
  | ended cursor hNone hTake =>
    rw [PackedCursor.rest?, take?_packed, hTake, hNone, LabelEnd.arrange_nil]
  | taken cursor label shorter hTake hRest ih =>
    rw [PackedCursor.rest?, take?_packed, hTake, hRest, LabelEnd.arrange_put]
    dsimp only
    rw [ih, Option.map_some]

end LabelCursor

/-! ## What a cursor has been asked for -/

/-- The ends at which a cursor was asked for a label, each with what it gave. -/
abbrev LabelTrail := List (LabelEnd × Option (List UInt8))

namespace LabelTrail

/-- The labels that were given from an end, in order. -/
def given (trail : LabelTrail) (side : LabelEnd) : List (List UInt8) :=
  trail.filterMap fun (other, label) => if other = side then label else none

theorem given_append_none (trail : LabelTrail) (asked side : LabelEnd) :
    given (trail ++ [(asked, none)]) side = trail.given side := by
  rw [given, List.filterMap_append, ← given]
  simp

theorem given_append_some (trail : LabelTrail) (side : LabelEnd) (label : List UInt8) :
    given (trail ++ [(side, some label)]) side = trail.given side ++ [label] := by
  rw [given, List.filterMap_append, ← given]
  simp

theorem given_append_of_ne (trail : LabelTrail) {asked side : LabelEnd} (h : asked ≠ side)
    (label : Option (List UInt8)) :
    given (trail ++ [(asked, label)]) side = trail.given side := by
  rw [given, List.filterMap_append, ← given]
  simp [h]

end LabelTrail

/-- The trails of all cursors behind one more call. A copy has come the way of its source. -/
def extendTrails (trails : List LabelTrail) : CursorCall × CursorAnswer → List LabelTrail
  | (.take number side, .label label) => trails.modify number (· ++ [(side, label)])
  | (.copy number, _) => trails ++ trails[number]?.toList
  | _ => trails

/-- The trails of the cursors behind calls that began with one cursor, from the answers alone. -/
def trailsOf (calls : List CursorCall) (answers : List CursorAnswer) : List LabelTrail :=
  (calls.zip answers).foldl extendTrails [[]]

/-- What a cursor gives at the ends in order, and where it is then. -/
def PackedCursor.follow? (cursor : PackedCursor) :
    List LabelEnd → Option (List (Option (List UInt8)) × PackedCursor)
  | [] => some ([], cursor)
  | side :: sides =>
    match cursor.take? side with
    | none => none
    | some (label, shorter) =>
      (shorter.follow? sides).map fun (labels, last) => (label :: labels, last)

theorem PackedCursor.follow?_append_singleton {start cursor : PackedCursor}
    {sides : List LabelEnd} {labels : List (Option (List UInt8))}
    (h : start.follow? sides = some (labels, cursor)) (side : LabelEnd) :
    start.follow? (sides ++ [side]) =
      (cursor.take? side).map fun (label, shorter) => (labels ++ [label], shorter) := by
  induction sides generalizing start labels with
  | nil =>
    cases h
    rw [List.nil_append, follow?]
    cases cursor.take? side <;> rfl
  | cons first sides ih =>
    rw [follow?] at h
    rw [List.cons_append, follow?]
    cases hTake : start.take? first with
    | none =>
      rw [hTake] at h
      cases h
    | some given =>
      rw [hTake] at h
      obtain ⟨⟨more, last⟩, hMore, hPair⟩ := Option.map_eq_some_iff.mp h
      cases hPair
      dsimp only
      rw [ih hMore, Option.map_map]
      rfl

/-- A cursor that has come the way of a trail over a name. -/
structure LabelCursor.Walked (name : Name) (trail : LabelTrail) (cursor : LabelCursor) : Prop where
  name_eq : cursor.name = name
  follow?_eq : name.packed.cursor.follow? (trail.map Prod.fst) =
    some (trail.map Prod.snd, cursor.packed)
  labels_eq : name.labelOctets =
    trail.given .front ++ cursor.remaining ++ (trail.given .back).reverse
  ended : ∀ asked ∈ trail, asked.2 = none → cursor.remaining = []
  fused : trail.Pairwise fun earlier later => earlier.2 = none → later.2 = none

namespace LabelCursor

variable {name : Name} {trail : LabelTrail} {cursor : LabelCursor}

theorem walked_ofName (name : Name) : Walked name [] (ofName name) where
  name_eq := rfl
  follow?_eq := by
    rw [packed_ofName]
    rfl
  labels_eq := by
    rw [remaining_ofName]
    exact (List.append_nil _).symm
  ended := List.forall_mem_nil _
  fused := .nil

theorem given_append_take {side : LabelEnd} {label : List UInt8} {rest : List (List UInt8)}
    (trail : LabelTrail) :
    LabelTrail.given (trail ++ [(side, some label)]) .front ++ rest ++
        (LabelTrail.given (trail ++ [(side, some label)]) .back).reverse =
      trail.given .front ++ side.put label rest ++ (trail.given .back).reverse := by
  cases side with
  | front =>
    rw [LabelTrail.given_append_some, LabelTrail.given_append_of_ne trail (by decide)]
    simp [LabelEnd.put]
  | back =>
    rw [LabelTrail.given_append_some, LabelTrail.given_append_of_ne trail (by decide)]
    simp [LabelEnd.put]

theorem Walked.take (h : cursor.Walked name trail) (side : LabelEnd) :
    (cursor.take side).2.Walked name (trail ++ [(side, (cursor.take side).1)]) := by
  have hFollow := PackedCursor.follow?_append_singleton h.follow?_eq side
  rw [take?_packed, Option.map_some] at hFollow
  obtain ⟨hNone, hTake⟩ | ⟨label, shorter, hTake, hName, hRest⟩ := cursor.take_cases side
  · rw [hTake] at hFollow ⊢
    refine ⟨h.name_eq, ?_, ?_, fun _ _ _ => hNone, ?_⟩
    · rw [List.map_append, List.map_append]
      exact hFollow
    · rw [LabelTrail.given_append_none, LabelTrail.given_append_none]
      exact h.labels_eq
    · rw [List.pairwise_append]
      exact ⟨h.fused, List.pairwise_singleton _ _, fun _ _ later hLater _ => by
        rw [List.mem_singleton.mp hLater]⟩
  · -- An end that had given none leaves nothing to be given now.
    have hOpen : ∀ asked ∈ trail, asked.2 ≠ none := by
      intro asked hAsked hNone
      have hLength := congrArg List.length hRest
      rw [h.ended asked hAsked hNone, LabelEnd.length_put] at hLength
      cases hLength
    rw [hTake] at hFollow ⊢
    refine ⟨hName.trans h.name_eq, ?_, ?_, ?_, ?_⟩
    · rw [List.map_append, List.map_append]
      exact hFollow
    · rw [given_append_take, ← hRest]
      exact h.labels_eq
    · intro asked hAsked hNone
      rcases List.mem_append.mp hAsked with hEarlier | hLast
      · exact absurd hNone (hOpen asked hEarlier)
      · rw [List.mem_singleton.mp hLast] at hNone
        cases hNone
    · rw [List.pairwise_append]
      exact ⟨h.fused, List.pairwise_singleton _ _, fun asked hAsked _ _ hNone =>
        absurd hNone (hOpen asked hAsked)⟩

end LabelCursor

/-! ## Several cursors -/

theorem forall₂_modify_set {α β : Type} {R : α → β → Prop} {as : List α} {bs : List β}
    {n : Nat} {b c : β} {f : α → α} (h : List.Forall₂ R as bs) (hAt : bs[n]? = some b)
    (hNew : ∀ a, R a b → R (f a) c) : List.Forall₂ R (as.modify n f) (bs.set n c) := by
  induction h generalizing n with
  | nil => cases hAt
  | cons hHead hTail ih =>
    cases n with
    | zero =>
      cases hAt
      exact .cons (hNew _ hHead) hTail
    | succ n => exact .cons hHead (ih hAt)

theorem exists_getElem?_of_forall₂ {α β : Type} {R : α → β → Prop} {as : List α} {bs : List β}
    (h : List.Forall₂ R as bs) {n : Nat} {b : β} (hAt : bs[n]? = some b) :
    ∃ a, as[n]? = some a ∧ R a b := by
  induction h generalizing n with
  | nil => cases hAt
  | cons hHead _ ih =>
    cases n with
    | zero =>
      cases hAt
      exact ⟨_, rfl, hHead⟩
    | succ n => exact ih hAt

namespace CursorCall

variable {name : Name} {trails : List LabelTrail} {cursors : List LabelCursor}

/-- A call leads the cursor that it names on, or adds one that has come the same way. -/
theorem perform_walked (h : List.Forall₂ (LabelCursor.Walked name) trails cursors)
    (call : CursorCall) :
    ∃ answer moved, call.perform (cursors.map LabelCursor.packed) =
        some (answer, moved.map LabelCursor.packed) ∧
      List.Forall₂ (LabelCursor.Walked name) (extendTrails trails (call, answer)) moved := by
  unfold perform
  rw [List.getElem?_map]
  cases hAt : cursors[call.number]? with
  | none =>
    refine ⟨.unknown, cursors, rfl, ?_⟩
    cases call with
    | copy number =>
      have hTrail : trails[number]? = none := by
        rw [List.getElem?_eq_none_iff, h.length_eq]
        exact List.getElem?_eq_none_iff.mp hAt
      rw [extendTrails, hTrail, Option.toList_none, List.append_nil]
      exact h
    | _ => exact h
  | some cursor =>
    cases call with
    | take number side =>
      refine ⟨.label (cursor.take side).1, cursors.set number (cursor.take side).2, ?_, ?_⟩
      · rw [Option.map_some]
        dsimp only
        rw [LabelCursor.take?_packed, Option.map_some, List.map_set]
      · exact forall₂_modify_set h hAt fun trail hWalked => hWalked.take side
    | sizeHint number =>
      refine ⟨.sizeHint cursor.size (some cursor.size), cursors, ?_, h⟩
      rw [Option.map_some]
      dsimp only
      rw [LabelCursor.sizeHint?_packed, Option.map_some]
    | size number =>
      refine ⟨.size cursor.size, cursors, ?_, h⟩
      rw [Option.map_some]
      dsimp only
      rw [LabelCursor.size?_packed, Option.map_some]
    | copy number =>
      obtain ⟨trail, hTrail, hWalked⟩ : ∃ trail, trails[number]? = some trail ∧
          cursor.Walked name trail := exists_getElem?_of_forall₂ h hAt
      refine ⟨.copied, cursors ++ [cursor], ?_, ?_⟩
      · rw [List.map_append]
        rfl
      · rw [extendTrails, hTrail]
        exact List.rel_append h (.cons hWalked .nil)

theorem performAll_walked (h : List.Forall₂ (LabelCursor.Walked name) trails cursors)
    (calls : List CursorCall) :
    ∃ answers moved, performAll (cursors.map LabelCursor.packed) calls =
        some (answers, moved.map LabelCursor.packed) ∧
      List.Forall₂ (LabelCursor.Walked name) ((calls.zip answers).foldl extendTrails trails)
        moved := by
  induction calls generalizing trails cursors with
  | nil => exact ⟨[], cursors, rfl, h⟩
  | cons call calls ih =>
    obtain ⟨answer, next, hStep, hNext⟩ := perform_walked h call
    obtain ⟨answers, moved, hRun, hMoved⟩ := ih hNext
    refine ⟨answer :: answers, moved, ?_, hMoved⟩
    rw [performAll, hStep]
    dsimp only
    rw [hRun, Option.map_some]

end CursorCall

/-! ## Main statement -/

/-- What a cursor has given, what is to come and how it answers, told from its own trail. -/
structure PackedCursor.WalkedWhole (name : PackedName) (trail : LabelTrail)
    (cursor : PackedCursor) : Prop where
  alone : name.cursor.follow? (trail.map Prod.fst) = some (trail.map Prod.snd, cursor)
  parted : ∃ labels rest, name.labels? name.labelCount = some labels ∧
    labels.getLast? = some [] ∧
    labels = trail.given .front ++ rest ++ (trail.given .back).reverse ∧
    cursor.rest? .front = some rest ∧ cursor.rest? .back = some rest.reverse ∧
    cursor.sizeHint? = some (rest.length, some rest.length) ∧ cursor.size? = some rest.length
  fused : trail.Pairwise fun earlier later => earlier.2 = none → later.2 = none

theorem LabelCursor.Walked.walkedWhole {name : Name} {trail : LabelTrail} {cursor : LabelCursor}
    (h : cursor.Walked name trail) : cursor.packed.WalkedWhole name.packed trail where
  alone := h.follow?_eq
  parted := by
    refine ⟨name.labelOctets, cursor.remaining, ?_, List.getLast?_concat, h.labels_eq,
      cursor.rest?_packed .front, cursor.rest?_packed .back, ?_, ?_⟩
    · rw [PackedName.labelCount_packed, Name.labels?_packed (Nat.le_refl _),
        ← Name.length_labelOctets, List.take_length]
    · rw [sizeHint?_packed, length_remaining]
    · rw [size?_packed, length_remaining]
  fused := h.fused

/--
Whatever is asked of cursors over a name and of copies made of them, every call has a result. For
each cursor the labels that were given from the front, those to come and those that were given
from the back, the last first, are all labels of the name; its size is the number of those to
come, and an end that gave none is followed by none from either. A cursor answers as if it had
been asked alone. Cursors over the labels of a name give what those over its stored form give.
-/
theorem labels_taken_from_both_ends :
    (∀ name : PackedName, name.IsBuilt → ∀ calls, ∃ answers cursors,
      CursorCall.performAll [name.cursor] calls = some (answers, cursors) ∧
        List.Forall₂ (PackedCursor.WalkedWhole name) (trailsOf calls answers) cursors) ∧
    (∀ name : Name, name.packed.IsBuilt ∧
      (LabelCursor.ofName name).packed = name.packed.cursor) ∧
    ∀ cursor : LabelCursor,
      cursor.packed.next? = some (cursor.next.1, cursor.next.2.packed) ∧
      cursor.packed.nextBack? = some (cursor.nextBack.1, cursor.nextBack.2.packed) ∧
      cursor.packed.size? = some cursor.size ∧
      cursor.packed.rest? .front = some cursor.remaining := by
  refine ⟨?_, fun name => ⟨PackedName.isBuilt_iff.mpr ⟨name, rfl⟩, LabelCursor.packed_ofName name⟩,
    fun cursor => ⟨cursor.next?_packed, cursor.nextBack?_packed, cursor.size?_packed,
      cursor.rest?_packed .front⟩⟩
  intro name hBuilt calls
  obtain ⟨plain, rfl⟩ := PackedName.isBuilt_iff.mp hBuilt
  have hStart : List.Forall₂ (LabelCursor.Walked plain) [[]] [LabelCursor.ofName plain] :=
    .cons (LabelCursor.walked_ofName plain) .nil
  obtain ⟨answers, cursors, hRun, hWalked⟩ := CursorCall.performAll_walked hStart calls
  rw [List.map_singleton, LabelCursor.packed_ofName] at hRun
  refine ⟨answers, cursors.map LabelCursor.packed, hRun, ?_⟩
  rw [List.forall₂_map_right_iff]
  exact hWalked.imp fun _ _ h => h.walkedWhole

def twoLetters : PackedName :=
  ⟨[1, 97, 1, 98, 0], [0, 2, 4]⟩

/-- The first cursor is walked to where its ends meet; its copy has given one label by then. -/
theorem labels_taken_from_both_ends_copied :
    CursorCall.performAll [twoLetters.cursor]
        [.copy 0, .take 0 .front, .take 0 .back, .take 1 .back, .take 0 .back, .take 0 .front,
          .size 1] =
      some ([.copied, .label (some [97]), .label (some []), .label (some []), .label (some [98]),
          .label none, .size 2], [⟨twoLetters, 1, 1⟩, ⟨twoLetters, 0, 2⟩]) ∧
      PackedCursor.WalkedWhole twoLetters
        [(.front, some [97]), (.back, some []), (.back, some [98]), (.front, none)]
        ⟨twoLetters, 1, 1⟩ ∧
      PackedCursor.WalkedWhole twoLetters [(.back, some [])] ⟨twoLetters, 0, 2⟩ := by
  have hWire : Buffer.ofWire [1, 97, 1, 98, 0] = some (.ok twoLetters) := by
    rw [Buffer.ofWire_eq]
    rfl
  obtain ⟨hWhole, -⟩ := labels_taken_from_both_ends
  obtain ⟨answers, cursors, hRun, hWalked⟩ := hWhole twoLetters (.ofWire hWire)
    [.copy 0, .take 0 .front, .take 0 .back, .take 1 .back, .take 0 .back, .take 0 .front, .size 1]
  have hAnswers := hRun
  rw [show CursorCall.performAll _ _ = some (_, _) from rfl, Option.some.injEq] at hAnswers
  cases hAnswers
  obtain ⟨hFirst, hOthers⟩ := List.forall₂_cons.mp hWalked
  exact ⟨hRun, hFirst, (List.forall₂_cons.mp hOthers).1⟩

end ZoneStore
