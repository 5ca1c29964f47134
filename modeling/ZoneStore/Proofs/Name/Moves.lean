import ZoneStore.Name.Draft

/-!
# Drafts as sequences of moves

Every reader of names drives a draft by two moves: it pushes an octet, or it
closes the pending label. A draft is determined by the moves that led to it,
and a sequence of moves finishes in a name exactly when it is the sequence
that spells the labels of that name.
-/

namespace ZoneStore

inductive Move where
  | push (octet : UInt8)
  | close
deriving DecidableEq, Repr

namespace Move

/-- The moves that spell labels, each of them closed. -/
def spelling (labels : List (List UInt8)) : List Move :=
  labels.flatMap fun octets => octets.map push ++ [close]

@[simp]
theorem spelling_nil : spelling [] = [] := rfl

theorem spelling_cons (octets : List UInt8) (labels : List (List UInt8)) :
    spelling (octets :: labels) = octets.map push ++ close :: spelling labels := by
  simp [spelling]

theorem spelling_append (front back : List (List UInt8)) :
    spelling (front ++ back) = spelling front ++ spelling back := by
  simp [spelling]

theorem map_push_close_inj {a b : List UInt8} {front back : List Move}
    (h : a.map push ++ close :: front = b.map push ++ close :: back) : a = b ∧ front = back := by
  induction a generalizing b with
  | nil =>
    cases b with
    | nil => exact ⟨rfl, (List.cons.inj h).2⟩
    | cons octet b => cases h
  | cons octet a ih =>
    cases b with
    | nil => cases h
    | cons other b =>
      obtain ⟨hHead, hTail⟩ := List.cons.inj h
      obtain ⟨rfl, rfl⟩ := ih hTail
      cases hHead
      exact ⟨rfl, rfl⟩

theorem spelling_injective {a b : List (List UInt8)} (h : spelling a = spelling b) : a = b := by
  induction a generalizing b with
  | nil =>
    cases b with
    | nil => rfl
    | cons octets b => simp [spelling_cons] at h
  | cons octets a ih =>
    cases b with
    | nil => simp [spelling_cons] at h
    | cons other b =>
      rw [spelling_cons, spelling_cons] at h
      obtain ⟨rfl, hRest⟩ := map_push_close_inj h
      rw [ih hRest]

end Move

namespace Draft

open Move

def step (draft : Draft) : Move → Except NameError Draft
  | .push octet => draft.push octet
  | .close => draft.close

def feed (draft : Draft) : List Move → Except NameError Name
  | [] => draft.finish
  | move :: moves =>
    match draft.step move with
    | .error e => .error e
    | .ok next => next.feed moves

/-- The moves that lead to a draft. -/
def moves (draft : Draft) : List Move :=
  spelling (draft.done.reverse.map Label.octets) ++ draft.pending.reverse.map .push

theorem push_eq_ok (draft : Draft) (octet : UInt8) (hLabel : draft.pending.length < maxLabelLength)
    (hWire : wireLengthOf draft.done + draft.pending.length + 1 < maxWireLength) :
    ∃ next, draft.push octet = .ok next ∧ next.done = draft.done ∧
      next.pending = octet :: draft.pending := by
  rw [push, dif_neg (by omega), dif_neg (by omega)]
  exact ⟨_, rfl, rfl, rfl⟩

theorem close_eq_ok (draft : Draft) (hPending : draft.pending ≠ [])
    (hWire : wireLengthOf draft.done + draft.pending.length + 1 < maxWireLength) :
    ∃ next label, draft.close = .ok next ∧ label.octets = draft.pending.reverse ∧
      next.done = label :: draft.done ∧ next.pending = [] := by
  rw [close, dif_neg hPending, dif_neg (by omega)]
  exact ⟨_, _, rfl, rfl, rfl, rfl⟩

theorem finish_eq_ok (draft : Draft) (hPending : draft.pending = []) :
    ∃ name, draft.finish = .ok name ∧ name.labels = draft.done.reverse := by
  rw [finish, if_pos hPending]
  exact ⟨_, rfl, rfl⟩

theorem of_push {draft next : Draft} {octet : UInt8} (h : draft.push octet = .ok next) :
    next.done = draft.done ∧ next.pending = octet :: draft.pending := by
  unfold push at h
  split at h
  · cases h
  · split at h
    · cases h
    · cases h
      exact ⟨rfl, rfl⟩

theorem of_close {draft next : Draft} (h : draft.close = .ok next) :
    ∃ label : Label, label.octets = draft.pending.reverse ∧
      next.done = label :: draft.done ∧ next.pending = [] := by
  unfold close at h
  split at h
  · cases h
  · split at h
    · cases h
    · cases h
      exact ⟨_, rfl, rfl, rfl⟩

theorem of_finish {draft : Draft} {name : Name} (h : draft.finish = .ok name) :
    draft.pending = [] ∧ name.labels = draft.done.reverse := by
  unfold finish at h
  split at h
  · rename_i hPending
    cases h
    exact ⟨hPending, rfl⟩
  · cases h

theorem moves_empty : empty.moves = [] := rfl

theorem moves_step {draft next : Draft} {move : Move} (h : draft.step move = .ok next) :
    next.moves = draft.moves ++ [move] := by
  cases move with
  | push octet =>
    obtain ⟨hDone, hPending⟩ := of_push h
    simp [moves, hDone, hPending]
  | close =>
    obtain ⟨label, hLabel, hDone, hPending⟩ := of_close h
    simp [moves, hDone, hPending, hLabel, spelling_append, spelling_cons]

theorem feed_cons_eq_ok_iff {draft : Draft} {move : Move} {moves : List Move} {name : Name} :
    draft.feed (move :: moves) = .ok name ↔
      ∃ next, draft.step move = .ok next ∧ next.feed moves = .ok name := by
  rw [feed]
  cases draft.step move with
  | error e => simp
  | ok next => simp

/-- The moves that finish in a name spell its labels. -/
theorem moves_of_feed {draft : Draft} {moves : List Move} {name : Name}
    (h : draft.feed moves = .ok name) :
    draft.moves ++ moves = spelling (name.labels.map Label.octets) := by
  induction moves generalizing draft with
  | nil =>
    obtain ⟨hPending, hLabels⟩ := of_finish h
    simp [Draft.moves, hPending, hLabels]
  | cons move moves ih =>
    obtain ⟨next, hStep, hRest⟩ := feed_cons_eq_ok_iff.mp h
    rw [← ih hRest, moves_step hStep, List.append_assoc, List.singleton_append]

/-- Octets that fit into the pending label are all pushed. -/
theorem feed_push (draft : Draft) (octets : List UInt8) (moves : List Move)
    (hLabel : draft.pending.length + octets.length ≤ maxLabelLength)
    (hWire : wireLengthOf draft.done + draft.pending.length + octets.length + 1 ≤ maxWireLength) :
    ∃ next : Draft, draft.feed (octets.map .push ++ moves) = next.feed moves ∧
      next.done = draft.done ∧ next.pending = octets.reverse ++ draft.pending := by
  induction octets generalizing draft with
  | nil => exact ⟨draft, rfl, rfl, rfl⟩
  | cons octet octets ih =>
    simp only [List.length_cons] at hLabel hWire
    obtain ⟨pushed, hPush, hDone, hPending⟩ :=
      push_eq_ok draft octet (by omega) (by omega)
    obtain ⟨next, hFeed, hNextDone, hNextPending⟩ := ih pushed
      (by rw [hPending, List.length_cons]; omega)
      (by rw [hDone, hPending, List.length_cons]; omega)
    refine ⟨next, ?_, hNextDone.trans hDone, ?_⟩
    · rw [List.map_cons, List.cons_append, feed, step, hPush]
      exact hFeed
    · rw [hNextPending, hPending, List.reverse_cons, List.append_assoc, List.singleton_append]

/-- A whole label that fits on the wire is pushed and closed. -/
theorem feed_label (draft : Draft) (hPending : draft.pending = []) (label : Label)
    (moves : List Move)
    (hWire : wireLengthOf draft.done + label.wireLength + 1 ≤ maxWireLength) :
    ∃ next : Draft, draft.feed (label.octets.map .push ++ .close :: moves) = next.feed moves ∧
      next.done = label :: draft.done ∧ next.pending = [] := by
  rw [Label.wireLength] at hWire
  obtain ⟨filled, hFeed, hDone, hFilled⟩ := feed_push draft label.octets
    (.close :: moves) (by simpa [hPending] using label.length_le)
    (by rw [hPending, List.length_nil]; omega)
  rw [hPending, List.append_nil] at hFilled
  obtain ⟨next, closed, hClose, hClosed, hNextDone, hNextPending⟩ :=
    close_eq_ok filled (by simpa [hFilled] using label.ne_nil)
      (by rw [hDone, hFilled, List.length_reverse]; omega)
  have hLabel : closed = label := Label.ext (by rw [hClosed, hFilled, List.reverse_reverse])
  refine ⟨next, ?_, by rw [hNextDone, hLabel, hDone], hNextPending⟩
  rw [hFeed, feed, step, hClose]

/-- The moves that spell labels that fit on the wire finish in their name. -/
theorem feed_spelling (draft : Draft) (hPending : draft.pending = []) (labels : List Label)
    (hWire : wireLengthOf draft.done + wireLengthOf labels + 1 ≤ maxWireLength) :
    ∃ name, draft.feed (spelling (labels.map Label.octets)) = .ok name ∧
      name.labels = draft.done.reverse ++ labels := by
  induction labels generalizing draft with
  | nil =>
    obtain ⟨name, hFinish, hLabels⟩ := finish_eq_ok draft hPending
    exact ⟨name, hFinish, by rw [hLabels, List.append_nil]⟩
  | cons label labels ih =>
    rw [wireLengthOf_cons] at hWire
    obtain ⟨next, hFeed, hDone, hNext⟩ :=
      feed_label draft hPending label (spelling (labels.map Label.octets)) (by omega)
    obtain ⟨name, hName, hLabels⟩ := ih next hNext (by rw [hDone, wireLengthOf_cons]; omega)
    refine ⟨name, ?_, by rw [hLabels, hDone, List.reverse_cons, List.append_assoc,
      List.singleton_append]⟩
    rw [List.map_cons, spelling_cons, hFeed, hName]

theorem feed_empty_eq_ok_iff {moves : List Move} {name : Name} :
    empty.feed moves = .ok name ↔ moves = spelling (name.labels.map Label.octets) := by
  constructor
  · intro h
    simpa [moves_empty] using moves_of_feed h
  · intro h
    obtain ⟨fed, hFeed, hLabels⟩ := feed_spelling empty rfl name.labels
      (by simpa [empty] using name.wireLength_le)
    rw [h, hFeed, Name.ext hLabels]

end Draft

end ZoneStore
