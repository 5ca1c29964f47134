import ZoneStore.Name.Basic
import ZoneStore.Name.Error

/-!
# Names under construction

A draft holds the finished labels of a name and the octets of the label
being written, both in reverse. Octets are pushed one at a time, a label is
closed when the next one starts, and a draft whose pending label is empty
is finished into a name. Every draft fits on the wire, so each step that
would leave the bounds is refused at that step.
-/

namespace ZoneStore

structure Draft where
  done : List Label
  pending : List UInt8
  pending_le : pending.length ≤ maxLabelLength
  wireLength_le : wireLengthOf done + pending.length + 1 ≤ maxWireLength

namespace Draft

def empty : Draft :=
  ⟨[], [], by decide, by decide⟩

def push (draft : Draft) (octet : UInt8) : Except NameError Draft :=
  if hLabel : maxLabelLength ≤ draft.pending.length then
    .error .labelTooLong
  else if hWire : maxWireLength ≤ wireLengthOf draft.done + draft.pending.length + 1 then
    .error .nameTooLong
  else
    .ok {
      done := draft.done
      pending := octet :: draft.pending
      pending_le := by simp only [List.length_cons]; omega
      wireLength_le := by simp only [List.length_cons]; omega }

def close (draft : Draft) : Except NameError Draft :=
  if hNull : draft.pending = [] then
    .error .nullNonTerminal
  else if hWire : maxWireLength ≤ wireLengthOf draft.done + draft.pending.length + 1 then
    .error .nameTooLong
  else
    .ok {
      done := ⟨draft.pending.reverse, by simpa using hNull, by simpa using draft.pending_le⟩ ::
        draft.done
      pending := []
      pending_le := by simp
      wireLength_le := by
        simp only [wireLengthOf_cons, Label.wireLength, List.length_reverse, List.length_nil]
        omega }

/-- The name of the finished labels; the pending label is the null label, so it must be empty. -/
def finish (draft : Draft) : Except NameError Name :=
  if draft.pending = [] then
    .ok ⟨draft.done.reverse, by
      rw [wireLengthOf_reverse]
      exact Nat.le_trans (by omega) draft.wireLength_le⟩
  else
    .error .nonNullTerminal

end Draft

end ZoneStore
