import ZoneStore.Record.Address

/-!
# The length of addresses

However an address is written, the short form has four octets and the long
form sixteen: two for every group that is written, and as many zeros for a
double colon as the other groups leave room for.
-/

namespace ZoneStore.Address

variable {text rest : List Char} {octets : List UInt8}

theorem length_readShort (h : readShort text = some (octets, rest)) : octets.length = 4 := by
  simp only [readShort, Option.bind_eq_bind, Option.bind_eq_some_iff] at h
  obtain ⟨⟨a, _⟩, -, _, -, ⟨b, _⟩, -, _, -, ⟨c, _⟩, -, _, -, ⟨d, _⟩, -, hOctets⟩ := h
  cases hOctets
  rfl

theorem length_ofShortText (h : ofShortText text = some octets) : octets.length = 4 := by
  unfold ofShortText at h
  split at h
  · rename_i hRead
    cases h
    exact length_readShort hRead
  · cases h

theorem length_readGroup (h : readGroup text = some (octets, rest)) : octets.length = 2 := by
  unfold readGroup at h
  split at h
  · cases h
    rfl
  · cases h

/-- A run of groups takes no more room than it is given, an address at its end included. -/
theorem length_readGroups (first : Bool) (room : Nat) (text : List Char) :
    (readGroups first room text).octets.length = 2 * (readGroups first room text).count ∧
      (readGroups first room text).count ≤ room := by
  induction room generalizing first text with
  | zero => exact ⟨rfl, Nat.le_refl 0⟩
  | succ room ih =>
    rw [readGroups]
    split
    · rename_i hShort
      split at hShort
      · rename_i hRoom
        obtain ⟨_, -, hRead⟩ := Option.bind_eq_some_iff.mp hShort
        exact ⟨length_readShort hRead, Nat.succ_le_succ hRoom⟩
      · cases hShort
    · split
      · rename_i behind hGroup
        obtain ⟨_, -, hRead⟩ := Option.bind_eq_some_iff.mp hGroup
        obtain ⟨hLength, hCount⟩ := ih false behind
        refine ⟨?_, Nat.succ_le_succ hCount⟩
        rw [List.length_append, length_readGroup hRead, hLength]
        change 2 + 2 * (readGroups false room behind).count =
          2 * ((readGroups false room behind).count + 1)
        omega
      · exact ⟨rfl, Nat.zero_le _⟩

theorem length_readLong (h : readLong text = some (octets, rest)) : octets.length = 16 := by
  obtain ⟨hHead, hHeadLe⟩ := length_readGroups true 8 text
  simp only [readLong] at h
  split at h
  · rename_i hFull
    cases h
    rw [hHead, hFull]
  · split at h
    · cases h
    · rename_i hShort _
      simp only [Option.bind_eq_bind, Option.bind_eq_some_iff] at h
      obtain ⟨_, -, behind, -, hOctets⟩ := h
      obtain ⟨hTail, hTailLe⟩ :=
        length_readGroups true (7 - (readGroups true 8 text).count) behind
      cases hOctets
      rw [List.length_append, List.length_append, List.length_replicate, hHead, hTail]
      omega

theorem length_ofLongText (h : ofLongText text = some octets) : octets.length = 16 := by
  unfold ofLongText at h
  split at h
  · rename_i hRead
    cases h
    exact length_readLong hRead
  · cases h

end ZoneStore.Address
