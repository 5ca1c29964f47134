import Mathlib.Data.List.Nodup
import ZoneStore.Rrset.Basic

/-!
# Looking up and adding RRsets

In an ordered list of RRsets the binary search finds what a linear search
finds. A lookup after an addition is thus a lookup before it, except for the
type that was added to, and what an addition does is said without the list.
-/

namespace ZoneStore

theorem found_bisect {α : Type} {key : α → Nat} {wanted : Nat} {members : List α}
    (hOrder : OrderedBy key members) :
    (bisect key wanted members).found = members.find? fun a => key a = wanted := by
  have hBelow : (bisect key wanted members).below.find? (fun a => key a = wanted) = none := by
    rw [List.find?_eq_none]
    intro a ha hKey
    have hLt := lt_of_mem_below hOrder ha
    have hEq := of_decide_eq_true hKey
    omega
  have hAbove : (bisect key wanted members).above.find? (fun a => key a = wanted) = none := by
    rw [List.find?_eq_none]
    intro a ha hKey
    have hLt := lt_of_mem_above hOrder ha
    have hEq := of_decide_eq_true hKey
    omega
  conv => rhs; rw [← members_bisect key wanted members]
  rw [Split.members, List.find?_append, List.find?_append, hBelow, hAbove, Option.none_or,
    Option.or_none]
  cases hFound : (bisect key wanted members).found with
  | none => rfl
  | some a => simp [key_found_bisect hFound]

/-- A search after a member was put in finds that member, or what it found before. -/
theorem found_bisect_insert {α : Type} {key : α → Nat} {wanted : Nat} {members : List α}
    (hOrder : OrderedBy key members) {a : α} (ha : key a = wanted) (other : Nat) :
    (bisect key other ((bisect key wanted members).below ++ a ::
      (bisect key wanted members).above)).found =
      if other = wanted then some a else (bisect key other members).found := by
  rw [found_bisect (orderedBy_bisect_insert hOrder ha), List.find?_append]
  by_cases hOther : other = wanted
  · subst hOther
    have hBelow : (bisect key other members).below.find? (fun b => key b = other) = none := by
      rw [List.find?_eq_none]
      intro b hb hKey
      have hLt := lt_of_mem_below hOrder hb
      have hEq := of_decide_eq_true hKey
      omega
    rw [hBelow, Option.none_or, List.find?_cons_of_pos (by simp [ha]), if_pos rfl]
  · have hNe : ¬wanted = other := fun hEq => hOther hEq.symm
    have hSplit := members_bisect key wanted members
    rw [if_neg hOther, List.find?_cons_of_neg (by simpa [ha] using hNe), found_bisect hOrder]
    conv => rhs; rw [← hSplit]
    rw [Split.members, List.find?_append, List.find?_append]
    cases hFound : (bisect key wanted members).found with
    | none => simp
    | some old =>
      have hOld := key_found_bisect hFound
      simp [hOld, hNe]

theorem RecordType.code_toNat_inj {a b : RecordType} : a.code.toNat = b.code.toNat ↔ a = b := by
  rw [UInt16.toNat_inj]
  constructor
  · intro h
    cases a
    exact congrArg RecordType.mk h
  · intro h
    rw [h]

namespace Rrset

theorem key_eq_iff {rrset : Rrset} {type : RecordType} :
    rrset.key = type.code.toNat ↔ rrset.type = type :=
  RecordType.code_toNat_inj

theorem add_eq_error_iff (rrset : Rrset) (ttl : Ttl) (rdata : Rdata) :
    rrset.add ttl rdata = .error .ttlMismatch ↔ rrset.ttl ≠ ttl := by
  rw [add]
  split <;> simp_all

end Rrset

namespace RrsetList

theorem find?_eq (list : RrsetList) (type : RecordType) :
    list.find? type = list.rrsets.find? fun rrset => rrset.type = type := by
  rw [find?, splitAt, found_bisect list.ordered]
  simp only [Rrset.key_eq_iff]

theorem type_of_find? {list : RrsetList} {type : RecordType} {rrset : Rrset}
    (h : list.find? type = some rrset) : rrset.type = type :=
  Rrset.key_eq_iff.mp (key_found_bisect h)

theorem find?_of_mem {list : RrsetList} {rrset : Rrset} (hMem : rrset ∈ list.rrsets) :
    list.find? rrset.type = some rrset := by
  rw [find?_eq]
  cases hFind : list.rrsets.find? fun other => other.type = rrset.type with
  | none => simpa using List.find?_eq_none.mp hFind rrset hMem
  | some other =>
    have hKeys : (list.rrsets.map Rrset.key).Nodup :=
      List.pairwise_map.mpr (list.ordered.imp Nat.ne_of_lt)
    have hType : other.type = rrset.type := by simpa using List.find?_some hFind
    have hKey : other.key = rrset.key := Rrset.key_eq_iff.mpr hType
    rw [List.inj_on_of_nodup_map hKeys (List.mem_of_find?_eq_some hFind) hMem hKey]

theorem find?_empty (type : RecordType) : empty.find? type = none := rfl

theorem find?_put (list : RrsetList) (type : RecordType) (rrset : Rrset)
    (h : rrset.key = type.code.toNat) (other : RecordType) :
    (list.put type rrset h).find? other =
      if other = type then some rrset else list.find? other := by
  have hFound := found_bisect_insert list.ordered h other.code.toNat
  simp only [RecordType.code_toNat_inj] at hFound
  exact hFound

/-- What a successful addition does: it starts the RRset of the type, or extends it. -/
theorem of_add {list added : RrsetList} {type : RecordType} {ttl : Ttl} {rdata : Rdata}
    (h : list.add type ttl rdata = .ok added) :
    ∃ rrset, (∀ other, added.find? other = if other = type then some rrset else list.find? other) ∧
      ((list.find? type = none ∧ rrset = .single type ttl rdata) ∨
        ∃ old, list.find? type = some old ∧ old.ttl = ttl ∧ rrset = old.insert rdata) := by
  unfold add at h
  split at h
  · rename_i hFind
    cases h
    exact ⟨.single type ttl rdata, find?_put list type (.single type ttl rdata) rfl,
      .inl ⟨hFind, rfl⟩⟩
  · rename_i old hFind
    split at h
    · cases h
    · rename_i rrset hAdd
      cases h
      refine ⟨rrset, find?_put list type rrset _, .inr ⟨old, hFind, ?_⟩⟩
      unfold Rrset.add at hAdd
      split at hAdd
      · rename_i hTtl
        cases hAdd
        exact ⟨hTtl, rfl⟩
      · cases hAdd

theorem add_eq_error_iff (list : RrsetList) (type : RecordType) (ttl : Ttl) (rdata : Rdata) :
    list.add type ttl rdata = .error .ttlMismatch ↔
      ∃ rrset, list.find? type = some rrset ∧ rrset.ttl ≠ ttl := by
  unfold add
  split
  · rename_i hFind
    simp [hFind]
  · rename_i rrset hFind
    simp only [hFind, Option.some.injEq, exists_eq_left', ← rrset.add_eq_error_iff ttl rdata]
    split <;> simp_all

end RrsetList

end ZoneStore
