import Mathlib.Data.List.Nodup
import ZoneStore.Proofs.Rrset.Contents

/-!
# RRsets of distinct data

Repeated data count once, so that no RRset of a list holds the same data
twice, whatever is added to it. Such an RRset is made again by its own data:
added in order to an empty list, they leave it there alone.
-/

namespace ZoneStore

namespace Rrset

theorem nodup_insert {rrset : Rrset} (h : rrset.rdatas.Nodup) (rdata : Rdata) :
    (rrset.insert rdata).rdatas.Nodup := by
  rw [rdatas_insert]
  split
  · exact h
  · rename_i hNew
    rw [← List.concat_eq_append]
    exact h.concat hNew

theorem foldl_insert {rrset : Rrset} {rdatas : List Rdata}
    (h : (rrset.rdatas ++ rdatas).Nodup) :
    rdatas.foldl insert rrset =
      { rrset with
        rdatas := rrset.rdatas ++ rdatas
        rdatas_ne_nil := List.append_ne_nil_of_left_ne_nil rrset.rdatas_ne_nil rdatas } := by
  induction rdatas generalizing rrset with
  | nil => simp
  | cons rdata rdatas ih =>
    -- The first is new to the RRset, and the others are new to the RRset with the first.
    have hNew : rdata ∉ rrset.rdatas := by
      intro hMem
      exact (List.nodup_append.mp h).2.2 rdata hMem rdata List.mem_cons_self rfl
    have hInsert : rrset.insert rdata =
        { rrset with rdatas := rrset.rdatas ++ [rdata], rdatas_ne_nil := by simp } :=
      if_neg hNew
    rw [List.foldl_cons, hInsert, ih (by simpa using h)]
    simp

end Rrset

namespace RrsetList

/-- No RRset of a list holds the same data twice. -/
def IsDistinct (list : RrsetList) : Prop :=
  ∀ type rrset, list.find? type = some rrset → rrset.rdatas.Nodup

theorem isDistinct_empty : empty.IsDistinct := by
  intro type rrset h
  rw [find?_empty] at h
  cases h

theorem IsDistinct.add {list added : RrsetList} (h : list.IsDistinct) {type : RecordType}
    {ttl : Ttl} {rdata : Rdata} (hAdd : list.add type ttl rdata = .ok added) :
    added.IsDistinct := by
  obtain ⟨grown, hFind, hGrown⟩ := of_add hAdd
  intro other rrset hOther
  rw [hFind] at hOther
  split at hOther
  · cases hOther
    rcases hGrown with ⟨_, rfl⟩ | ⟨old, hOld, _, rfl⟩
    · exact List.nodup_singleton rdata
    · exact Rrset.nodup_insert (h type old hOld) rdata
  · exact h other rrset hOther

/-! ## An RRset alone -/

def single (rrset : Rrset) : RrsetList :=
  ⟨[rrset], List.pairwise_singleton _ _⟩

theorem splitAt_single (rrset : Rrset) :
    (single rrset).splitAt rrset.type = ⟨[], some rrset, []⟩ := by
  simp [splitAt, single, bisect, bisectWithin, Rrset.key]

theorem eq_of_rrsets_eq {a b : RrsetList} (h : a.rrsets = b.rrsets) : a = b := by
  cases a
  cases h
  rfl

theorem put_single (rrset new : Rrset) (h : new.key = rrset.type.code.toNat) :
    (single rrset).put rrset.type new h = single new := by
  apply eq_of_rrsets_eq
  dsimp only [put]
  rw [splitAt_single]
  rfl

theorem add_single (rrset : Rrset) (rdata : Rdata) :
    (single rrset).add rrset.type rrset.ttl rdata = .ok (single (rrset.insert rdata)) := by
  have hFound : (single rrset).find? rrset.type = some rrset := by rw [find?, splitAt_single]
  have hAdded : rrset.add rrset.ttl rdata = .ok (rrset.insert rdata) := if_pos rfl
  unfold add
  split
  · rename_i hNone
    rw [hFound] at hNone
    cases hNone
  · rename_i old hOld
    rw [hFound] at hOld
    cases hOld
    split
    · rename_i e hError
      rw [hAdded] at hError
      cases hError
    · rename_i added hAdd
      rw [hAdded] at hAdd
      cases hAdd
      rw [put_single]

theorem foldlM_add_single (rrset : Rrset) (rdatas : List Rdata) :
    rdatas.foldlM (fun list rdata => list.add rrset.type rrset.ttl rdata) (single rrset) =
      .ok (single (rdatas.foldl Rrset.insert rrset)) := by
  induction rdatas generalizing rrset with
  | nil => rfl
  | cons rdata rdatas ih =>
    have hRest := ih (rrset.insert rdata)
    rw [Rrset.type_insert, Rrset.ttl_insert] at hRest
    rw [List.foldlM_cons, add_single]
    exact hRest

/-- An RRset of distinct data is what its own data make of an empty list. -/
theorem foldlM_add_empty {rrset : Rrset} (h : rrset.rdatas.Nodup) :
    rrset.rdatas.foldlM (fun list rdata => list.add rrset.type rrset.ttl rdata) empty =
      .ok (single rrset) := by
  obtain ⟨type, ttl, rdatas, hNe⟩ := rrset
  cases rdatas with
  | nil => exact absurd rfl hNe
  | cons first rest =>
    have hRest := foldlM_add_single (.single type ttl first) rest
    rw [Rrset.foldl_insert h] at hRest
    exact hRest

end RrsetList

end ZoneStore
