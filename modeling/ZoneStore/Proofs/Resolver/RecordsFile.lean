import ZoneStore.Resolver.RecordsFile

/-!
# What an entry of a records file writes

An entry writes a record when each of its texts is valid on its own: it has
the owner, type and data that the texts give, and the time to live that the
entry states or the file's own.
-/

namespace ZoneStore

namespace RecordEntry

/-- The seconds of an entry's time to live; a value from 2^31 on means zero. -/
def ttlSeconds (entry : RecordEntry) (defaultTtl : Ttl) : Nat :=
  match entry.ttl with
  | none => defaultTtl.seconds
  | some value => if 2147483647 < value then 0 else value

structure Writes (defaultTtl : Ttl) (entry : RecordEntry) (record : Record) : Prop where
  owner_read : Name.ofText entry.name = .ok record.owner
  type_read : RecordType.ofText entry.type = .ok record.type
  not_meta : record.type.isMeta = false
  ttl_read : record.ttl.seconds = entry.ttlSeconds defaultTtl
  rdata_read : Rdata.ofText record.type entry.data = .ok record.rdata

theorem seconds_ofRecord (value : Nat) :
    (Ttl.ofRecord value).seconds = if 2147483647 < value then 0 else value := by
  unfold Ttl.ofRecord maxTtl
  by_cases h : value ≤ 2147483647
  · rw [dif_pos h, if_neg (Nat.not_lt.mpr h)]
  · rw [dif_neg h, if_pos (Nat.lt_of_not_le h)]

theorem seconds_getD (entry : RecordEntry) (defaultTtl : Ttl) :
    ((entry.ttl.map Ttl.ofRecord).getD defaultTtl).seconds = entry.ttlSeconds defaultTtl := by
  rw [ttlSeconds]
  cases entry.ttl with
  | none => rfl
  | some value => exact seconds_ofRecord value

theorem toRecord_eq_ok_iff {entry : RecordEntry} {defaultTtl : Ttl} {record : Record} :
    entry.toRecord defaultTtl = .ok record ↔ entry.Writes defaultTtl record := by
  unfold toRecord
  constructor
  · intro h
    split at h
    · cases h
    · rename_i owner hOwner
      split at h
      · cases h
      · rename_i type hType
        split at h
        · cases h
        · rename_i hMeta
          split at h
          · cases h
          · rename_i rdata hRdata
            cases h
            exact ⟨hOwner, hType, eq_false_of_ne_true hMeta, seconds_getD entry defaultTtl, hRdata⟩
  · intro h
    have hTtl : (entry.ttl.map Ttl.ofRecord).getD defaultTtl = record.ttl := by
      apply Ttl.ext
      rw [seconds_getD, h.ttl_read]
    rw [h.owner_read, h.type_read]
    dsimp only
    rw [if_neg (ne_true_of_eq_false h.not_meta), h.rdata_read, hTtl]

end RecordEntry

end ZoneStore
