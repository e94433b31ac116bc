import MediaBridge.Core.AssetStore

/-!
# What the operations of the asset store remove

Each locked section only loses records and files, and no record whose file is still there. What
it says it has removed is gone.
-/

namespace MediaBridge.Core

open Foundation Foundation.TrackedFiles

namespace AssetStore

variable {settings : AssetStore} {store store' : Shelf} {now : ℚ} {assetId tenantId : Str}
  {removal : Removal} {removals : Str → Removal} {reads : Bool}

/-- Some records and files of a store are gone. -/
abbrev Loses (store store' : Shelf) : Prop :=
  Shrinks (fun assetId => Entries.has store.records assetId = true) store store'

theorem has_of_mem_expired (h : assetId ∈ expired now store) :
    Entries.has store.records assetId = true :=
  Entries.has_iff.mpr ((Entries.keys_sublist List.filter_sublist).subset h)

theorem loses_purgeExpired : Loses store (purgeExpired now removals store).1 := by
  have hloses : Loses store (store.removeEach removals true (expired now store)).1 :=
    shrinks_removeEach fun _ => has_of_mem_expired
  unfold purgeExpired
  split
  · rename_i heq
    rwa [heq] at hloses
  · rename_i heq
    rwa [heq] at hloses
  · rename_i heq
    rwa [heq] at hloses

/-- After a purge every record is alive. -/
theorem live_of_purgeExpired (h : (purgeExpired now removals store).2 = none) {record : AssetRecord}
    (hrecord : Entries.get? (purgeExpired now removals store).1.records assetId = some record) :
    now < record.expiresAt := by
  have hbefore := loses_purgeExpired.records assetId record hrecord
  unfold purgeExpired at h hrecord
  split at h
  · rename_i after heq
    rw [heq] at hrecord
    by_contra hle
    have hexpired : assetId ∈ expired now store := by
      refine List.mem_map.mpr ⟨(assetId, record), List.mem_filter.mpr ⟨?_, ?_⟩, rfl⟩
      · exact Entries.mem_of_get? hbefore
      · exact decide_eq_true (not_lt.mp hle)
    rw [records_of_removeEach_gone heq assetId hexpired] at hrecord
    cases hrecord
  · cases h
  · cases h

/-- The record that a tenant finds is its own. -/
theorem tenantRecord?_eq_some {record : AssetRecord}
    (h : tenantRecord? store assetId tenantId = some record) :
    Entries.get? store.records assetId = some record ∧ record.tenantId = tenantId := by
  obtain ⟨hrecord, htenant⟩ := Option.filter_eq_some_iff.mp h
  exact ⟨hrecord, of_decide_eq_true htenant⟩

theorem has_of_tenantRecord? {record : AssetRecord}
    (h : tenantRecord? store assetId tenantId = some record) :
    Entries.has store.records assetId = true :=
  Option.isSome_iff_exists.mpr ⟨record, (tenantRecord?_eq_some h).1⟩

/-- A removal that is verified, or not. -/
theorem loses_unlink (h : Entries.has store.records assetId = true) {verdict : RemovalVerdict}
    (hunlink : store.unlink assetId removal = (store', verdict)) : Loses store store' := by
  have hloses : Loses store (store.unlink assetId removal).1 :=
    shrinks_unlink (k := assetId) h removal
  rwa [hunlink] at hloses

theorem loses_consume :
    Loses store (settings.consume assetId tenantId reads removal store).1 := by
  unfold consume
  split
  · exact .refl _ _
  · split
    · exact .refl _ _
    · rename_i record hrecord
      have hhas := has_of_tenantRecord? hrecord
      split
      · exact .refl _ _
      · split
        · rename_i hunlink
          exact loses_unlink hhas hunlink
        · rename_i hunlink
          exact loses_unlink hhas hunlink
        · rename_i hunlink
          exact shrinks_unlink_forget hhas hunlink

/-- What a consumed asset was, and that it is gone. -/
structure Consumed (store store' : Shelf) (assetId tenantId : Str) (asset : ConsumedAsset)
    (record : AssetRecord) : Prop where
  recorded : Entries.get? store.records assetId = some record
  owned : record.tenantId = tenantId
  stood : Entries.get? store.files assetId = some asset.data
  filename : asset.filename = record.filename
  declaredMime : asset.declaredMime = record.declaredMime
  gone : Entries.get? store'.files assetId = none
  forgotten : Entries.get? store'.records assetId = none

theorem consumed_of_consume {asset : ConsumedAsset}
    (h : settings.consume assetId tenantId reads removal store = (store', .consumed asset)) :
    ∃ record, Consumed store store' assetId tenantId asset record := by
  unfold consume at h
  split at h
  · cases h
  · split at h
    · cases h
    · rename_i record hrecord
      obtain ⟨hget, howned⟩ := tenantRecord?_eq_some hrecord
      split at h
      · cases h
      · rename_i data hdata
        have hstood : Entries.get? store.files assetId = some data := by
          split at hdata
          · exact hdata
          · cases hdata
        split at h
        · cases h
        · cases h
        · rename_i after hunlink
          obtain ⟨rfl, hanswer⟩ := Prod.mk.inj h
          split at hanswer
          · cases hanswer
          · cases hanswer
            have hgone := has_of_unlink_gone hunlink
            exact ⟨record, hget, howned, hstood, rfl, rfl, Option.isSome_eq_false_iff.mp hgone |>
              Option.isNone_iff_eq_none.mp, Entries.get?_erase_self _ _⟩

theorem loses_delete : Loses store (delete assetId tenantId removal store).1 := by
  unfold delete
  split
  · exact .refl _ _
  · split
    · exact .refl _ _
    · rename_i record hrecord
      have hhas := has_of_tenantRecord? hrecord
      split
      · rename_i hunlink
        exact loses_unlink hhas hunlink
      · rename_i hunlink
        exact loses_unlink hhas hunlink
      · rename_i hunlink
        exact shrinks_unlink_forget hhas hunlink

/-- A clear that ends has removed the file of each record. -/
theorem loses_clear : Loses store (clear removals store).1 := by
  have hloses : Loses store (store.removeEach removals false (Entries.keys store.records)).1 :=
    shrinks_removeEach fun _ => Entries.has_iff.mpr
  unfold clear
  split
  · rename_i after heq
    rw [heq] at hloses
    have hgone := has_of_removeEach_gone heq
    refine ⟨hloses.files, nofun, ?_, hloses.untouched⟩
    intro assetId record hrecord hfile
    have hkey : assetId ∈ Entries.keys store.records :=
      List.mem_map_of_mem (Entries.mem_of_get? hrecord)
    exact absurd (hgone assetId hkey) (by rw [hfile]; exact Bool.noConfusion)
  · rename_i heq
    rwa [heq] at hloses
  · rename_i heq
    rwa [heq] at hloses

theorem delete_ne_consumed (asset : ConsumedAsset) :
    (delete assetId tenantId removal store).2 ≠ .consumed asset := by
  unfold delete
  split
  · nofun
  · split
    · nofun
    · split <;> nofun

theorem clear_ne_consumed (asset : ConsumedAsset) : (clear removals store).2 ≠ .consumed asset := by
  unfold clear
  split <;> nofun

end AssetStore

end MediaBridge.Core
