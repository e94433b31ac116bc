import MediaBridge.Core.AssetLifecycle

/-!
# Runs of the asset store

Whatever fails in a run, each file is known by its record, or is being written; and once removals
work, the directory can be emptied.
-/

namespace MediaBridge.Core.AssetState

open Foundation Foundation.TrackedFiles

variable {settings : AssetStore} {s s' : AssetState} {event : AssetEvent}

/-- No file is being written. -/
def Quiet (s : AssetState) : Prop := ∀ call ∈ s.calls, call.phase.pending? = none

/-- What holds of the assets in a state, and in each step from it. -/
structure Lifecycle (settings : AssetStore) (s : AssetState) : Prop where
  /-- What a call has consumed is what its tenant had put, was not expired, and is gone. -/
  returned : ∀ call ∈ s.calls, ∀ asset, call.phase = .finished (.consumed asset) →
    ∃ assetId record, Returns s.registered s.store call asset assetId record ∧
      s.Stored assetId record asset.data
  /-- No two calls have consumed one asset. -/
  once : Threads.Alone SameAsset s.calls
  /-- A file has a record, unless it is being written. -/
  tracked : s.Quiet → ∀ assetId, Entries.has s.store.files assetId = true →
    Entries.has s.store.records assetId = true
  /-- A step keeps the record of every file that it does not remove. -/
  kept : ∀ event s', s.step settings event = some s' → ∀ assetId record,
    Entries.get? s.store.records assetId = some record →
      Entries.has s'.store.files assetId = true →
        Entries.get? s'.store.records assetId = some record
  /-- A clear empties the directory if removals work. -/
  cleared : s.Quiet → ∀ i removal s', (∀ assetId, (removal assetId).Works) →
    s.step settings (.clears i removal) = some s' → s'.store.files = []
  /-- A purge after all expiries empties the directory if removals work. -/
  purged : s.Quiet → ∀ i call removal s', (∀ assetId, (removal assetId).Works) →
    s.calls[i]? = some call → (∀ e ∈ s.store.records, e.2.expiresAt ≤ call.now) →
      s.step settings (.purges i removal) = some s' → s'.store.files = []

/-- Without a file being written, every file has a record. -/
theorem Sound.has_records (h : Sound s) (hquiet : s.Quiet) {assetId : Str}
    (hfile : Entries.has s.store.files assetId = true) :
    Entries.has s.store.records assetId = true := by
  rcases h.tracked assetId hfile with hrecord | ⟨call, hcall, hpending⟩
  · exact hrecord
  · rw [hquiet call hcall] at hpending
    cases hpending

/-- A step keeps the record of every file that it does not remove. -/
theorem Sound.kept (h : Sound s) (hmove : Moves settings s event s') {assetId : Str}
    {record : AssetRecord} (hrecord : Entries.get? s.store.records assetId = some record)
    (hfile : Entries.has s'.store.files assetId = true) :
    Entries.get? s'.store.records assetId = some record := by
  cases hmove with
  | begins _ _ => exact hrecord
  | purges _ _ => exact AssetStore.loses_purgeExpired.kept assetId record hrecord hfile
  | refused _ _ => exact hrecord
  | opens _ _ _ => exact hrecord
  | writes _ _ _ => exact hrecord
  | @registers i call token tenantId data filename declaredMime now hcall hphase hrequest =>
      have hne : assetId ≠ token := by
        rintro rfl
        refine Option.some_ne_none record (hrecord.symm.trans ?_)
        refine h.pending_unrecorded (List.mem_of_getElem? hcall) ?_
        rw [hphase]
        rfl
      exact (Entries.get?_set_of_ne _ _ hne).trans hrecord
  | consumes _ _ _ => exact AssetStore.loses_consume.kept assetId record hrecord hfile
  | deletes _ _ _ => exact AssetStore.loses_delete.kept assetId record hrecord hfile
  | clears _ _ _ => exact AssetStore.loses_clear.kept assetId record hrecord hfile

/-- A directory without any of the recorded files is empty. -/
theorem Sound.files_eq_nil (h : Sound s) (hquiet : s.Quiet) {store : AssetStore.Shelf}
    (hloses : AssetStore.Loses s.store store)
    (hgone : ∀ assetId, Entries.has s.store.records assetId = true →
      Entries.has store.files assetId = false) : store.files = [] := by
  cases hfiles : store.files with
  | nil => rfl
  | cons e rest =>
      have hstands : Entries.has store.files e.1 = true := by
        rw [Entries.has_iff, hfiles]
        exact List.mem_cons_self
      have hrecord := h.has_records hquiet (hloses.has_files hstands)
      rw [hgone e.1 hrecord] at hstands
      cases hstands

/-- What a loop over working removals answers. -/
theorem removeEach_eq {removal : Str → Removal} (hworks : ∀ assetId, (removal assetId).Works)
    (forgets : Bool) (ks : List Str) (store : AssetStore.Shelf) :
    store.removeEach removal forgets ks = ((store.removeEach removal forgets ks).1, .gone) :=
  Prod.ext rfl (removeEach_of_works fun assetId _ => hworks assetId)

theorem Sound.cleared (h : Sound s) (hquiet : s.Quiet) {i : Nat} {removal : Str → Removal}
    (hworks : ∀ assetId, (removal assetId).Works)
    (hmove : Moves settings s (.clears i removal) s') : s'.store.files = [] := by
  cases hmove with
  | clears _ _ _ =>
      have heq := removeEach_eq hworks false (Entries.keys s.store.records) s.store
      refine h.files_eq_nil hquiet AssetStore.loses_clear fun assetId hrecord => ?_
      have hgone := has_of_removeEach_gone heq assetId (Entries.has_iff.mp hrecord)
      unfold AssetStore.clear
      rw [heq]
      exact hgone

theorem Sound.purged (h : Sound s) (hquiet : s.Quiet) {i : Nat} {call : AssetCall}
    {removal : Str → Removal} (hworks : ∀ assetId, (removal assetId).Works)
    (hcall : s.calls[i]? = some call) (hexpired : ∀ e ∈ s.store.records, e.2.expiresAt ≤ call.now)
    (hmove : Moves settings s (.purges i removal) s') : s'.store.files = [] := by
  cases hmove with
  | @purges i call' removal hcall' _ =>
      cases hcall.symm.trans hcall'
      have heq := removeEach_eq hworks true (AssetStore.expired call.now s.store) s.store
      refine h.files_eq_nil hquiet AssetStore.loses_purgeExpired fun assetId hrecord => ?_
      have hmem : assetId ∈ AssetStore.expired call.now s.store := by
        unfold AssetStore.expired
        rw [List.filter_eq_self.mpr fun e he => decide_eq_true (hexpired e he)]
        exact Entries.has_iff.mp hrecord
      have hgone := has_of_removeEach_gone heq assetId hmem
      change Entries.has (AssetStore.purgeExpired call.now removal s.store).1.files assetId = false
      unfold AssetStore.purgeExpired
      rw [heq]
      exact hgone

/-- The life of the assets in every run. -/
theorem lifecycle_of_reachable (h : (machine settings).Reachable Machine.anyStep s) :
    Lifecycle settings s := by
  have hsound := sound_of_reachable h
  constructor
  case returned =>
    intro call hcall asset hphase
    obtain ⟨assetId, record, hreturns⟩ := hsound.returned call hcall asset hphase
    exact ⟨assetId, record, hreturns, hsound.stored assetId record asset.data hreturns.known⟩
  case once => exact hsound.once
  case tracked => exact fun hquiet _ hfile => hsound.has_records hquiet hfile
  case kept =>
    exact fun _ _ hstep _ _ hrecord hfile => hsound.kept (moves_of_step hstep) hrecord hfile
  case cleared =>
    exact fun hquiet _ _ _ hworks hstep => hsound.cleared hquiet hworks (moves_of_step hstep)
  case purged =>
    exact fun hquiet _ _ _ _ hworks hcall hexpired hstep =>
      hsound.purged hquiet hworks hcall hexpired (moves_of_step hstep)

/-- An asset that is put, cannot be removed at first, and is then consumed. -/
def consumedLate : List AssetEvent :=
  let works : Str → Removal := fun _ => ⟨true, false⟩
  [.begins (.put (lit "tenant") [1, 2, 3] none none) 0, .purges 0 works, .opens 0 (lit "mb_1"),
    .writes 0, .registers 0 1,
    .begins (.consume (lit "mb_1") (lit "tenant")) 2, .purges 1 works,
    .removes 1 true ⟨false, true⟩,
    .begins (.consume (lit "mb_1") (lit "tenant")) 3, .purges 2 works,
    .removes 2 true ⟨true, false⟩]

/-- A store with the default settings. -/
def storeSample : AssetStore where
  maxBytes_pos := by decide
  ttl_range := by decide +kernel

theorem lifecycle_consumedLate : ∃ s, consumedLate.foldlM (step storeSample) {} = some s ∧
    Lifecycle storeSample s := by
  have hruns : (consumedLate.foldlM (step storeSample) {}).isSome = true := by decide +kernel
  obtain ⟨s, hs⟩ := Option.isSome_iff_exists.mp hruns
  exact ⟨s, hs, lifecycle_of_reachable
    (Machine.Reachable.foldlM (fun _ _ _ hstep => ⟨trivial, hstep⟩) (.start rfl) hs)⟩

end MediaBridge.Core.AssetState
