import MediaBridge.Gateway.SnapshotRuntime

/-!
# Histories of refreshes

When a refresh picks up a new snapshot. The reloader remembers the metadata of a file
before it loads the file, so that what it skips depends on the last refresh that could
read the metadata, whatever came of that refresh.
-/

namespace MediaBridge.Gateway

open Foundation MediaBridge.Core

namespace ReloaderState

variable (R : VerifiedSnapshotRuntime)

/-- A refresh finds a readable and valid file with a newer snapshot, from which every
component can be built. -/
structure Ready (current : Option GatewayGeneration) (e : Refresh)
    (snapshot : SignedSnapshot) : Prop where
  stat : e.fingerprint ≠ none
  candidate : R.candidate e.facts = .ok snapshot
  newer : ∀ old ∈ current, old.version < snapshot.version
  fault : e.fault = none
  builds : R.factory.build snapshot ≠ none

/-- Whenever a refresh of the history finds a new snapshot, the current generation has
its version afterwards. -/
def PicksUp (start : Option GatewayGeneration) (history : List Refresh) : Prop :=
  ∀ before e after snapshot, history = before ++ e :: after →
    Ready R ((fresh start).run R before).current e snapshot →
      ∃ generation, ((fresh start).run R (before ++ [e])).current = some generation ∧
        generation.version = snapshot.version

/-- The metadata at the last call that could read them. -/
def lastFingerprint (history : List Refresh) : Option Fingerprint :=
  history.foldl (fun last e => e.fingerprint.or last) none

/-- Whenever a refresh finds a new snapshot, the metadata of the file have changed since
the last call that could read them. -/
def MetadataChange (start : Option GatewayGeneration) (history : List Refresh) : Prop :=
  ∀ before e after snapshot, history = before ++ e :: after →
    Ready R ((fresh start).run R before).current e snapshot →
      e.fingerprint ≠ lastFingerprint before

theorem run_append_singleton (s : ReloaderState) (history : List Refresh) (e : Refresh) :
    s.run R (history ++ [e]) = (s.run R history).next R e := by
  rw [run, List.foldl_append]
  rfl

/-- A call remembers the metadata whatever it returns or raises. -/
theorem next_seen (s : ReloaderState) (e : Refresh) :
    (s.next R e).seen = e.fingerprint.or s.seen := by
  unfold next refreshIfChanged
  cases e.fingerprint with
  | none => rfl
  | some fingerprint =>
      simp only [Option.some_or]
      split
      · assumption
      · split <;> rfl

/-- What the reloader remembers after a history. -/
theorem run_seen (start : Option GatewayGeneration) (history : List Refresh) :
    ((fresh start).run R history).seen = lastFingerprint history := by
  induction history using List.reverseRecOn with
  | nil => rfl
  | append_singleton before e ih =>
      rw [run_append_singleton, next_seen, ih, lastFingerprint, lastFingerprint,
        List.foldl_append]
      rfl

variable {R} in
/-- A refresh picks a new snapshot up exactly when the metadata are not the remembered
ones. -/
theorem Ready.picked_up_iff {s : ReloaderState} {e : Refresh} {snapshot : SignedSnapshot}
    (h : Ready R s.current e snapshot) :
    (∃ generation, (s.next R e).current = some generation ∧
      generation.version = snapshot.version) ↔ e.fingerprint ≠ s.seen := by
  obtain ⟨fingerprint, hstat⟩ := Option.ne_none_iff_exists'.mp h.stat
  obtain ⟨generation, hbuild⟩ := Option.ne_none_iff_exists'.mp h.builds
  have hload : R.load s.current e.facts e.fault = .ok generation :=
    R.load_eq_ok.mpr ⟨snapshot, h.candidate, h.newer, h.fault, hbuild⟩
  unfold next refreshIfChanged
  simp only [hstat, hload]
  by_cases hseen : s.seen = some fingerprint
  · rw [if_pos hseen, hseen]
    constructor
    · rintro ⟨old, hold, hversion⟩
      have hnewer := h.newer old hold
      omega
    · exact fun hne => absurd rfl hne
  · rw [if_neg hseen]
    constructor
    · exact fun _ heq => hseen heq.symm
    · intro _
      exact ⟨generation, rfl, R.factory.version_of_build hbuild⟩

/-- A history picks up every new snapshot exactly when each has metadata of its own. -/
theorem picksUp_iff (start : Option GatewayGeneration) (history : List Refresh) :
    PicksUp R start history ↔ MetadataChange R start history := by
  constructor
  · intro h before e after snapshot hhistory hready
    have hpicked := h before e after snapshot hhistory hready
    rw [run_append_singleton, hready.picked_up_iff, run_seen] at hpicked
    exact hpicked
  · intro h before e after snapshot hhistory hready
    rw [run_append_singleton, hready.picked_up_iff, run_seen]
    exact h before e after snapshot hhistory hready

/-- A refresh that the file system does not let read, and one that finds the same file
readable. -/
def sampleHistory : List Refresh :=
  [⟨some ⟨1, 2, 400, 3⟩, { sampleFile 1 with content := none }, none⟩,
    ⟨some ⟨1, 2, 400, 3⟩, sampleFile 1, none⟩]

/-- After a read error the file is not looked at again. -/
theorem read_error_remembered : ¬ PicksUp sampleRuntime none sampleHistory := by
  intro h
  have hready : ∃ snapshot, Ready sampleRuntime
      ((fresh none).run sampleRuntime (sampleHistory.take 1)).current
      ⟨some ⟨1, 2, 400, 3⟩, sampleFile 1, none⟩ snapshot := by
    have hload : ((sampleRuntime.candidate (sampleFile 1)).toOption.bind
        sampleRuntime.factory.build).isSome = true := by
      decide +kernel
    have hcurrent : ((fresh none).run sampleRuntime (sampleHistory.take 1)).current = none := rfl
    cases hcandidate : sampleRuntime.candidate (sampleFile 1) with
    | error e => rw [hcandidate] at hload; cases hload
    | ok snapshot =>
        rw [hcandidate] at hload
        refine ⟨snapshot, nofun, hcandidate, ?_, rfl, ?_⟩
        · rw [hcurrent]
          exact nofun
        · exact Option.isSome_iff_ne_none.mp hload
  obtain ⟨snapshot, hready⟩ := hready
  obtain ⟨generation, hcurrent, -⟩ :=
    h (sampleHistory.take 1) ⟨some ⟨1, 2, 400, 3⟩, sampleFile 1, none⟩ [] snapshot rfl hready
  cases hcurrent

end ReloaderState

end MediaBridge.Gateway
