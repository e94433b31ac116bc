import MediaBridge.Foundation.Runs
import MediaBridge.Gateway.SnapshotRuntime
import Mathlib.Data.List.MinMax

/-!
# Publishing snapshots

`SnapshotPublisher` of `media_bridge_control/snapshots.py`: calls of `publish` and
`rollback` side by side. The version of a snapshot is allocated under a lock that ends
with the transaction; the file is replaced afterwards.

## Implementation notes

A transaction may fail for reasons of its own (the stored key, the database), which its
event says. The file is replaced by one `os.replace`; a write may fail before it, or
after it, when the directory cannot be synced. `writes` is the history of the file.
-/

namespace MediaBridge.Control

open Foundation MediaBridge.Core

/-- A committed row of the snapshot table. -/
structure SnapshotRow where
  version : Nat
  body : Entries Str Json

/-- Where a call is between two of its steps. -/
inductive CallPhase
  | idle
  | readBack (body : Entries Str Json)
  | committed (row : SnapshotRow)
  | written (row : SnapshotRow) (raised : Bool)
  | unwritten (row : SnapshotRow)
  | refused

inductive WriteOutcome
  | replaced
  | failed
  | replacedThenFailed
deriving DecidableEq

/-- Whether the file was replaced. -/
def WriteOutcome.replaces : WriteOutcome → Bool
  | .replaced => true
  | .failed => false
  | .replacedThenFailed => true

structure PublishState where
  rows : List SnapshotRow
  file : Option SnapshotRow
  calls : Nat → CallPhase
  writes : List Nat

/-- The steps of calls, which are named by numbers. -/
inductive PublishEvent
  | rollback (id : Nat) (version : Nat)
  | commit (id : Nat) (body : Entries Str Json) (fails : Bool)
  | recommit (id : Nat) (fails : Bool)
  | write (id : Nat) (outcome : WriteOutcome)

namespace PublishState

/-- An empty table and no file. -/
def start : PublishState := ⟨[], none, fun _ => .idle, []⟩

variable (L : SnapshotLibrary) (s : PublishState)

/-- `coalesce(max(version), 0) + 1`. -/
def nextVersion : Nat := (s.rows.map SnapshotRow.version).foldr max 0 + 1

/-- A call goes on to another phase. -/
def move (id : Nat) (phase : CallPhase) : PublishState :=
  { s with calls := Function.update s.calls id phase }

theorem calls_move_self (id : Nat) (phase : CallPhase) : (s.move id phase).calls id = phase :=
  Function.update_self ..

theorem calls_move_of_ne {id id' : Nat} (h : id' ≠ id) (phase : CallPhase) :
    (s.move id phase).calls id' = s.calls id' :=
  Function.update_of_ne h ..

/-- The transaction of `publish`. -/
def commitStep (id : Nat) (body : Entries Str Json) (fails : Bool) : PublishState :=
  if fails then s.move id .refused
  else
    match ConfigSnapshot.snapshotDigest L body with
    | .error _ => s.move id .refused
    | .ok _ =>
        let row : SnapshotRow := ⟨s.nextVersion, body⟩
        { s.move id (.committed row) with rows := s.rows ++ [row] }

/-- The first transaction of `rollback`. -/
def rollbackStep (id : Nat) (version : Nat) : PublishState :=
  match s.rows.find? fun row => decide (row.version = version) with
  | none => s.move id .refused
  | some row => s.move id (.readBack row.body)

/-- The file holds the snapshot of a row. -/
def replaced (row : SnapshotRow) : PublishState :=
  { s with file := some row, writes := s.writes ++ [row.version] }

/-- `_atomic_write`. -/
def writeStep (id : Nat) (row : SnapshotRow) : WriteOutcome → PublishState
  | .replaced => (s.replaced row).move id (.written row false)
  | .failed => s.move id (.unwritten row)
  | .replacedThenFailed => (s.replaced row).move id (.written row true)

/-- The next state; an event that does not fit the phase of its call changes nothing. -/
def apply : PublishEvent → PublishState
  | .rollback id version =>
      match s.calls id with
      | .idle => s.rollbackStep id version
      | _ => s
  | .commit id body fails =>
      match s.calls id with
      | .idle => s.commitStep L id body fails
      | _ => s
  | .recommit id fails =>
      match s.calls id with
      | .readBack body => s.commitStep L id body fails
      | _ => s
  | .write id outcome =>
      match s.calls id with
      | .committed row => s.writeStep id row outcome
      | _ => s

/-- The state after a run. -/
def run (events : List PublishEvent) : PublishState := events.foldl (apply L) start

/-- The version in the file; versions start at 1, and 0 stands for no file. -/
def fileVersion : Nat := (s.file.map SnapshotRow.version).getD 0

/-- The highest committed version, or 0. -/
def highest : Nat := (s.rows.map SnapshotRow.version).foldr max 0

/-- Every call that committed has finished without a write failure. -/
def Settled : Prop :=
  ∀ id, (∀ row, s.calls id ≠ .committed row) ∧ (∀ row, s.calls id ≠ .unwritten row) ∧
    ∀ row, s.calls id ≠ .written row true

end PublishState

/-- The row that a call has committed. -/
def CallPhase.row? : CallPhase → Option SnapshotRow
  | .idle => none
  | .readBack _ => none
  | .committed row => some row
  | .written row _ => some row
  | .unwritten row => some row
  | .refused => none

namespace PublishState

/-- The event does not replace the file. -/
def Quiet (s : PublishState) (e : PublishEvent) : Prop :=
  ∀ id outcome row, e = .write id outcome → s.calls id = .committed row →
    outcome.replaces = false

/-- What one event can do. -/
inductive Step (s : PublishState) (e : PublishEvent) : PublishState → Prop
  | stay (quiet : s.Quiet e) : Step s e s
  | move (id : Nat) (phase : CallPhase) (quiet : s.Quiet e)
      (before : (s.calls id).row? = none) (after : phase.row? = none) :
      Step s e (s.move id phase)
  | commit (id : Nat) (body : Entries Str Json) (quiet : s.Quiet e)
      (before : (s.calls id).row? = none) :
      Step s e { s.move id (.committed ⟨s.nextVersion, body⟩) with
        rows := s.rows ++ [⟨s.nextVersion, body⟩] }
  | fail (id : Nat) (row : SnapshotRow) (quiet : s.Quiet e)
      (before : s.calls id = .committed row) : Step s e (s.move id (.unwritten row))
  | write (id : Nat) (row : SnapshotRow) (outcome : WriteOutcome) (raised : Bool)
      (before : s.calls id = .committed row) (event : e = .write id outcome)
      (replaces : outcome.replaces = true) :
      Step s e ((s.replaced row).move id (.written row raised))

theorem step_commit (L : SnapshotLibrary) (s : PublishState) {id : Nat}
    (before : (s.calls id).row? = none) (body : Entries Str Json) (fails : Bool)
    {e : PublishEvent} (quiet : s.Quiet e) : Step s e (s.commitStep L id body fails) := by
  unfold commitStep
  split
  · exact .move id _ quiet before rfl
  · split
    · exact .move id _ quiet before rfl
    · exact .commit id body quiet before

/-- Every event makes such a step. -/
theorem step_apply (L : SnapshotLibrary) (s : PublishState) (e : PublishEvent) :
    Step s e (s.apply L e) := by
  cases e with
  | rollback id version =>
      simp only [apply]
      split
      · rename_i hidle
        have before : (s.calls id).row? = none := by rw [hidle]; rfl
        unfold rollbackStep
        split
        · exact .move id _ nofun before rfl
        · exact .move id _ nofun before rfl
      · exact .stay nofun
  | commit id body fails =>
      simp only [apply]
      split
      · rename_i hidle
        exact step_commit L s (by rw [hidle]; rfl) body fails nofun
      · exact .stay nofun
  | recommit id fails =>
      simp only [apply]
      split
      · rename_i body hread
        exact step_commit L s (by rw [hread]; rfl) body fails nofun
      · exact .stay nofun
  | write id outcome =>
      simp only [apply]
      split
      · rename_i row hcommitted
        cases outcome with
        | replaced => exact .write id row .replaced false hcommitted rfl rfl
        | replacedThenFailed => exact .write id row .replacedThenFailed true hcommitted rfl rfl
        | failed =>
            refine .fail id row ?_ hcommitted
            rintro _ _ _ ⟨⟩ -
            rfl
      · rename_i hother
        refine .stay ?_
        rintro _ _ row ⟨⟩ hcommitted
        exact absurd hcommitted (hother row)

/-- What has been written stays. -/
theorem Step.writes_prefix {s s' : PublishState} {e : PublishEvent} (h : Step s e s') :
    s.writes <+: s'.writes := by
  cases h with
  | stay | move | commit | fail => exact List.prefix_rfl
  | write id row outcome raised before event replaces => exact List.prefix_append _ _

/-- What holds in every state of a run. -/
structure Invariant (s : PublishState) : Prop where
  committed : ∀ id row, (s.calls id).row? = some row → row ∈ s.rows
  distinct : ∀ id id' row row', (s.calls id).row? = some row →
    (s.calls id').row? = some row' → row.version = row'.version → id = id'
  owner : ∀ row ∈ s.rows, ∃ id, (s.calls id).row? = some row
  writes : ∀ v, v ∈ s.writes ↔ ∃ id row raised, s.calls id = .written row raised ∧
    row.version = v
  file : s.fileVersion = s.writes.getLast?.getD 0

theorem version_le_highest {s : PublishState} {row : SnapshotRow} (h : row ∈ s.rows) :
    row.version ≤ s.highest :=
  List.le_max_of_le (List.mem_map_of_mem h) le_rfl

theorem highest_le {s : PublishState} {n : Nat} (h : ∀ row ∈ s.rows, row.version ≤ n) :
    s.highest ≤ n :=
  List.max_le_of_forall_le _ n (List.forall_mem_map.mpr h)

namespace Invariant

theorem start : Invariant PublishState.start where
  committed _ _ h := by cases h
  distinct _ _ _ _ h := by cases h
  owner := nofun
  writes v := by
    constructor
    · exact nofun
    · rintro ⟨id, row, raised, h, -⟩
      cases h
  file := rfl

variable {s : PublishState} (h : Invariant s)
include h

/-- A call changes its phase and keeps its row, if it has one, and is not written before
or after. -/
theorem move {id : Nat} {phase : CallPhase} (hrow : phase.row? = (s.calls id).row?)
    (before : ∀ row raised, s.calls id ≠ .written row raised)
    (after : ∀ row raised, phase ≠ .written row raised) : Invariant (s.move id phase) := by
  have hrows (id' : Nat) : ((s.move id phase).calls id').row? = (s.calls id').row? := by
    by_cases hid : id' = id
    · subst hid
      rw [calls_move_self, hrow]
    · rw [calls_move_of_ne _ hid]
  refine ⟨?_, ?_, ?_, ?_, h.file⟩
  · intro id' row hid'
    exact h.committed id' row ((hrows id').symm.trans hid')
  · intro id₁ id₂ row row' h₁ h₂
    exact h.distinct id₁ id₂ row row' ((hrows id₁).symm.trans h₁) ((hrows id₂).symm.trans h₂)
  · intro row hmem
    obtain ⟨id', hid'⟩ := h.owner row hmem
    exact ⟨id', (hrows id').trans hid'⟩
  · intro v
    refine (h.writes v).trans ?_
    constructor
    · rintro ⟨id', row, raised, hwritten, hv⟩
      have hne : id' ≠ id := by
        rintro rfl
        exact before row raised hwritten
      exact ⟨id', row, raised, (calls_move_of_ne s hne _).trans hwritten, hv⟩
    · rintro ⟨id', row, raised, hwritten, hv⟩
      have hne : id' ≠ id := by
        rintro rfl
        exact after row raised ((calls_move_self s _ _).symm.trans hwritten)
      exact ⟨id', row, raised, (calls_move_of_ne s hne _).symm.trans hwritten, hv⟩

/-- A new row, with a version above all others. -/
theorem commit {id : Nat} (body : Entries Str Json) (before : (s.calls id).row? = none) :
    Invariant { s.move id (.committed ⟨s.nextVersion, body⟩) with
      rows := s.rows ++ [⟨s.nextVersion, body⟩] } := by
  have hnew {id' : Nat} {row : SnapshotRow} (hid' : (s.calls id').row? = some row) :
      row.version < s.nextVersion :=
    Nat.lt_succ_of_le (version_le_highest (h.committed id' row hid'))
  have hself : (s.move id (.committed ⟨s.nextVersion, body⟩)).calls id =
      .committed ⟨s.nextVersion, body⟩ := calls_move_self ..
  have hother {id' : Nat} (hid : id' ≠ id) :
      (s.move id (.committed ⟨s.nextVersion, body⟩)).calls id' = s.calls id' :=
    calls_move_of_ne s hid _
  refine ⟨?_, ?_, ?_, ?_, h.file⟩
  · intro id' row hid'
    by_cases hid : id' = id
    · subst hid
      rw [hself] at hid'
      cases hid'
      exact List.mem_append_right _ (List.mem_singleton_self _)
    · rw [hother hid] at hid'
      exact List.mem_append_left _ (h.committed id' row hid')
  · intro id₁ id₂ row row' h₁ h₂ heq
    by_cases hid₁ : id₁ = id
    · by_cases hid₂ : id₂ = id
      · exact hid₁.trans hid₂.symm
      · subst hid₁
        rw [hself] at h₁
        rw [hother hid₂] at h₂
        cases h₁
        have hlt := hnew h₂
        simp only at heq
        omega
    · by_cases hid₂ : id₂ = id
      · subst hid₂
        rw [hother hid₁] at h₁
        rw [hself] at h₂
        cases h₂
        have hlt := hnew h₁
        simp only at heq
        omega
      · rw [hother hid₁] at h₁
        rw [hother hid₂] at h₂
        exact h.distinct id₁ id₂ row row' h₁ h₂ heq
  · intro row hmem
    rcases List.mem_append.mp hmem with hold | hrow
    · obtain ⟨id', hid'⟩ := h.owner row hold
      have hne : id' ≠ id := by
        rintro rfl
        rw [before] at hid'
        cases hid'
      exact ⟨id', by rw [hother hne]; exact hid'⟩
    · rw [List.mem_singleton] at hrow
      subst hrow
      exact ⟨id, by rw [hself]; rfl⟩
  · intro v
    refine (h.writes v).trans ?_
    constructor
    · rintro ⟨id', row, raised, hwritten, hv⟩
      have hne : id' ≠ id := by
        rintro rfl
        rw [hwritten] at before
        cases before
      exact ⟨id', row, raised, (hother hne).trans hwritten, hv⟩
    · rintro ⟨id', row, raised, hwritten, hv⟩
      have hne : id' ≠ id := by
        rintro rfl
        cases hself.symm.trans hwritten
      exact ⟨id', row, raised, (hother hne).symm.trans hwritten, hv⟩

/-- The file is replaced. -/
theorem write {id : Nat} {row : SnapshotRow} (raised : Bool)
    (before : s.calls id = .committed row) :
    Invariant ((s.replaced row).move id (.written row raised)) := by
  have hself : ((s.replaced row).move id (.written row raised)).calls id =
      .written row raised := calls_move_self ..
  have hother {id' : Nat} (hid : id' ≠ id) :
      ((s.replaced row).move id (.written row raised)).calls id' = s.calls id' :=
    calls_move_of_ne (s.replaced row) hid _
  have hrows (id' : Nat) : (((s.replaced row).move id (.written row raised)).calls id').row? =
      (s.calls id').row? := by
    by_cases hid : id' = id
    · subst hid
      rw [hself, before]
      rfl
    · rw [hother hid]
  refine ⟨?_, ?_, ?_, ?_, ?_⟩
  · intro id' row' hid'
    exact h.committed id' row' ((hrows id').symm.trans hid')
  · intro id₁ id₂ row₁ row₂ h₁ h₂
    exact h.distinct id₁ id₂ row₁ row₂ ((hrows id₁).symm.trans h₁) ((hrows id₂).symm.trans h₂)
  · intro row' hmem
    obtain ⟨id', hid'⟩ := h.owner row' hmem
    exact ⟨id', (hrows id').trans hid'⟩
  · intro v
    change v ∈ s.writes ++ [row.version] ↔ _
    rw [List.mem_append, List.mem_singleton, h.writes v]
    constructor
    · rintro (⟨id', row', raised', hwritten, hv⟩ | rfl)
      · have hne : id' ≠ id := by
          rintro rfl
          cases before.symm.trans hwritten
        exact ⟨id', row', raised', (hother hne).trans hwritten, hv⟩
      · exact ⟨id, row, raised, hself, rfl⟩
    · rintro ⟨id', row', raised', hwritten, hv⟩
      by_cases hid : id' = id
      · subst hid
        cases hself.symm.trans hwritten
        exact .inr hv.symm
      · exact .inl ⟨id', row', raised', (hother hid).symm.trans hwritten, hv⟩
  · change row.version = (s.writes ++ [row.version]).getLast?.getD 0
    rw [List.getLast?_append]
    rfl

theorem step {e : PublishEvent} {s' : PublishState} (hstep : Step s e s') : Invariant s' := by
  cases hstep with
  | stay quiet => exact h
  | move id phase quiet before after =>
      apply h.move (after.trans before.symm)
      · intro row raised heq
        rw [heq] at before
        cases before
      · rintro row raised rfl
        cases after
  | commit id body quiet before => exact h.commit body before
  | fail id row quiet before =>
      apply h.move
      · rw [before]
        rfl
      · rw [before]
        exact nofun
      · exact nofun
  | write id row outcome raised before event replaces => exact h.write raised before

end Invariant

theorem run_append_singleton (L : SnapshotLibrary) (events : List PublishEvent)
    (e : PublishEvent) : run L (events ++ [e]) = (run L events).apply L e := by
  rw [run, List.foldl_append]
  rfl

theorem invariant_run (L : SnapshotLibrary) (events : List PublishEvent) :
    Invariant (run L events) := by
  induction events using List.reverseRecOn with
  | nil => exact .start
  | append_singleton events e ih =>
      rw [run_append_singleton]
      exact ih.step (step_apply L _ e)

end PublishState

open PublishState

/-- The version in the file never goes down, and after all calls have finished without a
write failure the file holds the highest committed version. -/
structure Ordered (L : SnapshotLibrary) (events : List PublishEvent) : Prop where
  neverDown : EachStep (fun before e =>
    (run L before).fileVersion ≤ (run L (before ++ [e])).fileVersion) events
  settled : (run L events).Settled → (run L events).fileVersion = (run L events).highest

/-- At some moment of the run one call had committed and the other one had not. -/
def CommittedBefore (L : SnapshotLibrary) (events : List PublishEvent) (other id : Nat) : Prop :=
  ∃ before, before <+: events ∧ ((run L before).calls other).row? ≠ none ∧
    ((run L before).calls id).row? = none

/-- A call replaces the file only when every call that has replaced it before has
committed before. -/
def WritesInCommitOrder (L : SnapshotLibrary) (events : List PublishEvent) : Prop :=
  EachStep (fun before e => ∀ id outcome row, e = .write id outcome →
    (run L before).calls id = .committed row → outcome.replaces = true →
      ∀ other row' raised, (run L before).calls other = .written row' raised →
        CommittedBefore L before other id) events

namespace PublishState

variable {L : SnapshotLibrary}

/-- A call keeps the row that it has committed. -/
theorem Step.row?_kept {s s' : PublishState} {e : PublishEvent} (h : Step s e s') {id : Nat}
    {row : SnapshotRow} (hrow : (s.calls id).row? = some row) :
    (s'.calls id).row? = some row := by
  cases h with
  | stay quiet => exact hrow
  | move other phase quiet before after =>
      have hne : id ≠ other := by
        rintro rfl
        cases hrow.symm.trans before
      rw [calls_move_of_ne s hne]
      exact hrow
  | commit other body quiet before =>
      have hne : id ≠ other := by
        rintro rfl
        cases hrow.symm.trans before
      change ((s.move other _).calls id).row? = _
      rw [calls_move_of_ne s hne]
      exact hrow
  | fail other row' quiet before =>
      by_cases hid : id = other
      · subst hid
        rw [before] at hrow
        rw [calls_move_self]
        exact hrow
      · rw [calls_move_of_ne s hid]
        exact hrow
  | write other row' outcome raised before event replaces =>
      by_cases hid : id = other
      · subst hid
        rw [before] at hrow
        rw [calls_move_self]
        exact hrow
      · rw [calls_move_of_ne _ hid]
        exact hrow

/-- A call that commits gets the next version, and no other call changes. -/
theorem Step.row?_new {s s' : PublishState} {e : PublishEvent} (h : Step s e s') {id : Nat}
    {row : SnapshotRow} (hnone : (s.calls id).row? = none) (hrow : (s'.calls id).row? = some row) :
    row.version = s.nextVersion ∧ ∀ other, other ≠ id → s'.calls other = s.calls other := by
  cases h with
  | stay quiet => cases hnone.symm.trans hrow
  | move other phase quiet before after =>
      by_cases hid : id = other
      · subst hid
        rw [calls_move_self, after] at hrow
        cases hrow
      · rw [calls_move_of_ne s hid, hnone] at hrow
        cases hrow
  | commit other body quiet before =>
      change ((s.move other _).calls id).row? = _ at hrow
      by_cases hid : id = other
      · subst hid
        rw [calls_move_self] at hrow
        cases hrow
        exact ⟨rfl, fun other hother => calls_move_of_ne s hother _⟩
      · rw [calls_move_of_ne s hid, hnone] at hrow
        cases hrow
  | fail other row' quiet before =>
      by_cases hid : id = other
      · subst hid
        rw [before] at hnone
        cases hnone
      · rw [calls_move_of_ne s hid, hnone] at hrow
        cases hrow
  | write other row' outcome raised before event replaces =>
      by_cases hid : id = other
      · subst hid
        rw [before] at hnone
        cases hnone
      · rw [calls_move_of_ne _ hid] at hrow
        cases hnone.symm.trans hrow

theorem row?_run_append {before : List PublishEvent} (rest : List PublishEvent) {id : Nat}
    {row : SnapshotRow} (h : ((run L before).calls id).row? = some row) :
    ((run L (before ++ rest)).calls id).row? = some row := by
  induction rest using List.reverseRecOn with
  | nil =>
      rw [List.append_nil]
      exact h
  | append_singleton rest e ih =>
      rw [← List.append_assoc, run_append_singleton]
      exact (step_apply L _ e).row?_kept ih

/-- Versions follow the order of the commits. -/
theorem committedBefore_iff {events : List PublishEvent} {other id : Nat} {row' row : SnapshotRow}
    (hother : ((run L events).calls other).row? = some row')
    (hid : ((run L events).calls id).row? = some row) :
    CommittedBefore L events other id ↔ row'.version < row.version := by
  induction events using List.reverseRecOn generalizing row row' with
  | nil => cases hid
  | append_singleton events e ih =>
      have hstep := step_apply L (run L events) e
      rw [run_append_singleton] at hother hid
      have hlater : CommittedBefore L (events ++ [e]) other id ↔
          CommittedBefore L events other id ∨
            ((run L events).calls other).row? ≠ none ∧ ((run L events).calls id).row? = none := by
        constructor
        · rintro ⟨before, hbefore, hsome, hnone⟩
          rcases List.prefix_concat_iff.mp hbefore with rfl | hbefore
          · rw [run_append_singleton, hid] at hnone
            cases hnone
          · exact .inl ⟨before, hbefore, hsome, hnone⟩
        · rintro (⟨before, hbefore, h⟩ | h)
          · exact ⟨before, hbefore.trans (List.prefix_append _ _), h⟩
          · exact ⟨events, List.prefix_append _ _, h⟩
      have hcommitted {i : Nat} {r : SnapshotRow} (hr : ((run L events).calls i).row? = some r) :
          r.version < (run L events).nextVersion :=
        Nat.lt_succ_of_le (version_le_highest ((invariant_run L events).committed i r hr))
      have hnever (hnone : ((run L events).calls other).row? = none) :
          ¬ CommittedBefore L events other id := by
        rintro ⟨before, ⟨rest, rfl⟩, hsome, -⟩
        obtain ⟨r, hr⟩ := Option.ne_none_iff_exists'.mp hsome
        cases (row?_run_append rest hr).symm.trans hnone
      rw [hlater]
      cases hbefore : ((run L events).calls id).row? with
      | none =>
          obtain ⟨hversion, hsame⟩ := hstep.row?_new hbefore hid
          by_cases heq : other = id
          · subst heq
            cases hother.symm.trans hid
            exact iff_of_false (by simp [hnever hbefore, hbefore]) (lt_irrefl _)
          · rw [hsame other heq] at hother
            rw [hother, hversion]
            exact iff_of_true (.inr ⟨nofun, rfl⟩) (hcommitted hother)
      | some r =>
          cases (hstep.row?_kept hbefore).symm.trans hid
          cases hbefore' : ((run L events).calls other).row? with
          | none =>
              have hversion := (hstep.row?_new hbefore' hother).1
              have hlt := hcommitted hbefore
              rw [← hversion] at hlt
              exact iff_of_false (by simp [hnever hbefore']) hlt.asymm
          | some r' =>
              cases (hstep.row?_kept hbefore').symm.trans hother
              rw [ih hbefore' hbefore]
              simp

/-- The version in the file is at least every version that has been written, when these
came in order. -/
theorem Invariant.le_fileVersion {s : PublishState} (h : Invariant s)
    (hsorted : s.writes.Pairwise (· < ·)) : ∀ v ∈ s.writes, v ≤ s.fileVersion := by
  rw [h.file]
  rcases List.eq_nil_or_concat s.writes with hnil | ⟨init, last, hwrites⟩
  · rw [hnil]
    exact nofun
  · rw [hwrites, List.concat_eq_append] at hsorted ⊢
    rw [List.getLast?_concat]
    have hbelow := (List.pairwise_append.mp hsorted).2.2
    refine List.forall_mem_append.mpr ⟨fun v hv => ?_, List.forall_mem_singleton.mpr le_rfl⟩
    exact (hbelow v hv last (List.mem_singleton_self _)).le

/-- The version in the file has been written, if there is a file. -/
theorem Invariant.fileVersion_mem {s : PublishState} (h : Invariant s) :
    s.fileVersion = 0 ∨ s.fileVersion ∈ s.writes := by
  rw [h.file]
  rcases List.eq_nil_or_concat s.writes with hnil | ⟨init, last, hwrites⟩
  · rw [hnil]
    exact .inl rfl
  · rw [hwrites, List.concat_eq_append, List.getLast?_concat]
    exact .inr (List.mem_append_right _ (List.mem_singleton_self _))

/-- One step and the order of the writes: the file does not go down, and equivalently
the call committed after all that have written. -/
theorem Invariant.step_sorted {s s' : PublishState} {e : PublishEvent} (h : Invariant s)
    (hsorted : s.writes.Pairwise (· < ·)) (hstep : Step s e s') :
    (s'.writes.Pairwise (· < ·) ↔ s.fileVersion ≤ s'.fileVersion) ∧
      (s'.writes.Pairwise (· < ·) ↔ ∀ id outcome row, e = .write id outcome →
        s.calls id = .committed row → outcome.replaces = true →
          ∀ other row' raised, s.calls other = .written row' raised →
            row'.version < row.version) := by
  have hquiet (quiet : s.Quiet e) (hwrites : s'.writes = s.writes) (hfile : s'.file = s.file) :
      (s'.writes.Pairwise (· < ·) ↔ s.fileVersion ≤ s'.fileVersion) ∧
        (s'.writes.Pairwise (· < ·) ↔ ∀ id outcome row, e = .write id outcome →
          s.calls id = .committed row → outcome.replaces = true →
            ∀ other row' raised, s.calls other = .written row' raised →
              row'.version < row.version) := by
    rw [hwrites, fileVersion, fileVersion, hfile]
    refine ⟨iff_of_true hsorted le_rfl, iff_of_true hsorted ?_⟩
    intro id outcome row hevent hcommitted hreplaces
    rw [quiet id outcome row hevent hcommitted] at hreplaces
    cases hreplaces
  cases hstep with
  | stay quiet => exact hquiet quiet rfl rfl
  | move id phase quiet before after => exact hquiet quiet rfl rfl
  | commit id body quiet before => exact hquiet quiet rfl rfl
  | fail id row quiet before => exact hquiet quiet rfl rfl
  | write id row outcome raised before event replaces =>
      change ((s.writes ++ [row.version]).Pairwise (· < ·) ↔ s.fileVersion ≤ row.version) ∧
        ((s.writes ++ [row.version]).Pairwise (· < ·) ↔ _)
      have habove : (s.writes ++ [row.version]).Pairwise (· < ·) ↔
          ∀ w ∈ s.writes, w < row.version := by
        rw [List.pairwise_append]
        simp only [List.pairwise_singleton, List.mem_singleton, forall_eq, true_and]
        exact and_iff_right hsorted
      rw [habove]
      constructor
      · constructor
        · intro hbelow
          rcases h.fileVersion_mem with hzero | hmem
          · omega
          · exact (hbelow _ hmem).le
        · intro hle w hw
          refine ((h.le_fileVersion hsorted w hw).trans hle).lt_of_ne ?_
          rintro rfl
          obtain ⟨id', row', raised', hwritten, hversion⟩ := (h.writes _).mp hw
          have hid : id' = id :=
            h.distinct id' id row' row (by rw [hwritten]; rfl) (by rw [before]; rfl) hversion
          rw [hid, before] at hwritten
          cases hwritten
      · subst event
        constructor
        · rintro hbelow _ _ row₂ ⟨⟩ hcommitted - other row' raised' hwritten
          rw [before] at hcommitted
          cases hcommitted
          exact hbelow _ ((h.writes _).mpr ⟨other, row', raised', hwritten, rfl⟩)
        · intro hcondition w hw
          obtain ⟨other, row', raised', hwritten, rfl⟩ := (h.writes w).mp hw
          exact hcondition id outcome row rfl before replaces other row' raised' hwritten

/-- The writes are in order exactly when the file never goes down, and exactly when they
happen in the order of the commits. -/
theorem sorted_iff (events : List PublishEvent) :
    ((run L events).writes.Pairwise (· < ·) ↔ EachStep (fun before e =>
      (run L before).fileVersion ≤ (run L (before ++ [e])).fileVersion) events) ∧
      ((run L events).writes.Pairwise (· < ·) ↔ WritesInCommitOrder L events) := by
  induction events using List.reverseRecOn with
  | nil => exact ⟨iff_of_true .nil (eachStep_nil _), iff_of_true .nil (eachStep_nil _)⟩
  | append_singleton events e ih =>
      obtain ⟨hdown, horder⟩ := ih
      have hstep := step_apply L (run L events) e
      have hbefore : ((run L events).apply L e).writes.Pairwise (· < ·) ↔
          (run L events).writes.Pairwise (· < ·) ∧
            ((run L events).apply L e).writes.Pairwise (· < ·) :=
        ⟨fun hafter => ⟨hafter.sublist hstep.writes_prefix.sublist, hafter⟩, And.right⟩
      have hlast (hsorted : (run L events).writes.Pairwise (· < ·)) :=
        (invariant_run L events).step_sorted hsorted hstep
      rw [WritesInCommitOrder, eachStep_append_singleton, eachStep_append_singleton,
        ← WritesInCommitOrder, ← hdown, ← horder, run_append_singleton, hbefore]
      refine ⟨and_congr_right fun hsorted => (hlast hsorted).1,
        and_congr_right fun hsorted => (hlast hsorted).2.trans ?_⟩
      have hversions {id other : Nat} {row row' : SnapshotRow} {raised : Bool}
          (hcommitted : (run L events).calls id = .committed row)
          (hwritten : (run L events).calls other = .written row' raised) :
          CommittedBefore L events other id ↔ row'.version < row.version :=
        committedBefore_iff (by rw [hwritten]; rfl) (by rw [hcommitted]; rfl)
      constructor
      · intro h id outcome row he hcommitted hreplaces other row' raised hwritten
        exact (hversions hcommitted hwritten).mpr
          (h id outcome row he hcommitted hreplaces other row' raised hwritten)
      · intro h id outcome row he hcommitted hreplaces other row' raised hwritten
        exact (hversions hcommitted hwritten).mp
          (h id outcome row he hcommitted hreplaces other row' raised hwritten)

/-- When everything committed has been written in order, the file holds the highest
version. -/
theorem Invariant.settled {s : PublishState} (h : Invariant s)
    (hsorted : s.writes.Pairwise (· < ·)) (hsettled : s.Settled) :
    s.fileVersion = s.highest := by
  apply le_antisymm
  · rcases h.fileVersion_mem with hzero | hmem
    · rw [hzero]
      exact Nat.zero_le _
    · obtain ⟨id, row, raised, hwritten, hversion⟩ := (h.writes _).mp hmem
      rw [← hversion]
      exact version_le_highest (h.committed id row (by rw [hwritten]; rfl))
  · refine highest_le fun row hrow => ?_
    obtain ⟨id, hid⟩ := h.owner row hrow
    obtain ⟨hcommitted, hunwritten, hraised⟩ := hsettled id
    have hwritten : s.calls id = .written row false := by
      cases hphase : s.calls id with
      | idle | readBack | refused => rw [hphase] at hid; cases hid
      | committed row' => exact absurd hphase (hcommitted row')
      | unwritten row' => exact absurd hphase (hunwritten row')
      | written row' raised =>
          cases raised with
          | true => exact absurd hphase (hraised row')
          | false =>
              rw [hphase] at hid
              cases hid
              rfl
    exact h.le_fileVersion hsorted _ ((h.writes _).mpr ⟨id, row, false, hwritten, rfl⟩)

end PublishState

/-- Publishing keeps its order exactly when the files are replaced in the order of the
commits. -/
theorem ordered_iff (L : SnapshotLibrary) (events : List PublishEvent) :
    Ordered L events ↔ WritesInCommitOrder L events := by
  obtain ⟨hdown, horder⟩ := sorted_iff (L := L) events
  constructor
  · exact fun h => horder.mp (hdown.mpr h.neverDown)
  · intro h
    have hsorted := horder.mpr h
    exact ⟨hdown.mp hsorted, (invariant_run L events).settled hsorted⟩

/-- Two calls, of which the first commits first and writes last. -/
def overtakenRun : List PublishEvent :=
  [.commit 1 [] false, .commit 2 [] false, .write 2 .replaced, .write 1 .replaced]

/-- The older snapshot replaces the newer one, and stays when both calls have finished. -/
theorem overtaken_not_ordered : ¬ Ordered Gateway.sampleLibrary overtakenRun ∧
    (run Gateway.sampleLibrary overtakenRun).fileVersion = 1 ∧
    (run Gateway.sampleLibrary overtakenRun).highest = 2 := by
  have hfile : (run Gateway.sampleLibrary overtakenRun).fileVersion = 1 ∧
      (run Gateway.sampleLibrary overtakenRun).highest = 2 := by decide +kernel
  refine ⟨fun hordered => ?_, hfile⟩
  have hdown := hordered.neverDown [.commit 1 [] false, .commit 2 [] false,
    .write 2 .replaced] (.write 1 .replaced) [] rfl
  exact absurd hdown (by decide +kernel)

end MediaBridge.Control
