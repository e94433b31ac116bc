import MediaBridge.Adapters.OpenCodexSettings

/-!
# Runs of the OpenCodex manager

What `remove` gives back after any sequence of `apply` calls and edits of the configuration, and
what a repeated call makes of the files that a dead process has left.

## Implementation notes

A session remembers, beside the files, the configuration before and after the first write that is
still in force. A process that dies has made the first operations of its plan.
-/

namespace MediaBridge.Adapters.OpenCodex

open Foundation MediaBridge.Core JsonText

section Marker

variable {M : Manager} {a : Arguments} {original : Option Bytes} {managed : Bytes} {backup : Str}

theorem nodup_markerFields (M : Manager) (original : Option Bytes) (managed : Bytes) (backup : Str)
    (a : Arguments) : (Entries.keys (markerFields M original managed backup a)).Nodup := by
  simp only [markerFields, Entries.keys, List.map_cons, List.map_nil]
  decide

theorem rejoin_digestBytes (M : Manager) (data : Bytes) :
    rejoin (digestBytes M data) = digestBytes M data :=
  rejoin_of_ascii (hexText_ascii _)

theorem ascii_of_backup_end (digest : Str) (h : ∀ c ∈ digest, c.isAscii = true) :
    ∀ c ∈ lit "." ++ digest.take 16 ++ lit ".backup.json", c.isAscii = true := by
  intro c hc
  rcases List.mem_append.mp hc with hc | hc
  · rcases List.mem_append.mp hc with hc | hc
    · exact List.all_eq_true.mp (by decide : ((lit ".").all CodePoint.isAscii) = true) c hc
    · exact h c (List.mem_of_mem_take hc)
  · exact List.all_eq_true.mp (by decide : ((lit ".backup.json").all CodePoint.isAscii) = true) c hc

/-- The name of a backup can be in a JSON text. -/
theorem rejoin_backupName (M : Manager) (data : Bytes) :
    rejoin (backupName M (digestBytes M data)) = backupName M (digestBytes M data) := by
  have hend := ascii_of_backup_end (digestBytes M data) (hexText_ascii _)
  rw [backupName, List.append_assoc, List.append_assoc, ← List.append_assoc (lit ".")]
  refine rejoin_append M.markerName_joined (rejoin_of_ascii hend) fun d hd => ?_
  have hascii := hend d (List.mem_of_mem_head? hd)
  simp only [CodePoint.isAscii, decide_eq_true_eq] at hascii
  simp only [isLowSurrogate, Bool.and_eq_false_iff, decide_eq_false_iff_not]
  omega

theorem slash_notMem_hexText (data : Bytes) : cp 47 ∉ hexText data := by
  intro hmem
  obtain ⟨b, -, hb⟩ := List.mem_flatMap.mp hmem
  have hletter : ∀ n < 16, cp 47 ≠ hexLetter n := by decide
  simp only [List.mem_cons, List.not_mem_nil, or_false] at hb
  rcases hb with hb | hb
  · exact hletter _ (by omega) hb
  · exact hletter _ (by omega) hb

/-- A backup lies beside the marker. -/
theorem withName_backupName (M : Manager) (data : Bytes) :
    withName (backupName M (digestBytes M data)) = some (backupName M (digestBytes M data)) := by
  have hslash : cp 47 ∉ backupName M (digestBytes M data) := by
    simp only [backupName, List.mem_append, not_or]
    exact ⟨⟨⟨M.markerName_plain, by decide⟩,
      fun hmem => slash_notMem_hexText _ (List.mem_of_mem_take hmem)⟩, by decide⟩
  have hlong : 12 ≤ (backupName M (digestBytes M data)).length := by
    have hend : (lit ".backup.json").length = 12 := by decide
    simp only [backupName, List.length_append, hend]
    omega
  rw [withName, if_neg]
  rintro (hempty | hdot | hmem)
  · rw [hempty] at hlong
    exact absurd hlong (by decide)
  · rw [hdot] at hlong
    exact absurd hlong (by decide)
  · exact hslash hmem

theorem readable_markerFields (ha : Plain a) (data : Bytes) :
    Readable (.obj (markerFields M original managed (backupName M (digestBytes M data)) a)) := by
  refine .obj (nodup_markerFields M original managed _ a) ?_ ?_
  · simp only [markerFields, List.mem_cons, List.not_mem_nil, or_false, forall_eq_or_imp, forall_eq]
    decide
  · simp only [markerFields, List.mem_cons, List.not_mem_nil, or_false, forall_eq_or_imp, forall_eq]
    refine ⟨.int (by decide), .str (rejoin_of_ascii ha.providerName), ?_, .bool _,
      .str (rejoin_digestBytes M _), .str (rejoin_backupName M data)⟩
    cases original with
    | none => exact .null
    | some old => exact .str (rejoin_digestBytes M old)

theorem depth_markerFields :
    Json.depth (.obj (markerFields M original managed backup a)) = 1 := by
  cases original <;> rfl

/-- What is read of the marker that is written. -/
structure MarkerRead (M : Manager) (original : Option Bytes) (managed : Bytes) (backup : Str)
    (fields : Entries Str Json) : Prop where
  managedDigest : Json.field fields "managed_digest" = .str (digestBytes M managed)
  exists_ : Json.field fields "preimage_exists" = .bool original.isSome
  originalDigest : ∀ data, original = some data →
    Json.field fields "preimage_digest" = .str (digestBytes M data)
  backupName : Personal.textField M.interpreter fields "backup_name" [] = backup

theorem readMarker_written (ha : Plain a) {data : Bytes} {marker : Bytes}
    (h : canonical M (markerFields M original managed (backupName M (digestBytes M data)) a) =
      some marker) :
    ∃ fields, readMarker M (some marker) = .ok fields ∧
      MarkerRead M original managed (backupName M (digestBytes M data)) fields := by
  have hnodup := nodup_markerFields M original managed (backupName M (digestBytes M data)) a
  have hroom := M.depth
  have hreadable : Readable (.obj (markerFields M original managed
      (backupName M (digestBytes M data)) a)) := readable_markerFields ha data
  have hdepth : Json.depth (.obj (markerFields M original managed
      (backupName M (digestBytes M data)) a)) ≤ M.interpreter.platform.jsonDepth := by
    rw [depth_markerFields]
    omega
  obtain ⟨written, hwritten, hread⟩ := canonical_read hreadable hdepth
  rw [h, Option.some.injEq] at hwritten
  subst hwritten
  have hfield (key : String) := Json.field_sortedEntries hnodup key
  have hschema := (hfield "schema").trans (Json.sorted_int 1)
  have hprovider := (hfield "provider").trans (Json.sorted_str a.providerName)
  refine ⟨Json.sortedEntries (markerFields M original managed
    (backupName M (digestBytes M data)) a), ?_, ⟨?_, ?_, ?_, ?_⟩⟩
  · rw [readMarker, hread]
    simp only
    rw [if_neg]
    rw [hschema, hprovider]
    rintro (hbad | hbad)
    · exact absurd hbad (by decide)
    · cases hbad
  · exact (hfield "managed_digest").trans (Json.sorted_str _)
  · exact (hfield "preimage_exists").trans (Json.sorted_bool _)
  · rintro old rfl
    exact (hfield "preimage_digest").trans (Json.sorted_str _)
  · have hname : Entries.get? (Json.sortedEntries (markerFields M original managed
        (backupName M (digestBytes M data)) a)) (lit "backup_name") =
        some (.str (backupName M (digestBytes M data))) := by
      rw [Json.get?_sortedEntries hnodup]
      exact congrArg some (Json.sorted_str _)
    rw [Personal.textField, hname]
    rfl

end Marker

section Removal

variable {M : Manager} {a : Arguments} {files : Files} {original : Option Bytes}
  {managed previous : Bytes}

/-- The marker and the backup are those of a first write over a configuration with a text. -/
structure Owned (M : Manager) (files : Files) (original : Option Bytes) (managed : Bytes)
    (a : Arguments) (previous : Bytes) : Prop where
  plain : Plain a
  marker : ∃ marker, files.marker = some marker ∧
    canonical M (markerFields M original managed (backupName M (digestBytes M previous)) a) =
      some marker
  backup : ∀ old, original = some old →
    files.beside (backupName M (digestBytes M previous)) = some old

theorem Written.owned {config providers : Entries Str Json} {plan : Plan} {marker : Bytes}
    (ha : Plain a) (h : Written M files config providers a plan
      (backupName M (digestBytes M previous)) managed marker) :
    Owned M (files.after plan.ops) files.config managed a previous := by
  refine ⟨ha, ⟨marker, by rw [h.after], h.markerWritten⟩, fun old hold => ?_⟩
  rw [h.after, hold]
  simp

/-- The marker and the backup stay those of the first write. -/
theorem Owned.congr (h : Owned M files original managed a previous) {files' : Files}
    (hmarker : files'.marker = files.marker) (hbeside : files'.beside = files.beside) :
    Owned M files' original managed a previous :=
  ⟨h.plain, hmarker ▸ h.marker, hbeside ▸ h.backup⟩

/-- The operations that bring a configuration back. -/
def restoreOps : Option Bytes → List FileOp
  | some old => atomicWrite .config old
  | none => [.unlink .config]

/-- The operations of `remove` after a first write. -/
def removeOps (M : Manager) (original : Option Bytes) (previous : Bytes) : List FileOp :=
  restoreOps original ++
    [.unlink .marker, .unlink (.beside (backupName M (digestBytes M previous)))]

/-- `remove` accepts the file that has the digest of the written one. -/
theorem remove_of_owned (h : Owned M files original managed a previous)
    (hdigest : files.config.map (digestBytes M) = some (digestBytes M managed)) :
    ∃ report, remove M files = .ok ⟨removeOps M original previous, report⟩ := by
  obtain ⟨marker, hmarker, hwritten⟩ := h.marker
  obtain ⟨fields, hread, hfields⟩ := readMarker_written h.plain hwritten
  obtain ⟨current, hcurrent, hsame⟩ := Option.map_eq_some_iff.mp hdigest
  have hrestore : restoration M files fields (backupName M (digestBytes M previous)) =
      .ok (restoreOps original) := by
    rw [restoration, hfields.exists_]
    cases horiginal : original with
    | none => rfl
    | some old =>
        have hmatch : hasDigest M old (Json.field fields "preimage_digest") = true := by
          rw [hfields.originalDigest old horiginal]
          exact decide_eq_true rfl
        have htrue : Json.truthy (.bool (some old).isSome) = true := rfl
        rw [if_pos htrue, h.backup old horiginal]
        simp only [hmatch, if_true]
        rfl
  refine ⟨⟨"removed", ((Json.field fields "provider").str?).getD [], none⟩, ?_⟩
  rw [remove, hmarker, hread, hcurrent]
  simp only [hfields.managedDigest, hfields.backupName, withName_backupName, hrestore, removeOps]
  rw [if_neg]
  simp [hasDigest, Json.str?, hsame]

/-- `remove` refuses every other file. -/
theorem remove_of_changed (h : Owned M files original managed a previous)
    (hdigest : files.config.map (digestBytes M) ≠ some (digestBytes M managed)) :
    remove M files = .error (.config "owned_config_changed") := by
  obtain ⟨marker, hmarker, hwritten⟩ := h.marker
  obtain ⟨fields, hread, hfields⟩ := readMarker_written h.plain hwritten
  rw [remove, hmarker, hread]
  simp only [hfields.managedDigest]
  rw [if_pos]
  cases hconfig : files.config with
  | none => rfl
  | some current =>
      rw [hconfig] at hdigest
      have hne : digestBytes M managed ≠ digestBytes M current := by
        intro heq
        exact hdigest (congrArg some heq.symm)
      simp [hasDigest, Json.str?, hne]

/-- The files after `remove`. -/
theorem after_removeOps (files : Files) (original : Option Bytes) (previous : Bytes) :
    files.after (removeOps M original previous) =
      { config := original, marker := none, temporaries := files.temporaries,
        beside := Function.update files.beside (backupName M (digestBytes M previous)) none } := by
  cases original with
  | none => rfl
  | some old =>
      rw [removeOps, restoreOps, after_append, after_atomicWrite]
      rfl

end Removal

section Sessions

variable {M : Manager}

/-- What happens to the files between two calls of `remove`. -/
inductive Action
  | apply (a : Arguments)
  | edit (content : Option Bytes)

/-- The files, and the configuration before and after the first write that is in force. -/
structure Session where
  files : Files
  owner : Option (Option Bytes × Option Bytes)

/-- The session after an action. -/
def Session.step (M : Manager) (s : Session) : Action → Session
  | .apply a =>
      match perform s.files (OpenCodex.apply M s.files a) with
      | (.ok _, files) =>
          ⟨files, if s.files.marker = none then some (s.files.config, files.config) else s.owner⟩
      | (.error _, files) => ⟨files, s.owner⟩
  | .edit content => ⟨{ s.files with config := content }, s.owner⟩

/-- The session after actions. -/
def Session.run (M : Manager) (s : Session) (actions : List Action) : Session :=
  actions.foldl (Session.step M) s

/-- What the files of a session show: no marker before the first write, and then its own. -/
def Session.Sound (M : Manager) (s : Session) : Prop :=
  match s.owner with
  | none => s.files.marker = none
  | some (before, after) => ∃ managed a previous, after = some managed ∧
      Owned M s.files before managed a previous

theorem sound_step {s : Session} (h : s.Sound M) (action : Action) : (s.step M action).Sound M := by
  cases action with
  | edit content =>
      cases howner : s.owner with
      | none =>
          rw [Session.Sound, howner] at h
          simp only [Session.Sound, Session.step, howner]
          exact h
      | some pair =>
          rw [Session.Sound, howner] at h
          obtain ⟨managed, a, previous, hafter, howned⟩ := h
          simp only [Session.Sound, Session.step, howner]
          exact ⟨managed, a, previous, hafter, howned.congr rfl rfl⟩
  | apply a =>
      rw [Session.step]
      cases hcall : OpenCodex.apply M s.files a with
      | error e => exact h
      | ok plan =>
          simp only [perform]
          obtain ⟨config, providers, haccepted, ⟨hmarker, -, hfirst⟩ | ⟨hmarker, hre⟩⟩ :=
            apply_cases hcall
          · obtain ⟨previous, managed, marker, -, hwritten⟩ := written_of_firstApply hfirst
            rw [if_pos hmarker]
            exact ⟨managed, a, previous, by rw [hwritten.after], hwritten.owned haccepted.plain⟩
          · rw [if_neg hmarker, ops_of_reapply hre, after_nil]
            exact h

theorem sound_run {s : Session} (h : s.Sound M) (actions : List Action) :
    (s.run M actions).Sound M := by
  induction actions generalizing s with
  | nil => exact h
  | cons action actions ih => exact ih (sound_step h action)

/-- No edit: the configuration is the original one before the first write and the written one
after it. -/
def Session.Unedited (original : Option Bytes) (s : Session) : Prop :=
  match s.owner with
  | none => s.files.config = original
  | some (before, after) => before = original ∧ s.files.config = after

theorem unedited_step {s : Session} {original : Option Bytes} (hsound : s.Sound M)
    (h : s.Unedited original) (a : Arguments) : (s.step M (.apply a)).Unedited original := by
  rw [Session.step]
  cases hcall : OpenCodex.apply M s.files a with
  | error e => exact h
  | ok plan =>
      simp only [perform]
      obtain ⟨config, providers, -, ⟨hmarker, -, -⟩ | ⟨hmarker, hre⟩⟩ := apply_cases hcall
      · rw [if_pos hmarker]
        refine ⟨?_, rfl⟩
        cases howner : s.owner with
        | none =>
            rw [Session.Unedited, howner] at h
            exact h
        | some pair =>
            rw [Session.Sound, howner] at hsound
            obtain ⟨managed, first, previous, -, howned⟩ := hsound
            obtain ⟨marker, hsome, -⟩ := howned.marker
            rw [hmarker] at hsome
            cases hsome
      · rw [if_neg hmarker, ops_of_reapply hre, after_nil]
        exact h

theorem unedited_run {s : Session} {original : Option Bytes} (hsound : s.Sound M)
    (h : s.Unedited original) (calls : List Arguments) :
    (s.run M (calls.map .apply)).Unedited original := by
  induction calls generalizing s with
  | nil => exact h
  | cons a calls ih => exact ih (sound_step hsound _) (unedited_step hsound h a)

/-- What `remove` does at the end of a session. -/
def Session.Removes (M : Manager) (s : Session) : Prop :=
  match s.owner with
  | none => perform s.files (remove M s.files) =
      (.error (.config "ownership_marker_missing"), s.files)
  | some (before, after) =>
      if s.files.config.map (digestBytes M) = after.map (digestBytes M) then
        ∃ report files', perform s.files (remove M s.files) = (.ok report, files') ∧
          files'.config = before ∧ files'.marker = none
      else perform s.files (remove M s.files) = (.error (.config "owned_config_changed"), s.files)

theorem removes_of_sound {s : Session} (h : s.Sound M) : s.Removes M := by
  unfold Session.Sound at h
  unfold Session.Removes
  cases howner : s.owner with
  | none =>
      rw [howner] at h
      simp only [remove, h, readMarker, perform]
  | some pair =>
      obtain ⟨before, after⟩ := pair
      rw [howner] at h
      obtain ⟨managed, a, previous, rfl, howned⟩ := h
      simp only [Option.map_some]
      split_ifs with hdigest
      · obtain ⟨report, hremove⟩ := remove_of_owned howned hdigest
        exact ⟨report, _, by rw [hremove]; rfl, by rw [after_removeOps], by rw [after_removeOps]⟩
      · rw [remove_of_changed howned hdigest]
        rfl

end Sessions

section Deaths

variable {M : Manager} {a : Arguments} {files : Files}

/-- The same files, but for temporary ones. -/
structure Same (f g : Files) : Prop where
  config : f.config = g.config
  marker : f.marker = g.marker
  beside : f.beside = g.beside

theorem Same.refl (f : Files) : Same f f := ⟨rfl, rfl, rfl⟩

theorem Same.put {f g : Files} (h : Same f g) (target : Target) (content : Option Bytes) :
    Same (f.put target content) (g.put target content) := by
  cases target with
  | config => exact ⟨rfl, h.marker, h.beside⟩
  | marker => exact ⟨h.config, rfl, h.beside⟩
  | beside name =>
      refine ⟨h.config, h.marker, ?_⟩
      simp only [Files.put, h.beside]

/-- An operation that changes a file. -/
def touches (target : Target) : FileOp → Bool
  | .replace other => other = target
  | .unlink other => other = target
  | _ => false

/-- Files that are written one after another. -/
def writes (ws : List (Target × Bytes)) : List FileOp :=
  ws.flatMap fun w => atomicWrite w.1 w.2

/-- The files with new contents of some of them. -/
def Files.putAll (files : Files) (ws : List (Target × Bytes)) : Files :=
  ws.foldl (fun f w => f.put w.1 (some w.2)) files

/-- A process that dies has written the first files, and no other. -/
theorem take_writes (files : Files) (ws : List (Target × Bytes)) (k : Nat) :
    ∃ n, Same (files.after ((writes ws).take k)) (files.putAll (ws.take n)) ∧
      ∀ target, ((writes ws).take k).any (touches target) =
        (ws.take n).any fun w => decide (w.1 = target) := by
  induction ws generalizing files k with
  | nil => exact ⟨0, by simp [writes, Files.putAll, Same.refl], by simp [writes]⟩
  | cons w ws ih =>
      obtain ⟨target, content⟩ := w
      have hops : writes ((target, content) :: ws) = atomicWrite target content ++ writes ws := rfl
      match k with
      | 0 => exact ⟨0, Same.refl _, fun _ => rfl⟩
      | 1 => exact ⟨0, ⟨rfl, rfl, rfl⟩, fun _ => rfl⟩
      | 2 => exact ⟨0, ⟨rfl, rfl, rfl⟩, fun _ => rfl⟩
      | 3 =>
          refine ⟨1, ?_, fun other => ?_⟩
          · cases target <;> exact ⟨rfl, rfl, rfl⟩
          · simp [hops, atomicWrite, touches]
      | k + 4 =>
          obtain ⟨n, hsame, hany⟩ := ih (files.put target (some content)) k
          have htake : (writes ((target, content) :: ws)).take (k + 4) =
              atomicWrite target content ++ (writes ws).take k := rfl
          refine ⟨n + 1, ?_, fun other => ?_⟩
          · rw [htake, after_append, after_atomicWrite]
            exact hsame
          · rw [htake, List.any_append, hany]
            simp [atomicWrite, touches]

theorem apply_congr {f g : Files} (hconfig : f.config = g.config) (hmarker : f.marker = g.marker) :
    apply M f a = apply M g a := by
  unfold apply firstApply reapply
  rw [hconfig, hmarker]

/-- The arguments with an endpoint that JSON can hold. -/
def Arguments.rejoined (a : Arguments) : Arguments := { a with endpoint := rejoin a.endpoint }

/-- The text of a configuration does not depend on pairs in halves. -/
theorem canonical_rejoined (config providers : Entries Str Json) (a : Arguments) :
    canonical M (managedConfig config providers a.rejoined) =
      canonical M (managedConfig config providers a) := by
  have hentry : dumps M.interpreter.platform.float style (providerEntry a.rejoined) =
      dumps M.interpreter.platform.float style (providerEntry a) := by
    have hurl : dumps M.interpreter.platform.float style (.str (rejoin a.endpoint)) =
        dumps M.interpreter.platform.float style (.str a.endpoint) := dumps_rejoin rfl a.endpoint
    simp only [providerEntry, Arguments.rejoined]
    rw [dumps, dumps]
    simp only [dumpsFields, hurl]
  rw [canonical, canonical, managedConfig, managedConfig]
  rw [dumps_set_congr (dumps_set_congr hentry)]
  rfl

/-- A configuration with the settings of a call has its provider. -/
theorem has_of_owns {fields : Entries Str Json} (h : Owns a fields) :
    ∃ others, Json.field (withProviders fields) "providers" = .obj others ∧
      Entries.has others a.providerName = true := by
  obtain ⟨entry, hentry, -⟩ := Option.map_eq_some_iff.mp h.entry
  rw [Personal.configSection] at hentry
  cases hfield : Json.field fields "providers" with
  | obj others =>
      have hhas : Entries.has fields (lit "providers") = true := by
        rw [Entries.has, Json.get?_of_field hfield (by simp)]
        rfl
      refine ⟨others, by rw [withProviders, if_pos hhas, hfield], ?_⟩
      rw [hfield] at hentry
      rw [Entries.has]
      exact Option.isSome_iff_exists.mpr ⟨entry, hentry⟩
  | _ =>
      rw [hfield] at hentry
      cases hentry

/-- The written configuration has the provider, whatever its endpoint is. -/
theorem Written.reads {config providers : Entries Str Json} {plan : Plan} {backup : Str}
    {managed marker : Bytes} (haccepted : Accepted M files a config providers)
    (h : Written M files (withProviders config) providers a plan backup managed marker) :
    ∃ fields others, readConfig M (some managed) = .ok fields ∧
      Json.field (withProviders fields) "providers" = .obj others ∧
      Entries.has others a.providerName = true := by
  have hplain : Plain a.rejoined := ⟨haccepted.plain.1, haccepted.plain.2, haccepted.plain.3,
    haccepted.plain.4⟩
  obtain ⟨hreadable, data, hdata, hread⟩ :=
    managedConfig_read hplain (rejoin_rejoin _) haccepted.read haccepted.found
  rw [canonical_rejoined, h.configWritten, Option.some.injEq] at hdata
  subst hdata
  obtain ⟨howns, -⟩ := written_spec hreadable haccepted.found
  obtain ⟨others, hothers, hhas⟩ := has_of_owns howns
  exact ⟨_, others, hread, hothers, hhas⟩

/-- What a call makes of the files that a dead process has left: it goes on to the same files, or
it refuses and changes nothing. -/
def RepeatedApply (M : Manager) (files : Files) (a : Arguments) (plan : Plan) (k : Nat) : Prop :=
  let mid := files.after (plan.ops.take k)
  if (plan.ops.take k).any (touches .config) = true ∧
      (plan.ops.take k).any (touches .marker) = false then
    perform mid (apply M mid a) = (.error (.config "unowned_provider_present"), mid)
  else
    ∃ report files', perform mid (apply M mid a) = (.ok report, files') ∧
      Same files' (files.after plan.ops)

section FirstWrite

variable {config providers : Entries Str Json} {plan : Plan} {previous managed marker : Bytes}
  {mid : Files} (haccepted : Accepted M files a config providers)
  (hwritten : Written M files (withProviders config) providers a plan
    (backupName M (digestBytes M previous)) managed marker)

/-- A first write as files that are written one after another. -/
theorem Written.writes (h : Written M files config providers a plan
    (backupName M (digestBytes M previous)) managed marker) :
    plan.ops = OpenCodex.writes ((files.config.map fun old =>
      (Target.beside (backupName M (digestBytes M previous)), old)).toList ++
        [(.config, managed), (.marker, marker)]) := by
  rw [h.ops]
  cases files.config with
  | none => rfl
  | some old => rfl

include hwritten

/-- Where the configuration was not yet replaced, the call writes all of its files. -/
theorem apply_of_early (h : apply M files a = .ok plan) (hconfig : mid.config = files.config)
    (hmarker : mid.marker = files.marker)
    (hbeside : mid.beside = files.beside ∨ files.config ≠ none ∧ mid.beside =
      Function.update files.beside (backupName M (digestBytes M previous)) files.config) :
    ∃ report files', perform mid (apply M mid a) = (.ok report, files') ∧
      Same files' (files.after plan.ops) := by
  have hmid : Written M mid (withProviders config) providers a plan
      (backupName M (digestBytes M previous)) managed marker := by
    refine ⟨hwritten.configWritten, ?_, ?_, hwritten.report⟩
    · rw [hconfig]
      exact hwritten.markerWritten
    · rw [hconfig]
      exact hwritten.ops
  refine ⟨plan.report, mid.after plan.ops, by rw [apply_congr hconfig hmarker, h]; rfl, ?_⟩
  rw [hmid.after, hwritten.after]
  refine ⟨rfl, rfl, ?_⟩
  simp only [hconfig]
  split_ifs with hnone
  · rcases hbeside with hsame | ⟨hsome, -⟩
    · exact hsame
    · exact absurd hnone hsome
  · rcases hbeside with hsame | ⟨-, hsaved⟩
    · rw [hsame]
    · rw [hsaved, Function.update_idem]

include haccepted

/-- Without its marker, the written provider is taken for somebody else's. -/
theorem apply_of_unmarked (hconfig : mid.config = some managed) (hmarker : mid.marker = none) :
    apply M mid a = .error (.config "unowned_provider_present") := by
  obtain ⟨fields, others, hread, hothers, hhas⟩ := hwritten.reads haccepted
  rw [apply, haccepted.valid, hconfig, hread]
  simp only [hothers]
  rw [if_pos ⟨hhas, hmarker⟩]

/-- With its marker, the written configuration is left as it is. -/
theorem apply_of_marked (hconfig : mid.config = some managed)
    (hmarker : mid.marker = some marker) :
    ∃ report, apply M mid a = .ok ⟨[], report⟩ := by
  obtain ⟨fields, others, hread, hothers, -⟩ := hwritten.reads haccepted
  obtain ⟨read, hmark, hfields⟩ := readMarker_written haccepted.plain hwritten.markerWritten
  refine ⟨⟨"unchanged", a.providerName, some (digestBytes M managed)⟩, ?_⟩
  have hsome : mid.marker ≠ none := by
    rw [hmarker]
    exact Option.some_ne_none marker
  have hmatch : hasDigest M managed (Json.field read "managed_digest") = true := by
    rw [hfields.managedDigest]
    exact decide_eq_true rfl
  rw [apply, haccepted.valid, hconfig, hread]
  simp only [hothers]
  rw [if_neg fun hunowned => hsome hunowned.2, if_neg hsome, reapply, hmarker, hmark, hconfig]
  simp only [hmatch, if_true]

/-- The files after the last write are those of the whole call. -/
theorem repeatedApply_of_complete (hsame : Same mid (files.after plan.ops)) :
    ∃ report files', perform mid (apply M mid a) = (.ok report, files') ∧
      Same files' (files.after plan.ops) := by
  have hconfig := hsame.config
  have hmarker := hsame.marker
  rw [hwritten.after] at hconfig hmarker
  obtain ⟨report, happly⟩ := apply_of_marked haccepted hwritten hconfig hmarker
  exact ⟨report, mid, by rw [happly]; rfl, hsame⟩

/-- The outcome of a repeated first write, by how many files were written before. -/
theorem repeatedApply_of_written (h : apply M files a = .ok plan) (hmarker : files.marker = none)
    (k : Nat) : RepeatedApply M files a plan k := by
  have hops := hwritten.writes
  obtain ⟨n, hsame, htouched⟩ := take_writes files ((files.config.map fun old =>
    (Target.beside (backupName M (digestBytes M previous)), old)).toList ++
      [(.config, managed), (.marker, marker)]) k
  rw [← hops] at hsame htouched
  rw [RepeatedApply]
  simp only [htouched]
  have hrefused {mid : Files} (hconfig : mid.config = some managed)
      (hnone : mid.marker = none) :
      perform mid (apply M mid a) = (.error (.config "unowned_provider_present"), mid) := by
    rw [apply_of_unmarked haccepted hwritten hconfig hnone]
    rfl
  cases hconfig : files.config with
  | none =>
      rw [hconfig] at hsame
      match n with
      | 0 =>
          rw [if_neg (by simp)]
          exact apply_of_early hwritten h hsame.config hsame.marker (.inl hsame.beside)
      | 1 =>
          rw [if_pos ⟨rfl, rfl⟩]
          exact hrefused hsame.config (hsame.marker.trans hmarker)
      | n + 2 =>
          rw [if_neg (by simp)]
          have hall : [(Target.config, managed), (.marker, marker)].take (n + 2) = _ :=
            List.take_of_length_le (by simp)
          have hlast : Same _ (files.putAll [(.config, managed), (.marker, marker)]) :=
            hall ▸ hsame
          refine repeatedApply_of_complete haccepted hwritten ?_
          rw [hwritten.after]
          exact ⟨hlast.config, hlast.marker, hlast.beside.trans (if_pos hconfig).symm⟩
  | some old =>
      rw [hconfig] at hsame
      have hsome : files.config ≠ none := by
        rw [hconfig]
        exact Option.some_ne_none old
      match n with
      | 0 =>
          rw [if_neg (by simp)]
          exact apply_of_early hwritten h hsame.config hsame.marker (.inl hsame.beside)
      | 1 =>
          rw [if_neg (by simp)]
          refine apply_of_early hwritten h hsame.config hsame.marker (.inr ⟨hsome, ?_⟩)
          rw [hconfig]
          exact hsame.beside
      | 2 =>
          rw [if_pos (by simp)]
          exact hrefused hsame.config (hsame.marker.trans hmarker)
      | n + 3 =>
          rw [if_neg (by simp)]
          have hall : [(Target.beside (backupName M (digestBytes M previous)), old),
              (.config, managed), (.marker, marker)].take (n + 3) = _ :=
            List.take_of_length_le (by simp)
          have hlast : Same _ (files.putAll [(.beside (backupName M (digestBytes M previous)), old),
              (.config, managed), (.marker, marker)]) := hall ▸ hsame
          refine repeatedApply_of_complete haccepted hwritten ?_
          rw [hwritten.after]
          refine ⟨hlast.config, hlast.marker, hlast.beside.trans ?_⟩
          rw [hconfig, if_neg (Option.some_ne_none old)]
          rfl

end FirstWrite

theorem repeatedApply {plan : Plan} (h : apply M files a = .ok plan) (k : Nat) :
    RepeatedApply M files a plan k := by
  obtain ⟨config, providers, haccepted, ⟨hmarker, -, hfirst⟩ | ⟨hmarker, hre⟩⟩ := apply_cases h
  · obtain ⟨previous, managed, marker, -, hwritten⟩ := written_of_firstApply hfirst
    exact repeatedApply_of_written haccepted hwritten h hmarker k
  · have hops := ops_of_reapply hre
    rw [RepeatedApply, hops]
    simp only [List.take_nil, List.any_nil, Bool.false_eq_true, false_and, if_false, after_nil]
    exact ⟨plan.report, files.after plan.ops, by rw [h]; rfl, by rw [hops]; exact Same.refl _⟩

/-- What a call makes of the files that a dead `remove` has left: it refuses and changes nothing
once the marker is gone, or once the configuration is back with another digest. -/
def RepeatedRemove (M : Manager) (files : Files) (plan : Plan) (k : Nat) : Prop :=
  let mid := files.after (plan.ops.take k)
  if (plan.ops.take k).any (touches .marker) = true then
    perform mid (remove M mid) = (.error (.config "ownership_marker_missing"), mid)
  else if mid.config.map (digestBytes M) ≠ files.config.map (digestBytes M) then
    perform mid (remove M mid) = (.error (.config "owned_config_changed"), mid)
  else
    ∃ report files', perform mid (remove M mid) = (.ok report, files') ∧
      Same files' (files.after plan.ops)

section Restoration

variable {original : Option Bytes} {managed previous : Bytes} {plan : Plan} {mid : Files}

theorem remove_of_no_marker (h : mid.marker = none) :
    perform mid (remove M mid) = (.error (.config "ownership_marker_missing"), mid) := by
  rw [remove, h, readMarker]
  rfl

/-- While the marker and the backup are there, the digest of the configuration decides. -/
theorem remove_of_kept (h : Owned M files original managed a previous)
    (hremove : remove M files = .ok plan) (hmarker : mid.marker = files.marker)
    (hbeside : mid.beside = files.beside) :
    if mid.config.map (digestBytes M) ≠ files.config.map (digestBytes M) then
      perform mid (remove M mid) = (.error (.config "owned_config_changed"), mid)
    else
      ∃ report files', perform mid (remove M mid) = (.ok report, files') ∧
        Same files' (files.after plan.ops) := by
  have howned := h.congr hmarker hbeside
  by_cases hcurrent : files.config.map (digestBytes M) = some (digestBytes M managed)
  · obtain ⟨report, hplan⟩ := remove_of_owned h hcurrent
    rw [hplan, Except.ok.injEq] at hremove
    subst hremove
    split_ifs with hdigest
    · rw [hcurrent] at hdigest
      rw [remove_of_changed howned hdigest]
      rfl
    · obtain ⟨report', hplan'⟩ := remove_of_owned howned ((not_not.mp hdigest).trans hcurrent)
      refine ⟨report', _, by rw [hplan']; rfl, ?_⟩
      rw [after_removeOps, after_removeOps]
      refine ⟨rfl, rfl, ?_⟩
      simp only [hbeside]
  · rw [remove_of_changed h hcurrent] at hremove
    cases hremove

/-- The first operations of `remove` leave the marker and what lies beside it, and the later ones
come after the marker. -/
theorem take_removeOps (files : Files) (original : Option Bytes) (previous : Bytes) (k : Nat) :
    let ops := (removeOps M original previous).take k
    (ops.any (touches .marker) = false ∧ (files.after ops).marker = files.marker ∧
      (files.after ops).beside = files.beside) ∨
    (ops.any (touches .marker) = true ∧ (files.after ops).marker = none) := by
  cases original with
  | none =>
      match k with
      | 0 | 1 => exact .inl ⟨rfl, rfl, rfl⟩
      | 2 => exact .inr ⟨rfl, rfl⟩
      | k + 3 =>
          have hall : (removeOps M none previous).take (k + 3) = removeOps M none previous :=
            List.take_of_length_le (by simp [removeOps, restoreOps])
          rw [hall]
          exact .inr ⟨rfl, rfl⟩
  | some old =>
      match k with
      | 0 | 1 | 2 | 3 | 4 => exact .inl ⟨rfl, rfl, rfl⟩
      | 5 => exact .inr ⟨rfl, rfl⟩
      | k + 6 =>
          have hall : (removeOps M (some old) previous).take (k + 6) =
              removeOps M (some old) previous :=
            List.take_of_length_le (by simp [removeOps, restoreOps, atomicWrite])
          rw [hall]
          exact .inr ⟨rfl, rfl⟩

/-- The outcome of a repeated `remove`, by the operations that were made before. -/
theorem repeatedRemove (h : Owned M files original managed a previous)
    (hremove : remove M files = .ok plan) (k : Nat) : RepeatedRemove M files plan k := by
  have hops : plan.ops = removeOps M original previous := by
    by_cases hdigest : files.config.map (digestBytes M) = some (digestBytes M managed)
    · obtain ⟨report, hplan⟩ := remove_of_owned h hdigest
      rw [hplan, Except.ok.injEq] at hremove
      rw [← hremove]
    · rw [remove_of_changed h hdigest] at hremove
      cases hremove
  rw [RepeatedRemove]
  obtain ⟨huntouched, hmarker, hbeside⟩ | ⟨htouched, hmarker⟩ :=
    hops ▸ take_removeOps files original previous k
  · rw [huntouched]
    exact remove_of_kept h hremove hmarker hbeside
  · rw [if_pos htouched]
    exact remove_of_no_marker hmarker

end Restoration

end Deaths

section Reversal

variable {M : Manager} {files : Files}

/-- A session that starts where nothing was applied. -/
def Session.start (files : Files) : Session := ⟨files, none⟩

/-- `remove` after calls of `apply` alone leaves the configuration that was there before them. -/
theorem config_after_remove {original : Option Bytes} {s : Session} (hsound : s.Sound M)
    (h : s.Unedited original) : (perform s.files (remove M s.files)).2.config = original := by
  have hremoves := removes_of_sound hsound
  unfold Session.Removes at hremoves
  unfold Session.Unedited at h
  cases howner : s.owner with
  | none =>
      rw [howner] at h hremoves
      rw [hremoves]
      exact h
  | some pair =>
      obtain ⟨before, after⟩ := pair
      rw [howner] at h hremoves
      obtain ⟨rfl, hconfig⟩ := h
      simp only [hconfig, if_true] at hremoves
      obtain ⟨report, files', hcall, hback, -⟩ := hremoves
      rw [hcall]
      exact hback

/-- From files without a marker, `remove` gives back what the first `apply` has found unless the
configuration has got another digest since, and a call that a process did not finish is taken up
again up to the step that its own guards take for somebody else's. -/
theorem reversible_with_guards (hmarker : files.marker = none) (actions : List Action) :
    let s := (Session.start files).run M actions
    s.Removes M ∧
      (∀ calls : List Arguments, actions = calls.map .apply →
        (perform s.files (remove M s.files)).2.config = files.config) ∧
      (∀ a plan, apply M s.files a = .ok plan → ∀ k, RepeatedApply M s.files a plan k) ∧
      ∀ plan, remove M s.files = .ok plan → ∀ k, RepeatedRemove M s.files plan k := by
  have hsound : (Session.start files).Sound M := hmarker
  have hend := sound_run hsound actions
  refine ⟨removes_of_sound hend, ?_, fun a plan happly => repeatedApply happly, ?_⟩
  · rintro calls rfl
    exact config_after_remove hend (unedited_run hsound rfl calls)
  · intro plan hremove
    unfold Session.Sound at hend
    split at hend
    · rw [remove, hend, readMarker] at hremove
      cases hremove
    · obtain ⟨managed, a, previous, -, howned⟩ := hend
      exact repeatedRemove howned hremove

/-- The configuration of a user. -/
def portFiles : Files :=
  { noFiles with config := Utf8.encode (lit "\x7b\"port\": 1\x7d") }

def twoCalls : List Arguments := [sampleArguments "first", sampleArguments "second"]

/-- The removal after two calls gives the user the configuration back. -/
theorem reversible_two_calls :
    portFiles.marker = none ∧
      let s := (Session.start portFiles).run .sample (twoCalls.map .apply)
      (perform s.files (remove .sample s.files)).2.config = portFiles.config :=
  ⟨rfl, (reversible_with_guards rfl (twoCalls.map .apply)).2.1 twoCalls rfl⟩

/-- A process that dies between the configuration and the marker leaves a provider that the same
call then refuses. -/
theorem refused_after_death :
    ∃ plan, apply .sample noFiles (sampleArguments "first") = .ok plan ∧
      let mid := noFiles.after (plan.ops.take 3)
      perform mid (apply .sample mid (sampleArguments "first")) =
        (.error (.config "unowned_provider_present"), mid) := by
  have hok : (apply .sample noFiles (sampleArguments "first")).isOk = true := by decide +kernel
  have htouched : (apply .sample noFiles (sampleArguments "first")).toOption.map (fun plan =>
      ((plan.ops.take 3).any (touches .config), (plan.ops.take 3).any (touches .marker))) =
      some (true, false) := by decide +kernel
  obtain ⟨plan, hplan⟩ := exists_of_isOk hok
  rw [hplan] at htouched
  obtain ⟨hconfig, hmarker⟩ := Prod.ext_iff.mp (Option.some.inj htouched)
  have hrepeated := repeatedApply hplan 3
  rw [RepeatedApply, if_pos ⟨hconfig, hmarker⟩] at hrepeated
  exact ⟨plan, hplan, hrepeated⟩

end Reversal

end MediaBridge.Adapters.OpenCodex
