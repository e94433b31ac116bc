import MediaBridge.Deploy.Backup
import Mathlib.Data.Nat.Digits.Lemmas

/-!
# What a backup leaves

An archive that was created is verified and restored as it was dumped if its manifest is short
enough. A failure keeps the previous output only if it comes before the archive is begun, or if the
handler itself fails.
-/

namespace MediaBridge.Deploy

open Foundation MediaBridge.Core Faulty JsonText

variable {H : BackupHost} {input : ArchiveInput}

section Manifest

/-- The input with strings that a JSON text can give. -/
def ArchiveInput.rejoined (input : ArchiveInput) : ArchiveInput :=
  { input with
    productVersion := rejoin input.productVersion
    migrationRevision := rejoin input.migrationRevision }

theorem nodup_manifestFields (P : Platform) (input : ArchiveInput) :
    (Entries.keys (manifestFields P input)).Nodup := by
  simp only [manifestFields, Entries.keys, List.map_cons, List.map_nil]
  decide

theorem readable_manifest (P : Platform) (input : ArchiveInput) :
    Readable (.obj (manifestFields P input.rejoined)) := by
  refine .obj (nodup_manifestFields P input.rejoined) ?_ ?_
  · simp only [manifestFields, List.mem_cons, List.not_mem_nil, or_false, forall_eq_or_imp,
      forall_eq]
    decide
  · simp only [manifestFields, List.mem_cons, List.not_mem_nil, or_false, forall_eq_or_imp,
      forall_eq]
    exact ⟨.str (by decide), .str (rejoin_rejoin _), .str (rejoin_rejoin _),
      .str (rejoin_of_ascii input.createdAt.isoformat_ascii),
      .str (rejoin_of_ascii (hexText_ascii _))⟩

/-- The text of a manifest does not depend on pairs in halves. -/
theorem dumps_manifest (P : Platform) (input : ArchiveInput) :
    dumps P.float manifestStyle (.obj (manifestFields P input.rejoined)) =
      dumps P.float manifestStyle (.obj (manifestFields P input)) := by
  have hversion : dumps P.float manifestStyle (.str (rejoin input.productVersion)) =
      dumps P.float manifestStyle (.str input.productVersion) := dumps_rejoin rfl _
  have hrevision : dumps P.float manifestStyle (.str (rejoin input.migrationRevision)) =
      dumps P.float manifestStyle (.str input.migrationRevision) := dumps_rejoin rfl _
  rw [dumps, dumps]
  simp only [manifestFields, ArchiveInput.rejoined, dumpsFields, hversion, hrevision]

/-- Every manifest can be written, and is read as the dictionary with sorted keys. -/
theorem manifest_read (H : BackupHost) (input : ArchiveInput) :
    ∃ manifest, manifestBytes H.platform input = some manifest ∧
      loadManifest H.platform manifest =
        .ok (.obj (Json.sortedEntries (manifestFields H.platform input.rejoined))) := by
  have hreadable := readable_manifest H.platform input
  obtain ⟨text, htext, hprintable⟩ : ∃ text, dumps H.platform.float manifestStyle
      (.obj (manifestFields H.platform input.rejoined)) = some text ∧ Printable text :=
    hreadable.exists_dumps H.faithful rfl rfl
  have hloads : loads H.platform.float H.platform.jsonDepth text =
      .ok (Json.obj (manifestFields H.platform input.rejoined)).sorted :=
    hreadable.loads_dumps_sorted H.faithful rfl rfl rfl htext H.depth
  have hencode := Utf8.encode_ascii hprintable.ascii
  refine ⟨text.map fun c => Utf8.byte c.val, ?_, ?_⟩
  · rw [manifestBytes, ← dumps_manifest, htext]
    exact hencode
  · obtain ⟨rest, rfl⟩ := dumps_obj_opening htext
    rw [loadManifest, Receipts.decodeJsonBytes_encode hencode]
    simp only [hloads, Json.sorted_obj]
    rfl

theorem sameSet_of_perm {names expected : List Str} (h : names.Perm expected) :
    sameSet names expected = true := by
  rw [sameSet, Bool.and_eq_true]
  constructor
  · exact List.all_eq_true.mpr fun n hn => List.contains_iff_mem.mpr (h.mem_iff.mp hn)
  · exact List.all_eq_true.mpr fun n hn => List.contains_iff_mem.mpr (h.mem_iff.mpr hn)

theorem checkManifest_written (P : Platform) (input : ArchiveInput) :
    checkManifest P (.obj (Json.sortedEntries (manifestFields P input.rejoined))) input.sqlDump =
      .ok ⟨rejoin input.productVersion, rejoin input.migrationRevision,
        P.sha256Hex input.sqlDump⟩ := by
  have hnodup := nodup_manifestFields P input.rejoined
  have hfield (key : String) := Json.field_sortedEntries hnodup key
  have hkeys : sameSet (Entries.keys (Json.sortedEntries (manifestFields P input.rejoined)))
      expectedKeys = true :=
    sameSet_of_perm (Json.keys_sortedEntries (manifestFields P input.rejoined))
  have hschema := (hfield "schema").trans (Json.sorted_str (lit "media-bridge-backup/v1"))
  have hdigest := (hfield "database_sha256").trans (Json.sorted_str (P.sha256Hex input.sqlDump))
  have hversion := (hfield "product_version").trans
    (Json.sorted_str (rejoin input.productVersion))
  have hrevision := (hfield "migration_revision").trans
    (Json.sorted_str (rejoin input.migrationRevision))
  rw [checkManifest]
  simp only [hkeys, hschema, hdigest, hversion, hrevision, Json.str?]
  simp

end Manifest

section Archives

theorem roundUp_le (unit n : Nat) : roundUp unit n ≤ n + (unit - 1) :=
  Nat.div_mul_le_self _ _

/-- A backup with a short manifest and an accepted dump is small enough. -/
theorem length_pack_le {A : Archiver} {mtime : Nat} {manifest database : Bytes}
    (hmanifest : manifest.length ≤ maxManifestBytes)
    (hdatabase : database.length ≤ maxDatabaseBytes) :
    (A.pack mtime (backupMembers manifest database)).length ≤ maxArchiveBytes := by
  have hlength := A.length_pack_le mtime manifest database
  have hm := roundUp_le 512 manifest.length
  have hd := roundUp_le 512 database.length
  have hsum : ((backupMembers manifest database).map fun m => 512 + roundUp 512 m.2.length).sum =
      512 + roundUp 512 manifest.length + (512 + roundUp 512 database.length) := rfl
  have ht : tarLength (backupMembers manifest database) ≤ _ := roundUp_le 10240 _
  rw [hsum] at ht
  simp only [maxManifestBytes, maxDatabaseBytes, maxArchiveBytes] at *
  omega

theorem memberBytes_regular (name : Str) (content : Bytes) (limit : Nat) :
    memberBytes (.regular name content) limit =
      if limit < content.length then .error (.verification "archive_member_invalid")
      else .ok content := by
  rw [memberBytes, Member.regular]
  by_cases hlimit : limit < content.length
  · rw [if_pos (.inr hlimit), if_pos hlimit]
  · have htake : content.take (limit + 1) = content := List.take_of_length_le (by omega)
    simp only [htake, hlimit, Bool.true_eq_false, or_self, if_false]

/-- The members of a backup are read back unless the manifest is too long. -/
theorem readMembers_pack {A : Archiver} {mtime : Nat} {manifest database : Bytes}
    (hdatabase : database.length ≤ maxDatabaseBytes) :
    readMembers A (A.pack mtime (backupMembers manifest database)) =
      if maxManifestBytes < manifest.length then .error (.verification "archive_member_invalid")
      else .ok (manifest, database) := by
  have hmembers : (backupMembers manifest database).map (fun m => Member.regular m.1 m.2) =
      [.regular (lit "manifest.json") manifest, .regular (lit "database.sql") database] := rfl
  have hnames : sameSet ([Member.regular (lit "manifest.json") manifest,
      .regular (lit "database.sql") database].map Member.name) expectedMembers = true :=
    sameSet_of_perm (List.Perm.refl expectedMembers)
  have hmanifest : memberNamed [Member.regular (lit "manifest.json") manifest,
      .regular (lit "database.sql") database] (lit "manifest.json") =
      some (.regular (lit "manifest.json") manifest) := rfl
  have hsql : memberNamed [Member.regular (lit "manifest.json") manifest,
      .regular (lit "database.sql") database] (lit "database.sql") =
      some (.regular (lit "database.sql") database) := rfl
  rw [readMembers, A.unpack_pack, hmembers]
  simp only [hnames, hmanifest, hsql, memberBytes_regular]
  rw [if_neg (not_lt.mpr hdatabase), if_neg (by simp)]
  split_ifs
  · rfl
  · rfl

/-- A backup of an accepted dump is verified exactly if its manifest is short enough. -/
theorem verify_pack_iff {mtime : Nat} {manifest : Bytes}
    (hdatabase : input.sqlDump.length ≤ maxDatabaseBytes)
    (hmanifest : manifestBytes H.platform input = some manifest) :
    (∃ backup, verify H.platform H.archiver
      (some (.file (H.archiver.pack mtime (backupMembers manifest input.sqlDump)))) = .ok backup) ↔
      manifest.length ≤ maxManifestBytes := by
  obtain ⟨written, hwritten, hread⟩ := manifest_read H input
  obtain rfl := Option.some.inj (hmanifest.symm.trans hwritten)
  constructor
  · rintro ⟨backup, hverify⟩
    by_contra hlong
    rw [verify] at hverify
    split_ifs at hverify
    rw [readMembers_pack hdatabase, if_pos (not_le.mp hlong)] at hverify
    cases hverify
  · intro hshort
    refine ⟨⟨rejoin input.productVersion, rejoin input.migrationRevision,
      H.platform.sha256Hex input.sqlDump⟩, ?_⟩
    rw [verify, if_neg (not_lt.mpr (length_pack_le hshort hdatabase)), readMembers_pack hdatabase,
      if_neg (not_lt.mpr hshort)]
    simp only [bind, Except.bind, hread, checkManifest_written]

/-- What is verified is restored as it was dumped. -/
theorem restoreArchive_pack {mtime : Nat} {manifest : Bytes} {backup : VerifiedBackup}
    (h : verify H.platform H.archiver
      (some (.file (H.archiver.pack mtime (backupMembers manifest input.sqlDump)))) = .ok backup) :
    restoreArchive H.platform H.archiver
      (some (.file (H.archiver.pack mtime (backupMembers manifest input.sqlDump)))) true true =
      .ok input.sqlDump := by
  unfold restoreArchive
  simp only [h, H.archiver.unpack_pack]
  rfl

end Archives

section Creation

variable {fates : BackupStep → Fate} {files : BackupFiles} {timestamp : Int}
  {manifest database : Bytes} {A : Archiver}

/-- The steps that can have their effect. -/
def possibleStep (timestamp : Int) : BackupStep → Bool
  | .openArchive => fitsHeader timestamp
  | _ => true

/-- The parts that the writing of the temporary file does not touch. -/
def BackupFiles.kept (files : BackupFiles) : Option Entry × Bool :=
  (files.output, files.parentIsDir)

theorem kept_writeEffect {label : BackupStep} {s s' : BackupFiles}
    (h : (writeEffect A timestamp manifest database label).apply s = some s') :
    s'.kept = s.kept := by
  cases label with
  | openArchive =>
      obtain ⟨-, h⟩ := Option.ite_none_right_eq_some.mp h
      rw [← Option.some.inj h]
      rfl
  | _ =>
      rw [← Option.some.inj h]
      rfl

theorem keeps_writeTemporary :
    Keeps BackupFiles.kept (writeTemporary A timestamp manifest database) := by
  apply keeps_performAll
  · exact fun label _ s s' h => kept_writeEffect h
  · intro label _ s
    cases label <;> rfl

theorem output_writeTemporary :
    (writeTemporary A timestamp manifest database fates files).2.output = files.output :=
  congrArg Prod.fst (keeps_writeTemporary fates files)

theorem endsBy_writeTemporary :
    (writeTemporary A timestamp manifest database fates files).1.EndsBy
      (brokenBy fates (possibleStep timestamp) writingSteps) := by
  apply endsBy_performAll
  intro label _ s
  cases label with
  | openArchive =>
      simp only [writeEffect, possibleStep]
      split_ifs with hfits
      · exact hfits.symm
      · exact (Bool.eq_false_iff.mpr hfits).symm
  | _ => rfl

/-- The temporary file is complete when all steps work. -/
theorem writeTemporary_works (hfits : fitsHeader timestamp = true)
    (hworks : ∀ label ∈ writingSteps, fates label = .works) :
    writeTemporary A timestamp manifest database fates files =
      (.returned (), { files with
        temporary := some (A.pack timestamp.toNat (backupMembers manifest database)) }) := by
  simp only [writingSteps, List.mem_cons, List.not_mem_nil, or_false, forall_eq_or_imp,
    forall_eq] at hworks
  obtain ⟨hchmod, hopen, hmanifest, hdatabase, hclose⟩ := hworks
  simp only [writeTemporary, writingSteps, performAll]
  rw [bind_returned (perform_works hchmod rfl), bind_returned (perform_works hopen (if_pos hfits)),
    bind_returned (perform_works hmanifest rfl), bind_returned (perform_works hdatabase rfl),
    bind_returned (perform_works hclose rfl), pure_apply]
  rfl

/-- All of the steps of the block. -/
def blockSteps : List BackupStep := writingSteps ++ [.replace]

theorem replaceOutput_apply (h : files.output ≠ some .directory) : replaceOutput.apply files =
    some { files with output := files.temporary.map .file, temporary := none } :=
  if_neg h

/-- The block ends as its steps do. -/
theorem endsBy_writeArchive (hdirectory : files.output ≠ some .directory) :
    (writeArchive A timestamp manifest database fates files).1.EndsBy
      (brokenBy fates (possibleStep timestamp) blockSteps) := by
  have happend : brokenBy fates (possibleStep timestamp) blockSteps = _ :=
    brokenBy_append writingSteps [.replace]
  rw [happend]
  refine endsBy_bind endsBy_writeTemporary fun _ => endsBy_perform ?_
  have houtput : (writeTemporary A timestamp manifest database fates files).2.output ≠
      some .directory := by
    rw [output_writeTemporary]
    exact hdirectory
  rw [replaceOutput_apply houtput]
  rfl

/-- The output is replaced last. -/
theorem output_writeArchive
    (h : (writeArchive A timestamp manifest database fates files).1.Unfinished) :
    (writeArchive A timestamp manifest database fates files).2.output = files.output := by
  cases hrun : writeTemporary A timestamp manifest database fates files with
  | mk ending s =>
      have hkept : s.output = files.output :=
        (congrArg (fun run => run.2.output) hrun).symm.trans output_writeTemporary
      rw [writeArchive] at h ⊢
      cases ending with
      | raised e =>
          rw [bind_raised hrun]
          exact hkept
      | died =>
          rw [bind_died hrun]
          exact hkept
      | returned u =>
          rw [bind_returned hrun] at h ⊢
          by_cases hfate : fates .replace = .works
          · cases hstep : replaceOutput.apply s with
            | none =>
                rw [perform_refused hfate hstep]
                exact hkept
            | some s' =>
                rw [perform_works hfate hstep] at h
                exact absurd rfl (h ())
          · rw [perform_untouched hfate fun _ => rfl]
            exact hkept

theorem writeArchive_works (hdirectory : files.output ≠ some .directory)
    (h : brokenBy fates (possibleStep timestamp) blockSteps = none) :
    writeArchive A timestamp manifest database fates files =
      (.returned (), { files with
        output := some (.file (A.pack timestamp.toNat (backupMembers manifest database)))
        temporary := none }) := by
  have hworks := works_of_brokenBy h
  have hfits : fitsHeader timestamp = true := (hworks .openArchive (by decide)).2
  have hwriting : ∀ label ∈ writingSteps, fates label = .works :=
    fun label hl => (hworks label (List.mem_append_left _ hl)).1
  rw [writeArchive, bind_returned (writeTemporary_works hfits hwriting)]
  exact perform_works (hworks .replace (by decide)).1 (replaceOutput_apply hdirectory)

theorem unfinished_writeArchive (hdirectory : files.output = some .directory) :
    (writeArchive A timestamp manifest database fates files).1.Unfinished := by
  cases hrun : writeTemporary A timestamp manifest database fates files with
  | mk ending s =>
      have hkept : s.output = files.output :=
        (congrArg (fun run => run.2.output) hrun).symm.trans output_writeTemporary
      rw [writeArchive]
      cases ending with
      | raised e =>
          rw [bind_raised hrun]
          exact unfinished_raised e
      | died =>
          rw [bind_died hrun]
          exact unfinished_died
      | returned u =>
          have hrefused : replaceOutput.apply s = none := if_pos (hkept.trans hdirectory)
          rw [bind_returned hrun]
          by_cases hfate : fates .replace = .works
          · rw [perform_refused hfate hrefused]
            exact unfinished_raised _
          · exact perform_unfinished hfate

theorem unfinished_discard (e : BackupError) (files : BackupFiles) :
    ((discard e : BackingUp Unit) fates files).1.Unfinished :=
  unfinished_bind (fun _ => unfinished_bind fun _ _ => unfinished_raised e) files

/-- The handler deletes the output if both of its steps work. -/
theorem discard_spec (hdirectory : files.output ≠ some .directory) (e : BackupError) :
    let run := (discard e : BackingUp Unit) fates files
    if fates .unlinkTemporary = .works ∧ fates .unlinkOutput = .works then
      run.1.isRaised = true ∧ run.2.output = none
    else run.2.output = files.output := by
  intro run
  by_cases htemporary : fates .unlinkTemporary = .works
  · have hstart : run = _ := bind_returned (perform_works htemporary rfl)
    by_cases houtput : fates .unlinkOutput = .works
    · rw [if_pos ⟨htemporary, houtput⟩, hstart,
        bind_returned (perform_works houtput (if_neg hdirectory))]
      exact ⟨rfl, rfl⟩
    · rw [if_neg fun hworks => houtput hworks.2, hstart,
        (bind_unfinished (perform_unfinished houtput)).2, perform_untouched houtput fun _ => rfl]
  · have hstart : run.2 = _ := (bind_unfinished (perform_unfinished htemporary)).2
    rw [if_neg fun hworks => htemporary hworks.1, hstart,
      perform_untouched htemporary fun _ => rfl]

end Creation

section Outcome

/-- What holds after a call: an error leaves the file that was there, and a result is an archive
that is verified and restored as it was dumped. -/
structure AllOrNothing (H : BackupHost) (input : ArchiveInput) (before : BackupFiles)
    (ending : Ending BackupError Unit) (after : BackupFiles) : Prop where
  kept : ending.isRaised = true → ∀ content, before.output = some (.file content) →
    after.output = some (.file content)
  verified : ending = .returned () →
    ∃ backup, verify H.platform H.archiver after.output = .ok backup
  restored : ending = .returned () →
    restoreArchive H.platform H.archiver after.output true true = .ok input.sqlDump

/-- A step fails once the archive is begun, and the handler works. -/
structure LosesOutput (timestamp : Int) (fates : BackupStep → Fate) (files : BackupFiles) :
    Prop where
  existed : ∃ content, files.output = some (.file content)
  begun : fates .makeTemporary = .works
  fails : (brokenBy fates (possibleStep timestamp) blockSteps).any Fate.isFailure = true
  temporaryUnlinked : fates .unlinkTemporary = .works
  outputUnlinked : fates .unlinkOutput = .works

/-- Every step works. -/
structure Completes (timestamp : Int) (fates : BackupStep → Fate) (files : BackupFiles) :
    Prop where
  file : files.output ≠ some .directory
  begun : fates .makeTemporary = .works
  works : brokenBy fates (possibleStep timestamp) blockSteps = none

section Runs

variable {ending : Ending BackupError Unit} {after : BackupFiles} {fates : BackupStep → Fate}
  {files : BackupFiles} {timestamp : Int} {manifest : Bytes}

theorem allOrNothing_of_kept (hending : ending.Unfinished) (houtput : after.output = files.output) :
    AllOrNothing H input files ending after :=
  ⟨fun _ _ hcontent => houtput.trans hcontent, fun h => absurd h (hending ()),
    fun h => absurd h (hending ())⟩

theorem allOrNothing_of_died : AllOrNothing H input files .died after :=
  ⟨nofun, nofun, nofun⟩

theorem prepareArchive_ok (h : prepareArchive H.platform input files = .ok (timestamp, manifest)) :
    manifestBytes H.platform input = some manifest ∧
      input.sqlDump.length ≤ maxDatabaseBytes := by
  unfold prepareArchive at h
  split at h
  · cases h
  · next hsafe =>
      unfold safeDatabaseDump at hsafe
      split_ifs at hsafe with hsize
      split_ifs at h
      split at h
      · next hmanifest =>
          cases h
          exact ⟨hmanifest, not_lt.mp fun hlong => hsize (.inr hlong)⟩
      · cases h

/-- A finished archive. -/
theorem allOrNothing_returned_iff (hmanifest : manifestBytes H.platform input = some manifest)
    (hdatabase : input.sqlDump.length ≤ maxDatabaseBytes) {mtime : Nat}
    (houtput : after.output =
      some (.file (H.archiver.pack mtime (backupMembers manifest input.sqlDump)))) :
    AllOrNothing H input files (.returned ()) after ↔ manifest.length ≤ maxManifestBytes := by
  rw [← verify_pack_iff hdatabase hmanifest]
  constructor
  · intro h
    have hverified := h.verified rfl
    rw [houtput] at hverified
    exact hverified
  · rintro ⟨backup, hverify⟩
    refine ⟨nofun, fun _ => ⟨backup, ?_⟩, fun _ => ?_⟩
    · rw [houtput]
      exact hverify
    · rw [houtput]
      exact restoreArchive_pack hverify

/-- An archive that fails, after its handler. -/
theorem allOrNothing_discarded_iff (hdirectory : after.output ≠ some .directory)
    (hkept : after.output = files.output) (e : BackupError) :
    AllOrNothing H input files ((discard e : BackingUp Unit) fates after).1
        ((discard e : BackingUp Unit) fates after).2 ↔
      ¬((∃ content, files.output = some (.file content)) ∧
        fates .unlinkTemporary = .works ∧ fates .unlinkOutput = .works) := by
  have hunfinished : ((discard e : BackingUp Unit) fates after).1.Unfinished :=
    unfinished_discard e after
  have hspec : let run := (discard e : BackingUp Unit) fates after
      if fates .unlinkTemporary = .works ∧ fates .unlinkOutput = .works then
        run.1.isRaised = true ∧ run.2.output = none
      else run.2.output = after.output := discard_spec hdirectory e
  split_ifs at hspec with hworks
  · obtain ⟨hraised, hgone⟩ := hspec
    constructor
    · rintro hall ⟨⟨content, hcontent⟩, -⟩
      have hsame := hall.kept hraised content hcontent
      rw [hgone] at hsame
      cases hsame
    · intro hnone
      refine ⟨fun _ content hcontent => absurd ⟨⟨content, hcontent⟩, hworks⟩ hnone, ?_, ?_⟩
      · exact fun h => absurd h (hunfinished ())
      · exact fun h => absurd h (hunfinished ())
  · exact iff_of_true (allOrNothing_of_kept hunfinished (hspec.trans hkept))
      fun h => hworks h.2

/-- What is tried once the temporary file is there. -/
theorem allOrNothing_tried_iff (hmanifest : manifestBytes H.platform input = some manifest)
    (hdatabase : input.sqlDump.length ≤ maxDatabaseBytes) (hbegun : fates .makeTemporary = .works)
    {s : BackupFiles} (houtput : s.output = files.output) :
    let run := catching (writeArchive H.archiver timestamp manifest input.sqlDump) discard fates s
    AllOrNothing H input files run.1 run.2 ↔
      ¬LosesOutput timestamp fates files ∧
        (Completes timestamp fates files → manifest.length ≤ maxManifestBytes) := by
  intro run
  by_cases hdirectory : files.output = some .directory
  · have hending : run.1.Unfinished :=
      unfinished_catching (unfinished_writeArchive (houtput.trans hdirectory))
        fun e s' => unfinished_discard e s'
    refine iff_of_true ⟨fun _ content hcontent => ?_, fun h => absurd h (hending ()),
      fun h => absurd h (hending ())⟩ ⟨fun hloses => ?_, fun hcompletes => ?_⟩
    · rw [hdirectory] at hcontent
      cases hcontent
    · obtain ⟨content, hcontent⟩ := hloses.existed
      rw [hdirectory] at hcontent
      cases hcontent
    · exact absurd hdirectory hcompletes.file
  · have hfile : s.output ≠ some .directory := by
      rw [houtput]
      exact hdirectory
    have hends : (writeArchive H.archiver timestamp manifest input.sqlDump fates s).1.EndsBy
      (brokenBy fates (possibleStep timestamp) blockSteps) := endsBy_writeArchive hfile
    cases hbroken : brokenBy fates (possibleStep timestamp) blockSteps with
    | none =>
        have hworks : run = _ := catching_returned (writeArchive_works hfile hbroken)
        rw [hworks]
        refine (allOrNothing_returned_iff hmanifest hdatabase rfl).trans ?_
        have hcompletes : Completes timestamp fates files := ⟨hdirectory, hbegun, hbroken⟩
        refine ⟨fun hshort => ⟨fun hloses => ?_, fun _ => hshort⟩, fun h => h.2 hcompletes⟩
        have hfails := hloses.fails
        rw [hbroken] at hfails
        cases hfails
    | some fate =>
        have hincomplete : ¬Completes timestamp fates files := fun hcompletes => by
          rw [hcompletes.works] at hbroken
          cases hbroken
        rw [hbroken] at hends
        cases htry : writeArchive H.archiver timestamp manifest input.sqlDump fates s with
        | mk ending s' =>
            rw [htry] at hends
            match fate, ending, hends with
            | .fails begun, .raised e, _ =>
                have hkept : s'.output = files.output := by
                  have hunfinished : (writeArchive H.archiver timestamp manifest input.sqlDump
                      fates s).1.Unfinished := by
                    rw [htry]
                    exact unfinished_raised e
                  have hsame := output_writeArchive hunfinished
                  rw [htry] at hsame
                  exact hsame.trans houtput
                have hhandled : run = _ := catching_raised htry
                rw [hhandled, allOrNothing_discarded_iff (hkept ▸ hdirectory) hkept e]
                constructor
                · intro hsafe
                  refine ⟨fun hloses => hsafe ⟨hloses.existed, hloses.temporaryUnlinked,
                    hloses.outputUnlinked⟩, fun h => absurd h hincomplete⟩
                · rintro ⟨hsafe, -⟩ ⟨hexisted, htemporary, hunlinked⟩
                  exact hsafe ⟨hexisted, hbegun, by rw [hbroken]; rfl, htemporary, hunlinked⟩
            | .dies begun, .died, _ =>
                have hdied : run = _ := catching_died htry
                rw [hdied]
                refine iff_of_true allOrNothing_of_died ⟨fun hloses => ?_, fun h =>
                  absurd h hincomplete⟩
                have hfails := hloses.fails
                rw [hbroken] at hfails
                cases hfails

end Runs

/-- A call is all or nothing unless its handler deletes an output that was there, or its manifest
is too long for the verification. -/
theorem createArchive_allOrNothing_iff (H : BackupHost) (input : ArchiveInput)
    (fates : BackupStep → Fate) (files : BackupFiles) :
    let run := createArchive H.platform H.archiver input fates files
    AllOrNothing H input files run.1 run.2 ↔
      ∀ timestamp manifest, prepareArchive H.platform input files = .ok (timestamp, manifest) →
        ¬LosesOutput timestamp fates files ∧
          (Completes timestamp fates files → manifest.length ≤ maxManifestBytes) := by
  intro run
  have hlook : run = _ := bind_returned (look_apply (prepareArchive H.platform input))
  cases hprepare : prepareArchive H.platform input files with
  | error e =>
      rw [hprepare] at hlook
      rw [hlook]
      exact iff_of_true (allOrNothing_of_kept (unfinished_raised e) rfl) nofun
  | ok prepared =>
      obtain ⟨timestamp, manifest⟩ := prepared
      rw [hprepare] at hlook
      obtain ⟨hmanifest, hdatabase⟩ := prepareArchive_ok hprepare
      have hiff : AllOrNothing H input files run.1 run.2 ↔
          ¬LosesOutput timestamp fates files ∧
            (Completes timestamp fates files → manifest.length ≤ maxManifestBytes) := by
        by_cases hbegun : fates .makeTemporary = .works
        · have hrun := hlook.trans (bind_returned (perform_works hbegun rfl))
          rw [hrun]
          exact allOrNothing_tried_iff hmanifest hdatabase hbegun rfl
        · obtain ⟨hending, hstate⟩ := bind_unfinished (perform_unfinished hbegun)
          rw [hlook]
          refine iff_of_true (allOrNothing_of_kept hending ?_) ⟨fun hloses => hbegun hloses.begun,
            fun hcompletes => absurd hcompletes.begun hbegun⟩
          rw [hstate, perform_untouched hbegun fun _ => rfl]
      rw [hiff]
      constructor
      · rintro h timestamp' manifest' hsame
        cases hsame
        exact h
      · exact fun h => h timestamp manifest rfl

end Outcome

section Samples

/-- A length in bytes below 255. -/
def lengthBytes (n : Nat) : Bytes := (Nat.digits 255 n).map Utf8.byte

theorem lengthBytes_values (n : Nat) :
    (lengthBytes n).map Fin.val = Nat.digits 255 n := by
  rw [lengthBytes, List.map_map]
  conv_rhs => rw [← List.map_id (Nat.digits 255 n)]
  refine List.map_congr_left fun d hd => ?_
  have hlt := Nat.digits_lt_base (by omega) hd
  exact Nat.mod_eq_of_lt (by omega)

theorem ne_of_mem_lengthBytes {n : Nat} {b : Byte} (h : b ∈ lengthBytes n) : b ≠ 255 := by
  have hvalue : b.val ∈ Nat.digits 255 n := by
    rw [← lengthBytes_values]
    exact List.mem_map_of_mem h
  have hlt := Nat.digits_lt_base (by omega) hvalue
  rintro rfl
  exact absurd hlt (by decide)

theorem length_lengthBytes_le (n : Nat) : (lengthBytes n).length ≤ n / 1024 + 10 := by
  rw [lengthBytes, List.length_map, Nat.digits_length_le_iff (by omega)]
  have hlarge : n / 1024 < 2 ^ (n / 1024) := Nat.lt_two_pow_self
  calc n < 1024 * (n / 1024 + 1) := by omega
    _ ≤ 2 ^ 10 * 2 ^ (n / 1024) := Nat.mul_le_mul_left _ hlarge
    _ = 2 ^ (n / 1024 + 10) := by rw [← pow_add, Nat.add_comm]
    _ ≤ 255 ^ (n / 1024 + 10) := Nat.pow_le_pow_left (by omega) _

/-- An archive for concrete runs: the length of the manifest, the manifest and the database. -/
def Archiver.sample : Archiver where
  pack _ members :=
    match members with
    | [(_, manifest), (_, database)] =>
        lengthBytes manifest.length ++ 255 :: (manifest ++ database)
    | _ => []
  started _ _ := []
  partOf := id
  unpack data :=
    let size := Nat.ofDigits 255 ((data.takeWhile (· ≠ 255)).map Fin.val)
    let body := (data.dropWhile (· ≠ 255)).tail
    .ok [.regular (lit "manifest.json") (body.take size),
      .regular (lit "database.sql") (body.drop size)]
  unpack_pack mtime manifest database := by
    have hall : ∀ b ∈ lengthBytes manifest.length, decide (b ≠ 255) = true :=
      fun b hb => decide_eq_true (ne_of_mem_lengthBytes hb)
    simp only [backupMembers, List.takeWhile_append_of_pos hall,
      List.dropWhile_append_of_pos hall]
    simp [lengthBytes_values, Nat.ofDigits_digits]
  length_pack_le mtime manifest database := by
    have hlength := length_lengthBytes_le manifest.length
    have hsum : manifest.length + database.length + 1024 ≤
        tarLength (backupMembers manifest database) := by
      simp only [tarLength, roundUp, backupMembers, List.map_cons, List.map_nil, List.sum_cons,
        List.sum_nil]
      omega
    simp only [backupMembers, List.length_append, List.length_cons] at hsum ⊢
    omega

def BackupHost.sample : BackupHost where
  platform := { Platform.sample with float := .numbered }
  archiver := .sample
  faithful := FloatText.numbered_faithful
  depth := by decide

def sampleInput : ArchiveInput where
  sqlDump := bytesOf "SELECT 1;"
  productVersion := lit "1"
  migrationRevision := lit "1"
  createdAt := ⟨some 0, [], nofun⟩

/-- Another backup is there already. -/
def sampleFiles : BackupFiles := ⟨some (.file [1]), true, none⟩

/-- The output cannot be replaced. -/
def failingReplace (label : BackupStep) : Fate :=
  if label = .replace then .fails false else .works

/-- A failed replacement deletes the backup that was there. -/
theorem not_allOrNothing_of_failing_replace :
    let run := createArchive BackupHost.sample.platform BackupHost.sample.archiver sampleInput
      failingReplace sampleFiles
    ¬AllOrNothing .sample sampleInput sampleFiles run.1 run.2 := by
  intro run hall
  have hraised : run.1.isRaised = true := by decide +kernel
  have hgone : run.2.output = none := by decide +kernel
  have hkept := hall.kept hraised [1] rfl
  rw [hgone] at hkept
  cases hkept

end Samples

end MediaBridge.Deploy
