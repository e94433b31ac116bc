import MediaBridge.Personal.Installer

/-!
# What an installation leaves

Whatever step fails or is the last one, the runtime directory is the previous tree, the complete new
one, or absent.
-/

namespace MediaBridge.Personal

open Foundation MediaBridge.Core Faulty

variable {H : InstallHost} {artifact : Artifact} {fates : InstallStep → Fate}
  {previous : Option Tree} {new : Tree}

/-- The tree that is complete: the archive with the right digest, its command and the marker. -/
def complete (H : InstallHost) (artifact : Artifact) : Option Tree := do
  let body ← H.fetch artifact.url
  guard (Str.asciiLower (H.sha256Hex body) = Str.asciiLower artifact.sha256)
  let tree ← H.untar body .empty
  let command ← artifactCommand artifact
  guard (tree.isFile command)
  guard (tree.isExecutable command)
  tree.write (lit ".verified.json") (H.stringify (verifiedMetadata artifact))

/-- The names before a call. -/
def Installation.before (previous : Option Tree) : Installation := { root := previous }

/-- The names when a tree is staged. -/
def Installation.staged (previous : Option Tree) (archive : Option Bytes) (new : Tree) :
    Installation := { root := previous, staging := some new, archive := archive }

/-- The steps that come before the runtime directory is touched. -/
def stagingSteps : List InstallStep :=
  [.makeParent, .download, .writeArchive, .readArchive, .makeStaging, .extract, .stat, .access,
    .writeMarker]

section Staging

variable {s s' : Installation} {u : Unit}

theorem complete_eq_some_iff :
    complete H artifact = some new ↔ ∃ body tree command, H.fetch artifact.url = some body ∧
      Str.asciiLower (H.sha256Hex body) = Str.asciiLower artifact.sha256 ∧
      H.untar body .empty = some tree ∧ artifactCommand artifact = some command ∧
      tree.isFile command = true ∧ tree.isExecutable command = true ∧
      tree.write (lit ".verified.json") (H.stringify (verifiedMetadata artifact)) = some new := by
  simp only [complete, Option.bind_eq_bind, Option.bind_eq_some_iff, Option.guard_eq_some']
  constructor
  · rintro ⟨body, hbody, -, hdigest, tree, htree, command, hcommand, -, hfile, -, hexec, hwrite⟩
    exact ⟨body, tree, command, hbody, hdigest, htree, hcommand, hfile, hexec, hwrite⟩
  · rintro ⟨body, tree, command, hbody, hdigest, htree, hcommand, hfile, hexec, hwrite⟩
    exact ⟨body, hbody, (), hdigest, tree, htree, command, hcommand, (), hfile, (), hexec, hwrite⟩

theorem require_returned_iff {holds : Bool} {text : String} :
    require holds text fates s = (.returned u, s') ↔ holds = true ∧ s = s' := by
  unfold require
  cases holds with
  | true => simp
  | false => simp

theorem downloadArtifact_returned_iff :
    downloadArtifact H artifact fates s = (.returned u, s') ↔
      (fates .download = .works ∧ fates .writeArchive = .works) ∧
        ∃ body, H.fetch artifact.url = some body ∧ s' = { s with archive := some body } := by
  simp only [downloadArtifact, step, bind_returned_iff, perform_returned_iff,
    Option.ite_none_right_eq_some, Option.some.injEq]
  constructor
  · rintro ⟨_, _, ⟨hdownload, hsome, rfl⟩, hwrite, rfl⟩
    obtain ⟨body, hbody⟩ := Option.isSome_iff_exists.mp hsome
    exact ⟨⟨hdownload, hwrite⟩, body, hbody, by rw [hbody]⟩
  · rintro ⟨⟨hdownload, hwrite⟩, body, hbody, rfl⟩
    exact ⟨(), s, ⟨hdownload, by rw [hbody]; rfl, rfl⟩, hwrite, by rw [hbody]⟩

theorem extractArtifact_returned_iff :
    extractArtifact H fates s = (.returned u, s') ↔
      (fates .makeStaging = .works ∧ fates .extract = .works) ∧
        ∃ body tree, s.archive = some body ∧ H.untar body (s.staging.getD .empty) = some tree ∧
          s' = { s with staging := some tree } := by
  simp only [extractArtifact, step, bind_returned_iff, perform_returned_iff, Effect.atomic,
    Option.some.injEq, Option.bind_eq_bind, Option.bind_eq_some_iff, Option.pure_def]
  constructor
  · rintro ⟨_, _, ⟨hmake, rfl⟩, hextract, body, hbody, _, hstaging, tree, htree, rfl⟩
    cases hstaging
    exact ⟨⟨hmake, hextract⟩, body, tree, hbody, htree, rfl⟩
  · rintro ⟨⟨hmake, hextract⟩, body, tree, hbody, htree, rfl⟩
    exact ⟨(), _, ⟨hmake, rfl⟩, hextract, body, hbody, _, rfl, tree, htree, rfl⟩

theorem checkCommand_returned_iff {tree : Tree} (hstaging : s.staging = some tree) :
    checkCommand artifact fates s = (.returned u, s') ↔
      (fates .stat = .works ∧ fates .access = .works) ∧ s' = s ∧
        ∃ command, artifactCommand artifact = some command ∧ tree.isFile command = true ∧
          tree.isExecutable command = true := by
  unfold checkCommand
  cases artifactCommand artifact with
  | none => simp
  | some command =>
      simp only [step, bind_returned_iff, perform_returned_iff, look_returned_iff,
        require_returned_iff, Effect.atomic, id, Option.some.injEq, Option.ite_none_right_eq_some]
      constructor
      · rintro ⟨_, _, ⟨hstat, rfl⟩, _, _, ⟨rfl, rfl⟩, _, _, ⟨hfile, rfl⟩, haccess, hexec, rfl⟩
        rw [hstaging] at hfile hexec
        exact ⟨⟨hstat, haccess⟩, rfl, command, rfl, hfile, hexec⟩
      · rintro ⟨⟨hstat, haccess⟩, rfl, _, rfl, hfile, hexec⟩
        refine ⟨(), s', ⟨hstat, rfl⟩, true, s', ⟨?_, rfl⟩, (), s', ⟨rfl, rfl⟩, haccess, ?_, rfl⟩
        · rw [hstaging]
          exact hfile
        · rw [hstaging]
          exact hexec

theorem writeMarker_returned_iff {tree : Tree} (hstaging : s.staging = some tree) :
    writeMarker H artifact fates s = (.returned u, s') ↔ fates .writeMarker = .works ∧
      ∃ marked, tree.write (lit ".verified.json") (H.stringify (verifiedMetadata artifact)) =
        some marked ∧ s' = { s with staging := some marked } := by
  simp only [writeMarker, step, perform_returned_iff, hstaging, Option.bind_eq_bind,
    Option.bind_some, Option.bind_eq_some_iff, Option.pure_def, Option.some.injEq,
    eq_comm (b := s')]

/-- The tree is staged when all of the steps work and the archive gives a complete tree. -/
theorem stageArtifact_returned_iff :
    stageArtifact H artifact fates (.before previous) = (.returned u, s) ↔
      (∀ label ∈ stagingSteps, fates label = .works) ∧
        ∃ new, complete H artifact = some new ∧
          s = .staged previous (H.fetch artifact.url) new := by
  simp only [stageArtifact, bind_returned_iff, downloadArtifact_returned_iff,
    extractArtifact_returned_iff, require_returned_iff, look_returned_iff, step,
    perform_returned_iff, Effect.atomic, Option.some.injEq, id, decide_eq_true_eq,
    complete_eq_some_iff, stagingSteps, List.mem_cons, List.not_mem_nil, or_false,
    forall_eq_or_imp, forall_eq]
  constructor
  · rintro ⟨_, _, ⟨hparent, rfl⟩, _, _, ⟨⟨hdownload, hwrite⟩, body, hbody, rfl⟩, _, _,
      ⟨hread, rfl⟩, _, _, ⟨rfl, rfl⟩, _, _, ⟨hdigest, rfl⟩, _, _,
      ⟨⟨hmake, hextract⟩, _, tree, hdata, htree, rfl⟩, _, _, hcheck, hmarker⟩
    cases hdata
    obtain ⟨⟨hstat, haccess⟩, rfl, command, hcommand, hfile, hexec⟩ :=
      (checkCommand_returned_iff rfl).mp hcheck
    obtain ⟨hfate, marked, hmarked, rfl⟩ := (writeMarker_returned_iff rfl).mp hmarker
    refine ⟨⟨hparent, hdownload, hwrite, hread, hmake, hextract, hstat, haccess, hfate⟩, marked,
      ⟨body, tree, command, hbody, ?_, htree, hcommand, hfile, hexec, hmarked⟩, ?_⟩
    · exact Option.some.inj hdigest
    · rw [hbody]
      rfl
  · rintro ⟨⟨hparent, hdownload, hwrite, hread, hmake, hextract, hstat, haccess, hfate⟩, marked,
      ⟨body, tree, command, hbody, hdigest, htree, hcommand, hfile, hexec, hmarked⟩, rfl⟩
    refine ⟨(), _, ⟨hparent, rfl⟩, (), _, ⟨⟨hdownload, hwrite⟩, body, hbody, rfl⟩, (), _,
      ⟨hread, rfl⟩, _, _, ⟨rfl, rfl⟩, (), _, ⟨congrArg some hdigest, rfl⟩, (), _,
      ⟨⟨hmake, hextract⟩, body, tree, rfl, htree, rfl⟩, (), _,
      (checkCommand_returned_iff rfl).mpr ⟨⟨hstat, haccess⟩, rfl, command, hcommand, hfile, hexec⟩,
      (writeMarker_returned_iff rfl).mpr ⟨hfate, marked, hmarked, ?_⟩⟩
    rw [hbody]
    rfl

/-- The parts that the staging does not touch. -/
def Installation.kept (s : Installation) : Option Tree × Option Tree × Bool :=
  (s.root, s.backup, s.movedPrevious)

theorem keeps_atomic {label : InstallStep} {error : InstallError}
    {change : Installation → Installation} (h : ∀ s, (change s).kept = s.kept) :
    Keeps Installation.kept (perform label error (.atomic change)) :=
  keeps_perform (fun s _ happly => Option.some.inj happly ▸ h s) fun _ => rfl

theorem keeps_require (holds : Bool) (text : String) :
    Keeps Installation.kept (require holds text) := by
  unfold require
  split
  · exact keeps_pure ()
  · exact keeps_raise _

theorem keeps_downloadArtifact : Keeps Installation.kept (downloadArtifact H artifact) := by
  refine Keeps.bind (keeps_perform (fun s s' h => ?_) fun _ => rfl) fun _ =>
    keeps_perform (fun s s' h => ?_) fun _ => rfl
  · rw [Option.some.inj (Option.ite_none_right_eq_some.mp h).2]
  · rw [← Option.some.inj h]
    rfl

theorem keeps_extractArtifact : Keeps Installation.kept (extractArtifact H) := by
  refine Keeps.bind (keeps_atomic fun _ => rfl) fun _ =>
    keeps_perform (fun s s' h => ?_) fun _ => rfl
  simp only [Option.bind_eq_bind, Option.bind_eq_some_iff, Option.pure_def, Option.some.injEq] at h
  obtain ⟨body, -, staging, -, tree, -, rfl⟩ := h
  rfl

theorem keeps_checkCommand : Keeps Installation.kept (checkCommand artifact) := by
  unfold checkCommand
  split
  · exact keeps_raise _
  · refine (keeps_atomic fun _ => rfl).bind fun _ => (keeps_look _).bind fun _ =>
      (keeps_require _ _).bind fun _ => keeps_perform (fun s s' h => ?_) fun _ => rfl
    rw [Option.some.inj (Option.ite_none_right_eq_some.mp h).2]

theorem keeps_writeMarker : Keeps Installation.kept (writeMarker H artifact) := by
  refine keeps_perform (fun s s' h => ?_) fun _ => rfl
  simp only [Option.bind_eq_bind, Option.bind_eq_some_iff, Option.pure_def, Option.some.injEq] at h
  obtain ⟨staging, -, tree, -, rfl⟩ := h
  rfl

theorem keeps_stageArtifact : Keeps Installation.kept (stageArtifact H artifact) :=
  (keeps_atomic fun _ => rfl).bind fun _ => keeps_downloadArtifact.bind fun _ =>
    (keeps_atomic fun _ => rfl).bind fun _ => (keeps_look _).bind fun _ =>
      (keeps_require _ _).bind fun _ => keeps_extractArtifact.bind fun _ =>
        keeps_checkCommand.bind fun _ => keeps_writeMarker

end Staging

section Handling

variable {s : Installation} {e : InstallError} {α : Type}

/-- The names between the two renames. -/
def Installation.moved (previous : Option Tree) (archive : Option Bytes) (new : Tree) :
    Installation :=
  { root := none, staging := some new, backup := previous, archive := archive,
    movedPrevious := previous.isSome }

/-- The names when the new tree is in its place. -/
def Installation.replaced (previous : Option Tree) (archive : Option Bytes) (new : Tree) :
    Installation :=
  { root := some new, backup := previous, archive := archive, movedPrevious := previous.isSome }

theorem keeps_removeStaging : Keeps Installation.kept (removeStaging H) := by
  refine keeps_perform (fun s s' h => ?_) fun _ => rfl
  rw [← Option.some.inj h]
  rfl

theorem root_of_kept {s s' : Installation} (h : s'.kept = s.kept) : s'.root = s.root :=
  congrArg Prod.fst h

theorem removeStaging_works (h : fates .removeStaging = .works) (s : Installation) :
    removeStaging H fates s = (.returned (), { s with staging := none }) := by
  rw [removeStaging, step]
  exact perform_works h rfl

theorem unfinished_recover (s : Installation) :
    ((recover H e : Installing α) fates s).1.Unfinished :=
  unfinished_bind (fun _ => unfinished_bind fun _ _ => unfinished_raised e) s

theorem restores_of_kept {s s' : Installation} (h : s'.kept = s.kept) :
    s'.restores = s.restores := by
  simp only [Installation.kept, Prod.mk.injEq] at h
  rw [Installation.restores, Installation.restores, h.1, h.2.1, h.2.2]

theorem restores_of_present (h : s.root = some new) : s.restores = false := by
  rw [Installation.restores, h]
  simp

/-- Where nothing was moved or the new tree is there, the handler leaves the runtime directory. -/
theorem root_recover_of_present
    (h : s.restores = false) :
    ((recover H e : Installing α) fates s).2.root = s.root := by
  have hkept := keeps_removeStaging (H := H) fates s
  cases hremove : removeStaging H fates s with
  | mk ending s' =>
      rw [hremove] at hkept
      cases ending with
      | returned u =>
          have hrestores : s'.restores = false := (restores_of_kept hkept).trans h
          rw [recover, bind_returned hremove, state_bind_raise, restorePrevious,
            bind_returned (look_apply _), hrestores]
          exact root_of_kept hkept
      | raised e' =>
          rw [recover, bind_raised hremove]
          exact root_of_kept hkept
      | died =>
          rw [recover, bind_died hremove]
          exact root_of_kept hkept

theorem isDied_recover (h : s.restores = false) :
    ((recover H e : Installing α) fates s).1.isDied = (fates .removeStaging).isDeath := by
  cases hfate : fates .removeStaging with
  | works =>
      have hrestores : ({ s with staging := none } : Installation).restores = false := h
      have hrestored : restorePrevious fates { s with staging := none } =
          (.returned (), { s with staging := none }) := by
        rw [restorePrevious, bind_returned (look_apply _), hrestores, when_false, pure_apply]
      rw [recover, bind_returned (removeStaging_works hfate s), bind_returned hrestored]
      rfl
  | fails begun =>
      rw [recover, removeStaging, step, bind_raised (perform_fails hfate)]
      rfl
  | dies begun =>
      rw [recover, removeStaging, step, bind_died (perform_dies hfate)]
      rfl

theorem isRaised_recover (h : s.restores = false) :
    ((recover H e : Installing α) fates s).1.isRaised = !(fates .removeStaging).isDeath := by
  rw [Ending.isRaised_of_unfinished (unfinished_recover s), isDied_recover h]

/-- The handler brings the previous tree back if both of its steps work. -/
theorem root_recover_of_moved {old : Tree} {archive : Option Bytes} :
    ((recover H e : Installing α) fates (.moved (some old) archive new)).2.root =
      if fates .removeStaging = .works ∧ fates .moveBack = .works then some old else none := by
  by_cases hremove : fates .removeStaging = .works
  · have hrestores : ({ Installation.moved (some old) archive new with
        staging := none } : Installation).restores = true := rfl
    rw [recover, bind_returned (removeStaging_works hremove _), state_bind_raise, restorePrevious,
      bind_returned (look_apply _), hrestores, when_true, step]
    by_cases hback : fates .moveBack = .works
    · rw [if_pos ⟨hremove, hback⟩, perform_works hback rfl]
      rfl
    · rw [if_neg fun hworks => hback hworks.2, perform_untouched hback fun _ => rfl]
      rfl
  · rw [if_neg fun hworks => hremove hworks.1, recover]
    have hunfinished : (removeStaging H fates (.moved (some old) archive new)).1.Unfinished :=
      perform_unfinished hremove
    rw [(bind_unfinished hunfinished).2]
    exact root_of_kept (keeps_removeStaging fates _)

end Handling

section Replacing

variable {archive : Option Bytes}

/-- Where the previous tree cannot be moved, it stays. -/
theorem moveRoot_of_unmoved (old : Tree) (archive : Option Bytes) (new : Tree)
    (h : fates .moveRoot ≠ .works) :
    (moveRoot fates (.staged (some old) archive new)).1.Unfinished ∧
      (moveRoot fates (.staged (some old) archive new)).2 = .staged (some old) archive new := by
  have hexists : (Installation.staged (some old) archive new).root.isSome = true := rfl
  rw [moveRoot, bind_returned (look_apply _), hexists, when_true, step]
  exact ⟨perform_unfinished h, perform_untouched h fun _ => rfl⟩

theorem moveRoot_staged (h : previous.isSome = true → fates .moveRoot = .works) :
    moveRoot fates (.staged previous archive new) =
      (.returned (), .moved previous archive new) := by
  rw [moveRoot, bind_returned (look_apply _)]
  cases previous with
  | none => rfl
  | some old =>
      have hexists : (Installation.staged (some old) archive new).root.isSome = true := rfl
      rw [hexists, when_true, step]
      exact perform_works (h rfl) rfl

theorem moveStaging_moved (h : fates .moveStaging = .works) :
    moveStaging fates (.moved previous archive new) =
      (.returned (), .replaced previous archive new) := by
  rw [moveStaging, step]
  exact perform_works h rfl

theorem removeBackup_works (h : fates .removeBackup = .works) (s : Installation) :
    removeBackup H fates s = (.returned (), { s with backup := none }) := by
  rw [removeBackup, step]
  exact perform_works h rfl

theorem removeBackup_fails {begun : Bool} (h : fates .removeBackup = .fails begun)
    (s : Installation) : ∃ s', removeBackup H fates s = (.raised (.system .removeBackup), s') ∧
      s'.root = s.root := by
  rw [removeBackup, step, perform_fails h]
  exact ⟨_, rfl, by cases begun <;> rfl⟩

theorem removeBackup_dies {begun : Bool} (h : fates .removeBackup = .dies begun)
    (s : Installation) : ∃ s', removeBackup H fates s = (.died, s') ∧ s'.root = s.root := by
  rw [removeBackup, step, perform_dies h]
  exact ⟨_, rfl, by cases begun <;> rfl⟩

theorem replaceRoot_replaced (hroot : previous.isSome = true → fates .moveRoot = .works)
    (hstaging : fates .moveStaging = .works) :
    replaceRoot H fates (.staged previous archive new) =
      when_ previous.isSome (removeBackup H) fates (.replaced previous archive new) := by
  rw [replaceRoot, bind_returned (moveRoot_staged hroot),
    bind_returned (moveStaging_moved hstaging), bind_returned (look_apply _)]
  rfl

end Replacing

section Trying

/-- The tried block, with its handler. -/
def attempt (H : InstallHost) (artifact : Artifact) : Installing (TreePath × Bool) :=
  catching (tryInstall H artifact) (recover H)

/-- An error of the tried block that leaves nothing to bring back. -/
theorem attempt_of_unfinished {s : Installation}
    (hending : (tryInstall H artifact fates s).1.Unfinished)
    (hpresent : (tryInstall H artifact fates s).2.restores = false) :
    (attempt H artifact fates s).1.Unfinished ∧
      (attempt H artifact fates s).2.root = (tryInstall H artifact fates s).2.root := by
  rw [attempt]
  cases htry : tryInstall H artifact fates s with
  | mk ending s' =>
      rw [htry] at hending hpresent
      cases ending with
      | returned a => exact absurd rfl (hending a)
      | raised e =>
          rw [catching_raised htry]
          exact ⟨unfinished_recover s', root_recover_of_present hpresent⟩
      | died =>
          rw [catching_died htry]
          exact ⟨unfinished_died, rfl⟩

theorem attempt_of_unstaged
    (h : (stageArtifact H artifact fates (.before previous)).1.Unfinished) :
    (attempt H artifact fates (.before previous)).1.Unfinished ∧
      (attempt H artifact fates (.before previous)).2.root = previous := by
  have hkept :
      (stageArtifact H artifact fates (.before previous)).2.kept = (previous, none, false) :=
    keeps_stageArtifact fates (.before previous)
  obtain ⟨hending, hstate⟩ := bind_unfinished h
  have htry : (tryInstall H artifact fates (.before previous)).2 =
      (stageArtifact H artifact fates (.before previous)).2 := hstate
  obtain ⟨hunfinished, hroot⟩ := attempt_of_unfinished hending
    (by rw [htry]; exact restores_of_kept (s := .before previous) hkept)
  refine ⟨hunfinished, hroot.trans ?_⟩
  rw [htry]
  exact congrArg Prod.fst hkept

section Staged

variable {archive : Option Bytes}
  (hstaged : stageArtifact H artifact fates (.before previous) =
    (.returned (), .staged previous archive new))

include hstaged

/-- What is tried when the tree is staged. -/
theorem tryInstall_staged :
    tryInstall H artifact fates (.before previous) =
      (replaceRoot H >>= fun _ => match artifactCommand artifact with
        | none => raise (.message "runtime artifact command escapes the runtime directory")
        | some command => pure (command, artifact.python)) fates
          (.staged previous archive new) := by
  rewrite [tryInstall, bind_returned hstaged]
  rfl

/-- An error in the exchange of the trees is one of the tried block. -/
theorem tryInstall_of_broken
    (h : (replaceRoot H fates (.staged previous archive new)).1.Unfinished) :
    (tryInstall H artifact fates (.before previous)).1.Unfinished ∧
      (tryInstall H artifact fates (.before previous)).2 =
        (replaceRoot H fates (.staged previous archive new)).2 := by
  rw [tryInstall_staged hstaged]
  exact bind_unfinished h

theorem attempt_of_unmoved (hprevious : previous.isSome = true) (h : fates .moveRoot ≠ .works) :
    (attempt H artifact fates (.before previous)).1.Unfinished ∧
      (attempt H artifact fates (.before previous)).2.root = previous := by
  obtain ⟨old, rfl⟩ := Option.isSome_iff_exists.mp hprevious
  obtain ⟨hmove, hstate⟩ := moveRoot_of_unmoved old archive new h
  obtain ⟨hreplace, hreplaced⟩ := bind_unfinished hmove
  obtain ⟨hending, htry⟩ := tryInstall_of_broken hstaged hreplace
  have hkept := htry.trans (hreplaced.trans hstate)
  obtain ⟨hunfinished, hroot⟩ := attempt_of_unfinished hending (by rw [hkept]; rfl)
  exact ⟨hunfinished, hroot.trans (by rw [hkept]; rfl)⟩

section Moved

variable (hroot : previous.isSome = true → fates .moveRoot = .works)

include hroot

theorem tryInstall_of_failed_move {begun : Bool} (h : fates .moveStaging = .fails begun) :
    tryInstall H artifact fates (.before previous) =
      (.raised (.system .moveStaging), .moved previous archive new) := by
  have hmove : moveStaging fates (.moved previous archive new) =
      (.raised (.system .moveStaging), .moved previous archive new) := by
    rw [moveStaging, step, perform_fails h]
    cases begun <;> rfl
  have hreplace : replaceRoot H fates (.staged previous archive new) =
      (.raised (.system .moveStaging), .moved previous archive new) := by
    rw [replaceRoot, bind_returned (moveRoot_staged hroot), bind_raised hmove]
  rw [tryInstall_staged hstaged, bind_raised hreplace]

theorem tryInstall_of_dead_move {begun : Bool} (h : fates .moveStaging = .dies begun) :
    tryInstall H artifact fates (.before previous) = (.died, .moved previous archive new) := by
  have hmove : moveStaging fates (.moved previous archive new) =
      (.died, .moved previous archive new) := by
    rw [moveStaging, step, perform_dies h]
    cases begun <;> rfl
  have hreplace : replaceRoot H fates (.staged previous archive new) =
      (.died, .moved previous archive new) := by
    rw [replaceRoot, bind_returned (moveRoot_staged hroot), bind_died hmove]
  rw [tryInstall_staged hstaged, bind_died hreplace]

/-- Where the new tree does not get its name, the previous one is there again when the handler
works. -/
theorem attempt_of_unreplaced (h : fates .moveStaging ≠ .works) :
    (attempt H artifact fates (.before previous)).1.Unfinished ∧
      (attempt H artifact fates (.before previous)).2.root =
        if (fates .moveStaging).isFailure = true ∧ fates .removeStaging = .works ∧
          fates .moveBack = .works then previous else none := by
  rw [attempt]
  cases hfate : fates .moveStaging with
  | works => exact absurd hfate h
  | fails begun =>
      rw [catching_raised (tryInstall_of_failed_move hstaged hroot hfate)]
      refine ⟨unfinished_recover _, ?_⟩
      simp only [Fate.isFailure, true_and]
      cases previous with
      | none =>
          rw [root_recover_of_present rfl, ite_self]
          rfl
      | some old => exact root_recover_of_moved
  | dies begun =>
      rw [catching_died (tryInstall_of_dead_move hstaged hroot hfate)]
      exact ⟨unfinished_died, rfl⟩

/-- What is tried once the new tree is in its place. -/
theorem tryInstall_replaced (h : fates .moveStaging = .works) :
    tryInstall H artifact fates (.before previous) =
      (when_ previous.isSome (removeBackup H) >>= fun _ => match artifactCommand artifact with
        | none => raise (.message "runtime artifact command escapes the runtime directory")
        | some command => pure (command, artifact.python)) fates
          (.replaced previous archive new) := by
  rw [tryInstall_staged hstaged]
  change Faulty.bind _ _ _ _ = Faulty.bind _ _ _ _
  rw [Faulty.bind, Faulty.bind, replaceRoot_replaced hroot h]

/-- Where the new tree is in its place, it stays there. -/
theorem attempt_of_replaced (h : fates .moveStaging = .works) {command : TreePath}
    (hcommand : artifactCommand artifact = some command) :
    (attempt H artifact fates (.before previous)).2.root = some new ∧
      ((attempt H artifact fates (.before previous)).1.isRaised = true ↔
        previous.isSome = true ∧ (fates .removeBackup).isFailure = true ∧
          (fates .removeStaging).isDeath = false) ∧
      ((attempt H artifact fates (.before previous)).1.isDied = true ↔
        previous.isSome = true ∧ ((fates .removeBackup).isDeath = true ∨
          (fates .removeBackup).isFailure = true ∧ (fates .removeStaging).isDeath = true)) := by
  have htry := tryInstall_replaced hstaged hroot h
  rw [hcommand] at htry
  rw [attempt]
  cases previous with
  | none =>
      rw [catching_returned htry]
      simp [Installation.replaced, Ending.isRaised, Ending.isDied]
  | some old =>
      rw [Option.isSome_some, when_true] at htry
      cases hfate : fates .removeBackup with
      | works =>
          rw [bind_returned (removeBackup_works hfate _)] at htry
          rw [catching_returned htry]
          simp [Installation.replaced, Ending.isRaised, Ending.isDied, Fate.isFailure, Fate.isDeath]
      | fails begun =>
          obtain ⟨s, hremove, hplaced⟩ := removeBackup_fails (H := H) hfate
            (.replaced (some old) archive new)
          rw [bind_raised hremove] at htry
          rw [catching_raised htry, isRaised_recover (restores_of_present hplaced),
            isDied_recover (restores_of_present hplaced)]
          refine ⟨(root_recover_of_present (restores_of_present hplaced)).trans hplaced, ?_⟩
          simp [Fate.isFailure, Fate.isDeath]
      | dies begun =>
          obtain ⟨s, hremove, hplaced⟩ := removeBackup_dies (H := H) hfate
            (.replaced (some old) archive new)
          rw [bind_died hremove] at htry
          rw [catching_died htry]
          refine ⟨hplaced, ?_⟩
          simp [Fate.isFailure, Fate.isDeath, Ending.isRaised, Ending.isDied]

end Moved

end Staged

end Trying

section Outcome

/-- What holds after a call: an error leaves what was there, a result is the complete new tree, and
a process that dies leaves the one or the other, and a later `resolveRuntime` that finds it good
takes it as it is. -/
structure AllOrPrevious (H : InstallHost) (artifact : Artifact) (previous : Option Tree)
    (ending : Ending InstallError (TreePath × Bool)) (root : Option Tree) : Prop where
  raised : ending.isRaised = true → root = previous
  returned : ∀ result, ending = .returned result → ∃ new, complete H artifact = some new ∧
    root = some new
  accepted : ending = .died → accepts H artifact root = true →
    ∀ (later : InstallStep → Fate) (s : Installation), s.root = root →
      ∃ command, artifactCommand artifact = some command ∧
        resolveRuntime H artifact later s = (.returned command, s)
  found : ending = .died →
    root = previous ∨ ∃ new, complete H artifact = some new ∧ root = some new

/-- A tree that is accepted is taken as it is. -/
theorem resolveRuntime_of_accepts {s : Installation} (h : accepts H artifact s.root = true) :
    ∃ command, artifactCommand artifact = some command ∧
      resolveRuntime H artifact fates s = (.returned command, s) := by
  have haccepts := h
  rw [accepts, Bool.and_eq_true, Option.any_eq_true] at h
  obtain ⟨⟨command, hcommand, hexists⟩, -⟩ := h
  refine ⟨command, hcommand, ?_⟩
  rw [resolveRuntime, hcommand]
  simp only [bind_returned (look_apply _), haccepts, if_true]
  rw [bind_returned (pure_apply _), bind_returned (look_apply _), hexists,
    bind_returned (show require true _ fates s = (.returned (), s) from rfl), pure_apply]

/-- The previous tree is moved away, and the new one does not come in its place. -/
structure LosesPrevious (fates : InstallStep → Fate) (previous : Option Tree) : Prop where
  existed : previous.isSome = true
  moved : fates .moveRoot = .works
  unreplaced : fates .moveStaging ≠ .works
  unrestored : ¬((fates .moveStaging).isFailure = true ∧ fates .removeStaging = .works ∧
    fates .moveBack = .works)

/-- The call reports an error after the new tree is in its place. -/
structure FailsAfterwards (fates : InstallStep → Fate) (previous : Option Tree) : Prop where
  moved : previous.isSome = true → fates .moveRoot = .works
  replaced : fates .moveStaging = .works
  survives : (fates .removeArchive).isDeath = false
  fails : previous.isSome = true ∧ (fates .removeBackup).isFailure = true ∧
      (fates .removeStaging).isDeath = false ∨
    (previous.isSome = true → fates .removeBackup = .works) ∧
      (fates .removeArchive).isFailure = true

section Endings

variable {ending : Ending InstallError (TreePath × Bool)} {root : Option Tree}

theorem taken_of_accepts (h : accepts H artifact root = true) (later : InstallStep → Fate)
    (s : Installation) (hs : s.root = root) : ∃ command, artifactCommand artifact = some command ∧
      resolveRuntime H artifact later s = (.returned command, s) :=
  resolveRuntime_of_accepts (hs ▸ h)

theorem allOrPrevious_of_kept (hending : ending.Unfinished) (hroot : root = previous) :
    AllOrPrevious H artifact previous ending root :=
  ⟨fun _ => hroot, fun result h => absurd h (hending result), fun _ => taken_of_accepts,
    fun _ => .inl hroot⟩

theorem not_allOrPrevious_of_lost (hending : ending.Unfinished) (hroot : root = none)
    (hprevious : previous.isSome = true) : ¬AllOrPrevious H artifact previous ending root := by
  intro h
  subst hroot
  have hne : none ≠ previous := by
    rintro rfl
    cases hprevious
  cases ending with
  | returned a => exact hending a rfl
  | raised e => exact hne (h.raised rfl)
  | died =>
      obtain hsame | ⟨new, -, hnew⟩ := h.found rfl
      · exact hne hsame
      · cases hnew

theorem allOrPrevious_new_iff (hcomplete : complete H artifact = some new)
    (hroot : root = some new) :
    AllOrPrevious H artifact previous ending root ↔
      (ending.isRaised = true → previous = some new) := by
  subst hroot
  constructor
  · exact fun h hraised => (h.raised hraised).symm
  · exact fun h => ⟨fun hraised => (h hraised).symm, fun _ _ => ⟨new, hcomplete, rfl⟩,
      fun _ => taken_of_accepts, fun _ => .inr ⟨new, hcomplete, rfl⟩⟩

end Endings

theorem root_installArtifact (fates : InstallStep → Fate) (s : Installation) :
    (installArtifact H artifact fates s).2.root = (attempt H artifact fates s).2.root :=
  ensuring_view fun _ => rfl

/-- Whether an exchange that is done ends with an error. -/
theorem failsAfterwards_iff (hroot : previous.isSome = true → fates .moveRoot = .works)
    (hstaging : fates .moveStaging = .works) :
    FailsAfterwards fates previous ↔
      ¬(previous.isSome = true ∧ ((fates .removeBackup).isDeath = true ∨
        (fates .removeBackup).isFailure = true ∧ (fates .removeStaging).isDeath = true)) ∧
      (fates .removeArchive).isDeath = false ∧
      (previous.isSome = true ∧ (fates .removeBackup).isFailure = true ∧
        (fates .removeStaging).isDeath = false ∨ (fates .removeArchive).isFailure = true) := by
  constructor
  · rintro ⟨-, -, hsurvives, ⟨hsome, hfails, hhandled⟩ | ⟨hworks, hfails⟩⟩
    · refine ⟨?_, hsurvives, .inl ⟨hsome, hfails, hhandled⟩⟩
      rintro ⟨-, hdies | ⟨-, hdies⟩⟩
      · cases hfate : fates .removeBackup <;> rw [hfate] at hfails hdies <;> contradiction
      · rw [hhandled] at hdies
        cases hdies
    · refine ⟨?_, hsurvives, .inr hfails⟩
      rintro ⟨hsome, hbackup⟩
      rw [hworks hsome] at hbackup
      obtain hdies | ⟨hfails', -⟩ := hbackup
      · cases hdies
      · cases hfails'
  · rintro ⟨halive, hsurvives, hfails⟩
    refine ⟨hroot, hstaging, hsurvives, ?_⟩
    obtain hfails | hfails := hfails
    · exact .inl hfails
    · by_cases hbackup : previous.isSome = true → fates .removeBackup = .works
      · exact .inr ⟨hbackup, hfails⟩
      · obtain ⟨hsome, hbroken⟩ := Classical.not_imp.mp hbackup
        left
        cases hfate : fates .removeBackup with
        | works => exact absurd hfate hbroken
        | dies begun => exact absurd ⟨hsome, .inl (by rw [hfate]; rfl)⟩ halive
        | fails begun =>
            refine ⟨hsome, rfl, Bool.eq_false_iff.mpr fun hdies => halive ⟨hsome, .inr ⟨?_, hdies⟩⟩⟩
            rw [hfate]
            rfl

/-- The outcome when the tree is staged. -/
theorem allOrPrevious_staged_iff {archive : Option Bytes}
    (hcomplete : complete H artifact = some new)
    (hstaged : stageArtifact H artifact fates (.before previous) =
      (.returned (), .staged previous archive new)) :
    let run := installArtifact H artifact fates (.before previous)
    AllOrPrevious H artifact previous run.1 run.2.root ↔
      ¬LosesPrevious fates previous ∧ (FailsAfterwards fates previous → previous = some new) := by
  intro run
  have hroot : run.2.root = _ := root_installArtifact fates (.before previous)
  by_cases hmoved : previous.isSome = true → fates .moveRoot = .works
  · by_cases hstaging : fates .moveStaging = .works
    · obtain ⟨-, -, command, -, -, -, hcommand, -⟩ := complete_eq_some_iff.mp hcomplete
      obtain ⟨hplaced, hraised, hdied⟩ := attempt_of_replaced hstaged hmoved hstaging hcommand
      have hlast : run.1.isRaised = true ↔ FailsAfterwards fates previous := by
        rw [failsAfterwards_iff hmoved hstaging, ← hraised, ← hdied, Bool.not_eq_true]
        exact isRaised_ensuring
      rw [allOrPrevious_new_iff hcomplete (hroot.trans hplaced), hlast]
      exact (and_iff_right fun hloses => hloses.unreplaced hstaging).symm
    · obtain ⟨hending, hback⟩ := attempt_of_unreplaced hstaged hmoved hstaging
      rw [hback] at hroot
      split_ifs at hroot with hrestored
      · exact iff_of_true (allOrPrevious_of_kept (ensuring_unfinished hending) hroot)
          ⟨fun hloses => hloses.unrestored hrestored, fun hfails => absurd hfails.replaced hstaging⟩
      · by_cases hsome : previous.isSome = true
        · exact iff_of_false (not_allOrPrevious_of_lost (ensuring_unfinished hending) hroot hsome)
            fun h => h.1 ⟨hsome, hmoved hsome, hstaging, hrestored⟩
        · have hnone : previous = none := by simpa using hsome
          have hkept : run.2.root = previous := hroot.trans hnone.symm
          exact iff_of_true (allOrPrevious_of_kept (ensuring_unfinished hending) hkept)
            ⟨fun hloses => hsome hloses.existed, fun hfails => absurd hfails.replaced hstaging⟩
  · obtain ⟨hsome, hbroken⟩ := Classical.not_imp.mp hmoved
    obtain ⟨hending, hkept⟩ := attempt_of_unmoved hstaged hsome hbroken
    exact iff_of_true (allOrPrevious_of_kept (ensuring_unfinished hending) (hroot.trans hkept))
      ⟨fun hloses => hbroken hloses.moved, fun hfails => absurd hfails.moved hmoved⟩

/-- A call is all or nothing unless the previous tree is lost between the two renames, or a step
that fails after them makes an error of a finished exchange. -/
theorem installArtifact_allOrPrevious_iff (H : InstallHost) (artifact : Artifact)
    (fates : InstallStep → Fate) (previous : Option Tree) :
    let run := installArtifact H artifact fates (.before previous)
    AllOrPrevious H artifact previous run.1 run.2.root ↔
      ∀ new, complete H artifact = some new → (∀ label ∈ stagingSteps, fates label = .works) →
        ¬LosesPrevious fates previous ∧ (FailsAfterwards fates previous → previous = some new) := by
  intro run
  cases hstage : stageArtifact H artifact fates (.before previous) with
  | mk ending s =>
      by_cases hending : ending.Unfinished
      · obtain ⟨hattempt, hkept⟩ := attempt_of_unstaged (by rw [hstage]; exact hending)
        have hroot : run.2.root = previous := (root_installArtifact fates _).trans hkept
        refine iff_of_true (allOrPrevious_of_kept (ensuring_unfinished hattempt) hroot) ?_
        intro new hnew hworks
        rw [stageArtifact_returned_iff.mpr ⟨hworks, new, hnew, rfl⟩, Prod.mk.injEq] at hstage
        exact absurd hstage.1.symm (hending ())
      · obtain ⟨u, rfl⟩ := not_forall_not.mp hending
        obtain ⟨hworks, new, hnew, rfl⟩ := stageArtifact_returned_iff.mp hstage
        refine (allOrPrevious_staged_iff hnew hstage).trans ?_
        constructor
        · rintro h new' hnew' -
          obtain rfl := Option.some.inj (hnew.symm.trans hnew')
          exact h
        · exact fun h => h new hnew hworks

end Outcome

section Samples

/-- A tree with a Python. -/
def sampleTree : Tree where
  node path :=
    if path = [] ∨ path = [lit "bin"] then some .directory
    else if path = [lit "bin", lit "python"] then some (.file [] true)
    else none
  node_top := by decide

/-- A host whose archives all have that tree. -/
def InstallHost.sample : InstallHost where
  fetch _ := some []
  sha256Hex _ := List.replicate 64 (cp 48)
  untar _ _ := some sampleTree
  parse _ := none
  stringify _ := []
  partOfFile := id
  partOfTree := id
  restOfTree := id

def Artifact.sample : Artifact where
  key := lit "linux-x64"
  version := lit "1"
  url := lit "https://localhost/runtime"
  sha256 := List.replicate 64 (cp 48)
  command := lit "bin/python"
  python := true
  sha256_hex := by decide +kernel
  command_safe := by decide +kernel

/-- All steps work but the removal of the previous tree. -/
def failingRemoval (label : InstallStep) : Fate :=
  if label = .removeBackup then .fails false else .works

/-- An error in the removal of the previous tree is reported with the new one in its place. -/
theorem not_allOrPrevious_of_failing_removal :
    let run := installArtifact .sample .sample failingRemoval (.before (some .empty))
    ¬AllOrPrevious .sample .sample (some .empty) run.1 run.2.root := by
  intro run
  have hpython : (complete .sample .sample).map (fun tree =>
      tree.isFile [lit "bin", lit "python"]) = some true := by decide +kernel
  obtain ⟨new, hnew, hfile⟩ := Option.map_eq_some_iff.mp hpython
  have hworks : ∀ label ∈ stagingSteps, failingRemoval label = .works := by decide
  have hstaged : stageArtifact .sample .sample failingRemoval (.before (some .empty)) =
      (.returned (), .staged (some .empty) (some []) new) :=
    stageArtifact_returned_iff.mpr ⟨hworks, new, hnew, rfl⟩
  have hfails : FailsAfterwards failingRemoval (some .empty) :=
    ⟨fun _ => rfl, rfl, rfl, .inl ⟨rfl, rfl, rfl⟩⟩
  intro hall
  have hsame := ((allOrPrevious_staged_iff hnew hstaged).mp hall).2 hfails
  obtain rfl := Option.some.inj hsame
  cases hfile

end Samples

end MediaBridge.Personal
