import MediaBridge.Foundation.Lines
import MediaBridge.Gateway.Generation

/-!
# Loading snapshots

`VerifiedSnapshotRuntime.load` and `SnapshotFileReloader` of
`media_bridge_gateway/runtime.py`: a newer verified snapshot replaces the current
generation, and every refresh looks at the file again unless its metadata are those of
the last refresh.

## Implementation notes

The file system answers each call as it likes, so a call carries what it was answered. A
fault is an exception that a component factory raises although the snapshot is in order;
it says whether the reloader catches that exception.
-/

namespace MediaBridge.Gateway

open Foundation MediaBridge.Core

/-- What `load` finds at its path; without a content, reading raises an `OSError`. -/
structure PathFacts where
  isSymlink : Bool
  isFile : Bool
  size : Nat
  content : Option Bytes
deriving DecidableEq

/-- Why `load` raises. `verification` is the `SnapshotVerificationError`. -/
inductive LoadError
  | verification (message : String)
  | valueError
  | recursionError
  | factory (caught : Bool)
deriving DecidableEq

/-- The error of a verification. -/
def LoadError.ofVerification : VerificationError → LoadError
  | .rejected message => .verification message
  | .valueError => .valueError
  | .recursionError => .recursionError

/-- `except (SnapshotVerificationError, ValueError)`. -/
def LoadError.caught : LoadError → Bool
  | .verification _ => true
  | .valueError => true
  | .recursionError => false
  | .factory caught => caught

/-- `VerifiedSnapshotRuntime`, without its current generation. -/
structure VerifiedSnapshotRuntime where
  library : SnapshotLibrary
  keys : ConfigSnapshot.Verifier
  factory : GatewayTransactionFactory

namespace VerifiedSnapshotRuntime

variable (R : VerifiedSnapshotRuntime)

/-- The first part of `load`: the file is read and verified. -/
def candidate (facts : PathFacts) : Except LoadError SignedSnapshot :=
  if facts.isSymlink || !facts.isFile || ConfigSnapshot.maxSnapshotBytes < facts.size then
    .error (.verification "snapshot file is unavailable or oversized")
  else
    match facts.content with
    | none => .error (.verification "snapshot file could not be read")
    | some data =>
        match Utf8.decode data with
        | none => .error .valueError
        | some text =>
            (ConfigSnapshot.verifyJson R.library R.keys (Str.universalNewlines text)).mapError
              LoadError.ofVerification

/-- `current is not None and candidate.version <= current.version`. -/
def stale (current : Option GatewayGeneration) (snapshot : SignedSnapshot) : Bool :=
  current.any fun generation => decide (snapshot.version ≤ generation.version)

def staleError : LoadError := .verification "snapshot version is stale or replayed"

/-- A version check under the lock. -/
def checkVersion (current : Option GatewayGeneration) (snapshot : SignedSnapshot) :
    Except LoadError Unit :=
  if stale current snapshot then .error staleError else .ok ()

/-- The build between the two checks. -/
def buildGeneration (snapshot : SignedSnapshot) (fault : Option Bool) :
    Except LoadError GatewayGeneration :=
  match fault with
  | some caught => .error (.factory caught)
  | none =>
      match R.factory.build snapshot with
      | none => .error (.factory true)
      | some generation => .ok generation

/-- `load` without interruption; the result becomes the current generation. -/
def load (current : Option GatewayGeneration) (facts : PathFacts) (fault : Option Bool) :
    Except LoadError GatewayGeneration := do
  let snapshot ← R.candidate facts
  checkVersion current snapshot
  let generation ← R.buildGeneration snapshot fault
  checkVersion current snapshot
  return generation

theorem checkVersion_eq_ok {current : Option GatewayGeneration} {snapshot : SignedSnapshot} :
    checkVersion current snapshot = .ok () ↔
      ∀ generation ∈ current, generation.version < snapshot.version := by
  cases current <;> simp [checkVersion, stale]

/-- What a build returns. -/
theorem buildGeneration_eq_ok {snapshot : SignedSnapshot} {fault : Option Bool}
    {generation : GatewayGeneration} :
    R.buildGeneration snapshot fault = .ok generation ↔
      fault = none ∧ R.factory.build snapshot = some generation := by
  unfold buildGeneration
  cases fault with
  | some caught => simp
  | none => cases hbuild : R.factory.build snapshot <;> simp

/-- What a load returns. -/
theorem load_eq_ok {current : Option GatewayGeneration} {facts : PathFacts}
    {fault : Option Bool} {generation : GatewayGeneration} :
    R.load current facts fault = .ok generation ↔
      ∃ snapshot, R.candidate facts = .ok snapshot ∧
        (∀ old ∈ current, old.version < snapshot.version) ∧ fault = none ∧
        R.factory.build snapshot = some generation := by
  constructor
  · intro h
    obtain ⟨snapshot, hcandidate, h⟩ := ok_of_bind h
    obtain ⟨u, hcheck, h⟩ := ok_of_bind h
    obtain ⟨built, hbuild, h⟩ := ok_of_bind h
    obtain ⟨-, -, h⟩ := ok_of_bind h
    cases h
    obtain ⟨hfault, hbuilt⟩ := R.buildGeneration_eq_ok.mp hbuild
    exact ⟨snapshot, hcandidate, checkVersion_eq_ok.mp hcheck, hfault, hbuilt⟩
  · rintro ⟨snapshot, hcandidate, hnewer, hfault, hbuilt⟩
    have hcheck := checkVersion_eq_ok.mpr hnewer
    have hbuild := R.buildGeneration_eq_ok.mpr ⟨hfault, hbuilt⟩
    simp only [load, hcandidate, hcheck, hbuild, bind, Except.bind, pure, Except.pure]

end VerifiedSnapshotRuntime

/-- The metadata that a refresh remembers. -/
structure Fingerprint where
  device : Nat
  inode : Nat
  size : Nat
  modifiedNs : Int
deriving DecidableEq

/-- One call of `refresh_if_changed`: the answer of `stat`, unless it raises an
`OSError`, and what a load finds. -/
structure Refresh where
  fingerprint : Option Fingerprint
  facts : PathFacts
  fault : Option Bool

/-- `SnapshotFileReloader` with the runtime it refreshes. -/
structure ReloaderState where
  current : Option GatewayGeneration
  seen : Option Fingerprint

namespace ReloaderState

/-- The state of a reloader that has refreshed nothing. -/
def fresh (current : Option GatewayGeneration) : ReloaderState := ⟨current, none⟩

/-- `refresh_if_changed`: the next state, and what the call returns or raises. -/
def refreshIfChanged (R : VerifiedSnapshotRuntime) (s : ReloaderState) (e : Refresh) :
    ReloaderState × Except LoadError Bool :=
  match e.fingerprint with
  | none => (s, .ok false)
  | some fingerprint =>
      if s.seen = some fingerprint then (s, .ok false)
      else
        match R.load s.current e.facts e.fault with
        | .ok generation => (⟨some generation, some fingerprint⟩, .ok true)
        | .error error =>
            (⟨s.current, some fingerprint⟩,
              if error.caught then .ok false else .error error)

/-- The state after a call. -/
def next (R : VerifiedSnapshotRuntime) (s : ReloaderState) (e : Refresh) : ReloaderState :=
  (s.refreshIfChanged R e).1

/-- The state after a history of calls. -/
def run (R : VerifiedSnapshotRuntime) (s : ReloaderState) (history : List Refresh) :
    ReloaderState :=
  history.foldl (next R) s

end ReloaderState

section Sample

/-- Fields are read as they are, and a text as an aware time. -/
def sampleReader : FieldReader where
  datetime v := v.str?.map fun _ => ⟨0, some 0⟩
  integer v := match v with
    | .int n => some n
    | _ => none
  boolean v := match v with
    | .bool b => some b
    | _ => none
  uuid := Json.str?

/-- Libraries that accept every signature by the sample key. -/
def sampleLibrary : SnapshotLibrary where
  platform := .sample
  unicode := .ascii id
  reader := sampleReader
  isoformat _ := lit "1970-01-01T00:00:00+00:00"
  ed25519Verify _ _ _ := true
  stack := 900

theorem dedup_perm_dedup (names : List Str) : names.dedup.Perm names.dedup := .refl _

def sampleRuntime : VerifiedSnapshotRuntime where
  library := sampleLibrary
  keys := [(lit "k", [])]
  factory := ⟨sampleReader, .ascii id, .sample, ⟨List.dedup, dedup_perm_dedup⟩,
    PreRequestGate.sampleBackends, .sample, List.replicate 32 7⟩

/-- A registry with one model. -/
def sampleRegistryBody : Entries Str Json :=
  [(lit "registry", .obj [(lit "version", .str (lit "1")),
    (lit "models", .arr [.obj [(lit "id", .str (lit "m")),
      (lit "input_modalities", .arr [.str (lit "text")])]])])]

/-- The document of a snapshot with that registry. -/
def sampleDocument (version : Int) : Json :=
  .obj [(lit "schema", .str ConfigSnapshot.schemaName), (lit "snapshot_id", .str (lit "s")),
    (lit "version", .int version), (lit "issued_at", .str (lit "t")),
    (lit "body", .obj sampleRegistryBody),
    (lit "digest", .str (((ConfigSnapshot.snapshotDigest sampleLibrary
      sampleRegistryBody).toOption).getD [])),
    (lit "signature", .str (lit "ed25519:" ++ List.replicate 86 (cp 65))),
    (lit "key_id", .str (lit "k"))]

/-- The document as a file. -/
def sampleFile (version : Int) : PathFacts where
  isSymlink := false
  isFile := true
  size := 400
  content := do
    let text ← JsonText.dumps Platform.sample.float ⟨false, false, false⟩
      (sampleDocument version)
    Utf8.encode text

end Sample

end MediaBridge.Gateway
