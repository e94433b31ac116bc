import MediaBridge.Gateway.SnapshotRuntime
import Mathlib.Data.List.Chain

/-!
# Loads and requests side by side

Any number of loads of the snapshot runtime and of requests, in any order of their steps.
A load reads and verifies, checks the version, builds, and checks again and installs;
other loads and requests move in between. A request is bound to the generation that
authenticates it; its handlers read the generation they are bound to.

## Implementation notes

`installs` and `readings` are the history of the run and decide nothing. An event that
does not fit the phase of its load or request changes nothing.
-/

namespace MediaBridge.Gateway

open Foundation MediaBridge.Core

/-- Where a load is between two of its steps. -/
inductive LoadPhase
  | idle
  | candidate (snapshot : SignedSnapshot)
  | checked (snapshot : SignedSnapshot)
  | built (snapshot : SignedSnapshot) (generation : GatewayGeneration)
  | installed (generation : GatewayGeneration)
  | raised (error : LoadError)

/-- The context variables of a request. -/
structure RequestContext where
  generation : GatewayGeneration
  subject : DataPlaneSubject

/-- Where a request is between two of its steps. -/
inductive RequestPhase
  | idle
  | refused
  | bound (context : RequestContext)
  | resolved (context : RequestContext) (payload : Entries Str Json)
  | invoked (context : RequestContext)

/-- A component of a generation that a request has used. -/
inductive Reading
  | authenticator (verifier : SnapshotCredentialVerifier)
  | publicModels (models : List Str) (autoModel : Option Str)
  | gate (gate : PreRequestGate)
  | downstream (downstream : ProviderResponsesDownstream)

/-- One load that has become the current generation. -/
structure Install where
  load : Nat
  snapshot : SignedSnapshot
  generation : GatewayGeneration

structure RuntimeState where
  current : Option GatewayGeneration
  loads : Nat → LoadPhase
  requests : Nat → RequestPhase
  installs : List Install
  readings : Nat → List Reading

/-- What can happen. Loads and requests are named by numbers. -/
inductive RuntimeEvent
  | read (id : Nat) (facts : PathFacts)
  | check (id : Nat)
  | build (id : Nat) (fault : Option Bool)
  | install (id : Nat)
  | authenticate (id : Nat) (now : Datetime) (authorization : Option Str)
      (requiredScope : Str) (cookieHeader : Option Str)
  | resolve (id : Nat) (payload : Json)
  | invoke (id : Nat)
  | prepare (id : Nat)

namespace RuntimeState

/-- Nothing has been loaded and nothing requested. -/
def start : RuntimeState := ⟨none, fun _ => .idle, fun _ => .idle, [], fun _ => []⟩

variable (s : RuntimeState)

/-- A load goes on to another phase. -/
def moveLoad (id : Nat) (phase : LoadPhase) : RuntimeState :=
  { s with loads := Function.update s.loads id phase }

/-- A request goes on to another phase, after using some components. -/
def moveRequest (id : Nat) (phase : RequestPhase) (used : List Reading) : RuntimeState :=
  { s with
    requests := Function.update s.requests id phase
    readings := Function.update s.readings id (s.readings id ++ used) }

/-- A generation becomes the current one. -/
def installed (id : Nat) (snapshot : SignedSnapshot) (generation : GatewayGeneration) :
    RuntimeState :=
  { s.moveLoad id (.installed generation) with
    current := some generation
    installs := s.installs ++ [⟨id, snapshot, generation⟩] }

variable (R : VerifiedSnapshotRuntime)

/-- The second version check and the installation, under one lock. -/
def installStep (id : Nat) (snapshot : SignedSnapshot) (generation : GatewayGeneration) :
    RuntimeState :=
  match VerifiedSnapshotRuntime.checkVersion s.current snapshot with
  | .error error => s.moveLoad id (.raised error)
  | .ok () => s.installed id snapshot generation

/-- The middleware: the current generation authenticates the request and is bound to it. -/
def authenticateStep (id : Nat) (now : Datetime) (authorization : Option Str)
    (requiredScope : Str) (cookieHeader : Option Str) : RuntimeState :=
  match s.current with
  | none => s.moveRequest id .refused []
  | some generation =>
      let used := [Reading.authenticator generation.credentialVerifier]
      match generation.credentialVerifier.authenticate R.factory.platform now authorization
          requiredScope cookieHeader with
      | .error _ => s.moveRequest id .refused used
      | .ok subject => s.moveRequest id (.bound ⟨generation, subject⟩) used

/-- The handler: the bound generation resolves the model of the payload. -/
def resolveStep (id : Nat) (context : RequestContext) (payload : Json) : RuntimeState :=
  let generation := context.generation
  let used := [Reading.publicModels generation.models generation.autoModel]
  match resolvePublicRequest payload (some generation) with
  | .error _ => s.moveRequest id .refused used
  | .ok resolved => s.moveRequest id (.resolved context resolved) used

/-- The gate and the downstream of a generation. -/
def transactionReadings (generation : GatewayGeneration) : List Reading :=
  [.gate generation.transaction.gate, .downstream generation.downstream]

/-- `current_generation.get() or self._runtime.current()`. -/
def currentService (bound : Option GatewayGeneration) : Option GatewayGeneration :=
  bound.or s.current

/-- A request that only prepares: `/v1/prepare`, or a tool of the MCP server. -/
def prepareStep (id : Nat) (context : RequestContext) : RuntimeState :=
  match s.currentService (some context.generation) with
  | none => s.moveRequest id .refused []
  | some generation => s.moveRequest id (.invoked context) [.gate generation.gate]

/-- The next state. -/
def apply : RuntimeEvent → RuntimeState
  | .read id facts =>
      match s.loads id with
      | .idle =>
          match R.candidate facts with
          | .error error => s.moveLoad id (.raised error)
          | .ok snapshot => s.moveLoad id (.candidate snapshot)
      | _ => s
  | .check id =>
      match s.loads id with
      | .candidate snapshot =>
          match VerifiedSnapshotRuntime.checkVersion s.current snapshot with
          | .error error => s.moveLoad id (.raised error)
          | .ok () => s.moveLoad id (.checked snapshot)
      | _ => s
  | .build id fault =>
      match s.loads id with
      | .checked snapshot =>
          match R.buildGeneration snapshot fault with
          | .error error => s.moveLoad id (.raised error)
          | .ok generation => s.moveLoad id (.built snapshot generation)
      | _ => s
  | .install id =>
      match s.loads id with
      | .built snapshot generation => s.installStep id snapshot generation
      | _ => s
  | .authenticate id now authorization requiredScope cookieHeader =>
      match s.requests id with
      | .idle => s.authenticateStep R id now authorization requiredScope cookieHeader
      | _ => s
  | .resolve id payload =>
      match s.requests id with
      | .bound context => s.resolveStep id context payload
      | _ => s
  | .invoke id =>
      match s.requests id with
      | .resolved context _ =>
          s.moveRequest id (.invoked context) (transactionReadings context.generation)
      | _ => s
  | .prepare id =>
      match s.requests id with
      | .bound context => s.prepareStep id context
      | _ => s

/-- The state after a run. -/
def run (events : List RuntimeEvent) : RuntimeState := events.foldl (apply · R) start

end RuntimeState

/-- The context variables that a request is bound to. -/
def RequestPhase.context? : RequestPhase → Option RequestContext
  | .idle => none
  | .refused => none
  | .bound context => some context
  | .resolved context _ => some context
  | .invoked context => some context

/-- The components of a generation. -/
def GatewayGeneration.components (generation : GatewayGeneration) : List Reading :=
  [.authenticator generation.credentialVerifier,
    .publicModels generation.models generation.autoModel, .gate generation.gate,
    .gate generation.transaction.gate, .downstream generation.downstream]

/-- A component that is derived from a snapshot. -/
def Reading.From (F : GatewayTransactionFactory) (snapshot : SignedSnapshot) : Reading → Prop
  | .authenticator verifier =>
      SnapshotCredentialVerifier.build F.reader snapshot.body F.pepper = some verifier
  | .publicModels models autoModel =>
      models = Generation.publicModels snapshot.body ∧
        autoModel = Generation.autoModel snapshot.body
  | .gate g =>
      RuntimeSnapshot.capabilityRegistryFromSnapshot F.reader snapshot.body = some g.registry
  | .downstream d => d.snapshot = snapshot.body

/-- Every component of a generation is derived from the snapshot it was built from. -/
theorem GatewayTransactionFactory.from_of_build {F : GatewayTransactionFactory}
    {snapshot : SignedSnapshot} {generation : GatewayGeneration}
    (h : F.build snapshot = some generation) :
    ∀ r ∈ generation.components, r.From F snapshot := by
  obtain ⟨gate, verifier, hgate, hverifier, rfl⟩ := build_eq_some h
  obtain ⟨registry, hregistry, rfl⟩ := Option.map_eq_some_iff.mp hgate
  simp only [GatewayGeneration.components, List.forall_mem_cons]
  exact ⟨hverifier, ⟨rfl, rfl⟩, hregistry, hregistry, rfl, nofun⟩

namespace RuntimeState

/-- What one event can do. -/
inductive Step (R : VerifiedSnapshotRuntime) (s : RuntimeState) (e : RuntimeEvent) :
    RuntimeState → Prop
  | stay : Step R s e s
  | load (id : Nat) (phase : LoadPhase)
      (before : ∀ generation, s.loads id ≠ .installed generation)
      (after : ∀ generation, phase ≠ .installed generation)
      (built : ∀ snapshot generation, phase = .built snapshot generation →
        R.factory.build snapshot = some generation) :
      Step R s e (s.moveLoad id phase)
  | install (id : Nat) (snapshot : SignedSnapshot) (generation : GatewayGeneration)
      (event : e = .install id) (built : s.loads id = .built snapshot generation)
      (newer : ∀ old ∈ s.current, old.version < snapshot.version) :
      Step R s e (s.installed id snapshot generation)
  | enter (id : Nat) (generation : GatewayGeneration) (phase : RequestPhase)
      (before : s.requests id = .idle) (current : s.current = some generation)
      (after : ∀ context ∈ phase.context?, context.generation = generation)
      (leaves : phase ≠ .idle) :
      Step R s e (s.moveRequest id phase [.authenticator generation.credentialVerifier])
  | refuse (id : Nat) : Step R s e (s.moveRequest id .refused [])
  | use (id : Nat) (context : RequestContext) (phase : RequestPhase) (used : List Reading)
      (before : (s.requests id).context? = some context)
      (after : ∀ context' ∈ phase.context?, context' = context) (leaves : phase ≠ .idle)
      (components : ∀ r ∈ used, r ∈ context.generation.components) :
      Step R s e (s.moveRequest id phase used)

variable {R : VerifiedSnapshotRuntime}

theorem step_authenticate (s : RuntimeState) {id : Nat} (hidle : s.requests id = .idle)
    (now : Datetime) (authorization : Option Str) (requiredScope : Str)
    (cookieHeader : Option Str) (e : RuntimeEvent) :
    Step R s e (s.authenticateStep R id now authorization requiredScope cookieHeader) := by
  unfold authenticateStep
  cases hcurrent : s.current with
  | none => exact .refuse id
  | some generation =>
      simp only
      split
      · exact .enter id generation _ hidle hcurrent nofun nofun
      · refine .enter id generation _ hidle hcurrent ?_ nofun
        rintro context ⟨⟩
        rfl

theorem step_resolve (s : RuntimeState) {id : Nat} {context : RequestContext}
    (hbound : s.requests id = .bound context) (payload : Json) (e : RuntimeEvent) :
    Step R s e (s.resolveStep id context payload) := by
  have hbefore : (s.requests id).context? = some context := by
    rw [hbound]
    rfl
  have hused : ∀ r ∈ [Reading.publicModels context.generation.models
      context.generation.autoModel], r ∈ context.generation.components := by
    simp [GatewayGeneration.components]
  unfold resolveStep
  simp only
  split
  · exact .use id context _ _ hbefore nofun nofun hused
  · refine .use id context _ _ hbefore ?_ nofun hused
    rintro context' ⟨⟩
    rfl

theorem step_install (s : RuntimeState) {id : Nat} {snapshot : SignedSnapshot}
    {generation : GatewayGeneration} (hbuilt : s.loads id = .built snapshot generation) :
    Step R s (.install id) (s.installStep id snapshot generation) := by
  unfold installStep
  cases hcheck : VerifiedSnapshotRuntime.checkVersion s.current snapshot with
  | error error =>
      refine .load id _ ?_ nofun nofun
      intro g
      rw [hbuilt]
      exact nofun
  | ok u =>
      exact .install id snapshot generation rfl hbuilt
        (VerifiedSnapshotRuntime.checkVersion_eq_ok.mp hcheck)

/-- Every event makes such a step. -/
theorem step_apply (s : RuntimeState) (e : RuntimeEvent) : Step R s e (s.apply R e) := by
  have hother {id : Nat} {phase : LoadPhase} (hphase : s.loads id = phase)
      (h : ∀ generation, phase ≠ .installed generation) :
      ∀ generation, s.loads id ≠ .installed generation := by
    rw [hphase]
    exact h
  unfold apply
  split
  · split
    · rename_i hidle
      split
      · exact .load _ _ (hother hidle nofun) nofun nofun
      · exact .load _ _ (hother hidle nofun) nofun nofun
    · exact .stay
  · split
    · rename_i snapshot hcandidate
      split
      · exact .load _ _ (hother hcandidate nofun) nofun nofun
      · exact .load _ _ (hother hcandidate nofun) nofun nofun
    · exact .stay
  · split
    · rename_i fault _ snapshot hchecked
      split
      · exact .load _ _ (hother hchecked nofun) nofun nofun
      · rename_i generation hbuild
        refine .load _ _ (hother hchecked nofun) nofun ?_
        rintro _ _ ⟨⟩
        exact (R.buildGeneration_eq_ok.mp hbuild).2
    · exact .stay
  · split
    · rename_i hbuilt
      exact step_install s hbuilt
    · exact .stay
  · split
    · rename_i hidle
      exact step_authenticate s hidle ..
    · exact .stay
  · split
    · rename_i hbound
      exact step_resolve s hbound ..
    · exact .stay
  · split
    · rename_i context payload hresolved
      refine .use _ context _ _ ?_ ?_ nofun ?_
      · rw [hresolved]
        rfl
      · rintro context' ⟨⟩
        rfl
      · simp [transactionReadings, GatewayGeneration.components]
    · exact .stay
  · split
    · rename_i context hbound
      refine .use _ context _ _ ?_ ?_ nofun ?_
      · rw [hbound]
        rfl
      · rintro context' ⟨⟩
        rfl
      · simp [GatewayGeneration.components]
    · exact .stay

/-- Only an install changes the current generation. -/
theorem Step.changes {s s' : RuntimeState} {e : RuntimeEvent} (h : Step R s e s') :
    s'.current = s.current ∨ ∃ i : Install, e = .install i.load ∧
      s'.loads i.load = .installed i.generation ∧ s'.current = some i.generation := by
  cases h with
  | stay | load | refuse | enter | use => exact .inl rfl
  | install id snapshot generation event built newer =>
      exact .inr ⟨⟨id, snapshot, generation⟩, event, Function.update_self .., rfl⟩

/-- What holds in every state of a run. -/
structure Invariant (R : VerifiedSnapshotRuntime) (s : RuntimeState) : Prop where
  current : s.current = s.installs.getLast?.map Install.generation
  built : ∀ i ∈ s.installs, R.factory.build i.snapshot = some i.generation
  increasing : (s.installs.map fun i => i.snapshot.version).Pairwise (· < ·)
  owner : ∀ i ∈ s.installs, s.loads i.load = .installed i.generation
  ready : ∀ id snapshot generation, s.loads id = .built snapshot generation →
    R.factory.build snapshot = some generation
  idle : ∀ id, s.requests id = .idle → s.readings id = []
  bound : ∀ id context, (s.requests id).context? = some context →
    ∃ i ∈ s.installs, i.generation = context.generation ∧
      ∀ r ∈ s.readings id, r.From R.factory i.snapshot
  derived : ∀ id, s.readings id ≠ [] →
    ∃ i ∈ s.installs, ∀ r ∈ s.readings id, r.From R.factory i.snapshot

theorem invariant_start : Invariant R start where
  current := rfl
  built := nofun
  increasing := .nil
  owner := nofun
  ready := nofun
  idle _ _ := rfl
  bound := nofun
  derived _ h := absurd rfl h

namespace Invariant

variable {s : RuntimeState} (h : Invariant R s)
include h

/-- A load moves between two phases, neither of them the last. -/
theorem moveLoad {id : Nat} {phase : LoadPhase}
    (before : ∀ generation, s.loads id ≠ .installed generation)
    (built : ∀ snapshot generation, phase = .built snapshot generation →
      R.factory.build snapshot = some generation) : Invariant R (s.moveLoad id phase) where
  current := h.current
  built := h.built
  increasing := h.increasing
  owner i hi := by
    have howner := h.owner i hi
    have hne : i.load ≠ id := by
      rintro rfl
      exact before _ howner
    exact (Function.update_of_ne hne _ _).trans howner
  ready id' snapshot generation hphase := by
    by_cases hid : id' = id
    · subst hid
      exact built snapshot generation ((Function.update_self _ _ _).symm.trans hphase)
    · exact h.ready id' snapshot generation ((Function.update_of_ne hid _ _).symm.trans hphase)
  idle := h.idle
  bound := h.bound
  derived := h.derived

/-- The versions stay in order when a newer one is installed. -/
theorem increasing_append {snapshot : SignedSnapshot} {id : Nat}
    {generation : GatewayGeneration} (newer : ∀ old ∈ s.current, old.version < snapshot.version) :
    ((s.installs ++ [Install.mk id snapshot generation]).map
      fun i => i.snapshot.version).Pairwise (· < ·) := by
  rw [List.map_append, ← List.isChain_iff_pairwise, List.isChain_append,
    List.isChain_iff_pairwise]
  refine ⟨h.increasing, List.isChain_singleton _, ?_⟩
  intro version hversion version' hversion'
  rw [List.getLast?_map] at hversion
  obtain ⟨last, hlast, rfl⟩ := Option.map_eq_some_iff.mp hversion
  obtain rfl : snapshot.version = version' := Option.some.inj hversion'
  have hcurrent : s.current = some last.generation := by rw [h.current, hlast]; rfl
  have hbuilt := h.built last (List.mem_of_getLast? hlast)
  rw [← R.factory.version_of_build hbuilt]
  exact newer _ hcurrent

theorem installed {id : Nat} {snapshot : SignedSnapshot} {generation : GatewayGeneration}
    (built : s.loads id = .built snapshot generation)
    (newer : ∀ old ∈ s.current, old.version < snapshot.version) :
    Invariant R (s.installed id snapshot generation) where
  current := by
    change some generation = _
    rw [RuntimeState.installed, List.getLast?_append]
    rfl
  built := by
    refine List.forall_mem_append.mpr ⟨h.built, ?_⟩
    rw [List.forall_mem_singleton]
    exact h.ready id snapshot generation built
  increasing := h.increasing_append newer
  owner := by
    refine List.forall_mem_append.mpr ⟨fun i hi => ?_, ?_⟩
    · have howner := h.owner i hi
      have hne : i.load ≠ id := by
        rintro rfl
        rw [built] at howner
        cases howner
      exact (Function.update_of_ne hne _ _).trans howner
    · rw [List.forall_mem_singleton]
      exact Function.update_self ..
  ready id' snapshot' generation' hphase := by
    by_cases hid : id' = id
    · subst hid
      cases (Function.update_self _ _ _).symm.trans hphase
    · exact h.ready id' _ _ ((Function.update_of_ne hid _ _).symm.trans hphase)
  idle := h.idle
  bound id' context hcontext := by
    obtain ⟨i, hi, hbound⟩ := h.bound id' context hcontext
    exact ⟨i, List.mem_append_left _ hi, hbound⟩
  derived id' hne := by
    obtain ⟨i, hi, hfrom⟩ := h.derived id' hne
    exact ⟨i, List.mem_append_left _ hi, hfrom⟩

/-- A request moves on after using components of the generation of one install. -/
theorem moveRequest {id : Nat} {phase : RequestPhase} {used : List Reading} {i : Install}
    (hi : i ∈ s.installs) (leaves : phase ≠ .idle)
    (after : ∀ context ∈ phase.context?, i.generation = context.generation)
    (hfrom : ∀ r ∈ s.readings id ++ used, r.From R.factory i.snapshot) :
    Invariant R (s.moveRequest id phase used) where
  current := h.current
  built := h.built
  increasing := h.increasing
  owner := h.owner
  ready := h.ready
  idle id' hphase := by
    by_cases hid : id' = id
    · subst hid
      exact absurd ((Function.update_self _ _ _).symm.trans hphase) leaves
    · exact (Function.update_of_ne hid _ _).trans
        (h.idle id' ((Function.update_of_ne hid _ _).symm.trans hphase))
  bound id' context hcontext := by
    simp only [RuntimeState.moveRequest] at hcontext ⊢
    by_cases hid : id' = id
    · subst hid
      rw [Function.update_self] at hcontext ⊢
      exact ⟨i, hi, after context hcontext, hfrom⟩
    · rw [Function.update_of_ne hid] at hcontext ⊢
      exact h.bound id' context hcontext
  derived id' hne := by
    simp only [RuntimeState.moveRequest] at hne ⊢
    by_cases hid : id' = id
    · subst hid
      rw [Function.update_self]
      exact ⟨i, hi, hfrom⟩
    · rw [Function.update_of_ne hid] at hne ⊢
      exact h.derived id' hne

/-- A request is refused before it has used anything more. -/
theorem refuse (id : Nat) : Invariant R (s.moveRequest id .refused []) where
  current := h.current
  built := h.built
  increasing := h.increasing
  owner := h.owner
  ready := h.ready
  idle id' hphase := by
    by_cases hid : id' = id
    · subst hid
      cases (Function.update_self _ _ _).symm.trans hphase
    · exact (Function.update_of_ne hid _ _).trans
        (h.idle id' ((Function.update_of_ne hid _ _).symm.trans hphase))
  bound id' context hcontext := by
    simp only [RuntimeState.moveRequest, List.append_nil, Function.update_eq_self] at hcontext ⊢
    by_cases hid : id' = id
    · subst hid
      rw [Function.update_self] at hcontext
      cases hcontext
    · rw [Function.update_of_ne hid] at hcontext
      exact h.bound id' context hcontext
  derived := by
    simp only [RuntimeState.moveRequest, List.append_nil, Function.update_eq_self]
    exact h.derived

theorem step {e : RuntimeEvent} {s' : RuntimeState} (hstep : Step R s e s') :
    Invariant R s' := by
  cases hstep with
  | stay => exact h
  | load id phase before after built => exact h.moveLoad before built
  | install id snapshot generation event built newer => exact h.installed built newer
  | refuse id => exact h.refuse id
  | enter id generation phase before current after leaves =>
      have hlast := h.current
      rw [current] at hlast
      obtain ⟨i, hi, rfl⟩ := Option.map_eq_some_iff.mp hlast.symm
      have hmem := List.mem_of_getLast? hi
      refine h.moveRequest hmem leaves (fun context hc => (after context hc).symm) ?_
      rw [h.idle id before, List.nil_append, List.forall_mem_singleton]
      exact R.factory.from_of_build (h.built i hmem) _ List.mem_cons_self
  | use id context phase used before after leaves components =>
      obtain ⟨i, hi, hgeneration, hfrom⟩ := h.bound id context before
      refine h.moveRequest hi leaves ?_ (List.forall_mem_append.mpr ⟨hfrom, ?_⟩)
      · intro context' hcontext'
        rw [after context' hcontext', hgeneration]
      · intro r hr
        have hcomponent := components r hr
        rw [← hgeneration] at hcomponent
        exact R.factory.from_of_build (h.built i hi) r hcomponent

end Invariant

theorem invariant_run (events : List RuntimeEvent) : Invariant R (run R events) := by
  induction events using List.reverseRecOn with
  | nil => exact invariant_start
  | append_singleton events e ih =>
      rw [run, List.foldl_append]
      exact ih.step (step_apply _ e)

/-- The runtime is coherent: installed versions increase, only an install changes the
current generation, a load that has raised has installed nothing, and all the components
that a request has used are derived from one installed snapshot. -/
structure Coherent (R : VerifiedSnapshotRuntime) (s : RuntimeState) : Prop where
  increasing : (s.installs.map fun i => i.generation.version).Pairwise (· < ·)
  current : s.current = s.installs.getLast?.map Install.generation
  changes : ∀ e, (s.apply R e).current = s.current ∨
    ∃ i : Install, e = .install i.load ∧ (s.apply R e).loads i.load = .installed i.generation ∧
      (s.apply R e).current = some i.generation
  raised : ∀ id error, s.loads id = .raised error → ∀ i ∈ s.installs, i.load ≠ id
  requests : ∀ id, s.readings id ≠ [] →
    ∃ i ∈ s.installs, ∀ r ∈ s.readings id, r.From R.factory i.snapshot

/-- In every order of the steps of loads and requests the runtime is coherent. -/
theorem run_coherent (R : VerifiedSnapshotRuntime) (events : List RuntimeEvent) :
    Coherent R (run R events) := by
  have h : Invariant R (run R events) := invariant_run events
  refine ⟨?_, h.current, ?_, ?_, h.derived⟩
  · have hversions : (run R events).installs.map (fun i => i.generation.version) =
        (run R events).installs.map fun i => i.snapshot.version :=
      List.map_congr_left fun i hi => R.factory.version_of_build (h.built i hi)
    rw [hversions]
    exact h.increasing
  · exact fun e => (step_apply _ e).changes
  · intro id error hraised i hi hload
    have howner := h.owner i hi
    rw [hload, hraised] at howner
    cases howner

end RuntimeState

end MediaBridge.Gateway
