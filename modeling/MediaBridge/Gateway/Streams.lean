import MediaBridge.Core.ChatFraming
import MediaBridge.Foundation.Sse
import MediaBridge.Gateway.Transaction

/-!
# Streaming responses

What a client is sent while a provider streams: the wrapper of
`media_bridge_gateway/transaction.py` that records the follow-up state when the provider
has finished, below either the wrapper of the responses route or the translation of the
chat route in `media_bridge_gateway/app.py`.

## Implementation notes

A `Body` is the stack of generators between two of its steps. A step asks the provider
for a chunk, or hands the next item to the client. A client may leave, and a request may
be cancelled, after any number of steps; the generators then only close the provider's
stream, so that a run that is left is a run that makes no more steps.
-/

namespace MediaBridge.Gateway

open Foundation MediaBridge.Core ChatStream

/-- The two routes that stream. -/
inductive Route
  | responses
  | chat
deriving DecidableEq

/-- How the provider's stream ends. -/
inductive SourceEnd
  | ended
  | downstreamError (code safeMessage : Str)
  | otherError
deriving DecidableEq

/-- A provider's stream. -/
structure Source where
  chunks : List Bytes
  ending : SourceEnd

/-- An exception that leaves the body of a response. -/
inductive BodyError
  | downstream (code safeMessage : Str)
  | other
  | translation (e : StreamError)
deriving DecidableEq

/-- What is handed to the client at once. -/
inductive Item
  | raw (data : Bytes)
  | frame (frame : Frame)
  | errorEvent (code safeMessage : Str)
deriving DecidableEq

/-- What happens when everything that is ready has been handed over. -/
inductive After
  | pull (state : Translator)
  | returned
  | raised (e : BodyError)
deriving DecidableEq

/-- The generators of a response body. `waiting` is what is ready for the client and
`sent` what it has; `exhausted` says that the provider's stream has come to its end. -/
structure Body where
  route : Route
  rest : List Bytes
  ending : SourceEnd
  entry : StateEntry
  waiting : List Item
  after : After
  sent : List Item
  exhausted : Bool
  commits : Nat

namespace Body

/-- A body that nothing has asked for yet. -/
def start (route : Route) (source : Source) (entry : StateEntry) : Body where
  route := route
  rest := source.chunks
  ending := source.ending
  entry := entry
  waiting := []
  after := .pull .fresh
  sent := []
  exhausted := false
  commits := 0

/-- `_record_state`; its `ValueError` is suppressed. -/
def recordState (b : Body) : Body :=
  { b with commits := if GatewayStateStore.entryValid b.entry then b.commits + 1 else b.commits }

/-- A chunk of the provider arrives. -/
def receive (P : Platform) (b : Body) (state : Translator) (raw : Bytes) (rest : List Bytes) :
    Body :=
  match b.route with
  | .responses => { b with rest := rest, waiting := [.raw raw] }
  | .chat =>
      match feed P state raw with
      | (frames, .pull state) =>
          { b with rest := rest, waiting := frames.map .frame, after := .pull state }
      | (frames, .finished) =>
          { b with rest := rest, waiting := frames.map .frame, after := .returned }
      | (frames, .raised e) =>
          { b with rest := rest, waiting := frames.map .frame, after := .raised (.translation e) }

/-- The provider's stream comes to its end. -/
def sourceEnds (b : Body) (state : Translator) : Body :=
  let b := { b with exhausted := true }
  match b.ending, b.route with
  | .ended, .responses => { b.recordState with after := .returned }
  | .ended, .chat =>
      { b.recordState with waiting := (closing state.emittedRole).map .frame, after := .returned }
  | .downstreamError code safeMessage, .responses =>
      { b with waiting := [.errorEvent code safeMessage], after := .returned }
  | .downstreamError code safeMessage, .chat =>
      { b with after := .raised (.downstream code safeMessage) }
  | .otherError, _ => { b with after := .raised .other }

/-- One step of the generators. -/
def step (P : Platform) (b : Body) : Body :=
  match b.waiting with
  | item :: waiting => { b with waiting := waiting, sent := b.sent ++ [item] }
  | [] =>
      match b.after with
      | .pull state =>
          match b.rest with
          | raw :: rest => b.receive P state raw rest
          | [] => b.sourceEnds state
      | .returned => b
      | .raised _ => b

/-- The body after a number of steps. -/
def run (P : Platform) (b : Body) (n : Nat) : Body := (step P)^[n] b

/-- The client has everything it will get. -/
def Drained (b : Body) : Prop := b.waiting = [] ∧ ∀ state, b.after ≠ .pull state

/-- The body has returned, without an exception. -/
def Returned (b : Body) : Prop := b.waiting = [] ∧ b.after = .returned

variable {P : Platform} {b : Body}

theorem Returned.drained (h : b.Returned) : b.Drained := by
  refine ⟨h.1, ?_⟩
  rw [h.2]
  exact nofun

/-- Nothing happens after the end. -/
theorem Drained.step_eq (h : b.Drained) : b.step P = b := by
  unfold step
  rw [h.1]
  simp only
  split
  · rename_i state hafter
    exact absurd hafter (h.2 state)
  · rfl
  · rfl

theorem run_succ (b : Body) (n : Nat) : b.run P (n + 1) = (b.step P).run P n :=
  Function.iterate_succ_apply ..

theorem run_add (b : Body) (m n : Nat) : b.run P (m + n) = (b.run P n).run P m :=
  Function.iterate_add_apply ..

theorem Drained.run_eq (h : b.Drained) (n : Nat) : b.run P n = b :=
  Function.iterate_fixed h.step_eq n

/-- All runs that are drained end alike. -/
theorem run_eq_of_drained {m n : Nat} (hm : (b.run P m).Drained) (hn : (b.run P n).Drained) :
    b.run P m = b.run P n := by
  rcases Nat.le_total m n with h | h
  · obtain ⟨k, rfl⟩ := Nat.exists_eq_add_of_le' h
    rw [run_add, hm.run_eq]
  · obtain ⟨k, rfl⟩ := Nat.exists_eq_add_of_le' h
    rw [run_add, hn.run_eq]

/-- What a step keeps, a run keeps. -/
theorem run_induction {I : Body → Prop} (hstep : ∀ b, I b → I (b.step P)) (hb : I b) (n : Nat) :
    I (b.run P n) := by
  induction n generalizing b with
  | zero => exact hb
  | succ n ih =>
      rw [run_succ]
      exact ih (hstep b hb)

/-- Handing over what is ready takes one step for each item. -/
theorem run_waiting (P : Platform) (b : Body) :
    b.run P b.waiting.length = { b with waiting := [], sent := b.sent ++ b.waiting } := by
  obtain ⟨route, rest, ending, entry, waiting, after, sent, exhausted, commits⟩ := b
  induction waiting generalizing sent with
  | nil => simp [run]
  | cons item waiting ih =>
      simp only at ih
      simp only [List.length_cons, run_succ]
      refine (ih (sent ++ [item])).trans ?_
      simp

section Invariants

/-- A record is made only at the normal end of the provider's stream, and once. -/
structure Sparing (b : Body) : Prop where
  ended : b.commits ≠ 0 → b.exhausted = true ∧ b.ending = .ended
  once : b.commits ≤ 1
  pulling : ∀ state, b.after = .pull state → b.exhausted = false

theorem Sparing.step {b : Body} (h : b.Sparing) : (b.step P).Sparing := by
  have hzero (hpull : b.exhausted = false) : b.commits = 0 := by
    by_contra hne
    have := (h.ended hne).1
    rw [hpull] at this
    cases this
  unfold Body.step
  split
  · exact ⟨h.ended, h.once, h.pulling⟩
  · split
    · rename_i state hafter
      have hcommits := hzero (h.pulling state hafter)
      split
      · unfold receive
        split
        · exact ⟨h.ended, h.once, h.pulling⟩
        · split
          · exact ⟨h.ended, h.once, fun _ _ => h.pulling state hafter⟩
          · exact ⟨h.ended, h.once, nofun⟩
          · exact ⟨h.ended, h.once, nofun⟩
      · unfold sourceEnds recordState
        simp only
        split
        · rename_i hending _
          refine ⟨fun _ => ⟨rfl, hending⟩, ?_, nofun⟩
          simp only [hcommits]
          split <;> omega
        · rename_i hending _
          refine ⟨fun _ => ⟨rfl, hending⟩, ?_, nofun⟩
          simp only [hcommits]
          split <;> omega
        · exact ⟨fun hne => absurd hcommits hne, h.once, nofun⟩
        · exact ⟨fun hne => absurd hcommits hne, h.once, nofun⟩
        · exact ⟨fun hne => absurd hcommits hne, h.once, nofun⟩
    · exact h
    · exact h

theorem sparing_start (route : Route) (source : Source) (entry : StateEntry) :
    (start route source entry).Sparing :=
  ⟨fun h => absurd rfl h, Nat.zero_le _, fun _ _ => rfl⟩

/-- The source and the route of a body do not change. -/
theorem step_fixed (b : Body) :
    (b.step P).route = b.route ∧ (b.step P).ending = b.ending ∧ (b.step P).entry = b.entry := by
  unfold step
  split
  · exact ⟨rfl, rfl, rfl⟩
  · split
    · split
      · unfold receive
        split
        · exact ⟨rfl, rfl, rfl⟩
        · split <;> exact ⟨rfl, rfl, rfl⟩
      · unfold sourceEnds recordState
        simp only
        split <;> exact ⟨rfl, rfl, rfl⟩
    · exact ⟨rfl, rfl, rfl⟩
    · exact ⟨rfl, rfl, rfl⟩

theorem run_fixed (b : Body) (n : Nat) :
    (b.run P n).route = b.route ∧ (b.run P n).ending = b.ending ∧
      (b.run P n).entry = b.entry := by
  apply run_induction (I := fun c =>
    c.route = b.route ∧ c.ending = b.ending ∧ c.entry = b.entry)
  · rintro c ⟨hroute, hending, hentry⟩
    obtain ⟨h1, h2, h3⟩ := step_fixed (P := P) c
    exact ⟨h1.trans hroute, h2.trans hending, h3.trans hentry⟩
  · exact ⟨rfl, rfl, rfl⟩

/-- On the chat route only frames are sent. -/
structure FramesOnly (b : Body) : Prop where
  route : b.route = .chat
  waiting : ∀ item ∈ b.waiting, ∃ frame, item = .frame frame
  sent : ∀ item ∈ b.sent, ∃ frame, item = .frame frame

theorem FramesOnly.step {b : Body} (h : b.FramesOnly) : (b.step P).FramesOnly := by
  have hmap (frames : List Frame) :
      ∀ item ∈ frames.map Item.frame, ∃ frame, item = .frame frame := by
    intro item hitem
    obtain ⟨frame, -, rfl⟩ := List.mem_map.mp hitem
    exact ⟨frame, rfl⟩
  unfold Body.step
  split
  · rename_i item waiting hwaiting
    have hall := h.waiting
    rw [hwaiting, List.forall_mem_cons] at hall
    refine ⟨h.route, hall.2, ?_⟩
    rw [List.forall_mem_append, List.forall_mem_singleton]
    exact ⟨h.sent, hall.1⟩
  · rename_i hwaiting
    split
    · split
      · unfold receive
        rw [h.route]
        simp only
        split <;> exact ⟨rfl, hmap _, h.sent⟩
      · unfold sourceEnds recordState
        simp only [h.route]
        split
        · rename_i hroute
          cases hroute
        · exact ⟨rfl, hmap _, h.sent⟩
        · rename_i hroute
          cases hroute
        · exact ⟨rfl, h.waiting, h.sent⟩
        · exact ⟨rfl, h.waiting, h.sent⟩
    · exact h
    · exact h

theorem framesOnly_start (source : Source) (entry : StateEntry) :
    (start .chat source entry).FramesOnly :=
  ⟨rfl, nofun, nofun⟩

end Invariants

end Body

end MediaBridge.Gateway
