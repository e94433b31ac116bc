import MediaBridge.Core.InteropV2
import MediaBridge.Core.MediaReference
import MediaBridge.Foundation.Raise

/-!
# The external wire of interop v2

`build_external_provider_messages` of `media_bridge_gateway/hops.py`, and what it lets through
after a decision of the router.

## Implementation notes

The guard looks at the keys of a message. A media reference is what `_contains_media_reference`
finds, at any depth.
-/

namespace MediaBridge.Gateway

open Foundation MediaBridge.Core

/-- A `HopGuardError`. -/
inductive HopGuardError
  | unauthorized
  | mediaRemains
deriving DecidableEq

/-- The message of the error. -/
def HopGuardError.message : HopGuardError → String
  | .unauthorized => "result is not authorized for provider execution"
  | .mediaRemains => "original media reference remains in provider wire"

namespace Hops

/-- The keys of a message that the guard refuses. -/
def guardedKeys : List String := ["image", "image_url", "file_data", "asset_id"]

/-- One of the refused keys is in the message. -/
def guarded (message : InteropMessage) : Bool :=
  guardedKeys.any fun key => Entries.has message (lit key)

/-- The keys that are left out besides those of the media bridge. -/
def internalKeys : List String := ["provenance", "prepared_marker", "transformations"]

/-- A key that the provider sees. -/
def external (key : Str) : Bool :=
  !Str.startsWith key (lit "_media_bridge") && !internalKeys.any fun k => decide (key = lit k)

/-- A message as the provider sees it. -/
def externalMessage (message : InteropMessage) : InteropMessage :=
  message.filter fun e => external e.1

/-- The loop over the messages. -/
def externalMessages : List InteropMessage → Except HopGuardError (List InteropMessage)
  | [] => .ok []
  | message :: rest =>
      if guarded message then .error .mediaRemains
      else do
        let messages ← externalMessages rest
        return externalMessage message :: messages

/-- `build_external_provider_messages`. -/
def buildExternalProviderMessages (result : InteropV2Result) :
    Except HopGuardError (List InteropMessage) :=
  if providerCallAllowed result then externalMessages result.sanitizedMessages
  else .error .unauthorized

variable (U : UnicodeData)

/-- The law of the boundary: what may be sent to a target without vision is refused, or holds no
media reference at any depth. -/
def KeepsMediaOut (now : Datetime) (transform : InteropV2Request → Option InteropV2Result)
    (request : InteropV2Request) : Prop :=
  ∀ decision, V2ResponsibilityRouter.prepare now transform request = .ok decision →
    decision.providerCallAllowed = true →
    Json.field request.target.capabilities "vision" ≠ .bool true →
    ∀ messages, buildExternalProviderMessages decision.result = .ok messages →
      ∀ message ∈ messages, ¬ MediaReference.HoldsReference U (.obj message)

/-- A message without a media reference: not of a media type, without a locator of a file, and
with no reference at any depth under a key that the provider sees. -/
structure Free (message : InteropMessage) : Prop where
  unmarked : (MediaReference.markedByType message || MediaReference.namesLocator message) = false
  values : ∀ e ∈ message, external e.1 = true → ¬ MediaReference.HoldsReference U e.2

/-- Messages that the guard refuses, or that are all free. -/
def Safe (messages : List InteropMessage) : Prop :=
  (∃ message ∈ messages, guarded message = true) ∨ ∀ message ∈ messages, Free U message

/-- The router may allow a call for a target without vision: it is known to have none, and is
fresh if the host manages it. -/
def WithoutVision (now : Datetime) (request : InteropV2Request) : Prop :=
  Json.field request.target.capabilities "vision" = .bool false ∧
    (request.mode.isHostManaged = true → request.target.isFresh now = some true)

/-- What the request, or the transformed result, has to be. -/
def Boundary (now : Datetime) (transform : InteropV2Request → Option InteropV2Result)
    (request : InteropV2Request) : Prop :=
  WithoutVision now request →
    if request.assets.isEmpty then Safe U request.canonicalMessages
    else ∀ result ∈ transform request, providerCallAllowed result = true →
      Safe U result.sanitizedMessages

variable {U}

/-- Leaving out internal keys changes no mark of a message. -/
theorem marked_externalMessage (message : InteropMessage) :
    (MediaReference.markedByType (externalMessage message) ||
        MediaReference.namesLocator (externalMessage message)) =
      (MediaReference.markedByType message || MediaReference.namesLocator message) := by
  apply MediaReference.marked_eq_of_get?
  intro key hkey
  have hexternal : ∀ key ∈ "type" :: MediaReference.locatorKeys, external (lit key) = true := by
    decide
  rw [externalMessage, Entries.get?_filter, if_pos (hexternal key hkey)]

/-- A message is seen without a reference exactly when it is free. -/
theorem not_holds_externalMessage_iff {message : InteropMessage} :
    ¬ MediaReference.HoldsReference U (.obj (externalMessage message)) ↔ Free U message := by
  have hmarks := marked_externalMessage message
  constructor
  · intro hno
    constructor
    · rw [← hmarks, Bool.eq_false_iff]
      intro hmarked
      rcases Bool.or_eq_true_iff.mp hmarked with htype | hlocator
      · exact hno (.marked htype)
      · exact hno (.locator hlocator)
    · intro e he hexternal hholds
      exact hno (.value (List.mem_filter.mpr ⟨he, hexternal⟩) hholds)
  · intro hfree hholds
    rw [hfree.unmarked, Bool.or_eq_false_iff] at hmarks
    cases hholds with
    | marked htype => exact absurd htype (by rw [hmarks.1]; exact Bool.false_ne_true)
    | locator hlocator => exact absurd hlocator (by rw [hmarks.2]; exact Bool.false_ne_true)
    | value he hvalue =>
        obtain ⟨hmem, hexternal⟩ := List.mem_filter.mp he
        exact hfree.values _ hmem hexternal hvalue

/-- The loop ends without an error when no message is refused. -/
theorem externalMessages_eq_ok_iff {messages out : List InteropMessage} :
    externalMessages messages = .ok out ↔
      (∀ message ∈ messages, guarded message = false) ∧ out = messages.map externalMessage := by
  induction messages generalizing out with
  | nil =>
      constructor
      · intro h
        cases h
        exact ⟨nofun, rfl⟩
      · rintro ⟨-, rfl⟩
        rfl
  | cons message rest ih =>
      rw [externalMessages, List.forall_mem_cons]
      cases hguarded : guarded message with
      | true => exact iff_of_false nofun fun h => Bool.false_ne_true h.1.1.symm
      | false =>
          rw [if_neg Bool.false_ne_true, and_iff_right rfl]
          constructor
          · intro h
            obtain ⟨tail, htail, h⟩ := ok_of_bind h
            obtain ⟨hrest, rfl⟩ := ih.mp htail
            cases h
            exact ⟨hrest, rfl⟩
          · rintro ⟨hrest, rfl⟩
            rw [ih.mpr ⟨hrest, rfl⟩]
            rfl

/-- What is sent holds no reference exactly when the messages are safe. -/
theorem safe_iff {messages : List InteropMessage} :
    (∀ out, externalMessages messages = .ok out →
      ∀ message ∈ out, ¬ MediaReference.HoldsReference U (.obj message)) ↔
    Safe U messages := by
  by_cases hguarded : ∃ message ∈ messages, guarded message = true
  · refine iff_of_true (fun out hout => ?_) (.inl hguarded)
    obtain ⟨message, hmem, htrue⟩ := hguarded
    have hfalse := (externalMessages_eq_ok_iff.mp hout).1 message hmem
    exact absurd htrue (by rw [hfalse]; exact Bool.false_ne_true)
  · have hall : ∀ message ∈ messages, guarded message = false := by
      intro message hmem
      rw [Bool.eq_false_iff]
      exact fun htrue => hguarded ⟨message, hmem, htrue⟩
    rw [Safe, or_iff_right hguarded]
    constructor
    · intro h message hmem
      exact not_holds_externalMessage_iff.mp
        (h _ (externalMessages_eq_ok_iff.mpr ⟨hall, rfl⟩) _ (List.mem_map_of_mem hmem))
    · intro hfree out hout message hmem
      rw [(externalMessages_eq_ok_iff.mp hout).2] at hmem
      obtain ⟨original, horiginal, rfl⟩ := List.mem_map.mp hmem
      exact not_holds_externalMessage_iff.mpr (hfree original horiginal)

variable {now : Datetime} {transform : InteropV2Request → Option InteropV2Result}
  {request : InteropV2Request} {decision : V2RouteDecision}

variable (transform) in
/-- A request for a target without vision: its messages are passed on, or transformed. -/
theorem prepare_of_withoutVision (h : WithoutVision now request) :
    V2ResponsibilityRouter.prepare now transform request =
      if request.assets.isEmpty then
        .ok (V2ResponsibilityRouter.unchanged request [] (Nat.zero_le _))
      else
        match transform request with
        | some result => .ok ⟨result, providerCallAllowed result, true⟩
        | none => .error .transform := by
  obtain ⟨hvision, hfresh⟩ := h
  unfold V2ResponsibilityRouter.prepare
  rw [hvision]
  cases hmode : request.mode.isHostManaged with
  | false => rfl
  | true =>
      simp only [hfresh hmode, if_true]
      rfl

/-- Only a request for a target without vision is passed on. -/
theorem withoutVision_of_allowed
    (h : V2ResponsibilityRouter.prepare now transform request = .ok decision)
    (hallowed : decision.providerCallAllowed = true)
    (hvision : Json.field request.target.capabilities "vision" ≠ .bool true) :
    WithoutVision now request := by
  unfold V2ResponsibilityRouter.prepare at h
  split at h
  · rename_i vision heq
    cases vision with
    | true => exact absurd heq hvision
    | false =>
        refine ⟨heq, fun hmode => ?_⟩
        rw [hmode] at h
        cases hfresh : request.target.isFresh now with
        | none =>
            rw [hfresh] at h
            cases h
        | some fresh =>
            cases fresh with
            | true => rfl
            | false =>
                rw [hfresh] at h
                cases h
                cases hallowed
  · cases h
    cases hallowed

/-- What the provider would see of a result that may be sent. -/
theorem build_of_allowed {result : InteropV2Result} (h : providerCallAllowed result = true) :
    buildExternalProviderMessages result = externalMessages result.sanitizedMessages :=
  if_pos h

variable (U now transform request) in
/-- The boundary holds exactly when what passes it is refused by the guard or free of
references. -/
theorem keepsMediaOut_iff :
    KeepsMediaOut U now transform request ↔ Boundary U now transform request := by
  constructor
  · intro h hwithout
    have hprepare := prepare_of_withoutVision transform hwithout
    have hvision : Json.field request.target.capabilities "vision" ≠ .bool true := by
      rw [hwithout.1]
      exact nofun
    cases hassets : request.assets.isEmpty with
    | true =>
        rw [hassets] at hprepare
        rw [if_pos rfl, ← safe_iff]
        exact fun out hout => h _ hprepare rfl hvision out hout
    | false =>
        rw [if_neg Bool.false_ne_true]
        intro result hresult hallowed
        rw [hassets, if_neg Bool.false_ne_true, hresult] at hprepare
        rw [← safe_iff]
        intro out hout
        exact h _ hprepare hallowed hvision out ((build_of_allowed hallowed).trans hout)
  · intro h decision hprepare hallowed hvision messages hbuild
    have hwithout := withoutVision_of_allowed hprepare hallowed hvision
    have hboundary := h hwithout
    rw [prepare_of_withoutVision transform hwithout] at hprepare
    cases hassets : request.assets.isEmpty with
    | true =>
        rw [hassets, if_pos rfl] at hprepare hboundary
        cases hprepare
        exact safe_iff.mpr hboundary messages hbuild
    | false =>
        rw [hassets, if_neg Bool.false_ne_true] at hprepare hboundary
        cases hresult : transform request with
        | none =>
            rw [hresult] at hprepare
            cases hprepare
        | some result =>
            rw [hresult] at hprepare
            cases hprepare
            rw [build_of_allowed hallowed] at hbuild
            exact safe_iff.mpr (hboundary result hresult hallowed) messages hbuild

/-- An identifier, for concrete requests. -/
def sampleId : OpaqueId := ⟨lit "request", by decide, by decide, rfl⟩

/-- A message whose content holds an image one level down. -/
def nestedMessage : InteropMessage :=
  [(lit "role", .str (lit "user")),
    (lit "content", .arr [.obj [(lit "type", .str (lit "input_image")),
      (lit "image_url", .str (lit "https://example.test/a.png"))]])]

/-- A request without declared assets for a target without vision. -/
def nestedRequest : InteropV2Request where
  requestId := sampleId
  traceId := sampleId
  idempotencyKey := sampleId
  mode := .standalone
  canonicalMessages := [nestedMessage]
  target := ⟨[(lit "vision", .bool false)], ⟨0, some 0⟩⟩
  messages_range := by decide
  assets_length := by decide

/-- The image below the top level is sent. -/
theorem not_keepsMediaOut : ¬ ∀ U now transform request, KeepsMediaOut U now transform request := by
  intro hall
  have hsent := hall (UnicodeData.ascii id) ⟨0, some 0⟩ (fun _ => none) nestedRequest _ rfl rfl
    nofun [nestedMessage] rfl nestedMessage (List.mem_singleton_self _)
  exact hsent (.value (e := (_, _)) (List.mem_cons_of_mem _ (List.mem_singleton_self _))
    (.item (List.mem_singleton_self _) (.marked rfl)))

end Hops

end MediaBridge.Gateway
