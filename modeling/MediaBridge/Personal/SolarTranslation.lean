import MediaBridge.Foundation.FirstFailure
import MediaBridge.Personal.RunnableSettings

/-!
# Payloads that the Solar adapter carries

Which sealed payloads `SolarResponsesDownstream.invoke` translates whole or refuses with its own
error.

## Implementation notes

What a payload says is a relation on its JSON values that does not mention the code; the readers of
the adapter are then shown to compute it. The adapter has no place for any other option, so an
option is lost in every request that is small enough to be sent.
-/

namespace MediaBridge.Personal

open Foundation MediaBridge.Core Gateway

section Meaning

/-- The text of a part of a message. -/
inductive PartMeans : Json → Str → Prop
  | text {part : Entries Str Json} {text : Str} :
      (Json.field part "type" = .str (lit "input_text") ∨
        Json.field part "type" = .str (lit "output_text")) →
      Json.field part "text" = .str text → text.strip ≠ [] → PartMeans (.obj part) text.strip

/-- The text of the content of a message. -/
inductive ContentMeans : Json → Str → Prop
  | text {text : Str} : text.strip ≠ [] → ContentMeans (.str text) text.strip
  | parts {parts : List Json} {texts : List Str} : parts ≠ [] →
      List.Forall₂ PartMeans parts texts → ContentMeans (.arr parts) (Str.join (lit "\n") texts)

def messageRoles : List String := ["user", "assistant", "system", "developer"]

/-- The role under which a message is sent. -/
def sentRole (role : String) : Str := if role = "developer" then lit "system" else lit role

/-- An item of the input is a message. -/
def IsMessage (item : Entries Str Json) : Prop :=
  Entries.get? item (lit "type") = none ∨
    Entries.get? item (lit "type") = some (.str (lit "message"))

/-- The message of an item of the input. -/
inductive ItemMeans : Json → ChatMessage → Prop
  | message {item : Entries Str Json} {role : String} {text : Str} : IsMessage item →
      role ∈ messageRoles → Json.field item "role" = .str (lit role) →
      ContentMeans (Json.field item "content") text → ItemMeans (.obj item) (sentRole role, text)

/-- The messages of the instructions. -/
inductive InstructionsMean : Json → List ChatMessage → Prop
  | absent : InstructionsMean .null []
  | blank {text : Str} : text.strip = [] → InstructionsMean (.str text) []
  | text {text : Str} : text.strip ≠ [] →
      InstructionsMean (.str text) [(lit "system", text.strip)]

/-- The messages of the input. -/
inductive InputMeans : Json → List ChatMessage → Prop
  | text {text : Str} : text.strip ≠ [] → InputMeans (.str text) [(lit "user", text.strip)]
  | items {items : List Json} {messages : List ChatMessage} :
      List.Forall₂ ItemMeans items messages → InputMeans (.arr items) messages

/-- The messages of a payload, in order. -/
def ConversationMeans (payload : Entries Str Json) (messages : List ChatMessage) : Prop :=
  ∃ instructions input, InstructionsMean (Json.field payload "instructions") instructions ∧
    InputMeans (Json.field payload "input") input ∧ messages = instructions ++ input ∧
    messages ≠ []

/-- The definition of a tool. -/
structure FunctionTool where
  name : Str
  parameters : Entries Str Json
  description : Option Str
  strict : Option Bool

/-- A tool as a chat has it. -/
def FunctionTool.sent (tool : FunctionTool) : Json :=
  .obj [(lit "type", .str (lit "function")),
    (lit "function", .obj ([(lit "name", .str tool.name),
      (lit "parameters", .obj tool.parameters)] ++
        ((tool.description.map fun s => (lit "description", Json.str s)).toList ++
          (tool.strict.map fun b => (lit "strict", Json.bool b)).toList)))]

/-- The definition that a dictionary gives. -/
structure FunctionMeans (source : Entries Str Json) (tool : FunctionTool) : Prop where
  name : Json.field source "name" = .str tool.name
  filled : tool.name.strip ≠ []
  parameters : Json.field source "parameters" = .obj tool.parameters
  description : Json.field source "description" = (tool.description.map Json.str).getD .null
  described : ∀ s ∈ tool.description, s.strip ≠ []
  strict : Entries.get? source (lit "strict") = tool.strict.map Json.bool

/-- A tool is defined by itself or by the dictionary it has. -/
inductive ToolMeans : Json → FunctionTool → Prop
  | function {fields : Entries Str Json} {tool : FunctionTool} :
      Json.field fields "type" = .str (lit "function") →
      FunctionMeans ((Json.field fields "function").obj?.getD fields) tool →
      ToolMeans (.obj fields) tool

/-- The tools of a payload, in order. -/
inductive ToolsMean : Json → Option (List FunctionTool) → Prop
  | absent : ToolsMean .null none
  | tools {items : List Json} {tools : List FunctionTool} : List.Forall₂ ToolMeans items tools →
      ToolsMean (.arr items) (some tools)

/-- What the adapter reads of a payload or writes itself. -/
def ownKeys : List String :=
  ["model", "input", "instructions", "stream", "tools", "tool_choice", "messages",
    "reasoning_effort"]

/-- Every other entry that is set is an option. -/
def payloadOptions (payload : Entries Str Json) : Entries Str Json :=
  payload.filter fun e => !(ownKeys.any fun key => decide (lit key = e.1)) && !e.2.isNull

/-- An item or a tool cannot be read, or there is nothing to send. -/
def Unreadable (payload : Entries Str Json) : Prop :=
  (¬ ∃ messages, ConversationMeans payload messages) ∨
    ¬ ∃ tools, ToolsMean (Json.field payload "tools") tools

/-- An item, a tool or an option cannot be carried. -/
def Uncarriable (payload : Entries Str Json) : Prop :=
  Unreadable payload ∨ payloadOptions payload ≠ []

end Meaning

section Readers

theorem isOneOf_true_iff {v : Json} {names : List String} :
    isOneOf v names = .ok true ↔ ∃ name ∈ names, v = .str (lit name) := by
  unfold isOneOf
  split
  · rw [Except.ok.injEq, List.any_eq_true]
    simp only [Json.isLit_iff]
  · next h =>
      constructor
      · intro h
        cases h
      · rintro ⟨name, -, rfl⟩
        exact absurd rfl h

theorem isOneOf_error_iff {v : Json} {names : List String} {e : RequestStop} :
    isOneOf v names = .error e ↔ v.hashable = false ∧ e = .raised := by
  unfold isOneOf
  split
  · next h =>
      constructor
      · intro h
        cases h
      · rintro ⟨hfalse, -⟩
        rw [h] at hfalse
        cases hfalse
  · next h =>
      rw [Bool.not_eq_true] at h
      constructor
      · intro heq
        cases heq
        exact ⟨h, rfl⟩
      · rintro ⟨-, rfl⟩
        rfl

/-- The errors of the readers. -/
inductive ReadError : RequestStop → Prop
  | raised : ReadError .raised
  | guard (message : String) : ReadError (.guard message)

/-- The type of a part is a list or a dictionary. -/
def UnhashablePart : Json → Prop
  | .obj part => (Json.field part "type").hashable = false
  | _ => False

theorem partText_eq_ok_iff {part : Json} {text : Str} :
    partText part = .ok text ↔ PartMeans part text := by
  constructor
  · intro h
    unfold partText at h
    split at h
    · next part =>
        obtain ⟨known, hknown, h⟩ := ok_of_bind h
        cases known with
        | false => cases h
        | true =>
            simp only [not_true_eq_false, if_false] at h
            have hkind := isOneOf_true_iff.mp hknown
            simp only [List.mem_cons, List.not_mem_nil, or_false, exists_eq_or_imp,
              exists_eq_left] at hkind
            cases htext : Json.field part "text" with
            | str s =>
                rw [htext] at h
                simp only [Json.str?, Option.getD_some] at h
                split at h
                · cases h
                · next hfilled =>
                    cases h
                    exact .text hkind htext hfilled
            | null => rw [htext] at h; cases h
            | bool b => rw [htext] at h; cases h
            | int n => rw [htext] at h; cases h
            | float b => rw [htext] at h; cases h
            | arr items => rw [htext] at h; cases h
            | obj fields => rw [htext] at h; cases h
    · cases h
  · rintro @⟨part, text, hkind, htext, hfilled⟩
    have hknown : isOneOf (Json.field part "type") ["input_text", "output_text"] = .ok true := by
      rw [isOneOf_true_iff]
      rcases hkind with h | h
      · exact ⟨"input_text", by simp, h⟩
      · exact ⟨"output_text", by simp, h⟩
    rw [partText]
    refine bind_ok_iff.mpr ⟨true, hknown, ?_⟩
    rw [htext]
    simp only [not_true_eq_false, if_false, Json.str?, Option.getD_some]

theorem partText_error {part : Json} {e : RequestStop} (h : partText part = .error e) :
    ReadError e := by
  unfold partText at h
  split at h
  · rcases bind_error_iff.mp h with h | ⟨known, -, h⟩
    · obtain ⟨-, rfl⟩ := isOneOf_error_iff.mp h
      exact .raised
    · cases known with
      | false =>
          cases h
          exact .guard _
      | true =>
          simp only [not_true_eq_false, if_false] at h
          split at h
          · cases h
            exact .guard _
          · cases h
  · cases h
    exact .guard _

theorem partText_raised_iff {part : Json} :
    partText part = .error .raised ↔ UnhashablePart part := by
  constructor
  · intro h
    unfold partText at h
    split at h
    · rcases bind_error_iff.mp h with h | ⟨known, -, h⟩
      · exact (isOneOf_error_iff.mp h).1
      · cases known with
        | false => cases h
        | true =>
            simp only [not_true_eq_false, if_false] at h
            split at h
            · cases h
            · cases h
    · cases h
  · intro h
    cases part with
    | obj part => exact bind_error_iff.mpr (.inl (isOneOf_error_iff.mpr ⟨h, rfl⟩))
    | null => exact h.elim
    | bool b => exact h.elim
    | int n => exact h.elim
    | float b => exact h.elim
    | str s => exact h.elim
    | arr items => exact h.elim

/-- The first part that cannot be read has no hash. -/
def UnhashableContent (content : Json) : Prop :=
  ∃ parts, content = .arr parts ∧
    FirstIs (fun part => ∃ text, PartMeans part text) UnhashablePart parts

theorem firstIs_partText {parts : List Json} :
    parts.mapM partText = .error .raised ↔
      FirstIs (fun part => ∃ text, PartMeans part text) UnhashablePart parts :=
  mapM_error_iff.trans (FirstIs.congr (fun _ => exists_congr fun _ => partText_eq_ok_iff)
    fun _ => partText_raised_iff)

theorem textContent_eq_ok_iff {content : Json} {text : Str} :
    textContent content = .ok text ↔ ContentMeans content text := by
  constructor
  · intro h
    unfold textContent at h
    split at h
    · split at h
      · cases h
      · next hfilled =>
          cases h
          exact .text hfilled
    · cases h
    · next parts hne =>
        obtain ⟨texts, htexts, rfl⟩ := map_eq_ok_iff.mp h
        refine .parts hne ((mapM_ok_iff_forall₂.mp htexts).imp fun _ _ => partText_eq_ok_iff.mp)
    · cases h
  · intro h
    cases h with
    | text hfilled => rw [textContent, if_neg hfilled]
    | @parts parts texts hne htexts =>
        have hparts : parts.mapM partText = .ok texts :=
          mapM_ok_iff_forall₂.mpr (htexts.imp fun _ _ => partText_eq_ok_iff.mpr)
        cases parts with
        | nil => exact absurd rfl hne
        | cons part parts =>
            rw [textContent, hparts]
            · rfl
            · exact hne

theorem textContent_error {content : Json} {e : RequestStop} (h : textContent content = .error e) :
    ReadError e := by
  unfold textContent at h
  split at h
  · split at h
    · cases h
      exact .guard _
    · cases h
  · cases h
    exact .guard _
  · obtain ⟨_, part, _, -, -, hpart⟩ := mapM_error_iff.mp (map_error_iff.mp h)
    exact partText_error hpart
  · cases h
    exact .guard _

theorem textContent_raised_iff {content : Json} :
    textContent content = .error .raised ↔ UnhashableContent content := by
  constructor
  · intro h
    unfold textContent at h
    split at h
    · split at h
      · cases h
      · cases h
    · cases h
    · next parts _ => exact ⟨parts, rfl, firstIs_partText.mp (map_error_iff.mp h)⟩
    · cases h
  · rintro ⟨parts, rfl, hfirst⟩
    have hparts := firstIs_partText.mpr hfirst
    cases parts with
    | nil => cases hparts
    | cons part parts =>
        rw [textContent, hparts]
        · rfl
        · exact List.cons_ne_nil _ _

end Readers

section Conversation

/-- The role of a message has no hash, or its content is the first to have none. -/
def UnhashableItem : Json → Prop
  | .obj item => IsMessage item ∧ ((Json.field item "role").hashable = false ∨
      (∃ role ∈ messageRoles, Json.field item "role" = .str (lit role)) ∧
        UnhashableContent (Json.field item "content"))
  | _ => False

theorem isMessage_iff {item : Entries Str Json} :
    ((Entries.get? item (lit "type")).getD (.str (lit "message"))).isLit "message" = true ↔
      IsMessage item := by
  rw [Json.isLit_iff, IsMessage]
  cases Entries.get? item (lit "type") with
  | none => exact iff_of_true rfl (.inl rfl)
  | some v => simp

/-- The role that is sent is that of the message. -/
theorem sentRole_eq {role : String} (h : role ∈ messageRoles) :
    (if (Json.str (lit role)).isLit "developer" then lit "system"
      else (Json.str (lit role)).str?.getD []) = sentRole role := by
  have hall : ∀ role ∈ messageRoles, (if (Json.str (lit role)).isLit "developer" then lit "system"
      else (Json.str (lit role)).str?.getD []) = sentRole role := by decide
  exact hall role h

theorem itemMessage_eq_ok_iff {item : Json} {message : ChatMessage} :
    itemMessage item = .ok message ↔ ItemMeans item message := by
  constructor
  · intro h
    unfold itemMessage at h
    split at h
    · next item =>
        split at h
        · cases h
        · next htype =>
            obtain ⟨known, hknown, h⟩ := ok_of_bind h
            cases known with
            | false => cases h
            | true =>
                obtain ⟨role, hrole, heq⟩ := isOneOf_true_iff.mp hknown
                simp only [not_true_eq_false, if_false] at h
                obtain ⟨text, htext, h⟩ := ok_of_bind h
                rw [heq, sentRole_eq hrole] at h
                cases h
                exact .message (isMessage_iff.mp (not_not.mp htype)) hrole heq
                  (textContent_eq_ok_iff.mp htext)
    · cases h
  · intro h
    cases h with
    | @message item role text htype hrole heq htext =>
        have hknown : isOneOf (Json.field item "role")
            ["user", "assistant", "system", "developer"] = .ok true :=
          isOneOf_true_iff.mpr ⟨role, hrole, heq⟩
        rw [itemMessage, if_neg (not_not_intro (isMessage_iff.mpr htype))]
        refine bind_ok_iff.mpr ⟨true, hknown, ?_⟩
        simp only [not_true_eq_false, if_false]
        refine bind_ok_iff.mpr ⟨text, textContent_eq_ok_iff.mpr htext, ?_⟩
        rw [heq, sentRole_eq hrole]
        rfl

theorem itemMessage_error {item : Json} {e : RequestStop} (h : itemMessage item = .error e) :
    ReadError e := by
  unfold itemMessage at h
  split at h
  · split at h
    · cases h
      exact .guard _
    · rcases bind_error_iff.mp h with h | ⟨known, -, h⟩
      · obtain ⟨-, rfl⟩ := isOneOf_error_iff.mp h
        exact .raised
      · cases known with
        | false =>
            cases h
            exact .guard _
        | true =>
            simp only [not_true_eq_false, if_false] at h
            rcases bind_error_iff.mp h with h | ⟨text, -, h⟩
            · exact textContent_error h
            · cases h
  · cases h
    exact .guard _

theorem itemMessage_raised_iff {item : Json} :
    itemMessage item = .error .raised ↔ UnhashableItem item := by
  constructor
  · intro h
    unfold itemMessage at h
    split at h
    · split at h
      · cases h
      · next htype =>
          refine ⟨isMessage_iff.mp (not_not.mp htype), ?_⟩
          rcases bind_error_iff.mp h with h | ⟨known, hknown, h⟩
          · exact .inl (isOneOf_error_iff.mp h).1
          · cases known with
            | false => cases h
            | true =>
                simp only [not_true_eq_false, if_false] at h
                refine .inr ⟨isOneOf_true_iff.mp hknown, ?_⟩
                rcases bind_error_iff.mp h with h | ⟨text, -, h⟩
                · exact textContent_raised_iff.mp h
                · cases h
    · cases h
  · intro h
    cases item with
    | obj item =>
        obtain ⟨htype, h⟩ := h
        rw [itemMessage, if_neg (not_not_intro (isMessage_iff.mpr htype))]
        rcases h with hrole | ⟨hrole, hcontent⟩
        · exact bind_error_iff.mpr (.inl (isOneOf_error_iff.mpr ⟨hrole, rfl⟩))
        · refine bind_error_iff.mpr (.inr ⟨true, isOneOf_true_iff.mpr hrole, ?_⟩)
          simp only [not_true_eq_false, if_false]
          exact bind_error_iff.mpr (.inl (textContent_raised_iff.mpr hcontent))
    | null => exact h.elim
    | bool b => exact h.elim
    | int n => exact h.elim
    | float b => exact h.elim
    | str s => exact h.elim
    | arr items => exact h.elim

theorem instructionMessages_eq_ok_iff {payload : Entries Str Json} {messages : List ChatMessage} :
    instructionMessages payload = .ok messages ↔
      InstructionsMean (Json.field payload "instructions") messages := by
  unfold instructionMessages
  constructor
  · intro h
    split at h
    · next heq =>
        cases h
        rw [heq]
        exact .absent
    · next text heq =>
        cases h
        rw [heq]
        split
        · next hblank => exact .blank hblank
        · next hfilled => exact .text hfilled
    · cases h
  · intro h
    generalize Json.field payload "instructions" = instructions at h
    cases h with
    | absent => rfl
    | blank hblank => simp only [if_pos hblank]
    | text hfilled => simp only [if_neg hfilled]

theorem instructionMessages_error {payload : Entries Str Json} {e : RequestStop}
    (h : instructionMessages payload = .error e) : ∃ message, e = .guard message := by
  unfold instructionMessages at h
  split at h
  · cases h
  · cases h
  · cases h
    exact ⟨_, rfl⟩

/-- The first item that cannot be read has a role or a part without a hash. -/
def MeetsUnhashable (payload : Entries Str Json) : Prop :=
  (∃ messages, InstructionsMean (Json.field payload "instructions") messages) ∧
    ∃ items, Json.field payload "input" = .arr items ∧
      FirstIs (fun item => ∃ message, ItemMeans item message) UnhashableItem items

theorem inputMessages_eq_ok_iff {input : Json} {messages : List ChatMessage} :
    inputMessages input = .ok messages ↔ InputMeans input messages := by
  constructor
  · intro h
    unfold inputMessages at h
    split at h
    · obtain ⟨text, htext, rfl⟩ := map_eq_ok_iff.mp h
      cases textContent_eq_ok_iff.mp htext with
      | text hfilled => exact .text hfilled
    · exact .items ((mapM_ok_iff_forall₂.mp h).imp fun _ _ => itemMessage_eq_ok_iff.mp)
    · cases h
  · intro h
    cases h with
    | text hfilled =>
        exact map_eq_ok_iff.mpr ⟨_, textContent_eq_ok_iff.mpr (.text hfilled), rfl⟩
    | items hitems =>
        exact mapM_ok_iff_forall₂.mpr (hitems.imp fun _ _ => itemMessage_eq_ok_iff.mpr)

theorem inputMessages_error {input : Json} {e : RequestStop} (h : inputMessages input = .error e) :
    ReadError e := by
  unfold inputMessages at h
  split at h
  · exact textContent_error (map_error_iff.mp h)
  · obtain ⟨_, item, _, -, -, hitem⟩ := mapM_error_iff.mp h
    exact itemMessage_error hitem
  · cases h
    exact .guard _

theorem inputMessages_raised_iff {input : Json} :
    inputMessages input = .error .raised ↔ ∃ items, input = .arr items ∧
      FirstIs (fun item => ∃ message, ItemMeans item message) UnhashableItem items := by
  have hitems (items : List Json) : items.mapM itemMessage = .error .raised ↔
      FirstIs (fun item => ∃ message, ItemMeans item message) UnhashableItem items :=
    mapM_error_iff.trans (FirstIs.congr (fun _ => exists_congr fun _ => itemMessage_eq_ok_iff)
      fun _ => itemMessage_raised_iff)
  constructor
  · intro h
    unfold inputMessages at h
    split at h
    · obtain ⟨parts, heq, -⟩ := textContent_raised_iff.mp (map_error_iff.mp h)
      cases heq
    · next items => exact ⟨items, rfl, (hitems items).mp h⟩
    · cases h
  · rintro ⟨items, rfl, hfirst⟩
    exact (hitems items).mpr hfirst

/-- The messages that are read are those that the payload means. -/
theorem chatMessages_eq_ok_iff {payload : Entries Str Json} {messages : List ChatMessage} :
    chatMessages payload = .ok messages ↔ ConversationMeans payload messages := by
  constructor
  · intro h
    obtain ⟨instructions, hinstructions, h⟩ := ok_of_bind h
    obtain ⟨input, hinput, h⟩ := ok_of_bind h
    refine ⟨instructions, input, instructionMessages_eq_ok_iff.mp hinstructions,
      inputMessages_eq_ok_iff.mp hinput, ?_⟩
    split at h
    · cases h
    · next hne =>
        cases h
        exact ⟨rfl, hne⟩
  · rintro ⟨instructions, input, hinstructions, hinput, rfl, hne⟩
    refine bind_ok_iff.mpr ⟨instructions, instructionMessages_eq_ok_iff.mpr hinstructions, ?_⟩
    refine bind_ok_iff.mpr ⟨input, inputMessages_eq_ok_iff.mpr hinput, ?_⟩
    split
    · next hempty => exact absurd hempty hne
    · rfl

theorem chatMessages_error {payload : Entries Str Json} {e : RequestStop}
    (h : chatMessages payload = .error e) : ReadError e := by
  rcases bind_error_iff.mp h with h | ⟨instructions, -, h⟩
  · obtain ⟨message, rfl⟩ := instructionMessages_error h
    exact .guard message
  · rcases bind_error_iff.mp h with h | ⟨input, -, h⟩
    · exact inputMessages_error h
    · split at h
      · cases h
        exact .guard _
      · cases h

theorem chatMessages_raised_iff {payload : Entries Str Json} :
    chatMessages payload = .error .raised ↔ MeetsUnhashable payload := by
  constructor
  · intro h
    rcases bind_error_iff.mp h with h | ⟨instructions, hinstructions, h⟩
    · obtain ⟨message, h⟩ := instructionMessages_error h
      cases h
    · refine ⟨⟨instructions, instructionMessages_eq_ok_iff.mp hinstructions⟩, ?_⟩
      rcases bind_error_iff.mp h with h | ⟨input, -, h⟩
      · exact inputMessages_raised_iff.mp h
      · split at h
        · cases h
        · cases h
  · rintro ⟨⟨instructions, hinstructions⟩, hinput⟩
    refine bind_error_iff.mpr
      (.inr ⟨instructions, instructionMessages_eq_ok_iff.mpr hinstructions, ?_⟩)
    exact bind_error_iff.mpr (.inl (inputMessages_raised_iff.mpr hinput))

end Conversation

section Tools

/-- The description of a tool. -/
def descriptionEntry : Json → Except RequestStop (Entries Str Json)
  | .null => .ok []
  | .str s =>
      if s.strip = [] then .error (.guard "Responses function tool description is invalid")
      else .ok [(lit "description", .str s)]
  | _ => .error (.guard "Responses function tool description is invalid")

/-- The flag of a tool. -/
def strictEntry : Option Json → Except RequestStop (Entries Str Json)
  | none => .ok []
  | some (.bool b) => .ok [(lit "strict", .bool b)]
  | some _ => .error (.guard "Responses function tool strict flag is invalid")

theorem toolOptions_eq (source : Entries Str Json) :
    toolOptions source = (do
      let description ← descriptionEntry (Json.field source "description")
      let strict ← strictEntry (Entries.get? source (lit "strict"))
      return description ++ strict) := by
  have hstrict (description : Entries Str Json) :
      (match Entries.get? source (lit "strict") with
        | none => pure description
        | some (.bool b) => pure (description ++ [(lit "strict", .bool b)])
        | some _ => .error (.guard "Responses function tool strict flag is invalid")) =
      (do
        let strict ← strictEntry (Entries.get? source (lit "strict"))
        return description ++ strict : Except RequestStop (Entries Str Json)) := by
    cases Entries.get? source (lit "strict") with
    | none => exact congrArg Except.ok (List.append_nil _).symm
    | some v => cases v <;> rfl
  unfold toolOptions
  cases Json.field source "description" with
  | null => exact hstrict []
  | str s =>
      by_cases hblank : s.strip = []
      · simp only [descriptionEntry, if_pos hblank]
        rfl
      · simp only [descriptionEntry, if_neg hblank]
        exact hstrict _
  | bool b => rfl
  | int n => rfl
  | float b => rfl
  | arr items => rfl
  | obj fields => rfl

theorem descriptionEntry_eq_ok_iff {v : Json} {entries : Entries Str Json} :
    descriptionEntry v = .ok entries ↔ ∃ description : Option Str,
      v = (description.map Json.str).getD .null ∧ (∀ s ∈ description, s.strip ≠ []) ∧
        entries = (description.map fun s => (lit "description", Json.str s)).toList := by
  constructor
  · intro h
    unfold descriptionEntry at h
    split at h
    · cases h
      exact ⟨none, rfl, nofun, rfl⟩
    · next s =>
        split at h
        · cases h
        · next hfilled =>
            cases h
            refine ⟨some s, rfl, ?_, rfl⟩
            intro t ht
            cases ht
            exact hfilled
    · cases h
  · rintro ⟨description, rfl, hfilled, rfl⟩
    cases description with
    | none => rfl
    | some s => exact if_neg (hfilled s rfl)

theorem strictEntry_eq_ok_iff {v : Option Json} {entries : Entries Str Json} :
    strictEntry v = .ok entries ↔ ∃ strict : Option Bool, v = strict.map Json.bool ∧
      entries = (strict.map fun b => (lit "strict", Json.bool b)).toList := by
  constructor
  · intro h
    unfold strictEntry at h
    split at h
    · cases h
      exact ⟨none, rfl, rfl⟩
    · next b =>
        cases h
        exact ⟨some b, rfl, rfl⟩
    · cases h
  · rintro ⟨strict, rfl, rfl⟩
    cases strict <;> rfl

theorem toolOptions_error {source : Entries Str Json} {e : RequestStop}
    (h : toolOptions source = .error e) : ∃ message, e = .guard message := by
  rw [toolOptions_eq] at h
  rcases bind_error_iff.mp h with h | ⟨description, -, h⟩
  · unfold descriptionEntry at h
    split at h
    · cases h
    · split at h
      · cases h
        exact ⟨_, rfl⟩
      · cases h
    · cases h
      exact ⟨_, rfl⟩
  · rcases bind_error_iff.mp h with h | ⟨strict, -, h⟩
    · unfold strictEntry at h
      split at h
      · cases h
      · cases h
      · cases h
        exact ⟨_, rfl⟩
    · cases h

/-- A tool is sent as it is defined. -/
theorem chatTool_eq_ok_iff {item sent : Json} :
    chatTool item = .ok sent ↔ ∃ tool, ToolMeans item tool ∧ sent = tool.sent := by
  constructor
  · intro h
    unfold chatTool at h
    split at h
    · next fields =>
        split at h
        · cases h
        · next htype =>
            simp only at h
            split at h
            · next name parameters hname hparameters =>
                split at h
                · cases h
                · next hfilled =>
                    obtain ⟨options, hoptions, h⟩ := ok_of_bind h
                    rw [toolOptions_eq] at hoptions
                    obtain ⟨shown, hshown, hoptions⟩ := ok_of_bind hoptions
                    obtain ⟨flag, hflag, hoptions⟩ := ok_of_bind hoptions
                    obtain ⟨description, hdescription, hdescribed, rfl⟩ :=
                      descriptionEntry_eq_ok_iff.mp hshown
                    obtain ⟨strict, hstrict, rfl⟩ := strictEntry_eq_ok_iff.mp hflag
                    cases hoptions
                    cases h
                    refine ⟨⟨name, parameters, description, strict⟩, .function ?_ ?_, rfl⟩
                    · exact (Json.isLit_iff _ _).mp (not_not.mp htype)
                    · exact ⟨hname, hfilled, hparameters, hdescription, hdescribed, hstrict⟩
            · cases h
    · cases h
  · rintro ⟨tool, htool, rfl⟩
    cases htool with
    | @function fields _ htype hmeans =>
        have hoptions : toolOptions ((Json.field fields "function").obj?.getD fields) =
            .ok ((tool.description.map fun s => (lit "description", Json.str s)).toList ++
              (tool.strict.map fun b => (lit "strict", Json.bool b)).toList) := by
          rw [toolOptions_eq, descriptionEntry_eq_ok_iff.mpr
            ⟨tool.description, hmeans.description, hmeans.described, rfl⟩,
            strictEntry_eq_ok_iff.mpr ⟨tool.strict, hmeans.strict, rfl⟩]
          rfl
        rw [chatTool, if_neg (not_not_intro ((Json.isLit_iff _ _).mpr htype))]
        simp only [hmeans.name, hmeans.parameters, if_neg hmeans.filled, hoptions]
        rfl

theorem chatTool_error {item : Json} {e : RequestStop} (h : chatTool item = .error e) :
    ∃ message, e = .guard message := by
  unfold chatTool at h
  split at h
  · split at h
    · cases h
      exact ⟨_, rfl⟩
    · simp only at h
      split at h
      · split at h
        · cases h
          exact ⟨_, rfl⟩
        · rcases bind_error_iff.mp h with h | ⟨options, -, h⟩
          · exact toolOptions_error h
          · cases h
      · cases h
        exact ⟨_, rfl⟩
  · cases h
    exact ⟨_, rfl⟩

/-- The tools of a chat are those that the payload means. -/
theorem chatTools_eq_ok_iff {payload : Entries Str Json} {sent : Option (List Json)} :
    chatTools payload = .ok sent ↔ ∃ tools, ToolsMean (Json.field payload "tools") tools ∧
      sent = tools.map (List.map FunctionTool.sent) := by
  unfold chatTools
  constructor
  · intro h
    split at h
    · next heq =>
        cases h
        exact ⟨none, heq ▸ .absent, rfl⟩
    · next items heq =>
        obtain ⟨results, hresults, rfl⟩ := map_eq_ok_iff.mp h
        have hall := (mapM_ok_iff_forall₂.mp hresults).imp fun _ _ => chatTool_eq_ok_iff.mp
        obtain ⟨tools, htools, rfl⟩ : ∃ tools, List.Forall₂ ToolMeans items tools ∧
            results = tools.map FunctionTool.sent := by
          clear h hresults heq
          induction hall with
          | nil => exact ⟨[], .nil, rfl⟩
          | cons hitem _ ih =>
              obtain ⟨tool, htool, rfl⟩ := hitem
              obtain ⟨tools, htools, rfl⟩ := ih
              exact ⟨tool :: tools, .cons htool htools, rfl⟩
        exact ⟨some tools, heq ▸ .tools htools, rfl⟩
    · cases h
  · rintro ⟨tools, htools, rfl⟩
    generalize Json.field payload "tools" = given at htools
    cases htools with
    | absent => rfl
    | @tools items tools htools =>
        refine map_eq_ok_iff.mpr ⟨tools.map FunctionTool.sent, mapM_ok_iff_forall₂.mpr ?_, rfl⟩
        rw [List.forall₂_map_right_iff]
        exact htools.imp fun _ tool htool => chatTool_eq_ok_iff.mpr ⟨tool, htool, rfl⟩

theorem chatTools_error {payload : Entries Str Json} {e : RequestStop}
    (h : chatTools payload = .error e) : ∃ message, e = .guard message := by
  unfold chatTools at h
  split at h
  · cases h
  · obtain ⟨_, item, _, -, -, hitem⟩ := mapM_error_iff.mp (map_error_iff.mp h)
    exact chatTool_error hitem
  · cases h
    exact ⟨_, rfl⟩

end Tools

section Efforts

open LlmBackends

/-- Only a chat has efforts, and each is sent under its own name. -/
theorem exists_named_of_solar {casefold : Str → Str} {protocol model : Str}
    {capability : ReasoningCapability}
    (hfold : casefold (lit "upstage-solar") = lit "upstage-solar")
    (h : reasoningCapability casefold (lit "upstage-solar") protocol model = some capability) :
    protocol = lit "openai-chat-completions" ∧
      ∃ efforts, capability = .named "openai-chat" efforts := by
  have hstrip : Str.strip (lit "upstage-solar") = lit "upstage-solar" := by decide
  have hopenai : lit "upstage-solar" ≠ lit "openai" := by decide
  have hgemini : lit "upstage-solar" ≠ lit "gemini" := by decide
  have hanthropic : lit "upstage-solar" ≠ lit "anthropic" := by decide
  unfold reasoningCapability at h
  split at h
  · cases h
  · simp only [hstrip, hfold, hopenai, hgemini, hanthropic, false_and, if_false, true_and] at h
    split at h
    · next hprotocol =>
        obtain ⟨efforts, -, rfl⟩ := Option.map_eq_some_iff.mp h
        exact ⟨hprotocol, efforts, rfl⟩
    · cases h

theorem get?_named {wire : String} {efforts : List String} {effort : Str} {value : WireValue}
    (h : Entries.get? (ReasoningCapability.named wire efforts).wireValues effort = some value) :
    value = .text effort := by
  obtain ⟨name, -, heq⟩ := List.mem_map.mp (Entries.mem_of_get? h)
  cases heq
  rfl

/-- What the fields of an effort are, in a chat. -/
theorem effortFields_of_ok {I : Interpreter} {protocol model effort : Str}
    {fields : Entries Str Json} (hfold : I.casefold (lit "upstage-solar") = lit "upstage-solar")
    (hsupported : effortSupported I protocol model effort = true)
    (h : reasoningPayloadFields (reasoningCapability I.casefold (lit "upstage-solar") protocol
      model) effort = .ok fields) :
    effort = lit "provider_default" ∧ fields = [] ∨
      fields = [(lit "reasoning_effort", .str effort)] := by
  unfold effortSupported at hsupported
  unfold reasoningPayloadFields at h
  cases hcapability : reasoningCapability I.casefold (lit "upstage-solar") protocol model with
  | none =>
      rw [hcapability] at h hsupported
      cases h
      rw [Option.any_none, Bool.or_false, decide_eq_true_eq] at hsupported
      exact .inl ⟨hsupported, rfl⟩
  | some capability =>
      rw [hcapability] at h
      simp only at h
      obtain ⟨-, efforts, rfl⟩ := exists_named_of_solar hfold hcapability
      split at h
      · next hdefault =>
          cases h
          exact .inl ⟨hdefault, rfl⟩
      · split at h
        · cases h
        · next value hvalue =>
            cases h
            cases get?_named hvalue
            exact .inr rfl
        · next value hvalue => cases get?_named hvalue

theorem effort_default_of_responses {I : Interpreter} {protocol model effort : Str}
    (hfold : I.casefold (lit "upstage-solar") = lit "upstage-solar")
    (hsupported : effortSupported I protocol model effort = true)
    (hprotocol : protocol ≠ lit "openai-chat-completions") : effort = lit "provider_default" := by
  unfold effortSupported at hsupported
  cases hcapability : reasoningCapability I.casefold (lit "upstage-solar") protocol model with
  | none =>
      rw [hcapability, Option.any_none, Bool.or_false, decide_eq_true_eq] at hsupported
      exact hsupported
  | some capability => exact absurd (exists_named_of_solar hfold hcapability).1 hprotocol

end Efforts

section Bodies

variable {H : RuntimeHost} {downstream : SolarResponsesDownstream}
  {payload built : Entries Str Json} {messages : List ChatMessage}

/-- A request carries everything that its payload says. -/
structure Carried (downstream : SolarResponsesDownstream) (payload built : Entries Str Json) :
    Prop where
  messages : ∃ messages, ConversationMeans payload messages ∧
    if downstream.protocol = lit "openai-chat-completions" then
      Json.field built "messages" = .arr (messages.map chatMessage)
    else Json.field built "input" = .arr (messages.map responsesMessage)
  tools : ∃ tools, ToolsMean (Json.field payload "tools") tools ∧
    Entries.get? built (lit "tools") =
      if downstream.protocol = lit "openai-chat-completions" then
        tools.map fun tools => .arr (tools.map FunctionTool.sent)
      else Entries.get? payload (lit "tools")
  toolChoice : Entries.get? built (lit "tool_choice") = Entries.get? payload (lit "tool_choice")
  effort : downstream.effort = lit "provider_default" ∨
    Json.field built "reasoning_effort" = .str downstream.effort
  options : ∀ e ∈ payloadOptions payload, Entries.get? built e.1 = some e.2

theorem get?_copiedEntry (key : String) (k : Str) :
    Entries.get? (copiedEntry payload key) k =
      if lit key = k then Entries.get? payload (lit key) else none := by
  unfold copiedEntry
  cases Entries.get? payload (lit key) with
  | none => simp
  | some v => simp [Entries.get?_cons]

theorem get?_optional {v : Option Json} (key : String) (k : Str) :
    Entries.get? (v.map fun v => (lit key, v)).toList k = if lit key = k then v else none := by
  cases v with
  | none => simp
  | some v => simp [Entries.get?_cons]

theorem keys_reasoningPayloadFields {capability : Option ReasoningCapability} {effort k : Str}
    {fields : Entries Str Json} (h : reasoningPayloadFields capability effort = .ok fields)
    (hk : k ∈ Entries.keys fields) : k = lit "reasoning_effort" := by
  unfold reasoningPayloadFields at h
  split at h
  · cases h
    cases hk
  · split at h
    · cases h
      cases hk
    · split at h
      · cases h
      · cases h
        exact List.mem_singleton.mp hk
      · cases h
        exact List.mem_singleton.mp hk

/-- What follows the messages in the body of a chat. -/
theorem get?_chatBody {base fields : Entries Str Json} {k : Str} {tools : Option Json}
    (hbase : k ∉ Entries.keys base) (hfields : k ∉ Entries.keys fields) :
    Entries.get? (base ++ fields ++ (tools.map fun v => (lit "tools", v)).toList ++
      copiedEntry payload "tool_choice") k =
        (if lit "tools" = k then tools else none).or
          (if lit "tool_choice" = k then Entries.get? payload (lit "tool_choice") else none) := by
  rw [Entries.get?_append, Entries.get?_append, Entries.get?_append,
    Entries.get?_eq_none_iff.mpr hbase, Entries.get?_eq_none_iff.mpr hfields, get?_optional,
    get?_copiedEntry]
  rfl

/-- A request without options carries its payload. -/
theorem carried_of_built (hfold : H.interpreter.casefold (lit "upstage-solar") =
      lit "upstage-solar")
    (hsupported : effortSupported H.interpreter downstream.protocol downstream.model
      downstream.effort = true) {tools : Option (List FunctionTool)}
    (hmessages : ConversationMeans payload messages)
    (htools : ToolsMean (Json.field payload "tools") tools)
    (h : solarPayload H downstream payload messages (tools.map (List.map FunctionTool.sent)) =
      .ok built) (hoptions : payloadOptions payload = []) : Carried downstream payload built := by
  have hnone : ∀ e ∈ payloadOptions payload, Entries.get? built e.1 = some e.2 := by
    rw [hoptions]
    nofun
  unfold solarPayload at h
  split at h
  · next hprotocol =>
      obtain ⟨fields, hfields, h⟩ := ok_of_bind h
      have hkeys : ∀ k ∈ Entries.keys fields, k = lit "reasoning_effort" :=
        fun k => keys_reasoningPayloadFields hfields
      injection h with h
      have htail : (tools.map (List.map FunctionTool.sent)).map
          (fun items => (lit "tools", Json.arr items)) =
            (tools.map fun tools => Json.arr (tools.map FunctionTool.sent)).map
              fun v => (lit "tools", v) := by
        cases tools <;> rfl
      rw [htail] at h
      refine ⟨⟨messages, hmessages, ?_⟩, ⟨tools, htools, ?_⟩, ?_, ?_, hnone⟩
      · rw [if_pos hprotocol, ← h]
        rfl
      · rw [if_pos hprotocol, ← h, get?_chatBody (by
          change lit "tools" ∉ [lit "model", lit "messages", lit "stream"]
          decide) fun hk => absurd (hkeys _ hk) (by decide), if_pos rfl, if_neg (by decide),
          Option.or_none]
      · rw [← h, get?_chatBody (by
          change lit "tool_choice" ∉ [lit "model", lit "messages", lit "stream"]
          decide) fun hk => absurd (hkeys _ hk) (by decide), if_neg (by decide), if_pos rfl,
          Option.none_or]
      · rcases effortFields_of_ok hfold hsupported hfields with ⟨hdefault, -⟩ | rfl
        · exact .inl hdefault
        · refine .inr ?_
          rw [← h]
          rfl
  · next hprotocol =>
      injection h with h
      refine ⟨⟨messages, hmessages, ?_⟩, ⟨tools, htools, ?_⟩, ?_,
        .inl (effort_default_of_responses hfold hsupported hprotocol), hnone⟩
      · rw [if_neg hprotocol, ← h]
        rfl
      · rw [if_neg hprotocol, ← h, Entries.get?_append, Entries.get?_append,
          Entries.get?_eq_none_iff.mpr (by
            change lit "tools" ∉ [lit "model", lit "input", lit "stream"]
            decide), get?_copiedEntry, get?_copiedEntry, if_pos rfl, if_neg (by decide),
          Option.none_or, Option.or_none]
      · rw [← h, Entries.get?_append, Entries.get?_append,
          Entries.get?_eq_none_iff.mpr (by
            change lit "tool_choice" ∉ [lit "model", lit "input", lit "stream"]
            decide), get?_copiedEntry, get?_copiedEntry, if_neg (by decide), if_pos rfl,
          Option.none_or, Option.none_or]

end Bodies

section Search

variable {U : UnicodeData}

mutual

/-- The search for media raises, or answers. -/
theorem containsMedia_error : ∀ {n : Nat} {v : Json} {e : RequestStop},
    containsMedia U n v = .error e → e = .raised
  | 0, _, _, h => by
      rw [containsMedia] at h
      exact (Except.error.inj h).symm
  | n + 1, .arr items, _, h => by
      rw [containsMedia] at h
      exact anyItem_error h
  | n + 1, .obj fields, _, h => by
      rw [containsMedia] at h
      split at h
      · next hone =>
          cases h
          exact (isOneOf_error_iff.mp hone).2
      · cases h
      · exact anyValue_error h

theorem anyItem_error : ∀ {n : Nat} {items : List Json} {e : RequestStop},
    anyItem U n items = .error e → e = .raised
  | n, v :: rest, _, h => by
      rw [anyItem] at h
      split at h
      · exact anyItem_error h
      · exact containsMedia_error h

theorem anyValue_error : ∀ {n : Nat} {fields : List (Str × Json)} {e : RequestStop},
    anyValue U n fields = .error e → e = .raised
  | n, (k, v) :: rest, _, h => by
      rw [anyValue] at h
      split at h
      · exact anyValue_error h
      · exact containsMedia_error h

end

end Search

section Results

variable {H : RuntimeHost} {downstream : SolarResponsesDownstream} {credentials : PathContent}
  {signer : GateReceiptSigner} {stack : Nat} {now : ℚ} {sealed_ : SealedGatewayRequest}
  {messages : List ChatMessage} {tools : Option (List Json)}

/-- A request that is sent carries its payload, and a payload that cannot be carried is refused by
the guard. -/
def TranslatesOrRefuses (downstream : SolarResponsesDownstream) (payload : Entries Str Json)
    (result : Except RequestStop ProviderRequest) : Prop :=
  (∀ request, result = .ok request → Carried downstream payload request.payload) ∧
    (Uncarriable payload → ∃ message, result = .error (.guard message))

/-- The body of a payload is longer than the limit. -/
def OverLimit (H : RuntimeHost) (downstream : SolarResponsesDownstream)
    (payload : Entries Str Json) : Prop :=
  ∃ messages tools built content, chatMessages payload = .ok messages ∧
    chatTools payload = .ok tools ∧
    solarPayload H downstream payload messages tools = .ok built ∧
    encodedPayload H built = .ok content ∧ maxRequestBytes < content.length

/-- The search for media raises: before it finds any, it comes to a dictionary at any depth whose
type is a list or a dictionary, such as `["string", "null"]` in the schema of a tool, or to a value
that is nested too deep. -/
def SearchRaises (H : RuntimeHost) (stack : Nat) (payload : Entries Str Json) : Prop :=
  ∃ e, containsMedia H.interpreter.unicode stack (.obj payload) = .error e

/-- The payload is no text. -/
def HoldsMedia (H : RuntimeHost) (stack : Nat) (payload : Entries Str Json) : Prop :=
  containsMedia H.interpreter.unicode stack (.obj payload) = .ok true

/-- The search for media does not raise, unless all can be carried. In a text that it has passed no
item is refused for want of a hash, and there is no option, unless the payload is refused for an
item, a tool or its length. -/
structure CarriesAll (H : RuntimeHost) (downstream : SolarResponsesDownstream) (stack : Nat)
    (payload : Entries Str Json) : Prop where
  searched : SearchRaises H stack payload → ¬ Uncarriable payload
  hashed : ¬ SearchRaises H stack payload → ¬ HoldsMedia H stack payload →
    ¬ MeetsUnhashable payload
  optionless : ¬ SearchRaises H stack payload → ¬ HoldsMedia H stack payload →
    payloadOptions payload = [] ∨ Unreadable payload ∨ OverLimit H downstream payload

/-- A request that was sealed for the adapter: its digest, its receipt, its capability and its
target are what `_verify_seal` wants before it looks for media. -/
structure SealedFor (H : RuntimeHost) (downstream : SolarResponsesDownstream)
    (signer : GateReceiptSigner) (now : ℚ) (request : SealedGatewayRequest) : Prop where
  digest : sealedDigest H.interpreter.platform request.payload request.requestNonce =
    some request.outputDigest
  receipt : ∃ checked,
    Receipts.verify H.interpreter.platform signer now request.receipt request.binding = .ok checked
  capability : request.capability = lit "non_vision"
  action : request.action = lit "passthrough" ∨ request.action = lit "converted"
  model : (Json.field request.payload "model").str? = some request.targetId
  target : request.targetId = downstream.model

/-- What is left of `_verify_seal` is the search for media. -/
theorem verifySeal_of_sealedFor (stack : Nat) (h : SealedFor H downstream signer now sealed_) :
    downstream.verifySeal H.interpreter.unicode H.interpreter.platform stack signer now sealed_ =
      (do
        let found ← containsMedia H.interpreter.unicode stack (.obj sealed_.payload)
        if found then .error (.guard "Solar payload contains media") else .ok ()) := by
  obtain ⟨checked, hreceipt⟩ := h.receipt
  unfold SolarResponsesDownstream.verifySeal
  rw [h.digest]
  simp only [ne_eq, not_true_eq_false, if_false, hreceipt]
  change (if _ then _ else _) = _
  rw [if_neg (not_not_intro ⟨h.capability, h.action⟩), if_neg (not_not_intro ⟨h.model, h.target⟩)]

/-- What follows once the payload has been read. -/
theorem request_of_read
    (hseal : downstream.verifySeal H.interpreter.unicode H.interpreter.platform stack signer now
      sealed_ = .ok ())
    (hmessages : chatMessages sealed_.payload = .ok messages)
    (htools : chatTools sealed_.payload = .ok tools) :
    downstream.request H credentials signer stack now sealed_ = (do
      let payload ← solarPayload H downstream sealed_.payload messages tools
      let content ← encodedPayload H payload
      if maxRequestBytes < content.length then
        .error (.guard "Solar request exceeded the configured limit")
      else do
        let secret ← loadSecret H downstream credentials
        return ⟨downstream.endpoint, secret, payload, content⟩) := by
  unfold SolarResponsesDownstream.request
  rw [hseal, hmessages, htools]
  rfl

theorem not_guard_of_solarPayload {payload : Entries Str Json} {message : String}
    (h : solarPayload H downstream payload messages tools = .error (.guard message)) : False := by
  unfold solarPayload at h
  split at h
  · rcases bind_error_iff.mp h with h | ⟨fields, -, h⟩
    · unfold reasoningPayloadFields at h
      split at h
      · cases h
      · split at h
        · cases h
        · split at h <;> cases h
    · cases h
  · cases h

theorem not_guard_of_encodedPayload {payload : Entries Str Json} {message : String}
    (h : encodedPayload H payload = .error (.guard message)) : False := by
  unfold encodedPayload at h
  split at h
  · cases h
  · split at h <;> cases h

theorem not_guard_of_loadSecret {message : String}
    (h : loadSecret H downstream credentials = .error (.guard message)) : False := by
  unfold loadSecret at h
  split at h <;> cases h

/-- A payload that can be read is refused by the guard only for its length. -/
theorem overLimit_of_guard
    (hseal : downstream.verifySeal H.interpreter.unicode H.interpreter.platform stack signer now
      sealed_ = .ok ())
    (hmessages : chatMessages sealed_.payload = .ok messages)
    (htools : chatTools sealed_.payload = .ok tools) {message : String}
    (h : downstream.request H credentials signer stack now sealed_ = .error (.guard message)) :
    OverLimit H downstream sealed_.payload := by
  rw [request_of_read hseal hmessages htools] at h
  rcases bind_error_iff.mp h with h | ⟨built, hbuilt, h⟩
  · exact (not_guard_of_solarPayload h).elim
  rcases bind_error_iff.mp h with h | ⟨content, hcontent, h⟩
  · exact (not_guard_of_encodedPayload h).elim
  split at h
  · next hlong =>
      exact ⟨messages, tools, built, content, hmessages, htools, hbuilt, hcontent, hlong⟩
  · rcases bind_error_iff.mp h with h | ⟨secret, -, h⟩
    · exact (not_guard_of_loadSecret h).elim
    · cases h

/-- A payload whose body is too long is refused by the guard. -/
theorem guard_of_overLimit
    (hseal : downstream.verifySeal H.interpreter.unicode H.interpreter.platform stack signer now
      sealed_ = .ok ()) (h : OverLimit H downstream sealed_.payload) :
    ∃ message, downstream.request H credentials signer stack now sealed_ =
      .error (.guard message) := by
  obtain ⟨messages, tools, built, content, hmessages, htools, hbuilt, hcontent, hlong⟩ := h
  refine ⟨"Solar request exceeded the configured limit", ?_⟩
  rw [request_of_read hseal hmessages htools]
  refine bind_error_iff.mpr (.inr ⟨built, hbuilt, ?_⟩)
  refine bind_error_iff.mpr (.inr ⟨content, hcontent, ?_⟩)
  rw [if_pos hlong]

/-- Without an option, a payload that can be read is carried in what is sent. -/
theorem carried_of_request
    (hbuilt : solarResponsesDownstream H.interpreter downstream = .ok downstream)
    (hfold : H.interpreter.casefold (lit "upstage-solar") = lit "upstage-solar")
    (hseal : downstream.verifySeal H.interpreter.unicode H.interpreter.platform stack signer now
      sealed_ = .ok ())
    (hmessages : chatMessages sealed_.payload = .ok messages)
    (htools : chatTools sealed_.payload = .ok tools)
    (hoptions : payloadOptions sealed_.payload = []) {request : ProviderRequest}
    (h : downstream.request H credentials signer stack now sealed_ = .ok request) :
    Carried downstream sealed_.payload request.payload := by
  obtain ⟨haccepted, -⟩ := solarResponsesDownstream_eq_ok_iff.mp hbuilt
  obtain ⟨defined, hdefined, rfl⟩ := chatTools_eq_ok_iff.mp htools
  rw [request_of_read hseal hmessages htools] at h
  obtain ⟨built, hsolar, h⟩ := ok_of_bind h
  obtain ⟨content, -, h⟩ := ok_of_bind h
  split at h
  · cases h
  · obtain ⟨secret, -, h⟩ := ok_of_bind h
    cases h
    exact carried_of_built hfold haccepted.effort (chatMessages_eq_ok_iff.mp hmessages) hdefined
      hsolar hoptions

/-- What a run raises before the body is built. -/
theorem request_of_messages_error
    (hseal : downstream.verifySeal H.interpreter.unicode H.interpreter.platform stack signer now
      sealed_ = .ok ()) {e : RequestStop} (h : chatMessages sealed_.payload = .error e) :
    downstream.request H credentials signer stack now sealed_ = .error e := by
  unfold SolarResponsesDownstream.request
  rw [hseal, h]
  rfl

theorem request_of_tools_error
    (hseal : downstream.verifySeal H.interpreter.unicode H.interpreter.platform stack signer now
      sealed_ = .ok ()) (hmessages : chatMessages sealed_.payload = .ok messages)
    {e : RequestStop} (h : chatTools sealed_.payload = .error e) :
    downstream.request H credentials signer stack now sealed_ = .error e := by
  unfold SolarResponsesDownstream.request
  rw [hseal, hmessages, h]
  rfl

/-- A refusal of the guard is all that is asked. -/
theorem translatesOrRefuses_of_guard {payload : Entries Str Json}
    {result : Except RequestStop ProviderRequest} {message : String}
    (h : result = .error (.guard message)) : TranslatesOrRefuses downstream payload result := by
  subst h
  exact ⟨nofun, fun _ => ⟨message, rfl⟩⟩

/-- A text that was searched is translated whole or refused by the guard exactly when no item is
refused for want of a hash and it has no option that is lost. -/
theorem translatesOrRefuses_of_searched
    (hbuilt : solarResponsesDownstream H.interpreter downstream = .ok downstream)
    (hfold : H.interpreter.casefold (lit "upstage-solar") = lit "upstage-solar")
    (hseal : downstream.verifySeal H.interpreter.unicode H.interpreter.platform stack signer now
      sealed_ = .ok ()) :
    TranslatesOrRefuses downstream sealed_.payload
      (downstream.request H credentials signer stack now sealed_) ↔
        ¬ MeetsUnhashable sealed_.payload ∧ (payloadOptions sealed_.payload = [] ∨
          Unreadable sealed_.payload ∨ OverLimit H downstream sealed_.payload) := by
  cases hmessages : chatMessages sealed_.payload with
  | error e =>
      have hresult : downstream.request H credentials signer stack now sealed_ = .error e :=
        request_of_messages_error hseal hmessages
      have hunreadable : Unreadable sealed_.payload := by
        refine .inl fun ⟨messages, hmeans⟩ => ?_
        rw [chatMessages_eq_ok_iff.mpr hmeans] at hmessages
        cases hmessages
      cases chatMessages_error hmessages with
      | raised =>
          refine iff_of_false ?_ fun h => h.1 (chatMessages_raised_iff.mp hmessages)
          rintro ⟨-, hrefused⟩
          obtain ⟨message, h⟩ := hrefused (.inl hunreadable)
          rw [hresult] at h
          cases h
      | guard message =>
          refine iff_of_true (translatesOrRefuses_of_guard hresult) ⟨?_, .inr (.inl hunreadable)⟩
          intro h
          rw [chatMessages_raised_iff.mpr h] at hmessages
          cases hmessages
  | ok messages =>
      have hhashed : ¬ MeetsUnhashable sealed_.payload := by
        intro h
        rw [chatMessages_raised_iff.mpr h] at hmessages
        cases hmessages
      cases htools : chatTools sealed_.payload with
      | error e =>
          obtain ⟨message, rfl⟩ := chatTools_error htools
          refine iff_of_true
            (translatesOrRefuses_of_guard (request_of_tools_error hseal hmessages htools))
            ⟨hhashed, .inr (.inl (.inr ?_))⟩
          rintro ⟨tools, hmeans⟩
          rw [chatTools_eq_ok_iff.mpr ⟨tools, hmeans, rfl⟩] at htools
          cases htools
      | ok tools =>
          have hreadable : ¬ Unreadable sealed_.payload := by
            rintro (h | h)
            · exact h ⟨messages, chatMessages_eq_ok_iff.mp hmessages⟩
            · obtain ⟨defined, hdefined, -⟩ := chatTools_eq_ok_iff.mp htools
              exact h ⟨defined, hdefined⟩
          by_cases hoptions : payloadOptions sealed_.payload = []
          · refine iff_of_true ⟨?_, ?_⟩ ⟨hhashed, .inl hoptions⟩
            · intro request h
              exact carried_of_request hbuilt hfold hseal hmessages htools hoptions h
            · rintro (h | h)
              · exact absurd h hreadable
              · exact absurd hoptions h
          · constructor
            · rintro ⟨-, hrefused⟩
              obtain ⟨message, h⟩ := hrefused (.inr hoptions)
              exact ⟨hhashed, .inr (.inr (overLimit_of_guard hseal hmessages htools h))⟩
            · rintro ⟨-, h | h | h⟩
              · exact absurd h hoptions
              · exact absurd h hreadable
              · obtain ⟨message, hresult⟩ : ∃ message, downstream.request H credentials signer
                    stack now sealed_ = .error (.guard message) := guard_of_overLimit hseal h
                exact translatesOrRefuses_of_guard hresult

/-- What a run raises that does not get past `_verify_seal`. -/
theorem request_of_verifySeal_error {e : RequestStop}
    (h : downstream.verifySeal H.interpreter.unicode H.interpreter.platform stack signer now
      sealed_ = .error e) :
    downstream.request H credentials signer stack now sealed_ = .error e := by
  unfold SolarResponsesDownstream.request
  rw [h]
  rfl

end Results

section Sample

/-- A sealed request with one entry besides a text. -/
def sampleSealed (extra : Entries Str Json) : SealedGatewayRequest :=
  let payload :=
    [(lit "model", .str (lit "solar-pro4")), (lit "input", .str (lit "Hello"))] ++ extra
  let nonce := lit "abcdefghijklmnop"
  let digest := (sealedDigest sampleRuntimeHost.interpreter.platform payload nonce).getD []
  let binding : ReceiptBinding :=
    ⟨lit "solar-pro4", lit "non_vision", digest, digest, lit "passthrough"⟩
  { targetId := binding.targetId
    capability := binding.capability
    action := binding.action
    payload := payload
    inputDigest := binding.inputDigest
    outputDigest := binding.outputDigest
    receipt := (Receipts.sign sampleRuntimeHost.interpreter.platform .sample 0 binding 30).getD []
    requestNonce := nonce }

def sampleSolar : SolarResponsesDownstream where
  endpoint := lit "https://api.upstage.ai/v1/chat/completions"
  model := lit "solar-pro4"
  apiKeyEnv := lit "UPSTAGE_API_KEY"
  credentialRef := lit "text-llm"
  protocol := lit "openai-chat-completions"
  effort := lit "high"
  providerName := "Solar"
  errorPrefix := "solar"

/-- The request for a payload with a limit on its answer. -/
def sampleLimited : Except RequestStop ProviderRequest :=
  sampleSolar.request sampleRuntimeHost sampleCredentials .sample 900 0
    (sampleSealed [(lit "max_output_tokens", .int 64)])

end Sample

end MediaBridge.Personal
