import MediaBridge.Core.MediaReference

/-!
# The two scans for media references

`_media_reference` of `media_bridge_adapters/service.py` and `hasMedia` of the plugin,
`media_bridge_adapters/omniroute/plugin/index.mjs`, with the same rules in two languages.

## Implementation notes

The Python scan looks the `type` of a dictionary up in a set, which raises `TypeError` for a list or
a dictionary. Each language has its own character database.
-/

namespace MediaBridge.Adapters

open Foundation MediaBridge.Core

/-- Why the preparation of a request raises. -/
inductive AdapterError
  /-- `AdapterNormalizationError`. -/
  | normalization
  /-- A `TypeError` or another `ValueError`. -/
  | other
deriving DecidableEq

/-- `locator_keys`. -/
def locatorKeys : List String := ["image_url", "file_data", "asset_id", "file_id", "file_url"]

/-- `MEDIA_KEYS`. -/
def mediaKeys : List String := ["asset_id", "file_data", "file_id", "file_url", "image_url"]

/-- One of some keys holds a string that is not empty. -/
def namesAny (keys : List String) (fields : Entries Str Json) : Bool :=
  keys.any fun key => (Json.field fields key).str?.any fun s => !s.isEmpty

section Python

variable (U : UnicodeData)

mutual

/-- `_media_reference`. -/
def mediaReference : Json → Except AdapterError Bool
  | .str s => .ok (MediaReference.startsAsData U s)
  | .arr items => anyItem items
  | .obj fields =>
      if ¬ (Json.field fields "type").hashable then .error .other
      else if MediaReference.markedByType fields || namesAny locatorKeys fields then .ok true
      else anyValue fields
  | .null => .ok false
  | .bool _ => .ok false
  | .int _ => .ok false
  | .float _ => .ok false

/-- `any(_media_reference(item) for item in value)`. -/
def anyItem : List Json → Except AdapterError Bool
  | [] => .ok false
  | v :: rest =>
      match mediaReference v with
      | .ok false => anyItem rest
      | other => other

/-- `any(_media_reference(item) for item in value.values())`. -/
def anyValue : List (Str × Json) → Except AdapterError Bool
  | [] => .ok false
  | (_, v) :: rest =>
      match mediaReference v with
      | .ok false => anyValue rest
      | other => other

end

end Python

section Plugin

variable (J : UnicodeData)

mutual

/-- `hasMedia`. -/
def hasMedia : Json → Bool
  | .str s => MediaReference.startsAsData J s
  | .arr items => someItem items
  | .obj fields =>
      MediaReference.markedByType fields || namesAny mediaKeys fields || someValue fields
  | .null => false
  | .bool _ => false
  | .int _ => false
  | .float _ => false

/-- `value.some(hasMedia)`. -/
def someItem : List Json → Bool
  | [] => false
  | v :: rest => hasMedia v || someItem rest

/-- `Object.values(value).some(hasMedia)`. -/
def someValue : List (Str × Json) → Bool
  | [] => false
  | (_, v) :: rest => hasMedia v || someValue rest

end

end Plugin

section Agreement

variable {U J : UnicodeData}

/-- The two languages agree on what starts like a data URL. -/
theorem startsAsData_congr (U J : UnicodeData) (s : Str) :
    MediaReference.startsAsData U s = MediaReference.startsAsData J s := by
  have hstarts : ∀ pre, UnicodeData.plainConstant pre = true →
      Str.startsWith (U.lower s) pre = Str.startsWith (J.lower s) pre := by
    intro pre hpre
    rw [Bool.eq_iff_iff, Str.startsWith_iff, Str.startsWith_iff]
    exact UnicodeData.prefix_lower_iff U J hpre s
  unfold MediaReference.startsAsData
  rw [hstarts _ (by decide), hstarts _ (by decide)]

/-- The two lists of keys have the same keys. -/
theorem namesAny_mediaKeys (fields : Entries Str Json) :
    namesAny mediaKeys fields = namesAny locatorKeys fields :=
  List.Perm.any_eq (by decide)

theorem someItem_eq (J : UnicodeData) (items : List Json) :
    someItem J items = items.any (hasMedia J) := by
  induction items with
  | nil => rfl
  | cons v rest ih => rw [someItem, ih, List.any_cons]

theorem someValue_eq (J : UnicodeData) (fields : List (Str × Json)) :
    someValue J fields = fields.any fun e => hasMedia J e.2 := by
  induction fields with
  | nil => rfl
  | cons e rest ih => rw [someValue, ih, List.any_cons]

/-- A scan that has an answer for a list has one for its items. -/
theorem anyItem_ok {items : List Json} {b : Bool} (h : anyItem U items = .ok b)
    (hitems : ∀ v ∈ items, ∀ b, mediaReference U v = .ok b → hasMedia J v = b) :
    items.any (hasMedia J) = b := by
  induction items with
  | nil =>
      cases h
      rfl
  | cons v rest ih =>
      obtain ⟨hv, hrest⟩ := List.forall_mem_cons.mp hitems
      rw [List.any_cons]
      rw [anyItem] at h
      split at h
      · next hclean => rw [hv false hclean, Bool.false_or, ih h hrest]
      · next hother =>
          cases b with
          | false => exact absurd h hother
          | true => rw [hv true h, Bool.true_or]

theorem anyValue_ok {fields : List (Str × Json)} {b : Bool} (h : anyValue U fields = .ok b)
    (hfields : ∀ e ∈ fields, ∀ b, mediaReference U e.2 = .ok b → hasMedia J e.2 = b) :
    (fields.any fun e => hasMedia J e.2) = b := by
  induction fields with
  | nil =>
      cases h
      rfl
  | cons e rest ih =>
      obtain ⟨hv, hrest⟩ := List.forall_mem_cons.mp hfields
      rw [List.any_cons]
      rw [anyValue] at h
      split at h
      · next hclean => rw [hv false hclean, Bool.false_or, ih h hrest]
      · next hother =>
          cases b with
          | false => exact absurd h hother
          | true => rw [hv true h, Bool.true_or]

/-- Where the Python scan has an answer, the plugin has the same one. -/
theorem hasMedia_of_mediaReference {v : Json} {b : Bool} (h : mediaReference U v = .ok b) :
    hasMedia J v = b := by
  induction v using Json.induct generalizing b with
  | null => cases h; rfl
  | bool _ => cases h; rfl
  | int _ => cases h; rfl
  | float _ => cases h; rfl
  | str s =>
      cases h
      exact startsAsData_congr J U s
  | arr items ih =>
      rw [hasMedia, someItem_eq]
      exact anyItem_ok h fun v hv b => ih v hv
  | obj fields ih =>
      rw [hasMedia, someValue_eq, namesAny_mediaKeys]
      rw [mediaReference] at h
      split at h
      · cases h
      · split at h
        · next hfound =>
            cases h
            rw [hfound, Bool.true_or]
        · next hclean =>
            rw [Bool.not_eq_true] at hclean
            rw [hclean, Bool.false_or]
            exact anyValue_ok h fun e he b => ih e he

end Agreement

end MediaBridge.Adapters
