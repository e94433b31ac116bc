import MediaBridge.Foundation.JsonIndented
import MediaBridge.Foundation.Lines
import MediaBridge.Personal.SavedSettings

/-!
# Files of the personal runtime

What the personal runtime writes into its files and reads from them: JSON text with line breaks.
`_load_npm_config` of `media_bridge_personal/npm_runtime.py` reads the configuration.

## Implementation notes

A path leads to a regular file with its content, to nothing, or to what is not read: a link, a
directory, or a file that gives an `OSError`. `Fits` says that a value is read back within a number
of nested containers.
-/

namespace MediaBridge.Personal

open Foundation MediaBridge.Core JsonText

/-- The interpreter of the runtime: it reads its own floats back, and `int` takes a float that is
an integer. -/
structure RuntimeHost where
  interpreter : Interpreter
  faithful : interpreter.platform.float.Faithful
  depth : 3 ≤ interpreter.platform.jsonDepth
  intOf_float : ∀ {bits n}, integerValue (.float bits) = some n →
    interpreter.platform.intOf (.float bits) = .ok n

/-- What lies at a path. -/
inductive PathContent
  | absent
  | unusable
  | file (content : Bytes) (onlyOwner : Bool)
deriving DecidableEq

/-- Why the runtime is not built, or a file not read. -/
inductive RuntimeError
  /-- The `PersonalRuntimeConfigurationError`. -/
  | configuration (message : String)
  /-- A `ValueError` with its text. -/
  | value (message : String)
  /-- The `CredentialStoreError`. -/
  | credentials (message : String)
  /-- Another exception. -/
  | raised
deriving DecidableEq

section Documents

variable (H : RuntimeHost)

/-- `ensure_ascii=False`. -/
def documentStyle : Style := ⟨false, false, true⟩

/-- `json.dump(value, stream, ensure_ascii=False, indent=2)` and a line feed, in UTF-8. -/
def documentBytes (v : Json) : Option Bytes := do
  let text ← dumpsIndented H.interpreter.platform.float documentStyle 0 v
  Utf8.encode (text ++ [cp 10])

/-- `json.loads(path.read_text(encoding="utf-8"))`; the error is a `ValueError` or a
`RecursionError`. -/
def readDocument (data : Bytes) : Except LoadsError Json :=
  match Utf8.decode data with
  | none => .error .decode
  | some text =>
      loads H.interpreter.platform.float H.interpreter.platform.jsonDepth
        (Str.universalNewlines text)

/-- How long a file may be. -/
def maxDocumentBytes : Nat := 65536

def invalidConfig : RuntimeError := .configuration "npm config file is invalid"

/-- `_load_npm_config`. -/
def loadNpmConfig : PathContent → Except RuntimeError (Entries Str Json)
  | .absent => .ok [(lit "runtimeMode", .str (lit "personal")),
      (lit "host", .str (lit "127.0.0.1")), (lit "port", .int 8642)]
  | .unusable => .error invalidConfig
  | .file content _ =>
      if maxDocumentBytes < content.length then .error invalidConfig
      else
        match readDocument H content with
        | .ok (.obj fields) => .ok fields
        | .error .recursion => .error .raised
        | _ => .error invalidConfig

end Documents

section Fitting

variable {v : Json} {fields base more : Entries Str Json} {key : Str} {d : Nat}

/-- A value that is read back, with at most `d` nested containers. -/
structure Fits (d : Nat) (v : Json) : Prop where
  kept : JsonText.Kept v
  depth_le : v.depth ≤ d

theorem fits_str (d : Nat) (s : Str) : Fits d (.str s) := ⟨.str s, Nat.zero_le d⟩

theorem fits_int (d : Nat) (n : Int) : Fits d (.int n) := ⟨.int n, Nat.zero_le d⟩

theorem fits_bool (d : Nat) (b : Bool) : Fits d (.bool b) := ⟨.bool b, Nat.zero_le d⟩

theorem fits_empty (d : Nat) : Fits (d + 1) (.obj []) :=
  ⟨.obj List.nodup_nil (List.forall_mem_nil _), Nat.succ_le_succ (Nat.zero_le d)⟩

/-- A dictionary of values that are read back. -/
theorem fits_obj (hnodup : (Entries.keys fields).Nodup) (h : ∀ e ∈ fields, Fits d e.2) :
    Fits (d + 1) (.obj fields) := by
  refine ⟨.obj hnodup fun e he => (h e he).kept, ?_⟩
  rw [Json.depth, Nat.add_le_add_iff_right, Json.depthFields_le_iff]
  exact fun e he => (h e he).depth_le

theorem Fits.mono {e : Nat} (h : Fits d v) (hle : d ≤ e) : Fits e v :=
  ⟨h.kept, h.depth_le.trans hle⟩

/-- A dictionary with another value of a key. -/
theorem Fits.set (h : Fits (d + 1) (.obj fields)) (hv : Fits d v) :
    Fits (d + 1) (.obj (Entries.set fields key v)) := by
  obtain ⟨hkept, hdepth⟩ := h
  cases hkept with
  | obj hnodup hvalues =>
      refine ⟨.obj (Entries.nodup_set hnodup key v) fun e he => ?_, ?_⟩
      · rcases Entries.mem_set he with rfl | hold
        · exact hv.kept
        · exact hvalues e hold
      · rw [Json.depth, Nat.add_le_add_iff_right] at hdepth ⊢
        exact depthFields_set key hv.depth_le hdepth

theorem Fits.updated (h : Fits (d + 1) (.obj base)) (hmore : ∀ e ∈ more, Fits d e.2) :
    Fits (d + 1) (.obj (updated base more)) := by
  induction more generalizing base with
  | nil => exact h
  | cons e rest ih =>
      obtain ⟨he, hrest⟩ := List.forall_mem_cons.mp hmore
      exact ih (h.set he) hrest

theorem Fits.of_mem (h : Fits (d + 1) (.obj fields)) : ∀ e ∈ fields, Fits d e.2 := by
  obtain ⟨hkept, hdepth⟩ := h
  cases hkept with
  | obj _ hvalues =>
      intro e he
      rw [Json.depth, Nat.add_le_add_iff_right, Json.depthFields_le_iff] at hdepth
      exact ⟨hvalues e he, hdepth e he⟩

theorem Fits.get? (h : Fits (d + 1) (.obj fields)) (hv : Entries.get? fields key = some v) :
    Fits d v := h.of_mem (key, v) (Entries.mem_of_get? hv)

/-- A value that may be missing. -/
theorem Fits.getD (h : Fits (d + 1) (.obj fields)) {default : Json} (hdefault : Fits d default) :
    Fits d ((Entries.get? fields key).getD default) := by
  cases hv : Entries.get? fields key with
  | none => exact hdefault
  | some v => exact h.get? hv

theorem Fits.erase (h : Fits d (.obj fields)) : Fits d (.obj (Entries.erase fields key)) := by
  obtain ⟨hkept, hdepth⟩ := h
  cases hkept with
  | obj hnodup hvalues =>
      have hmem {e : Str × Json} (he : e ∈ Entries.erase fields key) : e ∈ fields :=
        (Entries.mem_erase.mp he).1
      refine ⟨.obj (Entries.nodup_erase hnodup key) fun e he => hvalues e (hmem he), ?_⟩
      refine le_trans ?_ hdepth
      rw [Json.depth, Json.depth, Nat.add_le_add_iff_right, Json.depthFields_le_iff]
      exact fun e he => Json.depthFields_le_iff.mp le_rfl e (hmem he)

/-- A section is a part of the configuration. -/
theorem Fits.configSection (h : Fits (d + 2) (.obj fields)) (name : String) :
    Fits (d + 1) (.obj (configSection fields name)) := by
  unfold Personal.configSection Json.field
  cases hv : Entries.get? fields (lit name) with
  | none => exact fits_empty d
  | some v =>
      have hfits := h.get? hv
      cases v with
      | obj section_ => exact hfits
      | null | bool _ | int _ | float _ | str _ | arr _ => exact fits_empty d

end Fitting

section Reading

variable {H : RuntimeHost}

/-- A file that is written is read back. -/
theorem readDocument_documentBytes {v : Json} (h : Fits H.interpreter.platform.jsonDepth v)
    {data : Bytes} (hdata : documentBytes H v = some data) : readDocument H data = .ok v := by
  unfold documentBytes at hdata
  obtain ⟨text, htext, hdata⟩ := Option.bind_eq_some_iff.mp hdata
  have hdecode := Utf8.decodeWith_encode false hdata
  have hgood : Str.encodable (text ++ [cp 10]) = true := Utf8.encodable_of_decode hdecode
  have hunsorted : documentStyle.Unsorted := rfl
  have hreturns : Unreturned (text ++ [cp 10]) :=
    (unreturned_dumpsIndented H.faithful hunsorted rfl h.kept htext).append
      (.cons (by decide) unreturned_nil)
  have hline : Str.universalNewlines (text ++ [cp 10]) = text ++ [cp 10] :=
    Str.universalNewlines_eq_self hreturns
  rw [readDocument, Utf8.decode, hdecode]
  simp only [hline]
  exact h.kept.loads_indented H.faithful hunsorted rfl rfl htext (Str.encodable_append.mp hgood).1
    h.depth_le

/-- What is read can be written, and read back. -/
theorem fits_of_readDocument {data : Bytes} {v : Json} (h : readDocument H data = .ok v) :
    Fits H.interpreter.platform.jsonDepth v := by
  unfold readDocument at h
  split at h
  · cases h
  · next text htext =>
      obtain ⟨hreadable, hdepth⟩ := readable_of_loads H.faithful
        (Str.encodable_universalNewlines (Utf8.encodable_of_decode htext)) h
      exact ⟨hreadable.kept, hdepth⟩

theorem fits_of_loadNpmConfig {path : PathContent} {config : Entries Str Json}
    (h : loadNpmConfig H path = .ok config) :
    Fits H.interpreter.platform.jsonDepth (.obj config) := by
  cases path with
  | absent =>
      cases h
      obtain ⟨d, hd⟩ : ∃ d, H.interpreter.platform.jsonDepth = d + 1 :=
        ⟨_, (Nat.sub_add_cancel (le_trans (by decide) H.depth)).symm⟩
      rw [hd]
      refine fits_obj ?_ (List.forall_mem_cons.mpr ⟨fits_str d _,
        List.forall_mem_cons.mpr ⟨fits_str d _, List.forall_mem_singleton.mpr (fits_int d _)⟩⟩)
      change [lit "runtimeMode", lit "host", lit "port"].Nodup
      decide
  | unusable => cases h
  | file content onlyOwner =>
      rw [loadNpmConfig] at h
      split at h
      · cases h
      · split at h
        · next hread =>
            cases h
            exact fits_of_readDocument hread
        · cases h
        · cases h

/-- A configuration that is written is read unless its file is too long. -/
theorem loadNpmConfig_documentBytes {config : Entries Str Json} {data : Bytes} {onlyOwner : Bool}
    (h : Fits H.interpreter.platform.jsonDepth (.obj config))
    (hdata : documentBytes H (.obj config) = some data) :
    loadNpmConfig H (.file data onlyOwner) =
      if maxDocumentBytes < data.length then .error invalidConfig else .ok config := by
  rw [loadNpmConfig, readDocument_documentBytes h hdata]

end Reading

end MediaBridge.Personal
