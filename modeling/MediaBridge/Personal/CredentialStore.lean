import MediaBridge.Foundation.JsonEqual
import MediaBridge.Personal.ConfigFile

/-!
# The credential store

`CredentialStore` of `media_bridge_personal/credential_store.py`: the secrets of the providers, in a
file of their own.

## Implementation notes

The platform is POSIX: a secret stands in the file as it is, and one that was protected by Windows
is refused. What a call does to its files step by step is not modelled here.
-/

namespace MediaBridge.Personal

open Foundation MediaBridge.Core JsonText

/-- The secrets by their references. -/
abbrev Credentials := Entries Str Str

section Values

def invalidStore : RuntimeError := .credentials "credential store is invalid"

/-- `_validate_reference`. -/
def validateReference (reference : Str) : Except RuntimeError Str :=
  if credentialReference reference.strip then .ok reference.strip
  else .error (.credentials "credential reference is invalid")

/-- The prefix of a secret that Windows protects. -/
def protectedPrefix : Str := lit "dpapi:"

/-- `_unprotect`. -/
def unprotect (value : Str) : Except RuntimeError Str :=
  if value.startsWith protectedPrefix then
    .error (.credentials "DPAPI credential cannot be read on this platform")
  else .ok value

/-- An entry of the file. -/
def readCredential (sofar : Credentials) (e : Str × Json) : Except RuntimeError Credentials := do
  let reference ← validateReference e.1
  match e.2 with
  | .str (c :: rest) =>
      let secret ← unprotect (c :: rest)
      return Entries.set sofar reference secret
  | _ => .error invalidStore

/-- The dictionary that the file holds. -/
def storeDocument (credentials : Credentials) : Json :=
  .obj [(lit "schemaVersion", .int 1),
    (lit "credentials", .obj (credentials.map fun e => (e.1, .str e.2)))]

/-- How long a secret may be. -/
def maxSecretLength : Nat := 16384

/-- The secret that `set` stores. -/
def validateSecret (secret : Str) : Except RuntimeError Str :=
  if secret.strip = [] ∨ maxSecretLength < secret.strip.length then
    .error (.credentials "credential value is invalid")
  else .ok secret.strip

end Values

section Store

variable (H : RuntimeHost)

/-- The part of `_load` that follows the reading of the file. -/
def readCredentials : Json → Except RuntimeError Credentials
  | .obj payload =>
      match Entries.get? payload (lit "credentials") with
      | some (.obj credentials) =>
          if (Json.field payload "schemaVersion").equal (.int 1) then
            credentials.foldlM readCredential []
          else .error invalidStore
      | _ => .error invalidStore
  | _ => .error invalidStore

/-- `_load`. -/
def loadCredentials : PathContent → Except RuntimeError Credentials
  | .absent => .ok []
  | .unusable => .error invalidStore
  | .file content onlyOwner =>
      if maxDocumentBytes < content.length then .error invalidStore
      else if ¬ onlyOwner then .error (.credentials "credential store permissions are unsafe")
      else
        match readDocument H content with
        | .ok payload => readCredentials payload
        | .error .recursion => .error .raised
        | .error _ => .error invalidStore

/-- `get`. -/
def getCredential (path : PathContent) (reference : Str) : Except RuntimeError (Option Str) := do
  let credentials ← loadCredentials H path
  let key ← validateReference reference
  return Entries.get? credentials key

/-- `resolve` without the name of a variable. -/
def resolveCredential (path : PathContent) (reference : Str) : Except RuntimeError Str := do
  match ← getCredential H path reference with
  | some (c :: rest) => return c :: rest
  | _ => .error (.credentials "credential is not configured")

end Store

section Reading

variable {H : RuntimeHost}

theorem fits_storeDocument {credentials : Credentials} (h : (Entries.keys credentials).Nodup)
    {d : Nat} (hd : 2 ≤ d) : Fits d (storeDocument credentials) := by
  obtain ⟨d, rfl⟩ : ∃ n, d = n + 2 := ⟨d - 2, by omega⟩
  have hkeys : Entries.keys (credentials.map fun e => (e.1, Json.str e.2)) =
      Entries.keys credentials := by
    simp [Entries.keys]
  have hvalues : ∀ e ∈ credentials.map fun e => (e.1, Json.str e.2), Fits d e.2 := by
    intro e he
    obtain ⟨f, -, rfl⟩ := List.mem_map.mp he
    exact fits_str d f.2
  have hinner : Fits (d + 1) (.obj (credentials.map fun e => (e.1, Json.str e.2))) := by
    refine ⟨.obj (hkeys ▸ h) fun e he => (hvalues e he).kept, ?_⟩
    rw [Json.depth, Nat.add_le_add_iff_right, Json.depthFields_le_iff]
    exact fun e he => (hvalues e he).depth_le
  have houter : Fits (d + 2) (.obj (updated [] [(lit "schemaVersion", .int 1),
      (lit "credentials", .obj (credentials.map fun e => (e.1, Json.str e.2)))])) :=
    (fits_empty (d + 1)).updated (List.forall_mem_cons.mpr ⟨fits_int _ 1,
      List.forall_mem_singleton.mpr hinner⟩)
  exact houter

end Reading

end MediaBridge.Personal
