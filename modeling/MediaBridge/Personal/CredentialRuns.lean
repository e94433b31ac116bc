import MediaBridge.Foundation.Base64
import MediaBridge.Foundation.Collect
import MediaBridge.Foundation.Occurrences
import MediaBridge.Foundation.Runs
import MediaBridge.Personal.CredentialStore
import MediaBridge.Personal.RunnableSettings

/-!
# Runs of the credential store

`set`, `delete` and `get` of `media_bridge_personal/credential_store.py` on either platform. A set
rewrites the whole file, and does not look whether the file can be loaded again.

## Implementation notes

Windows protects a secret anew in each call, so what it gives belongs to the call. Its files have
its own line ends. The file is replaced as a whole or not at all.
-/

namespace MediaBridge.Personal.CredentialStore

open Foundation MediaBridge.Core JsonText

section Platforms

/-- The platform, with what Windows makes of protected data. -/
inductive StorePlatform
  | posix
  | windows (unprotect : Bytes → Option Bytes)

def StorePlatform.isPosix : StorePlatform → Bool
  | .posix => true
  | .windows _ => false

/-- What Windows makes of the secrets of the references in one call. -/
abbrev Protection := Str → Bytes → Option Bytes

variable (P : StorePlatform)

def protectionFailed : RuntimeError := .credentials "Windows credential protection failed"

/-- `_protect`, for the secret of a reference. -/
def protect (protection : Protection) (e : Str × Str) : Except RuntimeError (Str × Str) :=
  match P with
  | .posix => .ok e
  | .windows _ =>
      match Utf8.encode e.2 with
      | none => .error .raised
      | some data =>
          match protection e.1 data with
          | none => .error protectionFailed
          | some encrypted => .ok (e.1, protectedPrefix ++ Base64.encode encrypted)

/-- `_unprotect`. -/
def unprotect (value : Str) : Except RuntimeError Str :=
  if value.startsWith protectedPrefix then
    match P with
    | .posix => .error (.credentials "DPAPI credential cannot be read on this platform")
    | .windows unprotectData =>
        match Base64.decode (value.drop protectedPrefix.length) with
        | none => .error invalidStore
        | some encrypted =>
            match unprotectData encrypted with
            | none => .error protectionFailed
            | some data =>
                match Utf8.decode data with
                | none => .error invalidStore
                | some secret => .ok secret
  else .ok value

/-- The line ends of a text that is written. -/
def lineEnds (text : Str) : Str :=
  match P with
  | .posix => text
  | .windows _ =>
      text.flatMap fun c => if c = Str.lineFeed then [Str.carriageReturn, Str.lineFeed] else [c]

/-- An entry of the file. -/
def readEntry (sofar : Credentials) (e : Str × Json) : Except RuntimeError Credentials := do
  let reference ← validateReference e.1
  match e.2 with
  | .str (c :: rest) =>
      let secret ← unprotect P (c :: rest)
      return Entries.set sofar reference secret
  | _ => .error invalidStore

/-- The part of `_load` that follows the reading of the file. -/
def readEntries : Json → Except RuntimeError Credentials
  | .obj payload =>
      match Entries.get? payload (lit "credentials") with
      | some (.obj credentials) =>
          if (Json.field payload "schemaVersion").equal (.int 1) then
            credentials.foldlM (readEntry P) []
          else .error invalidStore
      | _ => .error invalidStore
  | _ => .error invalidStore

variable (H : RuntimeHost)

/-- `_load`. -/
def load : PathContent → Except RuntimeError Credentials
  | .absent => .ok []
  | .unusable => .error invalidStore
  | .file content onlyOwner =>
      if maxDocumentBytes < content.length then .error invalidStore
      else if P.isPosix ∧ ¬ onlyOwner then
        .error (.credentials "credential store permissions are unsafe")
      else
        match readDocument H content with
        | .ok payload => readEntries P payload
        | .error .recursion => .error .raised
        | .error _ => .error invalidStore

/-- `get`. -/
def get (path : PathContent) (reference : Str) : Except RuntimeError (Option Str) := do
  let credentials ← load P H path
  let key ← validateReference reference
  return Entries.get? credentials key

/-- `json.dump(value, stream, ensure_ascii=False, indent=2)` and a line feed, in a text file. -/
def platformBytes (v : Json) : Option Bytes := do
  let text ← dumpsIndented H.interpreter.platform.float documentStyle 0 v
  Utf8.encode (lineEnds P (text ++ [cp 10]))

/-- The bytes that `_write` writes. -/
def writtenBytes (protection : Protection) (credentials : Credentials) :
    Except RuntimeError Bytes := do
  let stored ← credentials.mapM (protect P protection)
  match platformBytes P H (storeDocument stored) with
  | some data => .ok data
  | none => .error .raised

end Platforms

section Calls

/-- A call that changes the store. -/
inductive Change
  | set (reference secret : Str)
  | delete (reference : Str)

/-- A call, with what Windows makes of the secrets, and whether the file can be replaced. -/
structure Call where
  change : Change
  protection : Protection
  writable : Bool

variable (P : StorePlatform) (H : RuntimeHost)

/-- What a call writes, unless it leaves the file as it is. -/
def Change.credentials (path : PathContent) : Change → Except RuntimeError (Option Credentials)
  | .set reference secret => do
      let key ← validateReference reference
      let value ← validateSecret secret
      let credentials ← load P H path
      return some (Entries.set credentials key value)
  | .delete reference => do
      let key ← validateReference reference
      let credentials ← load P H path
      return if Entries.has credentials key then some (Entries.erase credentials key) else none

/-- The path of the store. -/
def storePath : Option Bytes → PathContent
  | none => .absent
  | some data => .file data true

/-- `set` and `delete`, with the file after them. -/
def Call.run (c : Call) (file : Option Bytes) : Except RuntimeError Unit × Option Bytes :=
  match c.change.credentials P H (storePath file) with
  | .error e => (.error e, file)
  | .ok none => (.ok (), file)
  | .ok (some credentials) =>
      match writtenBytes P H c.protection credentials with
      | .error e => (.error e, file)
      | .ok data => if c.writable then (.ok (), some data) else (.error .raised, file)

/-- What is to be read after a call that returned: the stripped secret, or nothing. -/
def Change.remember (values : Str → Option Str) : Change → Str → Option Str
  | .set reference secret => Function.update values reference.strip (some secret.strip)
  | .delete reference => Function.update values reference.strip none

/-- A store after some calls, and what is to be read under each reference. -/
structure CredentialRun where
  file : Option Bytes
  values : Str → Option Str

/-- The store after one more call. -/
def CredentialRun.after (r : CredentialRun) (c : Call) : CredentialRun :=
  let outcome := c.run P H r.file
  { file := outcome.2
    values :=
      match outcome.1 with
      | .ok () => c.change.remember r.values
      | .error _ => r.values }

/-- Windows takes its protection off again. -/
def Inverts (protection : Protection) : Prop :=
  match P with
  | .posix => True
  | .windows unprotectData =>
      ∀ key data encrypted, protection key data = some encrypted →
        unprotectData encrypted = some data

/-- A store without a file, and its calls. -/
def credentialStore : Machine CredentialRun Call where
  initial r := r = ⟨none, fun _ => none⟩
  step r c r' := Inverts P c.protection ∧ r' = r.after P H c

/-- What a call writes is short enough, and on POSIX no secret of it looks protected. -/
def Keepable (r : CredentialRun) (c : Call) : Prop :=
  c.writable = true → ∀ credentials data,
    c.change.credentials P H (storePath r.file) = .ok (some credentials) →
    writtenBytes P H c.protection credentials = .ok data →
      data.length ≤ maxDocumentBytes ∧
        (P.isPosix = true → ∀ e ∈ credentials, ¬ e.2.startsWith protectedPrefix)

/-- Every reference gives what was stored last. -/
def GivesBack (r : CredentialRun) : Prop :=
  ∀ reference key, validateReference reference = .ok key →
    get P H (storePath r.file) reference = .ok (r.values key)

end Calls

section Reading

variable {P : StorePlatform} {H : RuntimeHost} {protection : Protection}
  {credentials stored : Credentials}

/-- Reading in text mode takes the line ends off again. -/
theorem universalNewlines_lineEnds {text : Str} (h : Unreturned text) :
    Str.universalNewlines (lineEnds P text) = text := by
  cases P with
  | posix => exact Str.universalNewlines_eq_self h
  | windows unprotectData =>
      unfold lineEnds
      simp only
      induction text with
      | nil => rfl
      | cons c rest ih =>
          obtain ⟨hc, hrest⟩ := List.forall_mem_cons.mp h
          have hreturn : c ≠ Str.carriageReturn := hc
          have hfeed : Str.lineFeed ≠ Str.carriageReturn := by decide
          rw [List.flatMap_cons]
          split_ifs with hline
          · subst hline
            rw [List.cons_append, List.cons_append, List.nil_append,
              Str.universalNewlines_cons, if_pos rfl, List.head?_cons, if_pos rfl,
              Str.universalNewlines_cons, if_neg hfeed, ih hrest]
          · rw [List.cons_append, List.nil_append, Str.universalNewlines_cons, if_neg hreturn,
              ih hrest]

theorem encodable_of_lineEnds {text : Str} (h : Str.encodable (lineEnds P text) = true) :
    Str.encodable text = true := by
  cases P with
  | posix => exact h
  | windows unprotectData =>
      rw [Str.encodable_iff] at h ⊢
      intro c hc
      refine h c (List.mem_flatMap.mpr ⟨c, hc, ?_⟩)
      split_ifs with hline
      · rw [hline]
        exact List.mem_cons_of_mem _ (List.mem_singleton.mpr rfl)
      · exact List.mem_singleton.mpr rfl

/-- What is protected is read as it was. -/
theorem unprotect_of_protect {e e' : Str × Str} (h : protect P protection e = .ok e')
    (hinverts : Inverts P protection)
    (hplain : P.isPosix = true → ¬ e.2.startsWith protectedPrefix) (hne : e.2 ≠ []) :
    e'.1 = e.1 ∧ unprotect P e'.2 = .ok e.2 ∧ e'.2 ≠ [] := by
  unfold protect at h
  cases P with
  | posix =>
      cases h
      exact ⟨rfl, if_neg (hplain rfl), hne⟩
  | windows unprotectData =>
      simp only at h
      split at h
      · cases h
      next data hdata =>
        split at h
        · cases h
        next encrypted hencrypted =>
          cases h
          have hprefix : (protectedPrefix ++ Base64.encode encrypted).startsWith protectedPrefix :=
            decide_eq_true (List.prefix_append _ _)
          have hsecret : Utf8.decode data = some e.2 := Utf8.decodeWith_encode false hdata
          refine ⟨rfl, ?_, List.append_ne_nil_of_left_ne_nil (by decide) _⟩
          simp only [unprotect, if_pos hprefix, List.drop_left, Base64.decode_encode,
            hinverts _ _ _ hencrypted, hsecret]

/-- Entries that the file gives back: valid references and secrets that are not empty. -/
structure Sound (credentials : Credentials) : Prop where
  nodup : (Entries.keys credentials).Nodup
  reference : ∀ e ∈ credentials, credentialReference e.1 = true ∧ e.1.strip = e.1
  secret : ∀ e ∈ credentials, e.2 ≠ []

theorem foldlM_readEntry {sofar : Credentials} (h : Sound (sofar ++ credentials))
    (hstored : List.Forall₂ (fun e e' : Str × Str => e'.1 = e.1 ∧ unprotect P e'.2 = .ok e.2 ∧
      e'.2 ≠ []) credentials stored) :
    (stored.map fun e => (e.1, Json.str e.2)).foldlM (readEntry P) sofar =
      .ok (sofar ++ credentials) := by
  induction hstored generalizing sofar with
  | nil =>
      rw [List.append_nil]
      rfl
  | @cons e e' rest rest' he _ ih =>
      obtain ⟨key, secret⟩ := e
      obtain ⟨key', secret'⟩ := e'
      obtain ⟨rfl, hunprotect, hne⟩ := he
      obtain ⟨hreference, hstrip⟩ := h.reference (key', secret)
        (List.mem_append_right _ List.mem_cons_self)
      have hset : Entries.set sofar key' secret = sofar ++ [(key', secret)] := by
        apply Entries.set_of_notMem
        intro hkey
        have hnodup := h.nodup
        rw [Entries.keys_append, List.nodup_append] at hnodup
        exact hnodup.2.2 key' hkey key' List.mem_cons_self rfl
      have hread : readEntry P sofar (key', .str secret') = .ok (sofar ++ [(key', secret)]) := by
        cases secret' with
        | nil => exact absurd rfl hne
        | cons c secret' =>
            have hvalid : validateReference key' = .ok key' := by
              rw [validateReference, hstrip, if_pos hreference]
            rw [readEntry, hvalid]
            simp only [bind, Except.bind, hunprotect, hset]
            rfl
      have hnext : Sound (sofar ++ [(key', secret)] ++ rest) := by simpa using h
      have hrest := ih hnext
      rw [List.append_assoc, List.singleton_append] at hrest
      rw [List.map_cons, List.foldlM_cons, hread]
      exact hrest

theorem forall₂_of_mapM (hsecret : ∀ e ∈ credentials, e.2 ≠ []) (hinverts : Inverts P protection)
    (hplain : P.isPosix = true → ∀ e ∈ credentials, ¬ e.2.startsWith protectedPrefix)
    (h : credentials.mapM (protect P protection) = .ok stored) :
    List.Forall₂ (fun e e' : Str × Str => e'.1 = e.1 ∧ unprotect P e'.2 = .ok e.2 ∧ e'.2 ≠ [])
      credentials stored := by
  rw [mapM_eq_ok_iff] at h
  induction credentials generalizing stored with
  | nil =>
      cases stored with
      | nil => exact .nil
      | cons e rest => cases h
  | cons e rest ih =>
      cases stored with
      | nil => cases h
      | cons e' rest' =>
          obtain ⟨he, hrest⟩ := List.cons.inj h
          obtain ⟨hne, hsecrets⟩ := List.forall_mem_cons.mp hsecret
          have hfirst := unprotect_of_protect he hinverts
            (fun hposix => hplain hposix e List.mem_cons_self) hne
          exact .cons hfirst (ih hsecrets
            (fun hposix e he => hplain hposix e (List.mem_cons_of_mem _ he)) hrest)

/-- What is written is loaded, unless the file is too long. -/
theorem load_writtenBytes (h : Sound credentials) (hinverts : Inverts P protection)
    (hplain : P.isPosix = true → ∀ e ∈ credentials, ¬ e.2.startsWith protectedPrefix)
    {data : Bytes} (hdata : writtenBytes P H protection credentials = .ok data) :
    load P H (.file data true) =
      if maxDocumentBytes < data.length then .error invalidStore else .ok credentials := by
  obtain ⟨stored, hstored, hdata⟩ := ok_of_bind hdata
  have hforall := forall₂_of_mapM h.secret hinverts hplain hstored
  have hkeys : Entries.keys stored = Entries.keys credentials := by
    clear * - hforall
    induction hforall with
    | nil => rfl
    | cons he _ ih =>
        simp only [Entries.keys, List.map_cons, List.cons.injEq] at ih ⊢
        exact ⟨he.1, ih⟩
  have hfits : Fits H.interpreter.platform.jsonDepth (storeDocument stored) :=
    fits_storeDocument (hkeys ▸ h.nodup) (le_trans (by decide) H.depth)
  have hread : readEntries P (storeDocument stored) = .ok credentials := by
    have hfold : (stored.map fun e => (e.1, Json.str e.2)).foldlM (readEntry P) [] =
        .ok ([] ++ credentials) := foldlM_readEntry h hforall
    exact hfold
  -- the document is read over the line ends of the platform
  have hdocument : readDocument H data = .ok (storeDocument stored) := by
    split at hdata
    next found hfound =>
      cases hdata
      obtain ⟨text, htext, hencode⟩ := Option.bind_eq_some_iff.mp hfound
      have hdecode : Utf8.decode data = some (lineEnds P (text ++ [cp 10])) :=
        Utf8.decodeWith_encode false hencode
      have hgood := encodable_of_lineEnds (Utf8.encodable_of_decode hdecode)
      have hunsorted : documentStyle.Unsorted := rfl
      have hreturns : Unreturned (text ++ [cp 10]) :=
        (unreturned_dumpsIndented H.faithful hunsorted rfl hfits.kept htext).append
          (.cons (by decide) unreturned_nil)
      rw [readDocument, hdecode]
      simp only [universalNewlines_lineEnds hreturns]
      exact hfits.kept.loads_indented H.faithful hunsorted rfl rfl htext
        (Str.encodable_append.mp hgood).1 hfits.depth_le
    · cases hdata
  have howner : ¬ (P.isPosix = true ∧ ¬ (true = true)) := fun h => h.2 rfl
  rw [load, if_neg howner, hdocument]
  simp only [hread]

end Reading

section Runs

variable {P : StorePlatform} {H : RuntimeHost} {r : CredentialRun}

/-- The invariant of a run: the file is loaded as what is to be read. -/
def Kept (P : StorePlatform) (H : RuntimeHost) (r : CredentialRun) : Prop :=
  ∃ credentials, load P H (storePath r.file) = .ok credentials ∧ Sound credentials ∧
    ∀ key, Entries.get? credentials key = r.values key

theorem eq_of_validateReference {reference key : Str} (h : validateReference reference = .ok key) :
    key = reference.strip ∧ credentialReference key = true ∧ key.strip = key := by
  unfold validateReference at h
  split_ifs at h with hvalid
  cases h
  exact ⟨rfl, hvalid, Str.strip_strip reference⟩

theorem eq_of_validateSecret {secret value : Str} (h : validateSecret secret = .ok value) :
    value = secret.strip ∧ value ≠ [] := by
  unfold validateSecret at h
  split_ifs at h with hbad
  cases h
  exact ⟨rfl, fun hempty => hbad (.inl hempty)⟩

/-- What a call writes is what is to be read after it. -/
theorem Kept.change (h : Kept P H r) {change : Change} {written : Option Credentials}
    (hwritten : change.credentials P H (storePath r.file) = .ok written) :
    ∃ credentials, (∀ found, written = some found → credentials = found) ∧
      (written = none → load P H (storePath r.file) = .ok credentials) ∧ Sound credentials ∧
      ∀ key, Entries.get? credentials key = change.remember r.values key := by
  obtain ⟨credentials, hload, hsound, hvalues⟩ := h
  cases change with
  | set reference secret =>
      obtain ⟨key, hkey, hwritten⟩ := ok_of_bind hwritten
      obtain ⟨value, hvalue, hwritten⟩ := ok_of_bind hwritten
      obtain ⟨found, hfound, hwritten⟩ := ok_of_bind hwritten
      cases hload.symm.trans hfound
      cases hwritten
      obtain ⟨hstrip, hvalid, hfixed⟩ := eq_of_validateReference hkey
      obtain ⟨hsecret, hne⟩ := eq_of_validateSecret hvalue
      refine ⟨_, fun _ heq => Option.some.inj heq, (by rintro ⟨⟩), ⟨Entries.nodup_set hsound.nodup _ _,
        fun e he => ?_, fun e he => ?_⟩, fun k => ?_⟩
      · rcases Entries.mem_set he with rfl | he
        · exact ⟨hvalid, hfixed⟩
        · exact hsound.reference e he
      · rcases Entries.mem_set he with rfl | he
        · exact hne
        · exact hsound.secret e he
      · rw [Entries.get?_set, hvalues, Change.remember, ← hstrip, ← hsecret,
          Function.update_apply]
  | delete reference =>
      obtain ⟨key, hkey, hwritten⟩ := ok_of_bind hwritten
      obtain ⟨found, hfound, hwritten⟩ := ok_of_bind hwritten
      cases hload.symm.trans hfound
      obtain ⟨hstrip, -, -⟩ := eq_of_validateReference hkey
      have hremember (k : Str) (d : Credentials)
          (hd : Entries.get? d k = if k = key then none else Entries.get? credentials k) :
          Entries.get? d k = Change.remember r.values (.delete reference) k := by
        rw [hd, hvalues, Change.remember, ← hstrip, Function.update_apply]
      by_cases hhas : Entries.has credentials key = true
      · rw [if_pos hhas] at hwritten
        cases hwritten
        refine ⟨_, fun _ heq => Option.some.inj heq, (by rintro ⟨⟩),
          ⟨Entries.nodup_erase hsound.nodup _,
          fun e he => hsound.reference e (Entries.mem_erase.mp he).1,
          fun e he => hsound.secret e (Entries.mem_erase.mp he).1⟩, fun k => hremember k _ ?_⟩
        split_ifs with heq
        · rw [heq, Entries.get?_erase_self]
        · exact Entries.get?_erase_of_ne credentials heq
      · rw [if_neg hhas] at hwritten
        cases hwritten
        refine ⟨credentials, (by rintro _ ⟨⟩), fun _ => hload, hsound, fun k => hremember k _ ?_⟩
        split_ifs with heq
        · rw [heq, Entries.get?_eq_none_iff]
          exact fun hmem => hhas (Entries.has_iff.mpr hmem)
        · rfl

/-- A call that meets the condition keeps the invariant. -/
theorem Kept.after (h : Kept P H r) {c : Call} (hinverts : Inverts P c.protection)
    (hkeepable : Keepable P H r c) : Kept P H (r.after P H c) := by
  have hraised (e : RuntimeError) (hrun : c.run P H r.file = (.error e, r.file)) :
      Kept P H (r.after P H c) := by
    rw [CredentialRun.after, hrun]
    exact h
  cases hwritten : c.change.credentials P H (storePath r.file) with
  | error e =>
      apply hraised e
      rw [Call.run, hwritten]
  | ok written =>
      obtain ⟨credentials, hsome, hnone, hsound, hvalues⟩ := h.change hwritten
      cases written with
      | none =>
          have hrun : c.run P H r.file = (.ok (), r.file) := by rw [Call.run, hwritten]
          rw [CredentialRun.after, hrun]
          exact ⟨credentials, hnone rfl, hsound, hvalues⟩
      | some found =>
          obtain rfl := hsome found rfl
          cases hdata : writtenBytes P H c.protection credentials with
          | error e =>
              apply hraised e
              simp only [Call.run, hwritten, hdata]
          | ok data =>
              cases hwritable : c.writable with
              | false =>
                  apply hraised .raised
                  simp only [Call.run, hwritten, hdata, hwritable, Bool.false_eq_true, if_false]
              | true =>
                  obtain ⟨hfits, hplain⟩ := hkeepable hwritable credentials data hwritten hdata
                  have hrun : c.run P H r.file = (.ok (), some data) := by
                    simp only [Call.run, hwritten, hdata, hwritable, if_true]
                  have hload := load_writtenBytes hsound hinverts hplain hdata
                  rw [if_neg (not_lt.mpr hfits)] at hload
                  rw [CredentialRun.after, hrun]
                  exact ⟨credentials, hload, hsound, hvalues⟩

/-- A store whose calls write what can be loaded gives back what was stored last. -/
theorem givesBack_of_keepable (h : (credentialStore P H).Reachable (Keepable P H) r) :
    GivesBack P H r := by
  have hkept : Kept P H r := by
    apply h.invariant
    · rintro s rfl
      exact ⟨[], rfl, ⟨List.nodup_nil, List.forall_mem_nil _, List.forall_mem_nil _⟩,
        fun _ => rfl⟩
    · rintro s c s' hkept hkeepable ⟨hinverts, rfl⟩
      exact hkept.after hinverts hkeepable
  obtain ⟨credentials, hload, -, hvalues⟩ := hkept
  intro reference key hkey
  rw [get, hload]
  simp only [bind, Except.bind, hkey, hvalues]
  rfl

end Runs

section Sample

/-- A call that stores a secret on POSIX. -/
def setCall (reference secret : String) : Call :=
  ⟨.set (lit reference) (lit secret), fun _ _ => none, true⟩

/-- An empty store. -/
def emptyStore : CredentialRun := ⟨none, fun _ => none⟩

/-- Short credentials that do not look protected are keepable. -/
theorem keepable_of_credentials {r : CredentialRun} {c : Call} (credentials : Credentials)
    (hcredentials : c.change.credentials .posix sampleRuntimeHost (storePath r.file) =
      .ok (some credentials))
    (hlength : (writtenBytes .posix sampleRuntimeHost c.protection credentials).toOption.all
      (fun d => d.length ≤ maxDocumentBytes) = true)
    (hplain : ∀ e ∈ credentials, ¬ e.2.startsWith protectedPrefix) :
    Keepable .posix sampleRuntimeHost r c := by
  intro _ credentials' data hcredentials' hdata
  cases hcredentials.symm.trans hcredentials'
  rw [hdata] at hlength
  exact ⟨of_decide_eq_true hlength, fun _ => hplain⟩

/-- Two secrets are stored, one of them with white space around it. -/
theorem givesBack_of_keepable_sample :
    let first := emptyStore.after .posix sampleRuntimeHost (setCall "text-llm" " key ")
    GivesBack .posix sampleRuntimeHost
      (first.after .posix sampleRuntimeHost (setCall "ocr-llm" "other")) := by
  intro first
  have hfirst : Keepable .posix sampleRuntimeHost emptyStore (setCall "text-llm" " key ") :=
    keepable_of_credentials [(lit "text-llm", lit "key")] (by decide +kernel)
      (by decide +kernel) (by decide)
  have hsecond : Keepable .posix sampleRuntimeHost first (setCall "ocr-llm" "other") :=
    keepable_of_credentials [(lit "text-llm", lit "key"), (lit "ocr-llm", lit "other")]
      (by decide +kernel) (by decide +kernel) (by decide)
  have hempty : (credentialStore .posix sampleRuntimeHost).Reachable
      (Keepable .posix sampleRuntimeHost) emptyStore := .start rfl
  exact givesBack_of_keepable ((hempty.next hfirst ⟨trivial, rfl⟩).next hsecond ⟨trivial, rfl⟩)

/-- A secret that looks protected is stored on POSIX, and the store cannot be loaded. -/
theorem protected_secret_lost :
    ∃ r, (credentialStore .posix sampleRuntimeHost).Reachable Machine.anyStep r ∧
      r.values (lit "text-llm") = some (lit "dpapi:key") ∧
      get .posix sampleRuntimeHost (storePath r.file) (lit "text-llm") =
        .error (.credentials "DPAPI credential cannot be read on this platform") ∧
      ¬ GivesBack .posix sampleRuntimeHost r := by
  have hget : get .posix sampleRuntimeHost (storePath (emptyStore.after .posix sampleRuntimeHost
      (setCall "text-llm" "dpapi:key")).file) (lit "text-llm") =
        .error (.credentials "DPAPI credential cannot be read on this platform") := by
    decide +kernel
  refine ⟨_, (Machine.Reachable.start rfl).next trivial ⟨trivial, rfl⟩, ?_, hget, fun h => ?_⟩
  · decide +kernel
  · cases hget.symm.trans (h (lit "text-llm") (lit "text-llm") (by decide))

end Sample

end MediaBridge.Personal.CredentialStore
