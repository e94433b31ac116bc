import MediaBridge.Foundation.Base64Loose
import MediaBridge.Foundation.Dict
import MediaBridge.Foundation.Raise
import MediaBridge.Foundation.Utf8

/-!
# The secrets of a deployment

The values that `deploy/scripts/secret_bootstrap.py` generates for the six secret files, and the
checks that it makes of a set that is there.

## Implementation notes

The files are those of a POSIX system: a name leads to a node, which has the content, the mode and
the owner, and a second name may lead to the same node.
-/

namespace MediaBridge.Deploy

open Foundation

/-- `SECRET_NAMES` -/
inductive SecretName
  /-- `db-password.secret` -/
  | dbPassword
  /-- `control-database-url.secret` -/
  | controlDatabaseUrl
  /-- `control-security-pepper.secret` -/
  | controlSecurityPepper
  /-- `snapshot-private-key.pem` -/
  | snapshotPrivateKey
  /-- `snapshot-public-key.secret` -/
  | snapshotPublicKey
  /-- `receipt-secret.secret` -/
  | receiptSecret
deriving DecidableEq

/-- The order in which the files are made. -/
def SecretName.all : List SecretName :=
  [.dbPassword, .controlDatabaseUrl, .controlSecurityPepper, .snapshotPrivateKey,
    .snapshotPublicKey, .receiptSecret]

theorem SecretName.mem_all (n : SecretName) : n ∈ SecretName.all := by
  cases n <;> decide

inductive SetupError
  /-- The `SecretBootstrapError` with its code. -/
  | bootstrap (code : String)
  /-- Another exception. -/
  | raised
deriving DecidableEq

section Bytes

/-- The bytes of a text that is ASCII. -/
def asciiBytes (s : Str) : Bytes := s.map fun c => Utf8.byte c.val

/-- The characters with the numbers of the bytes. -/
def latin (data : Bytes) : Str := data.map fun b => cp b.val

/-- Whether `bytes.strip` removes a byte. -/
def isSpaceByte (b : Byte) : Bool := b.val == 32 || (9 ≤ b.val && b.val ≤ 13)

/-- `data.strip()` -/
def stripBytes (data : Bytes) : Bytes :=
  (data.dropWhile isSpaceByte).rdropWhile isSpaceByte

/-- `b"\n"` -/
def newline : Bytes := [10]

/-- A digit of `bytes.hex`. -/
def hexByte (d : Fin 16) : Byte := Utf8.byte (if d.val < 10 then 48 + d.val else 87 + d.val)

/-- `[0-9a-f]` -/
def isHexByte (b : Byte) : Bool :=
  (48 ≤ b.val && b.val ≤ 57) || (97 ≤ b.val && b.val ≤ 102)

/-- `secrets.token_hex`, of the bytes that are drawn. -/
def tokenHex (draw : Bytes) : Bytes :=
  draw.flatMap fun b =>
    [hexByte ⟨b.val / 16, by omega⟩, hexByte ⟨b.val % 16, Nat.mod_lt _ (by decide)⟩]

/-- `[0-9a-f]{64}` -/
def isHexToken (data : Bytes) : Bool := data.length == 64 && data.all isHexByte

variable {data : Bytes}

theorem stripBytes_newline (h : ∀ b ∈ data, isSpaceByte b = false) :
    stripBytes (data ++ newline) = data := by
  have hkeep (l : Bytes) (hl : ∀ b ∈ l, isSpaceByte b = false) : l.dropWhile isSpaceByte = l := by
    rw [List.dropWhile_eq_self_iff]
    intro hpos
    rw [hl _ (List.getElem_mem hpos)]
    exact Bool.false_ne_true
  have hstart : (data ++ newline).dropWhile isSpaceByte =
      if data = [] then [] else data ++ newline := by
    cases data with
    | nil => rfl
    | cons b rest =>
        rw [List.cons_append, List.dropWhile_cons_of_neg]
        · rfl
        · rw [h b List.mem_cons_self]
          exact Bool.false_ne_true
  rw [stripBytes, hstart]
  split
  · next hnil =>
      rw [hnil]
      rfl
  · rw [List.rdropWhile, List.reverse_append]
    have hnew : newline.reverse = [10] := rfl
    rw [hnew, List.singleton_append, List.dropWhile_cons_of_pos rfl, hkeep]
    · exact List.reverse_reverse data
    · intro b hb
      exact h b (List.mem_reverse.mp hb)

theorem isHexByte_hexByte (d : Fin 16) : isHexByte (hexByte d) = true := by
  revert d
  decide

theorem isSpaceByte_of_isHexByte {b : Byte} (h : isHexByte b = true) : isSpaceByte b = false := by
  simp only [isHexByte, isSpaceByte, Bool.or_eq_true, Bool.and_eq_true, decide_eq_true_eq,
    Bool.or_eq_false_iff, Bool.and_eq_false_iff, beq_eq_false_iff_ne, decide_eq_false_iff_not]
    at h ⊢
  omega

theorem length_tokenHex (draw : Bytes) : (tokenHex draw).length = 2 * draw.length := by
  induction draw with
  | nil => rfl
  | cons b rest ih =>
      change (tokenHex rest).length + 2 = _
      rw [ih, List.length_cons]
      omega

theorem isHexByte_of_mem_tokenHex {draw : Bytes} {b : Byte} (h : b ∈ tokenHex draw) :
    isHexByte b = true := by
  obtain ⟨a, -, ha⟩ := List.mem_flatMap.mp h
  rcases List.mem_cons.mp ha with rfl | ha
  · exact isHexByte_hexByte _
  · rw [List.mem_singleton.mp ha]
    exact isHexByte_hexByte _

theorem stripBytes_tokenHex (draw : Bytes) :
    stripBytes (tokenHex draw ++ newline) = tokenHex draw :=
  stripBytes_newline fun _ hb => isSpaceByte_of_isHexByte (isHexByte_of_mem_tokenHex hb)

theorem isHexToken_tokenHex {draw : Bytes} (h : draw.length = 32) :
    isHexToken (tokenHex draw) = true := by
  rw [isHexToken, length_tokenHex, h, List.all_eq_true.mpr fun _ hb => isHexByte_of_mem_tokenHex hb]
  rfl

end Bytes

section Values

/-- `openssl pkey -pubout -outform DER`: what it prints for a private key. -/
structure OpenSsl where
  publicKeyDer : Bytes → Option Bytes
  publicKeyDer_nil : publicKeyDer [] = none

/-- `ED25519_SPKI_PREFIX` -/
def spkiStart : Bytes := [0x30, 0x2a, 0x30, 0x05, 0x06, 0x03, 0x2b, 0x65, 0x70, 0x03, 0x21, 0x00]

/-- `_openssl_public_key` -/
def opensslPublicKey (O : OpenSsl) (privateKey : Bytes) : Except SetupError Bytes :=
  match O.publicKeyDer privateKey with
  | none => .error (.bootstrap "snapshot_key_invalid")
  | some der =>
      if der.length ≠ spkiStart.length + 32 ∨ ¬ spkiStart <+: der then
        .error (.bootstrap "snapshot_key_invalid")
      else .ok (der.drop (der.length - 32))

/-- What is drawn for a set, and what `openssl genpkey` writes, if it succeeds. -/
structure SecretSetDraw where
  password : Bytes
  pepper : Bytes
  receipt : Bytes
  privateKey : Option Bytes
  password_length : password.length = 32
  pepper_length : pepper.length = 32
  receipt_length : receipt.length = 32

/-- `postgresql+psycopg://media_bridge:…@media-bridge-db:5432/media_bridge` -/
def databaseUrl (password : Bytes) : Bytes :=
  asciiBytes (lit "postgresql+psycopg://media_bridge:") ++ password ++
    asciiBytes (lit "@media-bridge-db:5432/media_bridge")

/-- `_generate_keypair`: the private key, and the content of the file of the public one. -/
def generateKeypair (O : OpenSsl) (privateKey : Option Bytes) : Except SetupError (Bytes × Bytes) :=
  match privateKey with
  | none => .error (.bootstrap "snapshot_key_generation_failed")
  | some privateKey => do
      let publicKey ← opensslPublicKey O privateKey
      return (privateKey, asciiBytes (Base64.encodeUrl publicKey) ++ newline)

/-- `_generated_values` -/
def generatedValues (O : OpenSsl) (draw : SecretSetDraw) :
    Except SetupError (SecretName → Bytes) := do
  let dbPassword := tokenHex draw.password
  let (privateKey, publicKey) ← generateKeypair O draw.privateKey
  return fun
    | .dbPassword => dbPassword ++ newline
    | .controlDatabaseUrl => databaseUrl dbPassword ++ newline
    | .controlSecurityPepper => tokenHex draw.pepper ++ newline
    | .snapshotPrivateKey => privateKey
    | .snapshotPublicKey => publicKey
    | .receiptSecret => tokenHex draw.receipt ++ newline

/-- The checks of `_validate_existing` on what the files contain. -/
def checkValues (O : OpenSsl) (values : SecretName → Bytes) : Except SetupError Unit :=
  let dbPassword := stripBytes (values .dbPassword)
  let pepper := stripBytes (values .controlSecurityPepper)
  let receiptSecret := stripBytes (values .receiptSecret)
  if ¬ isHexToken dbPassword then .error (.bootstrap "secret_set_invalid")
  else if stripBytes (values .controlDatabaseUrl) ≠ databaseUrl dbPassword then
    .error (.bootstrap "secret_set_invalid")
  else if pepper.length < 32 ∨ receiptSecret.length < 32 then
    .error (.bootstrap "secret_set_invalid")
  else
    match Base64.decodeUrlLoose (latin (stripBytes (values .snapshotPublicKey)) ++ lit "=") with
    | none => .error (.bootstrap "secret_set_invalid")
    | some publicKey =>
        if publicKey.length ≠ 32 then .error (.bootstrap "secret_set_invalid")
        else do
          let expected ← opensslPublicKey O (values .snapshotPrivateKey)
          if expected ≠ publicKey then .error (.bootstrap "secret_set_invalid") else .ok ()

variable {O : OpenSsl} {draw : SecretSetDraw} {values : SecretName → Bytes} {publicKey : Bytes}

theorem length_opensslPublicKey {privateKey : Bytes}
    (h : opensslPublicKey O privateKey = .ok publicKey) : publicKey.length = 32 := by
  unfold opensslPublicKey at h
  split at h
  · cases h
  · next der _ =>
      split at h
      · cases h
      · next hder =>
          cases h
          push Not at hder
          rw [List.length_drop, hder.1]
          rfl

/-- A character of ASCII that is no space. -/
def isVisible (c : CodePoint) : Bool := 33 ≤ c.val && c.val < 128

theorem isVisible_iff {c : CodePoint} : isVisible c = true ↔ 33 ≤ c.val ∧ c.val < 128 := by
  simp [isVisible]

theorem latin_asciiBytes {s : Str} (h : s.all isVisible = true) : latin (asciiBytes s) = s := by
  rw [latin, asciiBytes, List.map_map]
  conv_rhs => rw [← List.map_id s]
  apply List.map_congr_left
  intro c hc
  obtain ⟨-, hlt⟩ := isVisible_iff.mp (List.all_eq_true.mp h c hc)
  apply Fin.ext
  simp only [Function.comp, Utf8.byte, cp, id]
  omega

theorem isSpaceByte_asciiBytes {s : Str} (h : s.all isVisible = true) :
    ∀ b ∈ asciiBytes s, isSpaceByte b = false := by
  intro b hb
  obtain ⟨c, hc, rfl⟩ := List.mem_map.mp hb
  obtain ⟨hlow, hhigh⟩ := isVisible_iff.mp (List.all_eq_true.mp h c hc)
  have hval : (Utf8.byte c.val).val = c.val := Nat.mod_eq_of_lt (by omega)
  simp only [isSpaceByte, hval, Bool.or_eq_false_iff, Bool.and_eq_false_iff, beq_eq_false_iff_ne,
    decide_eq_false_iff_not]
  omega

theorem isVisible_encodeUrl (data : Bytes) : (Base64.encodeUrl data).all isVisible = true := by
  have hletter : ∀ s : Base64.Sextet, isVisible (Base64.toUrl (Base64.letter s)) = true := by decide
  rw [List.all_eq_true]
  exact Base64.forall_mem_encodeUrl hletter data

/-- The file of a public key is read back. -/
theorem decode_publicKey (h : publicKey.length = 32) :
    Base64.decodeUrlLoose
      (latin (stripBytes (asciiBytes (Base64.encodeUrl publicKey) ++ newline)) ++ lit "=") =
        some publicKey := by
  have hvisible := isVisible_encodeUrl publicKey
  rw [stripBytes_newline (isSpaceByte_asciiBytes hvisible), latin_asciiBytes hvisible]
  have hpad : lit "=" = List.replicate (Base64.padCount publicKey.length) Base64.pad := by
    rw [h]
    rfl
  rw [hpad]
  exact Base64.decodeUrlLoose_encodeUrl publicKey

theorem strip_databaseUrl (draw : Bytes) :
    stripBytes (databaseUrl (tokenHex draw) ++ newline) = databaseUrl (tokenHex draw) := by
  apply stripBytes_newline
  intro b hb
  rcases List.mem_append.mp hb with hb | hend
  · rcases List.mem_append.mp hb with hstart | hhex
    · exact isSpaceByte_asciiBytes rfl b hstart
    · exact isSpaceByte_of_isHexByte (isHexByte_of_mem_tokenHex hhex)
  · exact isSpaceByte_asciiBytes rfl b hend

/-- A generated set has a key pair, and the values that belong together. -/
theorem values_of_generated (h : generatedValues O draw = .ok values) :
    ∃ privateKey publicKey, draw.privateKey = some privateKey ∧
      opensslPublicKey O privateKey = .ok publicKey ∧
      values .dbPassword = tokenHex draw.password ++ newline ∧
      values .controlDatabaseUrl = databaseUrl (tokenHex draw.password) ++ newline ∧
      values .controlSecurityPepper = tokenHex draw.pepper ++ newline ∧
      values .snapshotPrivateKey = privateKey ∧
      values .snapshotPublicKey = asciiBytes (Base64.encodeUrl publicKey) ++ newline ∧
      values .receiptSecret = tokenHex draw.receipt ++ newline := by
  unfold generatedValues generateKeypair at h
  obtain ⟨⟨privateFile, publicFile⟩, hpair, hvalues⟩ := ok_of_bind h
  cases hkey : draw.privateKey with
  | none =>
      rw [hkey] at hpair
      cases hpair
  | some privateKey =>
      simp only [hkey] at hpair
      obtain ⟨publicKey, hpublic, hfiles⟩ := ok_of_bind hpair
      cases hfiles
      cases hvalues
      exact ⟨_, publicKey, rfl, hpublic, rfl, rfl, rfl, rfl, rfl, rfl⟩

/-- A generated set passes the checks of an existing one. -/
theorem checkValues_generated (h : generatedValues O draw = .ok values) :
    checkValues O values = .ok () := by
  obtain ⟨privateKey, publicKey, -, hpublic, hpassword, hurl, hpepper, hprivate, hpublicFile,
    hreceipt⟩ := values_of_generated h
  have hlength := length_opensslPublicKey hpublic
  have hfirst : stripBytes (values .dbPassword) = tokenHex draw.password := by
    rw [hpassword, stripBytes_tokenHex]
  have hsecond : stripBytes (values .controlDatabaseUrl) =
      databaseUrl (tokenHex draw.password) := by
    rw [hurl, strip_databaseUrl]
  have hthird : (stripBytes (values .controlSecurityPepper)).length = 64 := by
    rw [hpepper, stripBytes_tokenHex, length_tokenHex, draw.pepper_length]
  have hlast : (stripBytes (values .receiptSecret)).length = 64 := by
    rw [hreceipt, stripBytes_tokenHex, length_tokenHex, draw.receipt_length]
  have hdecoded : Base64.decodeUrlLoose
      (latin (stripBytes (values .snapshotPublicKey)) ++ lit "=") = some publicKey := by
    rw [hpublicFile]
    exact decode_publicKey hlength
  unfold checkValues
  simp [hfirst, hsecond, hthird, hlast, hdecoded, isHexToken_tokenHex draw.password_length,
    hlength, hprivate, hpublic, bind, Except.bind]

/-- Every file of a generated set has a content. -/
theorem ne_nil_of_generated (h : generatedValues O draw = .ok values) (n : SecretName) :
    values n ≠ [] := by
  obtain ⟨privateKey, publicKey, -, hpublic, hpassword, hurl, hpepper, hprivate, hpublicFile,
    hreceipt⟩ := values_of_generated h
  have hend (data : Bytes) : data ++ newline ≠ [] := by simp [newline]
  cases n with
  | dbPassword => exact hpassword ▸ hend _
  | controlDatabaseUrl => exact hurl ▸ hend _
  | controlSecurityPepper => exact hpepper ▸ hend _
  | snapshotPrivateKey =>
      rw [hprivate]
      rintro rfl
      rw [opensslPublicKey, O.publicKeyDer_nil] at hpublic
      cases hpublic
  | snapshotPublicKey => exact hpublicFile ▸ hend _
  | receiptSecret => exact hreceipt ▸ hend _

end Values

section Files

/-- What a name leads to. -/
structure Node where
  content : Bytes
  mode : Nat
  owner : Nat
deriving DecidableEq

/-- A name in the directory of the secrets. -/
inductive DirName
  | secret (n : SecretName)
  /-- `.secret-bootstrap.lock` -/
  | lock
  /-- `.secret-bootstrap-` and what `mkstemp` draws. -/
  | temporary (draw : Nat)
deriving DecidableEq

theorem DirName.secret_ne_lock (n : SecretName) : secret n ≠ lock := by
  rintro ⟨⟩

/-- What is under a name. -/
inductive DirEntry
  | file (node : Nat)
  /-- A symbolic link, a directory or something else. -/
  | other
deriving DecidableEq

/-- The directory of the secrets. -/
structure SecretsDirectory where
  entries : Entries DirName DirEntry
  nodes : List Node
deriving DecidableEq

namespace SecretsDirectory

variable (d : SecretsDirectory)

/-- The node of a file. -/
def node? (name : DirName) : Option (Nat × Node) :=
  match Entries.get? d.entries name with
  | some (.file i) => (d.nodes[i]?).map (i, ·)
  | _ => none

/-- A new file with mode `0o600`. -/
def create (name : DirName) (owner : Nat) : SecretsDirectory where
  entries := Entries.set d.entries name (.file d.nodes.length)
  nodes := d.nodes ++ [⟨[], 0o600, owner⟩]

def setNode (i : Nat) (node : Node) : SecretsDirectory := { d with nodes := d.nodes.set i node }

def link (name : DirName) (i : Nat) : SecretsDirectory :=
  { d with entries := Entries.set d.entries name (.file i) }

/-- `unlink(missing_ok=True)` -/
def unlink (name : DirName) : SecretsDirectory :=
  { d with entries := Entries.erase d.entries name }

end SecretsDirectory

/-- `owner_ids`: the user of the application and the one of the database. -/
structure OwnerIds where
  application : Nat
  database : Nat
deriving DecidableEq

/-- Whose file a secret is to be. -/
def OwnerIds.owner (ids : OwnerIds) : SecretName → Nat
  | .dbPassword => ids.database
  | _ => ids.application

/-- The checks of `_validate_existing` on one file. -/
def checkFile (d : SecretsDirectory) (ownerIds : Option OwnerIds) (n : SecretName) :
    Except SetupError Unit :=
  match d.node? (.secret n) with
  | none => .error (.bootstrap "secret_set_invalid")
  | some (_, node) =>
      if node.content = [] then .error (.bootstrap "secret_set_invalid")
      else if node.mode ≠ 0o400 then .error (.bootstrap "secret_permissions_invalid")
      else
        match ownerIds with
        | none => .ok ()
        | some ids =>
            if node.owner ≠ ids.owner n then .error (.bootstrap "secret_owner_invalid") else .ok ()

/-- What a file contains. -/
def contentOf (d : SecretsDirectory) (n : SecretName) : Bytes :=
  ((d.node? (.secret n)).map fun found => found.2.content).getD []

/-- `_validate_existing` -/
def validateExisting (O : OpenSsl) (d : SecretsDirectory) (ownerIds : Option OwnerIds) :
    Except SetupError Unit := do
  SecretName.all.forM (checkFile d ownerIds)
  checkValues O (contentOf d)

/-- A generated set is there: whole, for its owners alone and not to be written. -/
def Installed (O : OpenSsl) (d : SecretsDirectory) (ownerIds : Option OwnerIds) : Prop :=
  ∃ draw values, generatedValues O draw = .ok values ∧ ∀ n, ∃ i node,
    d.node? (.secret n) = some (i, node) ∧ node.content = values n ∧ node.mode = 0o400 ∧
      ∀ ids, ownerIds = some ids → node.owner = ids.owner n

variable {O : OpenSsl} {d : SecretsDirectory} {ownerIds : Option OwnerIds}

/-- A set that has been installed passes the checks. -/
theorem Installed.validateExisting (h : Installed O d ownerIds) :
    validateExisting O d ownerIds = .ok () := by
  obtain ⟨draw, values, hvalues, hfiles⟩ := h
  have hfile : checkFile d ownerIds = fun _ => .ok () := by
    funext n
    obtain ⟨i, node, hnode, hcontent, hmode, howner⟩ := hfiles n
    simp only [checkFile, hnode]
    rw [if_neg (hcontent ▸ ne_nil_of_generated hvalues n), if_neg (not_not.mpr hmode)]
    cases ownerIds with
    | none => rfl
    | some ids => exact if_neg (not_not.mpr (howner ids rfl))
  have hcontent : contentOf d = values := by
    funext n
    obtain ⟨i, node, hnode, hcontent, -⟩ := hfiles n
    rw [contentOf, hnode]
    exact hcontent
  rw [Deploy.validateExisting, hcontent, hfile]
  exact checkValues_generated hvalues

end Files

end MediaBridge.Deploy
