import MediaBridge.Control.Accounts
import MediaBridge.Control.Limiters
import MediaBridge.Control.Totp
import MediaBridge.Foundation.Interleaving
import MediaBridge.Foundation.Rows

/-!
# Authentication of administrators

The entry points of `ControlPlaneService` in `media_bridge_control/bootstrap.py` that check a
password, a one-time code or a recovery code, with the limiter that some of them ask first.

## Implementation notes

A call reads the clock and asks the limiter in one step; its transaction is another one, since it
holds the row of the account or reads one row only; and it tells the limiter in a third one. The
enrollment with a password has two transactions. What a call draws comes with it. `facts` is a
record of what the calls have done, which the program does not keep.
-/

namespace MediaBridge.Control

open Foundation MediaBridge.Core Gateway

/-- A row of `recovery_codes`. -/
structure RecoveryCode where
  userId : Uuid
  codeDigest : Str
  usedAt : Option Instant := none
deriving DecidableEq

/-- A row of `admin_sessions`. -/
structure AdminSession where
  selector : Str
  sessionDigest : Str
  csrfDigest : Str
  userId : Uuid
  expiresAt : Instant
  revokedAt : Option Instant := none
deriving DecidableEq

/-- The tables that authentication reads and writes. -/
structure AccountTables where
  users : List User
  recoveryCodes : List RecoveryCode := []
  sessions : List AdminSession := []
deriving DecidableEq

/-- What a `ControlPlaneService` is built with, and the libraries it calls. -/
structure AuthenticationContext where
  security : SecurityContext
  unicode : UnicodeData
  passwords : PasswordHasher
  totp : TotpLibrary
  /-- `encrypt_secret`, with what is drawn for it. -/
  encryptSecret : Bytes → Str → Str
  /-- `decrypt_secret`; `none` is a `ValueError`. -/
  decryptSecret : Str → Option Str
  decrypt_encrypt : ∀ draw secret, decryptSecret (encryptSecret draw secret) = some secret
  limiter : LoginRateLimiter
  /-- `_recovery_mailer is not None`. -/
  mails : Bool

/-- What is drawn for a session. -/
structure SessionDraw where
  token : TokenDraw
  csrfBytes : Bytes

/-- What is drawn for a secret and for its encryption. -/
structure SecretDraw where
  secretBytes : Bytes
  fernetBytes : Bytes
deriving DecidableEq

/-- A call of an entry point. -/
inductive AuthCall
  | login (username password clientKey : Str) (draw : SessionDraw)
  | loginWithTotp (username password code clientKey : Str) (draw : SessionDraw)
  | beginTotpEnrollmentWithPassword (username password : Str) (draw : SecretDraw)
  /-- `authenticate`, and `begin_totp_enrollment` for its account. -/
  | beginTotpEnrollment (sessionToken : Str) (draw : SecretDraw)
  | confirmTotpEnrollment (userId : Uuid) (code : Str)
  | requestRecoveryCode (username clientKey : Str) (codeBytes : Bytes)
  | loginWithRecoveryCode (username password recoveryCode clientKey : Str) (draw : SessionDraw)
  | recoverPassword (username recoveryCode newPassword clientKey : Str) (salt : Bytes)

/-- The entry points of `AuthCall`. -/
inductive AuthEntry
  | login
  | loginWithTotp
  | beginTotpEnrollmentWithPassword
  | beginTotpEnrollment
  | confirmTotpEnrollment
  | requestRecoveryCode
  | loginWithRecoveryCode
  | recoverPassword
deriving DecidableEq

namespace AuthCall

def entry : AuthCall → AuthEntry
  | .login .. => .login
  | .loginWithTotp .. => .loginWithTotp
  | .beginTotpEnrollmentWithPassword .. => .beginTotpEnrollmentWithPassword
  | .beginTotpEnrollment .. => .beginTotpEnrollment
  | .confirmTotpEnrollment .. => .confirmTotpEnrollment
  | .requestRecoveryCode .. => .requestRecoveryCode
  | .loginWithRecoveryCode .. => .loginWithRecoveryCode
  | .recoverPassword .. => .recoverPassword

/-- `client_key`, of the entry points that take one. -/
def clientKey : AuthCall → Option Str
  | .login _ _ clientKey _ => some clientKey
  | .loginWithTotp _ _ _ clientKey _ => some clientKey
  | .beginTotpEnrollmentWithPassword .. => none
  | .beginTotpEnrollment .. => none
  | .confirmTotpEnrollment .. => none
  | .requestRecoveryCode _ clientKey _ => some clientKey
  | .loginWithRecoveryCode _ _ _ clientKey _ => some clientKey
  | .recoverPassword _ _ _ clientKey _ => some clientKey

end AuthCall

/-- `rate_key` of an entry point; `none` where the limiter is not asked. -/
def rateKey (entry : AuthEntry) (clientKey : Option Str) (account : Str) : Option Str :=
  let joined := (clientKey.getD []) ++ cp 58 :: account
  match entry with
  | .login => some joined
  | .loginWithTotp => none
  | .beginTotpEnrollmentWithPassword => none
  | .beginTotpEnrollment => none
  | .confirmTotpEnrollment => none
  | .requestRecoveryCode => some (lit "recovery-request:" ++ joined)
  | .loginWithRecoveryCode => some (lit "recovery-login:" ++ joined)
  | .recoverPassword => some (lit "recovery:" ++ joined)

/-- Why a session is issued: a password alone, a one-time code for a secret, or a recovery code. -/
inductive Grounds
  | password
  | totp (secret code : Str) (now : Instant)
  | recoveryCode (raw : Str) (code : RecoveryCode)
deriving DecidableEq

/-- Something that a call has done. -/
inductive AuthFact
  /-- A secret check of an entry point has failed. -/
  | failedCheck (entry : AuthEntry) (account : Str) (clientKey : Option Str) (now : Instant)
  /-- A recovery code has been mailed. -/
  | mailed (account : Str) (clientKey : Option Str) (now : Instant)
  | issued (userId : Uuid) (grounds : Grounds)
  /-- A secret has been stored, on the strength of a session or of a password. -/
  | enrolled (userId : Uuid) (secret : Str) (bySession : Bool)
deriving DecidableEq

/-- How a transaction ends. -/
inductive Outcome
  /-- A secret does not match; whether one has been compared. -/
  | rejected (compared : Bool) (error : String)
  /-- Another `AuthenticationError` or `ControlPlaneError`. -/
  | refused (error : String)
  /-- Another exception. -/
  | raised
  | committed (tables : AccountTables) (facts : List AuthFact) (userId : Uuid)
deriving DecidableEq

/-- A row with another secret for one-time codes. -/
def User.withSecret (user : User) (ciphertext : Str) : User :=
  { user with totpSecretCiphertext := some ciphertext }

namespace AuthenticationContext

variable (C : AuthenticationContext) (tables : AccountTables)

/-- `matches`; `none` is a `UnicodeEncodeError`. -/
def matchesDigest (raw expected purpose : Str) : Option Bool :=
  (C.security.digest raw purpose).map fun digest => decide (digest = expected)

/-- A user by name. -/
def userNamed (name : Str) : Option User := tables.users.find? fun user => user.username = name

/-- A session is stored for an account, eight hours long; a selector is there only once. -/
def issueSession (user : User) (grounds : Grounds) (draw : SessionDraw) (now : Instant) : Outcome :=
  let csrfToken := Base64.encodeUrl draw.csrfBytes
  match C.security.issueToken (lit "mbs") (lit "session") draw.token,
      C.security.digest csrfToken (lit "csrf") with
  | some token, some csrfDigest =>
      if tables.sessions.any fun session => session.selector = token.selector then .raised
      else .committed { tables with
        sessions := tables.sessions ++
          [⟨token.selector, token.digest, csrfDigest, user.id, now + 28800000000, none⟩] }
        [.issued user.id grounds] user.id
  | _, _ => .raised

/-- The user and the password that `login`, `login_with_totp` and the enrollment check. -/
def passwordCheck (name password : Str) : Except Outcome User :=
  match userNamed tables name with
  | none => .error (.rejected false "invalid_credentials")
  | some user =>
      if ¬ user.isActive then .error (.rejected false "invalid_credentials")
      else if ¬ C.passwords.verify user.passwordHash password then
        .error (.rejected true "invalid_credentials")
      else .ok user

/-- The transaction of `login`. -/
def login (name password : Str) (draw : SessionDraw) (now : Instant) : Outcome :=
  match C.passwordCheck tables name password with
  | .error outcome => outcome
  | .ok user =>
      if user.totpRequired ∧ user.totpSecretCiphertext.isNone then .refused "totp_required"
      else if user.totpSecretCiphertext.isSome then .refused "totp_required"
      else C.issueSession tables user .password draw now

/-- The transaction of `login_with_totp`. -/
def loginWithTotp (name password code : Str) (draw : SessionDraw) (now : Instant) : Outcome :=
  match C.passwordCheck tables name password with
  | .error outcome => outcome
  | .ok user =>
      match user.totpSecretCiphertext with
      | none => .rejected false "invalid_credentials"
      | some ciphertext =>
          match C.decryptSecret ciphertext with
          | none => .rejected true "totp_invalid"
          | some secret =>
              match Totp.verifyCode C.totp secret code now with
              | .totpError => .rejected true "totp_invalid"
              | .typeError => .raised
              | .accepted => C.issueSession tables user (.totp secret code now) draw now

/-- The first transaction of `begin_totp_enrollment_with_password`. -/
def verifyForEnrollment (name password : Str) : Outcome :=
  match C.passwordCheck tables name password with
  | .error outcome => outcome
  | .ok user => .committed tables [] user.id

/-- `begin_totp_enrollment`. -/
def beginTotpEnrollment (userId : Uuid) (bySession : Bool) (draw : SecretDraw) : Outcome :=
  match Rows.lookup User.id tables.users userId with
  | none => .refused "user_not_found"
  | some user =>
      if ¬ user.isActive then .refused "user_not_found"
      else
        let secret := Totp.generateSecret draw.secretBytes
        .committed { tables with
          users := Rows.put User.id tables.users
            (user.withSecret (C.encryptSecret draw.fernetBytes secret)) }
          [.enrolled user.id secret bySession] user.id

/-- `selector` of a session token. -/
def sessionSelector (raw : Str) : Option Str :=
  if ¬ raw.startsWith (lit "mbs_") then none
  else
    match Str.partitionAt (cp 46) (raw.drop 4) with
    | (_, none) => none
    | (selector, some secret) =>
        if selector.isEmpty ∨ secret.isEmpty ∨ 32 < selector.length ∨ 64 < secret.length then none
        else some selector

/-- `authenticate`: the session of a token, and its user. -/
def authenticate (sessionToken : Str) (now : Instant) : Except Outcome (AdminSession × User) :=
  match sessionSelector sessionToken with
  | none => .error (.refused "unauthorized")
  | some selector =>
      match Rows.lookup AdminSession.selector tables.sessions selector with
      | none => .error (.refused "unauthorized")
      | some stored =>
          if stored.revokedAt.isSome ∨ stored.expiresAt ≤ now then .error (.refused "unauthorized")
          else
            match C.matchesDigest sessionToken stored.sessionDigest (lit "session") with
            | none => .error .raised
            | some false => .error (.refused "unauthorized")
            | some true =>
                match Rows.lookup User.id tables.users stored.userId with
                | none => .error (.refused "unauthorized")
                | some user =>
                    if user.isActive then .ok (stored, user) else .error (.refused "unauthorized")

/-- An enrollment that is begun with a session. -/
def enrollWithSession (sessionToken : Str) (draw : SecretDraw) (now : Instant) : Outcome :=
  match C.authenticate tables sessionToken now with
  | .error outcome => outcome
  | .ok (_, user) => C.beginTotpEnrollment tables user.id true draw

/-- `confirm_totp_enrollment`. -/
def confirmTotpEnrollment (userId : Uuid) (code : Str) (now : Instant) : Outcome :=
  match Rows.lookup User.id tables.users userId with
  | none => .refused "totp_not_enrolled"
  | some user =>
      match user.totpSecretCiphertext with
      | none => .refused "totp_not_enrolled"
      | some ciphertext =>
          match C.decryptSecret ciphertext with
          | none => .rejected true "totp_invalid"
          | some secret =>
              match Totp.verifyCode C.totp secret code now with
              | .totpError => .rejected true "totp_invalid"
              | .typeError => .raised
              | .accepted => .committed tables [] user.id

/-- The transaction of `request_recovery_code`. -/
def requestRecoveryCode (name : Str) (codeBytes : Bytes) : Outcome :=
  match userNamed tables name with
  | none => .refused "recovery_unavailable"
  | some user =>
      if ¬ user.isActive ∨ (user.recoveryEmail.getD []).isEmpty then .refused "recovery_unavailable"
      else
        match C.security.digest (Base64.encodeUrl codeBytes) (lit "recovery") with
        | none => .raised
        | some digest =>
            if tables.recoveryCodes.any fun code => code.codeDigest = digest then .raised
            else .committed { tables with
              recoveryCodes := tables.recoveryCodes ++ [⟨user.id, digest, none⟩] } [] user.id

/-- The unused recovery codes of an account. -/
def unusedCodes (userId : Uuid) : List RecoveryCode :=
  tables.recoveryCodes.filter fun code => code.userId = userId ∧ code.usedAt = none

/-- The unused codes of an account that a raw code matches; `none` is a `UnicodeEncodeError`. -/
def matchingCodes (userId : Uuid) (raw : Str) : Option (List RecoveryCode) :=
  let codes := unusedCodes tables userId
  if codes.isEmpty then some []
  else (C.security.digest raw (lit "recovery")).map fun digest =>
    codes.filter fun code => code.codeDigest = digest

/-- The tables after a recovery code has been used. -/
def useCode (code : RecoveryCode) (now : Instant) : AccountTables :=
  { tables with
    recoveryCodes := Rows.put RecoveryCode.codeDigest tables.recoveryCodes
      { code with usedAt := some now } }

/-- The transaction of `login_with_recovery_code`. -/
def loginWithRecoveryCode (name password recoveryCode : Str) (draw : SessionDraw) (now : Instant) :
    Outcome :=
  match userNamed tables name with
  | none => .rejected false "recovery_rejected"
  | some user =>
      match C.matchingCodes tables user.id recoveryCode with
      | none => .raised
      | some found =>
          if ¬ user.isActive ∨ ¬ C.passwords.verify user.passwordHash password then
            .rejected true "recovery_rejected"
          else
            match found with
            | [] => .rejected true "recovery_rejected"
            | code :: _ =>
                C.issueSession (useCode tables code now) user
                  (.recoveryCode recoveryCode code) draw now

/-- The transaction of `recover_password`. -/
def recoverPassword (name recoveryCode newPassword : Str) (salt : Bytes) (now : Instant) :
    Outcome :=
  match C.passwords.hash salt newPassword with
  | none => .raised
  | some passwordHash =>
      match userNamed tables name with
      | none => .rejected false "recovery_rejected"
      | some user =>
          match if user.isActive then C.matchingCodes tables user.id recoveryCode else some [] with
          | none => .raised
          | some [code] =>
              .committed { useCode tables code now with
                users := Rows.put User.id tables.users { user with passwordHash := passwordHash }
                sessions := tables.sessions.map fun session =>
                  if session.userId = user.id ∧ session.revokedAt = none then
                    { session with revokedAt := some now }
                  else session } [] user.id
          | some _ => .rejected true "recovery_rejected"

/-- The first transaction of a call, for the name that it has checked. -/
def transact (name : Str) (now : Instant) : AuthCall → Outcome
  | .login _ password _ draw => C.login tables name password draw now
  | .loginWithTotp _ password code _ draw => C.loginWithTotp tables name password code draw now
  | .beginTotpEnrollmentWithPassword _ password _ => C.verifyForEnrollment tables name password
  | .beginTotpEnrollment sessionToken draw => C.enrollWithSession tables sessionToken draw now
  | .confirmTotpEnrollment userId code => C.confirmTotpEnrollment tables userId code now
  | .requestRecoveryCode _ _ codeBytes => C.requestRecoveryCode tables name codeBytes
  | .loginWithRecoveryCode _ password recoveryCode _ draw =>
      C.loginWithRecoveryCode tables name password recoveryCode draw now
  | .recoverPassword _ recoveryCode newPassword _ salt =>
      C.recoverPassword tables name recoveryCode newPassword salt now

section Committed

variable {C} {tables tables' : AccountTables} {facts : List AuthFact} {userId : Uuid}
  {name : Str} {now : Instant}

/-- What a session is issued on. -/
def Grounded (C : AuthenticationContext) (user : User) : Grounds → Prop
  | .password => user.totpSecretCiphertext = none
  | .totp secret code now => ∃ ciphertext, user.totpSecretCiphertext = some ciphertext ∧
      C.decryptSecret ciphertext = some secret ∧ Totp.verifyCode C.totp secret code now = .accepted
  | .recoveryCode raw code => C.matchesDigest raw code.codeDigest (lit "recovery") = some true ∧
      code.userId = user.id ∧ code.usedAt = none

/-- What a transaction that commits has done. -/
inductive Commits (C : AuthenticationContext) (tables : AccountTables) (now : Instant) :
    AuthCall → AccountTables → List AuthFact → Prop
  /-- The users and the sessions stay as they are. -/
  | same {call : AuthCall} {tables' : AccountTables} : tables'.users = tables.users →
      tables'.sessions = tables.sessions → Commits C tables now call tables' []
  | issued {call : AuthCall} {tables' : AccountTables} {user : User} {grounds : Grounds}
      {session : AdminSession} : user ∈ tables.users → C.Grounded user grounds →
      tables'.users = tables.users → tables'.sessions = tables.sessions ++ [session] →
      session.userId = user.id → Commits C tables now call tables' [.issued user.id grounds]
  /-- A password is replaced, and the sessions of its account are revoked. -/
  | recovered {call : AuthCall} {tables' : AccountTables} {user : User} {passwordHash : Str} :
      user ∈ tables.users →
      tables'.users = Rows.put User.id tables.users { user with passwordHash := passwordHash } →
      (∀ session ∈ tables'.sessions, ∃ old ∈ tables.sessions, old.userId = session.userId) →
      Commits C tables now call tables' []
  | enrolled {token : Str} {draw : SecretDraw} {tables' : AccountTables} {session : AdminSession}
      {user : User} {facts : List AuthFact} :
      C.authenticate tables token now = .ok (session, user) →
      C.beginTotpEnrollment tables user.id true draw = .committed tables' facts user.id →
      Commits C tables now (.beginTotpEnrollment token draw) tables' facts

theorem issueSession_committed {user : User} {grounds : Grounds} {draw : SessionDraw}
    (h : C.issueSession tables user grounds draw now = .committed tables' facts userId) :
    tables'.users = tables.users ∧ facts = [.issued user.id grounds] ∧
      ∃ session : AdminSession, tables'.sessions = tables.sessions ++ [session] ∧
        session.userId = user.id := by
  simp only [issueSession] at h
  split at h
  · split at h
    · cases h
    · cases h
      exact ⟨rfl, rfl, _, rfl, rfl⟩
  · cases h

/-- An enrollment stores a new secret for its account. -/
theorem beginTotpEnrollment_committed {id : Uuid} {bySession : Bool} {draw : SecretDraw}
    (h : C.beginTotpEnrollment tables id bySession draw = .committed tables' facts userId) :
    ∃ user, Rows.lookup User.id tables.users id = some user ∧ userId = id ∧
      facts = [.enrolled id (Totp.generateSecret draw.secretBytes) bySession] ∧
      tables' = { tables with
        users := Rows.put User.id tables.users (user.withSecret
          (C.encryptSecret draw.fernetBytes (Totp.generateSecret draw.secretBytes))) } := by
  unfold beginTotpEnrollment at h
  split at h
  · cases h
  · next user hfound =>
      split at h
      · cases h
      · cases h
        have hid : user.id = id := (Rows.mem_of_lookup hfound).2
        refine ⟨user, hfound, hid, ?_, rfl⟩
        rw [hid]

/-- A session that is accepted is one that is stored for the account. -/
theorem authenticate_ok {token : Str} {session : AdminSession} {user : User}
    (h : C.authenticate tables token now = .ok (session, user)) :
    session ∈ tables.sessions ∧ Rows.lookup User.id tables.users session.userId = some user := by
  unfold authenticate at h
  split at h
  · cases h
  · split at h
    · cases h
    · next stored hstored =>
        split at h
        · cases h
        · split at h
          · cases h
          · cases h
          · split at h
            · cases h
            · next found hfound =>
                split at h
                · cases h
                  exact ⟨(Rows.mem_of_lookup hstored).1, hfound⟩
                · cases h

theorem mem_of_userNamed {user : User} (h : userNamed tables name = some user) :
    user ∈ tables.users := List.mem_of_find?_eq_some h

theorem passwordCheck_ok {password : Str} {user : User}
    (h : C.passwordCheck tables name password = .ok user) : user ∈ tables.users := by
  unfold passwordCheck at h
  split at h
  · cases h
  · next found hfound =>
      split at h
      · cases h
      · split at h
        · cases h
        · cases h
          exact mem_of_userNamed hfound

/-- A check of a password rejects, when it does not find the user. -/
theorem passwordCheck_error {password : Str} {outcome : Outcome}
    (h : C.passwordCheck tables name password = .error outcome) :
    ∃ compared, outcome = .rejected compared "invalid_credentials" := by
  unfold passwordCheck at h
  split at h
  · cases h
    exact ⟨false, rfl⟩
  · split at h
    · cases h
      exact ⟨false, rfl⟩
    · split at h
      · cases h
        exact ⟨true, rfl⟩
      · cases h

/-- A matching code is an unused one of the account. -/
theorem matchingCodes_mem {raw : Str} {codes : List RecoveryCode} {code : RecoveryCode}
    (h : C.matchingCodes tables userId raw = some codes) (hcode : code ∈ codes) :
    C.matchesDigest raw code.codeDigest (lit "recovery") = some true ∧ code.userId = userId ∧
      code.usedAt = none := by
  simp only [matchingCodes] at h
  split at h
  · cases h
    cases hcode
  · obtain ⟨digest, hdigest, rfl⟩ := Option.map_eq_some_iff.mp h
    obtain ⟨hunused, hsame⟩ := List.mem_filter.mp hcode
    have huser := (List.mem_filter.mp hunused).2
    simp only [decide_eq_true_eq] at hsame huser
    refine ⟨?_, huser.1, huser.2⟩
    rw [matchesDigest, hdigest, Option.map_some, hsame]
    simp

theorem commits_of_issueSession {call : AuthCall} {user : User} {grounds : Grounds}
    {draw : SessionDraw} (start : AccountTables) (husers : start.users = tables.users)
    (hsessions : start.sessions = tables.sessions) (huser : user ∈ tables.users)
    (hgrounds : C.Grounded user grounds)
    (h : C.issueSession start user grounds draw now = .committed tables' facts userId) :
    Commits C tables now call tables' facts := by
  obtain ⟨hsame, rfl, session, hissued, hid⟩ := issueSession_committed h
  rw [husers] at hsame
  rw [hsessions] at hissued
  exact .issued huser hgrounds hsame hissued hid

theorem commits_of_login {call : AuthCall} {password : Str} {draw : SessionDraw}
    (h : C.login tables name password draw now = .committed tables' facts userId) :
    Commits C tables now call tables' facts := by
  unfold login at h
  split at h
  · next outcome herror =>
      obtain ⟨compared, rfl⟩ := passwordCheck_error herror
      cases h
  · next user hok =>
      split at h
      · cases h
      · split at h
        · cases h
        · next hnone =>
            refine commits_of_issueSession tables rfl rfl (passwordCheck_ok hok) ?_ h
            simpa [Grounded] using hnone

theorem commits_of_loginWithTotp {call : AuthCall} {password code : Str} {draw : SessionDraw}
    (h : C.loginWithTotp tables name password code draw now = .committed tables' facts userId) :
    Commits C tables now call tables' facts := by
  unfold loginWithTotp at h
  split at h
  · next outcome herror =>
      obtain ⟨compared, rfl⟩ := passwordCheck_error herror
      cases h
  · next user hok =>
      split at h
      · cases h
      · next ciphertext hcipher =>
          split at h
          · cases h
          · next secret hsecret =>
              split at h
              · cases h
              · cases h
              · next hvalid =>
                  refine commits_of_issueSession tables rfl rfl (passwordCheck_ok hok) ?_ h
                  exact ⟨ciphertext, hcipher, hsecret, hvalid⟩

theorem commits_of_enrollWithSession {token : Str} {draw : SecretDraw}
    (h : C.enrollWithSession tables token draw now = .committed tables' facts userId) :
    Commits C tables now (.beginTotpEnrollment token draw) tables' facts := by
  unfold enrollWithSession at h
  split at h
  · next outcome herror =>
      have hnot : ∀ facts, C.authenticate tables token now ≠
          .error (.committed tables' facts userId) := by
        intro facts heq
        unfold authenticate at heq
        repeat' split at heq
        all_goals cases heq
      rw [h] at herror
      exact absurd herror (hnot facts)
  · next session user hok =>
      obtain ⟨-, -, hid, -⟩ := beginTotpEnrollment_committed h
      rw [hid] at h
      exact .enrolled hok h

theorem commits_of_loginWithRecoveryCode {call : AuthCall} {password raw : Str}
    {draw : SessionDraw}
    (h : C.loginWithRecoveryCode tables name password raw draw now =
      .committed tables' facts userId) : Commits C tables now call tables' facts := by
  unfold loginWithRecoveryCode at h
  split at h
  · cases h
  · next user huser =>
      split at h
      · cases h
      · next found hfound =>
          split at h
          · cases h
          · split at h
            · cases h
            · next code rest =>
                refine commits_of_issueSession (useCode tables code now) rfl rfl
                  (mem_of_userNamed huser) ?_ h
                exact matchingCodes_mem hfound List.mem_cons_self

theorem commits_of_recoverPassword {call : AuthCall} {raw newPassword : Str} {salt : Bytes}
    (h : C.recoverPassword tables name raw newPassword salt now =
      .committed tables' facts userId) : Commits C tables now call tables' facts := by
  unfold recoverPassword at h
  split at h
  · cases h
  · split at h
    · cases h
    · next user huser =>
        split at h
        · cases h
        · cases h
          refine .recovered (mem_of_userNamed huser) rfl ?_
          intro session hsession
          obtain ⟨old, hold, rfl⟩ := List.mem_map.mp hsession
          refine ⟨old, hold, ?_⟩
          split <;> rfl
        · cases h

/-- What the transaction of a call has done, when it commits. -/
theorem commits_of_transact {call : AuthCall}
    (h : C.transact tables name now call = .committed tables' facts userId) :
    Commits C tables now call tables' facts := by
  cases call with
  | login username password clientKey draw => exact commits_of_login h
  | loginWithTotp username password code clientKey draw => exact commits_of_loginWithTotp h
  | beginTotpEnrollmentWithPassword username password draw =>
      change C.verifyForEnrollment tables name password = _ at h
      unfold verifyForEnrollment at h
      split at h
      · next outcome herror =>
          obtain ⟨compared, rfl⟩ := passwordCheck_error herror
          cases h
      · cases h
        exact .same rfl rfl
  | beginTotpEnrollment token draw => exact commits_of_enrollWithSession h
  | confirmTotpEnrollment id code =>
      change C.confirmTotpEnrollment tables id code now = _ at h
      unfold confirmTotpEnrollment at h
      repeat' split at h
      all_goals cases h
      exact .same rfl rfl
  | requestRecoveryCode username clientKey codeBytes =>
      change C.requestRecoveryCode tables name codeBytes = _ at h
      unfold requestRecoveryCode at h
      repeat' split at h
      all_goals cases h
      exact .same rfl rfl
  | loginWithRecoveryCode username password code clientKey draw =>
      exact commits_of_loginWithRecoveryCode h
  | recoverPassword username code newPassword clientKey salt => exact commits_of_recoverPassword h

end Committed

/-- The checks of a call before it asks the limiter: the name of its account, if it takes one. -/
def precheck : AuthCall → Except ControlPlaneError Str
  | .login username _ _ _ => credentialsName username
  | .loginWithTotp username _ _ _ _ => credentialsName username
  | .beginTotpEnrollmentWithPassword username _ _ => normalizedUsername C.unicode username
  | .beginTotpEnrollment _ _ => .ok []
  | .confirmTotpEnrollment _ _ => .ok []
  | .requestRecoveryCode username _ _ =>
      if C.mails then normalizedUsername C.unicode username
      else .error (.authentication "smtp_not_configured")
  | .loginWithRecoveryCode username _ _ _ _ => normalizedUsername C.unicode username
  | .recoverPassword username _ newPassword _ salt =>
      match normalizedUsername C.unicode username, C.passwords.hash salt newPassword with
      | .ok name, some _ => .ok name
      | _, _ => .error (.authentication "recovery_rejected")
where
  /-- `_username`, whose error is turned into one of the credentials. -/
  credentialsName (username : Str) : Except ControlPlaneError Str :=
    match normalizedUsername C.unicode username with
    | .ok name => .ok name
    | .error _ => .error (.authentication "invalid_credentials")

end AuthenticationContext

/-- What the calls share. -/
structure AuthState where
  tables : AccountTables
  limiter : LimiterState
  facts : List AuthFact := []
deriving DecidableEq

/-- A call: what it has still to do. -/
inductive AuthThread
  | called (call : AuthCall) (now : Instant)
  /-- The limiter has let the call pass. -/
  | admitted (call : AuthCall) (name : Str) (now : Instant)
  /-- The password of an enrollment has been checked. -/
  | verified (userId : Uuid) (draw : SecretDraw)
  /-- A recovery code has been stored, and is to be mailed. -/
  | mailing (key : Str) (name : Str) (clientKey : Option Str) (now : Instant)
  /-- A failure is to be recorded. -/
  | failed (key : Str) (now : Instant)
  /-- The failures of the key are to be cleared. -/
  | succeeded (key : Str)
  | ended

namespace AuthThread

/-- The limiter key of a call that is past the limiter and has not told it how it ended. -/
def heldKey : AuthThread → Option Str
  | .called _ _ => none
  | .admitted call name _ => rateKey call.entry call.clientKey name
  | .verified _ _ => none
  | .mailing key _ _ _ => some key
  | .failed key _ => some key
  | .succeeded key => some key
  | .ended => none

/-- How a call goes on after its transaction has rejected a secret. -/
def afterRejection (call : AuthCall) (name : Str) (now : Instant) : AuthThread :=
  match rateKey call.entry call.clientKey name with
  | some key => .failed key now
  | none => .ended

/-- How a call goes on after its transaction has committed. -/
def afterCommit (call : AuthCall) (name : Str) (now : Instant) (userId : Uuid) : AuthThread :=
  match call with
  | .beginTotpEnrollmentWithPassword _ _ draw => .verified userId draw
  | _ =>
      match rateKey call.entry call.clientKey name, call.entry with
      | some key, .requestRecoveryCode => .mailing key name call.clientKey now
      | some key, _ => .succeeded key
      | none, _ => .ended

/-- The failed check of a call, if it has compared a secret. -/
def failedCheck (call : AuthCall) (name : Str) (now : Instant) (compared : Bool) :
    List AuthFact :=
  if compared then [.failedCheck call.entry name call.clientKey now] else []

/-- One step of a call. A reading of the clock is not before the last one. -/
def next (C : AuthenticationContext) (s : AuthState) :
    AuthThread → Option (AuthState × AuthThread)
  | .called call now =>
      if now < s.limiter.now then none
      else
        match C.precheck call with
        | .error _ => some ({ s with limiter := { s.limiter with now := now } }, .ended)
        | .ok name =>
            match rateKey call.entry call.clientKey name with
            | none => some ({ s with limiter := { s.limiter with now := now } },
                .admitted call name now)
            | some key =>
                let allowed := (C.limiter.allow s.limiter.attempts key now).1
                some ({ s with limiter := C.limiter.called s.limiter (.allow key now) },
                  if allowed then .admitted call name now else .ended)
  | .admitted call name now =>
      match C.transact s.tables name now call with
      | .rejected compared _ =>
          some ({ s with facts := s.facts ++ failedCheck call name now compared },
            afterRejection call name now)
      | .refused _ => some (s, .ended)
      | .raised => some (s, .ended)
      | .committed tables facts userId =>
          some ({ s with tables := tables, facts := s.facts ++ facts },
            afterCommit call name now userId)
  | .verified userId draw =>
      match C.beginTotpEnrollment s.tables userId false draw with
      | .committed tables facts _ =>
          some ({ s with tables := tables, facts := s.facts ++ facts }, .ended)
      | .rejected _ _ => some (s, .ended)
      | .refused _ => some (s, .ended)
      | .raised => some (s, .ended)
  | .mailing key name clientKey now =>
      some ({ s with facts := s.facts ++ [.mailed name clientKey now] }, .succeeded key)
  | .failed key now =>
      some ({ s with limiter := C.limiter.called s.limiter (.recordFailure key now) }, .ended)
  | .succeeded key =>
      some ({ s with limiter := C.limiter.called s.limiter (.clear key) }, .ended)
  | .ended => none

/-- The calls of the entry points, interleaved. A call that has failed a check records it. -/
def system (C : AuthenticationContext) : TransactionSystem AuthState AuthThread where
  begins
    | .called _ _ => true
    | .admitted .. => false
    | .verified _ _ => false
    | .mailing .. => false
    | .failed _ _ => false
    | .succeeded _ => false
    | .ended => false
  next := next C
  waits _ _ := false
  aborts
    | .called _ _ => true
    | .admitted .. => true
    | .verified _ _ => true
    | .mailing .. => true
    | .failed _ _ => false
    | .succeeded _ => true
    | .ended => true
  ended := .ended

end AuthThread

section Samples

theorem limit_pos_sampleContext : 1 ≤ 1 := le_rfl

theorem window_pos_sampleContext : (0 : Int) < 300000000 := by decide

theorem keys_pos_sampleContext : 1 ≤ 10000 := by decide

/-- A service whose limiter allows one failure in five minutes, and whose codes are all zero. -/
def sampleContext : AuthenticationContext where
  security := ⟨Platform.sample, List.replicate 32 0, by decide⟩
  unicode := .ascii id
  passwords := plainPasswords
  totp := ⟨fun _ _ => List.replicate 20 0, id, CodePoint.isAsciiDigit⟩
  encryptSecret _ secret := secret
  decryptSecret := some
  decrypt_encrypt _ _ := rfl
  limiter := {
    limit := 1
    window := 300000000
    limit_pos := limit_pos_sampleContext
    window_pos := window_pos_sampleContext
    keys_pos := keys_pos_sampleContext }
  mails := true

/-- The account of the default administrator, with a confirmed secret. -/
def sampleAccount : User where
  id := 1
  username := lit "admin"
  passwordHash := lit "admin"
  totpSecretCiphertext := some (lit "JBSWY3DPEHPK3PXP")
  recoveryEmail := some (lit "admin@example.org")
  role := .admin

/-- The service before the first call. -/
def sampleAuthState : AuthState := ⟨{ users := [sampleAccount] }, { now := 0 }, []⟩

/-- The draw for a session. -/
def sampleSessionDraw : SessionDraw :=
  ⟨⟨List.replicate 12 0, List.replicate 32 0, by decide, by decide⟩, List.replicate 32 0⟩

end Samples

end MediaBridge.Control
