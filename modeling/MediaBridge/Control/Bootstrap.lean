import MediaBridge.Control.Authentication

/-!
# The first administrator

`issue_bootstrap_token`, `complete_bootstrap`, `ensure_default_admin` and `create_user` of
`ControlPlaneService` in `media_bridge_control/bootstrap.py`.

## Implementation notes

A statement of a transaction is a step, and an insertion is one step with the commit after it: until
then it only keeps out others of the same key. The row that `complete_bootstrap` selects stays
locked until its transaction ends. `made` is a record that the program does not keep.
-/

namespace MediaBridge.Control

open Foundation MediaBridge.Core Gateway

/-- A row of `bootstrap_tokens`. -/
structure BootstrapToken where
  selector : Str
  tokenDigest : Str
  expiresAt : Option Instant
  usedAt : Option Instant := none
deriving DecidableEq

/-- `SecurityContext.selector`. -/
def tokenSelector (mark raw : Str) : Option Str :=
  if ¬ raw.startsWith (mark ++ [cp 95]) then none
  else
    match Str.partitionAt (cp 46) (raw.drop (mark.length + 1)) with
    | (_, none) => none
    | (selector, some secret) =>
        if selector.isEmpty ∨ secret.isEmpty ∨ 32 < selector.length ∨ 64 < secret.length then none
        else some selector

/-- A call, with what it draws. -/
inductive BootstrapCall
  | ensureDefaultAdmin (recoveryEmail : Option Str) (userId : Uuid) (salt : Bytes)
  | issueBootstrapToken (draw : TokenDraw)
  | completeBootstrap (token username password : Str) (userId : Uuid) (salt : Bytes)
      (recoveryBytes : Vector Bytes 8)
  | createUser (username password role : Str) (userId : Uuid) (salt : Bytes)

/-- An administrator whom a bootstrap token has made. -/
structure MadeAdmin where
  selector : Str
  /-- The raw token, and when the clock was read. -/
  token : Str
  now : Instant
  userId : Uuid
deriving DecidableEq

/-- What the calls share. -/
structure BootstrapState where
  /-- The last reading of the clock. -/
  now : Instant
  users : List User := []
  recoveryCodes : List RecoveryCode := []
  tokens : List BootstrapToken := []
  made : List MadeAdmin := []
deriving DecidableEq

/-- A `complete_bootstrap` whose arguments are checked. -/
structure Completion where
  token : Str
  selector : Str
  selector_eq : tokenSelector (lit "mbb") token = some selector
  now : Instant
  username : Str
  passwordHash : Str
  userId : Uuid
  recoveryBytes : Vector Bytes 8

/-- The row that it inserts. -/
def Completion.user (c : Completion) : User :=
  { id := c.userId, username := c.username, passwordHash := c.passwordHash, role := .admin }

/-- How a call ends. -/
inductive BootstrapAnswer
  | done
  | refused (error : String)
  | raised
deriving DecidableEq

/-- A call: what it has still to do. -/
inductive BootstrapThread
  | called (call : BootstrapCall) (now : Instant)
  /-- The user of the name `admin` has been looked for. -/
  | located (found : Bool) (user : User)
  /-- `create_user` has checked its arguments. -/
  | inserting (user : User)
  /-- A token is drawn. -/
  | issuing (now : Instant) (token : OpaqueToken)
  /-- There is no user. -/
  | counted (now : Instant) (token : OpaqueToken)
  /-- There is no active token. -/
  | clear (now : Instant) (token : OpaqueToken)
  | completing (c : Completion)
  /-- The row of the token is locked. -/
  | locked (c : Completion) (stored : BootstrapToken)
  /-- The token is valid, and there is no user. -/
  | admitted (c : Completion) (stored : BootstrapToken)
  | ended (answer : BootstrapAnswer)

namespace BootstrapThread

/-- A user that is inserted; `none` is an `IntegrityError`. -/
def insertUser (users : List User) (user : User) : Option (List User) :=
  if users.any fun row => row.id = user.id ∨ row.username = user.username then none
  else some (users ++ [user])

/-- The recovery codes of a new user; `none` is an error of the insertion. -/
def addRecoveryCodes (S : SecurityContext) (codes : List RecoveryCode) (userId : Uuid)
    (recoveryBytes : Vector Bytes 8) : Option (List RecoveryCode) :=
  match recoveryBytes.toList.mapM fun bytes =>
      S.digest (Base64.encodeUrl bytes) (lit "recovery") with
  | none => none
  | some digests =>
      if (codes.map RecoveryCode.codeDigest ++ digests).Nodup then
        some (codes ++ digests.map fun digest => ⟨userId, digest, none⟩)
      else none

/-- The row of the name `admin` after `ensure_default_admin`. -/
def defaultAdmin (row : User) (user : User) : User :=
  { row with
    passwordHash := user.passwordHash
    role := .admin
    isActive := true
    totpRequired := true
    recoveryEmail := user.recoveryEmail.orElse fun _ => row.recoveryEmail }

/-- The first step: the clock is read, and the arguments are checked. -/
def start (C : AuthenticationContext) (users : List User) (now : Instant) :
    BootstrapCall → BootstrapThread
  | .ensureDefaultAdmin recoveryEmail userId salt =>
      match C.passwords.hash salt (lit "admin") true with
      | none => ended .raised
      | some passwordHash =>
          located (users.any fun user => user.username = lit "admin")
            { id := userId, username := lit "admin", passwordHash, totpRequired := true,
              recoveryEmail, role := .admin }
  | .issueBootstrapToken draw =>
      match C.security.issueToken (lit "mbb") (lit "bootstrap") draw with
      | none => ended .raised
      | some token => issuing now token
  | .completeBootstrap token username password userId salt recoveryBytes =>
      match hselector : tokenSelector (lit "mbb") token with
      | none => ended (.refused "bootstrap_token_invalid")
      | some selector =>
          match normalizedUsername C.unicode username, C.passwords.hash salt password with
          | .ok username, some passwordHash =>
              completing ⟨token, selector, hselector, now, username, passwordHash, userId,
                recoveryBytes⟩
          | _, _ => ended (.refused "invalid_input")
  | .createUser username password role userId salt =>
      match Role.ofValue? role, normalizedUsername C.unicode username,
          C.passwords.hash salt password with
      | some role, .ok username, some passwordHash =>
          inserting { id := userId, username, passwordHash, role }
      | _, _, _ => ended (.refused "invalid_input")

/-- Whether the row of a token lets a call make the first administrator; `none` is a
`UnicodeEncodeError`. -/
def valid (C : AuthenticationContext) (users : List User) (c : Completion)
    (stored : BootstrapToken) : Option Bool :=
  if users ≠ [] ∨ stored.usedAt.isSome ∨ stored.expiresAt.all (· ≤ c.now) then some false
  else C.matchesDigest c.token stored.tokenDigest (lit "bootstrap")

/-- One step of a call. A reading of the clock is not before the last one. -/
def next (C : AuthenticationContext) (s : BootstrapState) :
    BootstrapThread → Option (BootstrapState × BootstrapThread)
  | called call now =>
      if now < s.now then none else some ({ s with now := now }, start C s.users now call)
  | located true user =>
      some ({ s with users := s.users.map fun row =>
        if row.username = user.username then defaultAdmin row user else row }, ended .done)
  | located false user | inserting user =>
      match insertUser s.users user with
      | none => some (s, ended .raised)
      | some users => some ({ s with users := users }, ended .done)
  | issuing now token =>
      if s.users ≠ [] then some (s, ended (.refused "already_initialized"))
      else some (s, counted now token)
  | counted now token =>
      if s.tokens.any fun row => row.usedAt.isNone ∧ row.expiresAt.any (now < ·) then
        some (s, ended (.refused "bootstrap_token_exists"))
      else some (s, clear now token)
  | clear now token =>
      if s.tokens.any fun row => row.selector = token.selector then some (s, ended .raised)
      else
        some ({ s with
          tokens := s.tokens ++
            [{ selector := token.selector, tokenDigest := token.digest,
               expiresAt := some (now + 900000000) }] }, ended .done)
  | completing c =>
      match Rows.lookup BootstrapToken.selector s.tokens c.selector with
      | none => some (s, ended (.refused "bootstrap_token_invalid"))
      | some stored => some (s, locked c stored)
  | locked c stored =>
      match valid C s.users c stored with
      | none => some (s, ended .raised)
      | some false => some (s, ended (.refused "bootstrap_token_invalid"))
      | some true => some (s, admitted c stored)
  | admitted c stored =>
      match insertUser s.users c.user,
          addRecoveryCodes C.security s.recoveryCodes c.userId c.recoveryBytes with
      | some users, some recoveryCodes =>
          some ({ s with
            users := users
            recoveryCodes := recoveryCodes
            tokens := Rows.put BootstrapToken.selector s.tokens
              { stored with usedAt := some c.now }
            made := s.made ++ [⟨c.selector, c.token, c.now, c.userId⟩] }, ended .done)
      | _, _ => some (s, ended .raised)
  | ended _ => none

/-- The token whose row a call has locked. -/
def heldSelector : BootstrapThread → Option Str
  | locked _ stored => some stored.selector
  | admitted _ stored => some stored.selector
  | _ => none

/-- The calls, interleaved. -/
def system (C : AuthenticationContext) : TransactionSystem BootstrapState BootstrapThread where
  begins
    | called _ _ => true
    | _ => false
  next := next C
  waits
    | completing c, u => u.heldSelector = some c.selector
    | _, _ => false
  aborts
    | ended _ => false
    | _ => true
  ended := ended .raised

/-- A call has found that there is no user. -/
def sawNone : BootstrapThread → Bool
  | counted .. => true
  | clear .. => true
  | admitted .. => true
  | _ => false

end BootstrapThread

section Steps

open BootstrapThread

variable {C : AuthenticationContext} {s s' : BootstrapState} {t t' : BootstrapThread}
  {c : Completion} {stored : BootstrapToken} {users : List User}

/-- What entitles a call to make the first administrator. -/
structure Entitles (C : AuthenticationContext) (token : Str) (now : Instant)
    (stored : BootstrapToken) : Prop where
  fits : C.matchesDigest token stored.tokenDigest (lit "bootstrap") = some true
  unexpired : ∃ expiry ∈ stored.expiresAt, now < expiry

theorem entitles_of_valid (h : valid C users c stored = some true) :
    users = [] ∧ stored.usedAt = none ∧ Entitles C c.token c.now stored := by
  unfold valid at h
  split at h
  · cases h
  · next hnot =>
      push Not at hnot
      obtain ⟨husers, hunused, hexpires⟩ := hnot
      refine ⟨husers, ?_, h, ?_⟩
      · cases hused : stored.usedAt with
        | none => rfl
        | some used =>
            rw [hused] at hunused
            exact absurd rfl hunused
      · cases hexpiry : stored.expiresAt with
        | none =>
            rw [hexpiry] at hexpires
            exact absurd rfl hexpires
        | some expiry =>
            refine ⟨expiry, rfl, ?_⟩
            rw [hexpiry] at hexpires
            simpa using hexpires

/-- The users stay, and an administrator stays one. -/
def Stay (old new : List User) : Prop :=
  ∀ user ∈ old, ∃ user' ∈ new, user'.id = user.id ∧ (user.role = .admin → user'.role = .admin)

theorem Stay.refl (users : List User) : Stay users users :=
  fun user h => ⟨user, h, rfl, id⟩

theorem Stay.ne_nil {old new : List User} (h : Stay old new) (hne : old ≠ []) : new ≠ [] := by
  obtain ⟨user, huser⟩ := List.exists_mem_of_ne_nil old hne
  obtain ⟨user', huser', -⟩ := h user huser
  exact List.ne_nil_of_mem huser'

theorem insertUser_eq_some {user : User} {new : List User}
    (h : insertUser users user = some new) :
    new = users ++ [user] ∧ ∀ row ∈ users, row.id ≠ user.id := by
  unfold insertUser at h
  split at h
  · cases h
  · next hnot =>
      refine ⟨(Option.some.inj h).symm, ?_⟩
      intro row hrow hid
      apply hnot
      rw [List.any_eq_true]
      exact ⟨row, hrow, decide_eq_true (.inl hid)⟩

theorem stay_of_insertUser {user : User} {new : List User}
    (h : insertUser users user = some new) : Stay users new := by
  rw [(insertUser_eq_some h).1]
  exact fun row hrow => ⟨row, List.mem_append_left _ hrow, rfl, id⟩

theorem stay_defaultAdmin (users : List User) (user : User) :
    Stay users (users.map fun row =>
      if row.username = user.username then defaultAdmin row user else row) := by
  intro row hrow
  refine ⟨_, List.mem_map_of_mem hrow, ?_⟩
  split
  · exact ⟨rfl, fun _ => rfl⟩
  · exact ⟨rfl, id⟩

/-- What a step of a call does. -/
inductive Takes (C : AuthenticationContext) (s : BootstrapState) :
    BootstrapThread → BootstrapState → BootstrapThread → Prop
  /-- The tokens stay as they are, and none is locked. -/
  | goes {t t' : BootstrapThread} {users : List User} (now : Instant) : Stay s.users users →
      t'.heldSelector = none → (t'.sawNone = true → s.users = [] ∨ t.sawNone = true) →
      Takes C s t { s with users := users, now := now } t'
  | issued {now : Instant} {token : OpaqueToken} {row : BootstrapToken} :
      (∀ old ∈ s.tokens, old.selector ≠ row.selector) → row.usedAt = none →
      Takes C s (clear now token) { s with tokens := s.tokens ++ [row] } (ended .done)
  | locks {c : Completion} {stored : BootstrapToken} :
      Rows.lookup BootstrapToken.selector s.tokens c.selector = some stored →
      Takes C s (completing c) s (locked c stored)
  | admits {c : Completion} {stored : BootstrapToken} : s.users = [] → stored.usedAt = none →
      Entitles C c.token c.now stored → Takes C s (locked c stored) s (admitted c stored)
  | makes {c : Completion} {stored : BootstrapToken} {users : List User}
      {recoveryCodes : List RecoveryCode} : insertUser s.users c.user = some users →
      Takes C s (admitted c stored)
        { s with
          users := users
          recoveryCodes := recoveryCodes
          tokens := Rows.put BootstrapToken.selector s.tokens
            { stored with usedAt := some c.now }
          made := s.made ++ [⟨c.selector, c.token, c.now, c.userId⟩] } (ended .done)

theorem Takes.same (hheld : t'.heldSelector = none)
    (hsaw : t'.sawNone = true → s.users = [] ∨ t.sawNone = true) : Takes C s t s t' :=
  .goes s.now (.refl s.users) hheld hsaw

theorem Takes.ends (answer : BootstrapAnswer) : Takes C s t s (ended answer) :=
  .same rfl fun h => absurd h Bool.false_ne_true

/-- The first step takes no lock, and counts nothing. -/
theorem start_free (C : AuthenticationContext) (users : List User) (now : Instant)
    (call : BootstrapCall) :
    (start C users now call).heldSelector = none ∧ (start C users now call).sawNone = false := by
  cases call with
  | ensureDefaultAdmin recoveryEmail userId salt =>
      unfold start
      dsimp only
      split <;> exact ⟨rfl, rfl⟩
  | issueBootstrapToken draw =>
      unfold start
      dsimp only
      split <;> exact ⟨rfl, rfl⟩
  | completeBootstrap token username password userId salt recoveryBytes =>
      unfold start
      dsimp only
      split
      · exact ⟨rfl, rfl⟩
      · split <;> exact ⟨rfl, rfl⟩
  | createUser username password role userId salt =>
      unfold start
      dsimp only
      split <;> exact ⟨rfl, rfl⟩

theorem takes_of_next (h : next C s t = some (s', t')) : Takes C s t s' t' := by
  cases t with
  | called call now =>
      obtain ⟨-, hpair⟩ := Option.ite_none_left_eq_some.mp h
      cases hpair
      obtain ⟨hheld, hsaw⟩ := start_free C s.users now call
      refine .goes now (.refl s.users) hheld fun htrue => ?_
      rw [hsaw] at htrue
      cases htrue
  | located found user =>
      cases found with
      | true =>
          cases h
          exact .goes s.now (stay_defaultAdmin s.users user) rfl fun h =>
            absurd h Bool.false_ne_true
      | false =>
          simp only [next] at h
          split at h
          · cases h
            exact .ends _
          · next users husers =>
              cases h
              exact .goes s.now (stay_of_insertUser husers) rfl fun h => absurd h Bool.false_ne_true
  | inserting user =>
      simp only [next] at h
      split at h
      · cases h
        exact .ends _
      · next users husers =>
          cases h
          exact .goes s.now (stay_of_insertUser husers) rfl fun h => absurd h Bool.false_ne_true
  | issuing now token =>
      simp only [next] at h
      split at h
      · cases h
        exact .ends _
      · next hnone =>
          cases h
          exact .same rfl fun _ => .inl (not_not.mp hnone)
  | counted now token =>
      simp only [next] at h
      split at h
      · cases h
        exact .ends _
      · cases h
        exact .same rfl fun _ => .inr rfl
  | clear now token =>
      simp only [next] at h
      split at h
      · cases h
        exact .ends _
      · next hfresh =>
          cases h
          refine .issued ?_ rfl
          intro old hold heq
          apply hfresh
          rw [List.any_eq_true]
          exact ⟨old, hold, decide_eq_true heq⟩
  | completing c =>
      simp only [next] at h
      split at h
      · cases h
        exact .ends _
      · next stored hstored =>
          cases h
          exact .locks hstored
  | locked c stored =>
      simp only [next] at h
      split at h
      · cases h
        exact .ends _
      · cases h
        exact .ends _
      · next hvalid =>
          cases h
          obtain ⟨husers, hunused, hentitles⟩ := entitles_of_valid hvalid
          exact .admits husers hunused hentitles
  | admitted c stored =>
      simp only [next] at h
      split at h
      · next users recoveryCodes husers _ =>
          cases h
          exact .makes husers
      · cases h
        exact .ends _
  | ended answer => cases h

end Steps

section Tokens

open BootstrapThread

/-- A new key at the end of a table. -/
theorem nodup_map_append_singleton {ρ κ : Type*} {key : ρ → κ} {rows : List ρ} {row : ρ}
    (h : (rows.map key).Nodup) (hfresh : ∀ old ∈ rows, key old ≠ key row) :
    ((rows ++ [row]).map key).Nodup := by
  rw [List.map_append, List.map_singleton, List.nodup_append]
  refine ⟨h, List.nodup_singleton _, ?_⟩
  intro k hk other hother
  obtain ⟨old, hold, rfl⟩ := List.mem_map.mp hk
  rw [List.mem_singleton.mp hother]
  exact hfresh old hold

variable {C : AuthenticationContext} {s s' : BootstrapState} {t t' u : BootstrapThread}
  {c : Completion} {stored : BootstrapToken}

/-- Each token makes one administrator at most, who has had it, in time. -/
structure OneEach (C : AuthenticationContext) (s : BootstrapState) : Prop where
  selectors : (s.tokens.map BootstrapToken.selector).Nodup
  once : (s.made.map MadeAdmin.selector).Nodup
  apart : (s.made.map MadeAdmin.userId).Nodup
  entitled : ∀ admin ∈ s.made, tokenSelector (lit "mbb") admin.token = some admin.selector ∧
    ∃ row ∈ s.tokens, row.selector = admin.selector ∧ row.usedAt = some admin.now ∧
      Entitles C admin.token admin.now row
  spent : ∀ row ∈ s.tokens, row.usedAt.isSome = true → row.selector ∈ s.made.map MadeAdmin.selector
  admins : ∀ admin ∈ s.made, ∃ user ∈ s.users, user.id = admin.userId ∧ user.role = .admin

/-- What a call relies on while it has locked a token. -/
def Relies (C : AuthenticationContext) (s : BootstrapState) : BootstrapThread → Prop
  | locked c stored => Rows.lookup BootstrapToken.selector s.tokens c.selector = some stored
  | admitted c stored => Rows.lookup BootstrapToken.selector s.tokens c.selector = some stored ∧
      stored.usedAt = none ∧ Entitles C c.token c.now stored
  | _ => True

theorem relies_of_free (h : t.heldSelector = none) : Relies C s t := by
  cases t with
  | locked c stored => cases h
  | admitted c stored => cases h
  | _ => trivial

/-- A call keeps what it relies on while the row that it has locked stays. -/
theorem Relies.mono (h : Relies C s u)
    (hsame : ∀ selector row, u.heldSelector = some selector →
      Rows.lookup BootstrapToken.selector s.tokens selector = some row →
      Rows.lookup BootstrapToken.selector s'.tokens selector = some row) : Relies C s' u := by
  cases u with
  | locked c stored =>
      obtain ⟨-, hkey⟩ := Rows.mem_of_lookup h
      exact hsame c.selector stored (congrArg some hkey) h
  | admitted c stored =>
      obtain ⟨hlookup, hrest⟩ := h
      obtain ⟨-, hkey⟩ := Rows.mem_of_lookup hlookup
      exact ⟨hsame c.selector stored (congrArg some hkey) hlookup, hrest⟩
  | _ => trivial

theorem OneEach.goes {users : List User} (h : OneEach C s) (now : Instant)
    (hstay : Stay s.users users) : OneEach C { s with users := users, now := now } where
  selectors := h.selectors
  once := h.once
  apart := h.apart
  entitled := h.entitled
  spent := h.spent
  admins admin hadmin := by
    obtain ⟨user, huser, hid, hrole⟩ := h.admins admin hadmin
    obtain ⟨user', huser', hid', hrole'⟩ := hstay user huser
    exact ⟨user', huser', hid'.trans hid, hrole' hrole⟩

theorem OneEach.issued {row : BootstrapToken} (h : OneEach C s)
    (hfresh : ∀ old ∈ s.tokens, old.selector ≠ row.selector) (hunused : row.usedAt = none) :
    OneEach C { s with tokens := s.tokens ++ [row] } where
  selectors := nodup_map_append_singleton h.selectors hfresh
  once := h.once
  apart := h.apart
  entitled admin hadmin := by
    obtain ⟨hselector, old, hold, hrest⟩ := h.entitled admin hadmin
    exact ⟨hselector, old, List.mem_append_left _ hold, hrest⟩
  spent old hold hused := by
    rcases List.mem_append.mp hold with hmem | hnew
    · exact h.spent old hmem hused
    · rw [List.mem_singleton.mp hnew, hunused] at hused
      cases hused
  admins := h.admins

/-- The token of an administrator who is being made has made none. -/
theorem OneEach.not_made (h : OneEach C s)
    (hstored : Rows.lookup BootstrapToken.selector s.tokens c.selector = some stored)
    (hunused : stored.usedAt = none) {admin : MadeAdmin} (hadmin : admin ∈ s.made) :
    admin.selector ≠ c.selector := by
  intro heq
  obtain ⟨-, row, hrow, hkey, hused, -⟩ := h.entitled admin hadmin
  have hlookup := (Rows.lookup_eq_some_iff h.selectors).mpr ⟨hrow, hkey.trans heq⟩
  obtain rfl := Option.some.inj (hlookup.symm.trans hstored)
  rw [hunused] at hused
  cases hused

theorem OneEach.makes {users : List User} {recoveryCodes : List RecoveryCode} (h : OneEach C s)
    (hstored : Rows.lookup BootstrapToken.selector s.tokens c.selector = some stored)
    (hunused : stored.usedAt = none) (hentitles : Entitles C c.token c.now stored)
    (husers : insertUser s.users c.user = some users) :
    OneEach C { s with
      users := users
      recoveryCodes := recoveryCodes
      tokens := Rows.put BootstrapToken.selector s.tokens { stored with usedAt := some c.now }
      made := s.made ++ [⟨c.selector, c.token, c.now, c.userId⟩] } := by
  obtain ⟨hmem, hkey⟩ := Rows.mem_of_lookup hstored
  obtain ⟨rfl, hids⟩ := insertUser_eq_some husers
  constructor
  · rw [Rows.keys_put]
    exact h.selectors
  · exact nodup_map_append_singleton h.once fun admin hadmin =>
      h.not_made hstored hunused hadmin
  · apply nodup_map_append_singleton h.apart
    intro admin hadmin heq
    obtain ⟨user, huser, hid, -⟩ := h.admins admin hadmin
    exact hids user huser (hid.trans heq)
  · intro admin hadmin
    rcases List.mem_append.mp hadmin with hold | hnew
    · obtain ⟨hselector, row, hrow, hrkey, hrest⟩ := h.entitled admin hold
      refine ⟨hselector, row, ?_, hrkey, hrest⟩
      have hne : row.selector ≠ stored.selector := by
        rw [hrkey, hkey]
        exact h.not_made hstored hunused hold
      exact List.mem_map.mpr ⟨row, hrow, if_neg hne⟩
    · rw [List.mem_singleton.mp hnew]
      exact ⟨c.selector_eq, _, Rows.mem_put_self hmem rfl, hkey, rfl, hentitles.fits,
        hentitles.unexpired⟩
  · intro row hrow hused
    rw [List.map_append, List.mem_append]
    rcases Rows.mem_put hrow with rfl | ⟨hold, -⟩
    · exact .inr (List.mem_singleton.mpr hkey)
    · exact .inl (h.spent row hold hused)
  · intro admin hadmin
    rcases List.mem_append.mp hadmin with hold | hnew
    · obtain ⟨user, huser, hrest⟩ := h.admins admin hold
      exact ⟨user, List.mem_append_left _ huser, hrest⟩
    · rw [List.mem_singleton.mp hnew]
      exact ⟨c.user, List.mem_append_right _ (List.mem_singleton_self _), rfl, rfl⟩

/-- Two calls have locked one token. -/
def ShareToken : BootstrapThread → BootstrapThread → Prop :=
  TransactionSystem.Share heldSelector

theorem not_shareToken (h : t.heldSelector = none) (u : BootstrapThread) : ¬ ShareToken t u := by
  rintro ⟨selector, hselector, -⟩
  rw [h] at hselector
  cases hselector

/-- What one step keeps: of the tokens, of its own call, and of a call that it does not wait for. -/
theorem keeps_of_takes (h : Takes C s t s' t') (hone : OneEach C s) (hrelies : Relies C s t) :
    OneEach C s' ∧ Relies C s' t' ∧ ∀ u, Relies C s u → ¬ ShareToken t u →
      (system C).waits t u = false → Relies C s' u ∧ ¬ ShareToken t' u := by
  cases h with
  | goes now hstay hheld _ =>
      refine ⟨hone.goes now hstay, relies_of_free hheld, ?_⟩
      intro u hu _ _
      exact ⟨hu.mono fun _ _ _ hrow => hrow, not_shareToken hheld u⟩
  | issued hfresh hunused =>
      refine ⟨hone.issued hfresh hunused, trivial, ?_⟩
      intro u hu _ _
      exact ⟨hu.mono fun _ _ _ hrow => Rows.lookup_append hrow _, not_shareToken rfl u⟩
  | @locks c stored hstored =>
      refine ⟨hone, hstored, ?_⟩
      intro u hu _ hwaits
      refine ⟨hu, ?_⟩
      rintro ⟨selector, hown, hother⟩
      obtain ⟨-, hkey⟩ := Rows.mem_of_lookup hstored
      obtain rfl := Option.some.inj hown
      rw [hkey] at hother
      exact of_decide_eq_false hwaits hother
  | @admits c stored _ hunused hentitles =>
      refine ⟨hone, ⟨hrelies, hunused, hentitles⟩, ?_⟩
      exact fun u hu hshare _ => ⟨hu, hshare⟩
  | @makes c stored users recoveryCodes husers =>
      obtain ⟨hstored, hunused, hentitles⟩ := hrelies
      refine ⟨hone.makes hstored hunused hentitles husers, trivial, ?_⟩
      intro u hu hshare _
      refine ⟨hu.mono ?_, not_shareToken rfl u⟩
      intro selector row hheld hrow
      have hne : selector ≠ stored.selector := by
        rintro rfl
        exact hshare ⟨stored.selector, rfl, hheld⟩
      have hput : Rows.lookup BootstrapToken.selector (Rows.put BootstrapToken.selector s.tokens
          { stored with usedAt := some c.now }) selector =
          Rows.lookup BootstrapToken.selector s.tokens selector := Rows.lookup_put_of_ne hne
      exact hput.trans hrow

end Tokens

section Runs

open BootstrapThread

variable {C : AuthenticationContext} {r r' : Sessions BootstrapState BootstrapThread}
  {t : BootstrapThread}

/-- The service before the first token; there may be users. -/
def Unissued (s : BootstrapState) : Prop := s.tokens = [] ∧ s.made = []

def bootstrapRuns (C : AuthenticationContext) :
    Machine (Sessions BootstrapState BootstrapThread) (SessionEvent BootstrapThread) :=
  (system C).machine Unissued

/-- How a state goes on, with the calls that are running in it. -/
def bootstrapRunsFrom (C : AuthenticationContext)
    (start : Sessions BootstrapState BootstrapThread) :
    Machine (Sessions BootstrapState BootstrapThread) (SessionEvent BootstrapThread) where
  initial s := s = start
  step s e s' := (system C).apply s e = some s'

theorem begins_called (h : (system C).begins t = true) : ∃ call now, t = called call now := by
  cases t with
  | called call now => exact ⟨call, now, rfl⟩
  | _ => cases h

/-- However the calls are interleaved: each token makes one administrator at most, who has
presented it before its expiry, and the tokens that are marked as used are those of the
administrators. -/
theorem one_admin_per_token (hreach : (bootstrapRuns C).Reachable Machine.anyStep r) :
    OneEach C r.committed ∧
      (r.committed.made.map MadeAdmin.selector).Perm
        ((r.committed.tokens.filter fun row => row.usedAt.isSome).map BootstrapToken.selector) := by
  have hall : OneEach C r.committed ∧ (∀ t ∈ r.running, Relies C r.committed t) ∧
      Threads.Alone ShareToken r.running := by
    apply hreach.invariant
    · rintro r ⟨⟨htokens, hmade⟩, hrunning⟩
      rw [hrunning]
      refine ⟨?_, fun t ht => absurd ht List.not_mem_nil, Threads.alone_nil⟩
      constructor
      · rw [htokens]
        exact List.nodup_nil
      · rw [hmade]
        exact List.nodup_nil
      · rw [hmade]
        exact List.nodup_nil
      · rw [hmade]
        exact fun admin hadmin => absurd hadmin List.not_mem_nil
      · rw [htokens]
        exact fun row hrow => absurd hrow List.not_mem_nil
      · rw [hmade]
        exact fun admin hadmin => absurd hadmin List.not_mem_nil
    · rintro r e r' ⟨hone, hrelies, halone⟩ - hstep
      refine (TransactionSystem.happens_of_apply hstep).keepsAlone ?_ hone hrelies halone ?_ ?_ ?_
      · rintro t u ⟨selector, ht, hu⟩
        exact ⟨selector, hu, ht⟩
      · intro t ht
        obtain ⟨call, now, rfl⟩ := begins_called ht
        exact ⟨trivial, not_shareToken rfl⟩
      · exact ⟨trivial, not_shareToken rfl⟩
      · intro t committed t' hrelies hnext
        exact keeps_of_takes (takes_of_next hnext) hone hrelies
  refine ⟨hall.1, ?_⟩
  rw [List.perm_ext_iff_of_nodup hall.1.once (hall.1.selectors.sublist
    (List.Sublist.map _ List.filter_sublist))]
  intro selector
  constructor
  · intro hmade
    obtain ⟨admin, hadmin, rfl⟩ := List.mem_map.mp hmade
    obtain ⟨-, row, hrow, hkey, hused, -⟩ := hall.1.entitled admin hadmin
    refine List.mem_map.mpr ⟨row, List.mem_filter.mpr ⟨hrow, ?_⟩, hkey⟩
    rw [hused]
    rfl
  · intro hspent
    obtain ⟨row, hrow, rfl⟩ := List.mem_map.mp hspent
    obtain ⟨hmem, hused⟩ := List.mem_filter.mp hrow
    exact hall.1.spent row hmem hused

/-- Nothing more comes of tokens: there is a user, and no call that has seen none. -/
def Closed (r : Sessions BootstrapState BootstrapThread) : Prop :=
  r.committed.users ≠ [] ∧ ∀ t ∈ r.running, t.sawNone = false

theorem closed_of_takes {s s' : BootstrapState} {t t' : BootstrapThread} (h : Takes C s t s' t')
    (husers : s.users ≠ []) (hsaw : t.sawNone = false) :
    s'.users ≠ [] ∧ t'.sawNone = false ∧ s'.tokens = s.tokens ∧ s'.made = s.made := by
  cases h with
  | goes now hstay _ hnone =>
      refine ⟨hstay.ne_nil husers, ?_, rfl, rfl⟩
      rw [Bool.eq_false_iff]
      intro htrue
      rcases hnone htrue with hempty | hother
      · exact husers hempty
      · rw [hsaw] at hother
        cases hother
  | issued _ _ => cases hsaw
  | locks _ => exact ⟨husers, rfl, rfl, rfl⟩
  | admits hempty _ _ => exact absurd hempty husers
  | makes _ => cases hsaw

/-- Once there is a user, and no call under way that has seen none, it stays so: no token is issued
or used, and no administrator is made with one. -/
theorem closed_for_good (hclosed : Closed r)
    (hafter : (bootstrapRunsFrom C r).Reachable Machine.anyStep r') :
    Closed r' ∧ r'.committed.tokens = r.committed.tokens ∧
      r'.committed.made = r.committed.made := by
  apply hafter.invariant
  · rintro r' rfl
    exact ⟨hclosed, rfl, rfl⟩
  · rintro r₁ e r₂ ⟨⟨husers, hrunning⟩, htokens, hmade⟩ - hstep
    cases TransactionSystem.happens_of_apply hstep with
    | @start t ht =>
        obtain ⟨call, now, rfl⟩ := begins_called ht
        refine ⟨⟨husers, ?_⟩, htokens, hmade⟩
        intro u hu
        rcases List.mem_append.mp hu with hold | hnew
        · exact hrunning u hold
        · rw [List.mem_singleton.mp hnew]
          rfl
    | step ht _ hnext =>
        obtain ⟨husers', hsaw', htokens', hmade'⟩ :=
          closed_of_takes (takes_of_next hnext) husers (hrunning _ (List.mem_of_getElem? ht))
        refine ⟨⟨husers', ?_⟩, htokens'.trans htokens, hmade'.trans hmade⟩
        intro u hu
        rcases List.mem_or_eq_of_mem_set hu with hold | rfl
        · exact hrunning u hold
        · exact hsaw'
    | rollback _ _ =>
        refine ⟨⟨husers, ?_⟩, htokens, hmade⟩
        intro u hu
        rcases List.mem_or_eq_of_mem_set hu with hold | rfl
        · exact hrunning u hold
        · rfl

end Runs

section Samples

open BootstrapThread

def sampleBootstrapToken : Str :=
  ((sampleContext.security.issueToken (lit "mbb") (lit "bootstrap") sampleSessionDraw.token).map
    fun token => token.raw).getD []

/-- A token is issued, and the first administrator is made with it. -/
def sampleBootstrapEvents : List (SessionEvent BootstrapThread) :=
  [.start (.called (.issueBootstrapToken sampleSessionDraw.token) 0),
    .step 0, .step 0, .step 0, .step 0,
    .start (.called (.completeBootstrap sampleBootstrapToken (lit "root") (lit "a long password") 1
      [] (.ofFn fun i => List.replicate 18 (Fin.castLE (by decide) i))) 1),
    .step 1, .step 1, .step 1, .step 1]

def sampleBootstrapRun : Option (Sessions BootstrapState BootstrapThread) :=
  sampleBootstrapEvents.foldlM (fun r e => if Machine.anyStep r e then
    (system sampleContext).apply r e else none) { committed := { now := 0 } }

/-- The token has made its administrator. -/
theorem one_admin_per_token_sample : ∃ r : Sessions BootstrapState BootstrapThread,
    r.committed.made.length = 1 ∧
      (r.committed.tokens.filter fun row => row.usedAt.isSome).length = 1 := by
  have hmade : (sampleBootstrapRun.any fun r => decide (r.committed.made.length = 1)) = true := by
    decide +kernel
  obtain ⟨r, hr, hone⟩ := (Option.any_eq_true _ _).mp hmade
  have hone := of_decide_eq_true hone
  have hunissued : Unissued { now := 0 } := ⟨rfl, rfl⟩
  obtain ⟨-, hperm⟩ := one_admin_per_token
    (TransactionSystem.reachable_of_schedule hunissued sampleBootstrapEvents hr)
  have hlength := hperm.length_eq
  rw [List.length_map, List.length_map, hone] at hlength
  exact ⟨r, hone, hlength.symm⟩

/-- The row that `ensure_default_admin` inserts. -/
def sampleDefaultAdmin : User where
  id := 0
  username := lit "admin"
  passwordHash := lit "admin"
  totpRequired := true
  role := .admin

/-- The service after its start, when `ensure_default_admin` has returned. -/
def sampleStarted : Sessions BootstrapState BootstrapThread :=
  { committed := { now := 0, users := [sampleDefaultAdmin] } }

/-- No token is issued after the start. -/
theorem closed_for_good_sample : ∃ r : Sessions BootstrapState BootstrapThread,
    r.running.length = 1 ∧ r.committed.tokens = [] := by
  have hrun : (((sampleBootstrapEvents.take 3).foldlM (system sampleContext).apply
      sampleStarted).any fun r => decide (r.running.length = 1)) = true := by
    decide +kernel
  obtain ⟨r, hr, hone⟩ := (Option.any_eq_true _ _).mp hrun
  have hclosed : Closed sampleStarted :=
    ⟨List.cons_ne_nil _ _, fun t ht => absurd ht List.not_mem_nil⟩
  have hreach : (bootstrapRunsFrom sampleContext sampleStarted).Reachable Machine.anyStep r :=
    Machine.Reachable.foldlM (fun _ _ _ hstep => ⟨trivial, hstep⟩) (.start rfl) hr
  obtain ⟨-, htokens, -⟩ := closed_for_good hclosed hreach
  exact ⟨r, of_decide_eq_true hone, htokens⟩

end Samples

end MediaBridge.Control
