import MediaBridge.Control.Authentication

/-!
# Sessions of administrators

`authenticate`, `authenticate_with_csrf`, `refresh_csrf` and `logout` of `ControlPlaneService` in
`media_bridge_control/bootstrap.py`, beside the entry points that issue sessions and revoke them.

## Implementation notes

Each `with` is a transaction of its own, so that a call that has authenticated goes on after others
have changed its session. A row that is locked is read and written in one step. The column
`previous_csrf_digest` is a table by the selectors of the sessions. `issued` is a record that the
program does not keep.
-/

namespace MediaBridge.Control

open Foundation MediaBridge.Core Gateway

/-- What is done with a session token. -/
inductive SessionUse
  | authenticate (sessionToken : Str)
  | authenticateWithCsrf (sessionToken csrfToken : Str)
  | refreshCsrf (sessionToken : Str) (csrfBytes : Bytes)
  /-- `leavesAt` is the second reading of the clock. -/
  | logout (sessionToken csrfToken : Str) (leavesAt : Instant)

def SessionUse.sessionToken : SessionUse → Str
  | authenticate sessionToken => sessionToken
  | authenticateWithCsrf sessionToken _ => sessionToken
  | refreshCsrf sessionToken _ => sessionToken
  | logout sessionToken _ _ => sessionToken

/-- How a call ends. -/
inductive SessionAnswer
  /-- With the session of this selector. -/
  | accepted (selector : Str)
  | refused (error : String)
  | raised
deriving DecidableEq

/-- The digests of the tokens that have been issued for a session. -/
def issuedFor (issued : List (Str × Str)) (selector : Str) : List Str :=
  (issued.filter fun p => p.1 = selector).map Prod.snd

/-- What the calls share. -/
structure SessionState where
  auth : AuthState
  /-- `previous_csrf_digest`, by the selectors of the sessions. -/
  previous : Entries Str Str := []
  /-- The digests of the CSRF tokens that have been issued, with the selectors of their sessions. -/
  issued : List (Str × Str) := []
deriving DecidableEq

namespace SessionState

variable (s : SessionState)

def sessions : List AdminSession := s.auth.tables.sessions

/-- Another list of sessions. -/
def withSessions (sessions : List AdminSession) : SessionState :=
  { s with auth := { s.auth with tables := { s.auth.tables with sessions := sessions } } }

/-- A reading of the clock. -/
def at_ (now : Instant) : SessionState :=
  { s with auth := { s.auth with limiter := { s.auth.limiter with now := now } } }

/-- The state after a step of an entry point that may issue a session. -/
def after (auth : AuthState) : SessionState :=
  { s with
    auth := auth
    issued := s.issued ++ (auth.tables.sessions.drop s.sessions.length).map fun row =>
      (row.selector, row.csrfDigest) }

@[simp] theorem sessions_withSessions (sessions : List AdminSession) :
    (s.withSessions sessions).sessions = sessions := rfl

@[simp] theorem sessions_at (now : Instant) : (s.at_ now).sessions = s.sessions := rfl

end SessionState

/-- The row of a session. -/
def storedSession (s : SessionState) (selector : Str) : Option AdminSession :=
  Rows.lookup AdminSession.selector s.sessions selector

/-- Whether one of the two digests of a session matches; `none` is a `UnicodeEncodeError`. -/
def csrfValid (C : AuthenticationContext) (s : SessionState) (stored : AdminSession)
    (csrfToken : Str) : Option Bool :=
  match C.matchesDigest csrfToken stored.csrfDigest (lit "csrf") with
  | none => none
  | some true => some true
  | some false =>
      match Entries.get? s.previous stored.selector with
      | none => some false
      | some digest => C.matchesDigest csrfToken digest (lit "csrf")

/-- A call: what it has still to do. -/
inductive SessionThread
  | other (t : AuthThread)
  | called (use : SessionUse) (now : Instant)
  /-- `authenticate` has returned. -/
  | authenticated (use : SessionUse) (selector : Str)
  /-- The CSRF token of a logout is valid. -/
  | leaving (selector : Str) (leavesAt : Instant)
  | ended (answer : SessionAnswer)

namespace SessionThread

def refusal : Outcome → SessionAnswer
  | .refused error => .refused error
  | _ => .raised

/-- The transaction after `authenticate`. -/
def proceed (C : AuthenticationContext) (s : SessionState) (selector : Str) :
    SessionUse → SessionState × SessionThread
  | .authenticate _ => (s, ended (.accepted selector))
  | .authenticateWithCsrf _ csrfToken =>
      match storedSession s selector with
      | none => (s, ended (.refused "csrf_rejected"))
      | some stored =>
          match csrfValid C s stored csrfToken with
          | none => (s, ended .raised)
          | some false => (s, ended (.refused "csrf_rejected"))
          | some true => (s, ended (.accepted selector))
  | .refreshCsrf _ csrfBytes =>
      match storedSession s selector with
      | none => (s, ended (.refused "unauthorized"))
      | some stored =>
          match C.security.digest (Base64.encodeUrl csrfBytes) (lit "csrf") with
          | none => (s, ended .raised)
          | some digest =>
              ({ s.withSessions
                  (Rows.put AdminSession.selector s.sessions { stored with csrfDigest := digest })
                with
                previous := Entries.set s.previous selector stored.csrfDigest
                issued := s.issued ++ [(selector, digest)] },
                ended (.accepted selector))
  | .logout _ csrfToken leavesAt =>
      match storedSession s selector with
      | none => (s, ended (.refused "csrf_rejected"))
      | some stored =>
          match csrfValid C s stored csrfToken with
          | none => (s, ended .raised)
          | some false => (s, ended (.refused "csrf_rejected"))
          | some true => (s, leaving selector leavesAt)

/-- One step of a call. A reading of the clock is not before the last one. -/
def next (C : AuthenticationContext) (s : SessionState) :
    SessionThread → Option (SessionState × SessionThread)
  | other t => (AuthThread.next C s.auth t).map fun (auth, t') => (s.after auth, other t')
  | called use now =>
      if now < s.auth.limiter.now then none
      else
        match C.authenticate s.auth.tables use.sessionToken now with
        | .error outcome => some (s.at_ now, ended (refusal outcome))
        | .ok (session, _) => some (s.at_ now, authenticated use session.selector)
  | authenticated use selector => some (proceed C s selector use)
  | leaving selector leavesAt =>
      if leavesAt < s.auth.limiter.now then none
      else
        match storedSession s selector with
        | none => some (s.at_ leavesAt, ended (.refused "unauthorized"))
        | some stored =>
            some ((s.at_ leavesAt).withSessions (Rows.put AdminSession.selector s.sessions
              { stored with revokedAt := some leavesAt }), ended (.accepted selector))
  | ended _ => none

/-- The calls, interleaved. -/
def system (C : AuthenticationContext) : TransactionSystem SessionState SessionThread where
  begins
    | other t => (AuthThread.system C).begins t
    | called _ _ => true
    | _ => false
  next := next C
  waits _ _ := false
  aborts
    | other t => (AuthThread.system C).aborts t
    | _ => true
  ended := ended .raised

end SessionThread

section Evolution

/-- What a step may do to the sessions: they stay, and keep what they are; a revoked one stays
revoked. -/
structure Evolves (old new : List AdminSession) : Prop where
  kept : ∀ row ∈ old, ∃ row' ∈ new, row'.selector = row.selector
  same : ∀ row' ∈ new, (∃ row ∈ old, row.selector = row'.selector) →
    ∃ row ∈ old, row.selector = row'.selector ∧ row.sessionDigest = row'.sessionDigest ∧
      row.userId = row'.userId ∧ row.expiresAt = row'.expiresAt ∧
      (row.revokedAt.isSome = true → row'.revokedAt.isSome = true)

variable {old new last : List AdminSession}

theorem Evolves.refl (rows : List AdminSession) : Evolves rows rows :=
  ⟨fun row h => ⟨row, h, rfl⟩, fun row h _ => ⟨row, h, rfl, rfl, rfl, rfl, id⟩⟩

theorem Evolves.trans (h : Evolves old new) (h' : Evolves new last) : Evolves old last where
  kept row hrow := by
    obtain ⟨row', hrow', hselector⟩ := h.kept row hrow
    obtain ⟨row'', hrow'', hselector'⟩ := h'.kept row' hrow'
    exact ⟨row'', hrow'', hselector'.trans hselector⟩
  same row'' hrow'' := by
    rintro ⟨first, hfirst, hsame⟩
    obtain ⟨mid, hmid, hmidsame⟩ := h.kept first hfirst
    obtain ⟨row', hrow', hselector', hdigest', huser', hexpires', hrevoked'⟩ :=
      h'.same row'' hrow'' ⟨mid, hmid, hmidsame.trans hsame⟩
    obtain ⟨row, hrow, hselector, hdigest, huser, hexpires, hrevoked⟩ :=
      h.same row' hrow' ⟨first, hfirst, hsame.trans hselector'.symm⟩
    exact ⟨row, hrow, hselector.trans hselector', hdigest.trans hdigest', huser.trans huser',
      hexpires.trans hexpires', fun h => hrevoked' (hrevoked h)⟩

/-- A session that is new. -/
theorem evolves_append {session : AdminSession}
    (hfresh : ∀ row ∈ old, row.selector ≠ session.selector) : Evolves old (old ++ [session]) where
  kept row hrow := ⟨row, List.mem_append_left _ hrow, rfl⟩
  same row hrow := by
    rintro ⟨first, hfirst, hsame⟩
    rcases List.mem_append.mp hrow with hold | hnew
    · exact ⟨row, hold, rfl, rfl, rfl, rfl, id⟩
    · rw [List.mem_singleton.mp hnew] at hsame
      exact absurd hsame (hfresh first hfirst)

/-- Rows that are changed one by one. -/
theorem evolves_map {f : AdminSession → AdminSession}
    (hselector : ∀ row ∈ old, (f row).selector = row.selector)
    (hsame : ∀ row ∈ old, (f row).sessionDigest = row.sessionDigest ∧
      (f row).userId = row.userId ∧ (f row).expiresAt = row.expiresAt ∧
      (row.revokedAt.isSome = true → (f row).revokedAt.isSome = true)) :
    Evolves old (old.map f) where
  kept row hrow := ⟨f row, List.mem_map_of_mem hrow, hselector row hrow⟩
  same row' hrow' _ := by
    obtain ⟨row, hrow, rfl⟩ := List.mem_map.mp hrow'
    obtain ⟨hdigest, huser, hexpires, hrevoked⟩ := hsame row hrow
    exact ⟨row, hrow, (hselector row hrow).symm, hdigest.symm, huser.symm, hexpires.symm, hrevoked⟩

/-- One row that is written. -/
theorem evolves_put {stored row : AdminSession} (hkeys : (old.map AdminSession.selector).Nodup)
    (hstored : Rows.lookup AdminSession.selector old row.selector = some stored)
    (hdigest : row.sessionDigest = stored.sessionDigest) (huser : row.userId = stored.userId)
    (hexpires : row.expiresAt = stored.expiresAt)
    (hrevoked : stored.revokedAt.isSome = true → row.revokedAt.isSome = true) :
    Evolves old (Rows.put AdminSession.selector old row) := by
  have hthis (x : AdminSession) (hx : x ∈ old) (hkey : x.selector = row.selector) : x = stored := by
    have hlookup := (Rows.lookup_eq_some_iff hkeys).mpr ⟨hx, hkey⟩
    exact Option.some.inj (hlookup.symm.trans hstored)
  apply evolves_map
  · intro x _
    split
    · next hkey => exact hkey.symm
    · rfl
  · intro x hx
    split
    · next hkey =>
        rw [hthis x hx hkey]
        exact ⟨hdigest, huser, hexpires, hrevoked⟩
    · exact ⟨rfl, rfl, rfl, id⟩

end Evolution

section EntryPoints

/-- What a transaction of an entry point does to the sessions. -/
inductive SessionsAfter (old : List AdminSession) : List AdminSession → Prop
  | same : SessionsAfter old old
  | issued {session : AdminSession} : (∀ row ∈ old, row.selector ≠ session.selector) →
      SessionsAfter old (old ++ [session])
  /-- The open sessions of an account are revoked. -/
  | recovered (userId : Uuid) (now : Instant) : SessionsAfter old (old.map fun session =>
      if session.userId = userId ∧ session.revokedAt = none then
        { session with revokedAt := some now }
      else session)

theorem SessionsAfter.evolves {old new : List AdminSession} (h : SessionsAfter old new) :
    Evolves old new := by
  cases h with
  | same => exact .refl old
  | issued hfresh => exact evolves_append hfresh
  | recovered userId now =>
      apply evolves_map
      · intro row _
        split <;> rfl
      · intro row _
        split
        · exact ⟨rfl, rfl, rfl, fun _ => rfl⟩
        · exact ⟨rfl, rfl, rfl, id⟩

variable {C : AuthenticationContext} {tables tables' : AccountTables} {facts : List AuthFact}
  {userId : Uuid} {name : Str} {now : Instant} {user : User}

theorem sessionsAfter_of_issueSession {grounds : Grounds} {draw : SessionDraw}
    (h : C.issueSession tables user grounds draw now = .committed tables' facts userId) :
    SessionsAfter tables.sessions tables'.sessions := by
  simp only [AuthenticationContext.issueSession] at h
  split at h
  · split at h
    · cases h
    · next token csrfDigest htoken hcsrf hfresh =>
        cases h
        apply SessionsAfter.issued
        intro row hrow heq
        apply hfresh
        rw [List.any_eq_true]
        exact ⟨row, hrow, decide_eq_true heq⟩
  · cases h

theorem sessionsAfter_of_transact {call : AuthCall}
    (h : C.transact tables name now call = .committed tables' facts userId) :
    SessionsAfter tables.sessions tables'.sessions := by
  cases call with
  | login username password clientKey draw =>
      change C.login tables name password draw now = _ at h
      unfold AuthenticationContext.login at h
      split at h
      · next outcome herror =>
          obtain ⟨compared, rfl⟩ := AuthenticationContext.passwordCheck_error herror
          cases h
      · split at h
        · cases h
        · split at h
          · cases h
          · exact sessionsAfter_of_issueSession h
  | loginWithTotp username password code clientKey draw =>
      change C.loginWithTotp tables name password code draw now = _ at h
      unfold AuthenticationContext.loginWithTotp at h
      split at h
      · next outcome herror =>
          obtain ⟨compared, rfl⟩ := AuthenticationContext.passwordCheck_error herror
          cases h
      · split at h
        · cases h
        · split at h
          · cases h
          · split at h
            · cases h
            · cases h
            · exact sessionsAfter_of_issueSession h
  | beginTotpEnrollmentWithPassword username password draw =>
      change C.verifyForEnrollment tables name password = _ at h
      unfold AuthenticationContext.verifyForEnrollment at h
      split at h
      · next outcome herror =>
          obtain ⟨compared, rfl⟩ := AuthenticationContext.passwordCheck_error herror
          cases h
      · cases h
        exact .same
  | beginTotpEnrollment token draw =>
      change C.enrollWithSession tables token draw now = _ at h
      unfold AuthenticationContext.enrollWithSession at h
      split at h
      · next outcome herror =>
          -- `authenticate` never answers that it has committed.
          unfold AuthenticationContext.authenticate at herror
          repeat' split at herror
          all_goals cases herror
          all_goals cases h
      · obtain ⟨found, -, -, -, rfl⟩ := AuthenticationContext.beginTotpEnrollment_committed h
        exact .same
  | confirmTotpEnrollment id code =>
      change C.confirmTotpEnrollment tables id code now = _ at h
      unfold AuthenticationContext.confirmTotpEnrollment at h
      repeat' split at h
      all_goals cases h
      exact .same
  | requestRecoveryCode username clientKey codeBytes =>
      change C.requestRecoveryCode tables name codeBytes = _ at h
      unfold AuthenticationContext.requestRecoveryCode at h
      repeat' split at h
      all_goals cases h
      exact .same
  | loginWithRecoveryCode username password code clientKey draw =>
      change C.loginWithRecoveryCode tables name password code draw now = _ at h
      unfold AuthenticationContext.loginWithRecoveryCode at h
      split at h
      · cases h
      · split at h
        · cases h
        · split at h
          · cases h
          · split at h
            · cases h
            · next found code rest hcodes =>
                have hafter := sessionsAfter_of_issueSession h
                exact hafter
  | recoverPassword username code newPassword clientKey salt =>
      change C.recoverPassword tables name code newPassword salt now = _ at h
      unfold AuthenticationContext.recoverPassword at h
      split at h
      · cases h
      · split at h
        · cases h
        · split at h
          · cases h
          · cases h
            exact .recovered _ now
          · cases h

/-- What a step of an entry point does to the sessions. -/
theorem sessionsAfter_of_next {s s' : AuthState} {t t' : AuthThread}
    (h : AuthThread.next C s t = some (s', t')) :
    SessionsAfter s.tables.sessions s'.tables.sessions := by
  cases t with
  | called call now =>
      simp only [AuthThread.next] at h
      split at h
      · cases h
      · split at h
        · cases h
          exact .same
        · split at h <;> cases h <;> exact .same
  | admitted call name now =>
      simp only [AuthThread.next] at h
      split at h
      · cases h
        exact .same
      · cases h
        exact .same
      · cases h
        exact .same
      · next hcommitted =>
          cases h
          exact sessionsAfter_of_transact hcommitted
  | verified id draw =>
      simp only [AuthThread.next] at h
      split at h
      · next hcommitted =>
          cases h
          obtain ⟨found, -, -, -, rfl⟩ :=
            AuthenticationContext.beginTotpEnrollment_committed hcommitted
          exact .same
      · cases h
        exact .same
      · cases h
        exact .same
      · cases h
        exact .same
  | mailing key name clientKey now =>
      cases h
      exact .same
  | failed key now =>
      cases h
      exact .same
  | succeeded key =>
      cases h
      exact .same
  | ended => cases h

end EntryPoints

section Tokens

theorem issuedFor_append (issued : List (Str × Str)) (selector digest other : Str) :
    issuedFor (issued ++ [(selector, digest)]) other =
      issuedFor issued other ++ if selector = other then [digest] else [] := by
  unfold issuedFor
  rw [List.filter_append, List.map_append]
  congr 1
  by_cases h : selector = other
  · simp [h]
  · simp [h]

theorem issuedFor_eq_nil {issued : List (Str × Str)} {selector : Str}
    (h : ∀ p ∈ issued, p.1 ≠ selector) : issuedFor issued selector = [] := by
  unfold issuedFor
  rw [List.map_eq_nil_iff, List.filter_eq_nil_iff]
  intro p hp
  simpa using h p hp

/-- The two digests of a session are those of the last two tokens that it has been given. -/
structure Sound (s : SessionState) : Prop where
  nodup : (s.sessions.map AdminSession.selector).Nodup
  issued : ∀ p ∈ s.issued, ∃ row ∈ s.sessions, row.selector = p.1
  previous : ∀ selector digest, Entries.get? s.previous selector = some digest →
    ∃ row ∈ s.sessions, row.selector = selector
  csrf : ∀ row ∈ s.sessions, (issuedFor s.issued row.selector).getLast? = some row.csrfDigest ∧
    Entries.get? s.previous row.selector = (issuedFor s.issued row.selector).dropLast.getLast?

variable {C : AuthenticationContext} {s s' : SessionState} {t t' : SessionThread}

/-- Rows that are changed, but not their keys or tokens. -/
theorem Sound.map (h : Sound s) {f : AdminSession → AdminSession}
    (hf : ∀ row ∈ s.sessions, (f row).selector = row.selector ∧
      (f row).csrfDigest = row.csrfDigest)
    (hsessions : s'.sessions = s.sessions.map f) (hissued : s'.issued = s.issued)
    (hprevious : s'.previous = s.previous) : Sound s' := by
  have hkeys : s'.sessions.map AdminSession.selector = s.sessions.map AdminSession.selector := by
    rw [hsessions, List.map_map]
    exact List.map_congr_left fun row hrow => (hf row hrow).1
  have hmem (selector : Str) (hrow : ∃ row ∈ s.sessions, row.selector = selector) :
      ∃ row ∈ s'.sessions, row.selector = selector := by
    obtain ⟨row, hrow, hselector⟩ := hrow
    refine ⟨f row, ?_, (hf row hrow).1.trans hselector⟩
    rw [hsessions]
    exact List.mem_map_of_mem hrow
  constructor
  case nodup => exact hkeys ▸ h.nodup
  case issued => exact fun p hp => hmem p.1 (h.issued p (hissued ▸ hp))
  case previous =>
    exact fun selector digest hget => hmem selector (h.previous selector digest (hprevious ▸ hget))
  case csrf =>
    intro row hrow
    rw [hsessions] at hrow
    obtain ⟨old, hold, rfl⟩ := List.mem_map.mp hrow
    rw [(hf old hold).1, (hf old hold).2, hissued, hprevious]
    exact h.csrf old hold

theorem Sound.same (h : Sound s) (hsessions : s'.sessions = s.sessions)
    (hissued : s'.issued = s.issued) (hprevious : s'.previous = s.previous) : Sound s' :=
  h.map (fun _ _ => ⟨rfl, rfl⟩) (hsessions.trans (List.map_id _).symm) hissued hprevious

/-- A step of an entry point. -/
theorem Sound.after (h : Sound s) {auth : AuthState}
    (hafter : SessionsAfter s.sessions auth.tables.sessions) : Sound (s.after auth) := by
  have hissued (new : List AdminSession)
      (hnew : auth.tables.sessions.drop s.sessions.length = new) :
      (s.after auth).issued = s.issued ++ new.map fun row => (row.selector, row.csrfDigest) := by
    rw [← hnew]
    rfl
  generalize hlist : auth.tables.sessions = sessions at hafter
  have hsessions : (s.after auth).sessions = sessions := hlist
  cases hafter with
  | same =>
      refine h.same hsessions ?_ rfl
      rw [hissued [] (by rw [hlist, List.drop_length])]
      exact List.append_nil _
  | recovered userId now =>
      refine h.map ?_ hsessions ?_ rfl
      · intro row _
        split <;> exact ⟨rfl, rfl⟩
      · rw [hissued [] (by rw [hlist, ← List.length_map, List.drop_length])]
        exact List.append_nil _
  | @issued session hfresh =>
      have htokens : (s.after auth).issued = s.issued ++ [(session.selector, session.csrfDigest)] :=
        hissued [session] (by rw [hlist, List.drop_left])
      constructor
      case nodup =>
        rw [hsessions, List.map_append, List.nodup_append]
        refine ⟨h.nodup, List.nodup_singleton _, ?_⟩
        intro selector hselector other hother
        obtain ⟨row, hrow, rfl⟩ := List.mem_map.mp hselector
        rw [List.mem_singleton.mp hother]
        exact hfresh row hrow
      case issued =>
        intro p hp
        rw [htokens] at hp
        rw [hsessions]
        rcases List.mem_append.mp hp with hold | hnew
        · obtain ⟨row, hrow, hselector⟩ := h.issued p hold
          exact ⟨row, List.mem_append_left _ hrow, hselector⟩
        · rw [List.mem_singleton.mp hnew]
          exact ⟨session, List.mem_append_right _ List.mem_cons_self, rfl⟩
      case previous =>
        intro selector digest hget
        obtain ⟨row, hrow, hselector⟩ := h.previous selector digest hget
        rw [hsessions]
        exact ⟨row, List.mem_append_left _ hrow, hselector⟩
      case csrf =>
        intro row hrow
        rw [hsessions] at hrow
        rw [htokens, issuedFor_append]
        rcases List.mem_append.mp hrow with hold | hnew
        · rw [if_neg (hfresh row hold).symm, List.append_nil]
          exact h.csrf row hold
        · rw [List.mem_singleton.mp hnew, if_pos rfl]
          have hnone : issuedFor s.issued session.selector = [] := by
            apply issuedFor_eq_nil
            intro p hp heq
            obtain ⟨row, hrow, hselector⟩ := h.issued p hp
            exact hfresh row hrow (hselector.trans heq)
          have hfirst : Entries.get? s.previous session.selector = none := by
            rw [Option.eq_none_iff_forall_ne_some]
            intro digest hget
            obtain ⟨row, hrow, hselector⟩ := h.previous _ _ hget
            exact hfresh row hrow hselector
          rw [hnone]
          exact ⟨rfl, hfirst⟩

/-- Another CSRF token. -/
theorem Sound.refresh (h : Sound s) {selector digest : Str} {stored : AdminSession}
    (hstored : storedSession s selector = some stored)
    (hsessions : s'.sessions =
      Rows.put AdminSession.selector s.sessions { stored with csrfDigest := digest })
    (hissued : s'.issued = s.issued ++ [(selector, digest)])
    (hprevious : s'.previous = Entries.set s.previous selector stored.csrfDigest) : Sound s' := by
  obtain ⟨hmem, rfl⟩ := Rows.mem_of_lookup hstored
  have hput :
      stored.selector = ({ stored with csrfDigest := digest } : AdminSession).selector := rfl
  have hin : ({ stored with csrfDigest := digest } : AdminSession) ∈ s'.sessions := by
    rw [hsessions]
    exact Rows.mem_put_self hmem hput
  have hkept (selector : Str) (hrow : ∃ row ∈ s.sessions, row.selector = selector) :
      ∃ row ∈ s'.sessions, row.selector = selector := by
    obtain ⟨row, hrow, rfl⟩ := hrow
    have hkey : row.selector ∈ s'.sessions.map AdminSession.selector := by
      rw [hsessions, Rows.keys_put]
      exact List.mem_map_of_mem hrow
    obtain ⟨row', hrow', hselector⟩ := List.mem_map.mp hkey
    exact ⟨row', hrow', hselector⟩
  constructor
  case nodup =>
    rw [hsessions, Rows.keys_put]
    exact h.nodup
  case issued =>
    intro p hp
    rw [hissued] at hp
    rcases List.mem_append.mp hp with hold | hnew
    · exact hkept p.1 (h.issued p hold)
    · rw [List.mem_singleton.mp hnew]
      exact ⟨_, hin, rfl⟩
  case previous =>
    intro selector digest' hget
    rw [hprevious, Entries.get?_set] at hget
    split at hget
    · next heq => exact ⟨_, hin, heq.symm⟩
    · exact hkept selector (h.previous selector digest' hget)
  case csrf =>
    intro row hrow
    rw [hsessions] at hrow
    rw [hissued, issuedFor_append, hprevious]
    rcases Rows.mem_put hrow with rfl | ⟨hold, hne⟩
    · rw [if_pos rfl, Entries.get?_set_self, List.getLast?_concat, List.dropLast_concat]
      exact ⟨rfl, (h.csrf stored hmem).1.symm⟩
    · rw [if_neg (Ne.symm hne), List.append_nil, Entries.get?_set_of_ne _ _ hne]
      exact h.csrf row hold

end Tokens

section Runs

variable {C : AuthenticationContext} {s s' : SessionState} {t t' : SessionThread}

/-- The second transaction of a call writes nothing, or another CSRF token. -/
theorem proceed_cases (C : AuthenticationContext) (s : SessionState) (selector : Str)
    (use : SessionUse) :
    (SessionThread.proceed C s selector use).1 = s ∨ ∃ stored digest,
      storedSession s selector = some stored ∧
      (SessionThread.proceed C s selector use).1.sessions =
        Rows.put AdminSession.selector s.sessions { stored with csrfDigest := digest } ∧
      (SessionThread.proceed C s selector use).1.issued = s.issued ++ [(selector, digest)] ∧
      (SessionThread.proceed C s selector use).1.previous =
        Entries.set s.previous selector stored.csrfDigest := by
  cases use with
  | authenticate sessionToken => exact .inl rfl
  | authenticateWithCsrf sessionToken csrfToken =>
      simp only [SessionThread.proceed]
      repeat' split
      all_goals exact .inl rfl
  | refreshCsrf sessionToken csrfBytes =>
      simp only [SessionThread.proceed]
      split
      · exact .inl rfl
      · next stored hstored =>
          split
          · exact .inl rfl
          · next digest hdigest => exact .inr ⟨stored, digest, hstored, rfl, rfl, rfl⟩
  | logout sessionToken csrfToken leavesAt =>
      simp only [SessionThread.proceed]
      repeat' split
      all_goals exact .inl rfl

/-- What a step of a call keeps. -/
theorem sound_of_next (h : Sound s) (hnext : SessionThread.next C s t = some (s', t')) :
    Sound s' ∧ Evolves s.sessions s'.sessions := by
  cases t with
  | other t =>
      obtain ⟨⟨auth, next⟩, hstep, heq⟩ := Option.map_eq_some_iff.mp hnext
      cases heq
      have hafter := sessionsAfter_of_next hstep
      exact ⟨h.after hafter, hafter.evolves⟩
  | called use now =>
      simp only [SessionThread.next] at hnext
      split at hnext
      · cases hnext
      · split at hnext <;> cases hnext <;> exact ⟨h.same rfl rfl rfl, .refl _⟩
  | authenticated use selector =>
      have hproceed : (SessionThread.proceed C s selector use).1 = s' :=
        congrArg Prod.fst (Option.some.inj hnext)
      subst hproceed
      rcases proceed_cases C s selector use with
        hsame | ⟨stored, digest, hstored, hsessions, hissued, hprevious⟩
      · rw [hsame]
        exact ⟨h, .refl _⟩
      · refine ⟨h.refresh hstored hsessions hissued hprevious, ?_⟩
        rw [hsessions]
        obtain ⟨-, rfl⟩ := Rows.mem_of_lookup hstored
        exact evolves_put h.nodup hstored rfl rfl rfl id
  | leaving selector leavesAt =>
      simp only [SessionThread.next] at hnext
      split at hnext
      · cases hnext
      · split at hnext
        · cases hnext
          exact ⟨h.same rfl rfl rfl, .refl _⟩
        · next stored hstored =>
            cases hnext
            obtain ⟨hmem, rfl⟩ := Rows.mem_of_lookup hstored
            constructor
            · refine Sound.map h ?_ rfl rfl rfl
              intro row hrow
              split
              · next hkey =>
                  have hlookup := (Rows.lookup_eq_some_iff h.nodup).mpr ⟨hrow, hkey⟩
                  obtain rfl := Option.some.inj (hlookup.symm.trans hstored)
                  exact ⟨rfl, rfl⟩
              · exact ⟨rfl, rfl⟩
            · exact evolves_put h.nodup hstored rfl rfl rfl fun _ => rfl
  | ended answer => cases hnext

/-- The service before the first session. -/
def Fresh (s : SessionState) : Prop := s.sessions = [] ∧ s.previous = [] ∧ s.issued = []

def sessionRuns (C : AuthenticationContext) :
    Machine (Sessions SessionState SessionThread) (SessionEvent SessionThread) :=
  (SessionThread.system C).machine Fresh

/-- How a state goes on, with the calls that are running in it. -/
def sessionRunsFrom (C : AuthenticationContext) (start : Sessions SessionState SessionThread) :
    Machine (Sessions SessionState SessionThread) (SessionEvent SessionThread) where
  initial s := s = start
  step s e s' := (SessionThread.system C).apply s e = some s'

variable {r r' : Sessions SessionState SessionThread} {e : SessionEvent SessionThread}

theorem sound_of_apply (h : Sound r.committed)
    (hstep : (SessionThread.system C).apply r e = some r') :
    Sound r'.committed ∧ Evolves r.committed.sessions r'.committed.sessions := by
  cases TransactionSystem.happens_of_apply hstep with
  | start _ => exact ⟨h, .refl _⟩
  | step _ _ hnext => exact sound_of_next h hnext
  | rollback _ _ => exact ⟨h, .refl _⟩

theorem sound_of_reachable (h : (sessionRuns C).Reachable Machine.anyStep r) :
    Sound r.committed := by
  apply h.invariant
  · rintro r ⟨⟨hsessions, hprevious, hissued⟩, -⟩
    constructor
    · rw [hsessions]
      exact List.nodup_nil
    · rw [hissued]
      exact fun p hp => absurd hp List.not_mem_nil
    · rw [hprevious]
      intro selector digest hget
      cases hget
    · rw [hsessions]
      exact fun row hrow => absurd hrow List.not_mem_nil
  · exact fun r e r' hr _ hstep => (sound_of_apply hr hstep).1

theorem evolves_of_reachable {start : Sessions SessionState SessionThread}
    (hsound : Sound start.committed)
    (h : (sessionRunsFrom C start).Reachable Machine.anyStep r) :
    Evolves start.committed.sessions r.committed.sessions := by
  have hboth : Sound r.committed ∧ Evolves start.committed.sessions r.committed.sessions := by
    apply h.invariant
    · rintro r rfl
      exact ⟨hsound, .refl _⟩
    · rintro r e r' ⟨hr, hevolves⟩ - hstep
      obtain ⟨hr', hnew⟩ := sound_of_apply hr hstep
      exact ⟨hr', hevolves.trans hnew⟩
  exact hboth.2

end Runs

section Results

variable {C : AuthenticationContext} {s s' : SessionState} {t t' : SessionThread}
  {selector token : Str} {now : Instant}

/-- A step that revokes a session: the last one of a logout, or a recovery that succeeds, for each
session that its account has then. -/
inductive Revokes (s : SessionState) (selector : Str) : SessionThread → SessionThread → Prop
  | logout {leavesAt : Instant} :
      Revokes s selector (.leaving selector leavesAt) (.ended (.accepted selector))
  | recovery {username code newPassword clientKey name key : Str} {salt : Bytes} {now : Instant}
      {user : User} {row : AdminSession} :
      AuthenticationContext.userNamed s.auth.tables name = some user → row ∈ s.sessions →
      row.userId = user.id → row.selector = selector →
      Revokes s selector
        (.other (.admitted (.recoverPassword username code newPassword clientKey salt) name now))
        (.other (.succeeded key))

/-- Every row with the selector is revoked. -/
def Revoked (rows : List AdminSession) (selector : Str) : Prop :=
  (∃ row ∈ rows, row.selector = selector) ∧
    ∀ row ∈ rows, row.selector = selector → row.revokedAt.isSome = true

theorem Revoked.evolves {old new : List AdminSession} (h : Revoked old selector)
    (hevolves : Evolves old new) : Revoked new selector := by
  obtain ⟨⟨first, hfirst, rfl⟩, hall⟩ := h
  refine ⟨hevolves.kept first hfirst, ?_⟩
  intro row hrow hselector
  obtain ⟨old, hold, hsame, -, -, -, hrevoked⟩ :=
    hevolves.same row hrow ⟨first, hfirst, hselector.symm⟩
  exact hrevoked (hall old hold (hsame.trans hselector))

theorem refused_of_revoked {tables : AccountTables} (h : Revoked tables.sessions selector)
    (htoken : AuthenticationContext.sessionSelector token = some selector) :
    C.authenticate tables token now = .error (.refused "unauthorized") := by
  unfold AuthenticationContext.authenticate
  rw [htoken]
  dsimp only
  split
  · rfl
  · next stored hstored =>
      obtain ⟨hmem, hselector⟩ := Rows.mem_of_lookup hstored
      rw [if_pos (.inl (h.2 stored hmem hselector))]

theorem revoked_of_next (hsound : Sound s) (hrevokes : Revokes s selector t t')
    (hnext : SessionThread.next C s t = some (s', t')) : Revoked s'.sessions selector := by
  cases hrevokes with
  | @logout leavesAt =>
      simp only [SessionThread.next] at hnext
      split at hnext
      · cases hnext
      · split at hnext
        · cases hnext
        · next stored hstored =>
            cases hnext
            obtain ⟨hmem, rfl⟩ := Rows.mem_of_lookup hstored
            refine ⟨⟨{ stored with revokedAt := some leavesAt },
              Rows.mem_put_self hmem rfl, rfl⟩, ?_⟩
            intro row hrow hselector
            rcases Rows.mem_put hrow with rfl | ⟨-, hne⟩
            · rfl
            · exact absurd hselector hne
  | @recovery username code newPassword clientKey name key salt now user row huser hrow hid
      hselector =>
      obtain ⟨⟨auth, after⟩, hstep, heq⟩ := Option.map_eq_some_iff.mp hnext
      cases heq
      simp only [AuthThread.next] at hstep
      split at hstep
      · cases hstep
      · cases hstep
      · cases hstep
      · next tables facts userId hcommitted =>
          cases hstep
          change C.recoverPassword s.auth.tables name code newPassword salt now = _ at hcommitted
          unfold AuthenticationContext.recoverPassword at hcommitted
          rw [huser] at hcommitted
          dsimp only at hcommitted
          split at hcommitted
          · cases hcommitted
          · split at hcommitted
            · cases hcommitted
            · cases hcommitted
              refine ⟨⟨_, List.mem_map_of_mem hrow, ?_⟩, ?_⟩
              · split <;> exact hselector
              · intro row' hrow' hsame
                obtain ⟨old, hold, rfl⟩ := List.mem_map.mp hrow'
                have hold' : old = row := by
                  apply List.inj_on_of_nodup_map hsound.nodup hold hrow
                  rw [hselector, ← hsame]
                  split <;> rfl
                rw [hold']
                split
                · rfl
                · next hopen =>
                    rw [Option.isSome_iff_ne_none]
                    exact fun hnone => hopen ⟨hid, hnone⟩
            · cases hcommitted

/-- However the calls are interleaved: once a logout or a password recovery has revoked a session,
no token of the session is accepted again, whatever calls were then at work or come after. -/
theorem revoked_for_good {r r' after : Sessions SessionState SessionThread} {i : Nat}
    (hreach : (sessionRuns C).Reachable Machine.anyStep r) (ht : r.running[i]? = some t)
    (hstep : (SessionThread.system C).apply r (.step i) = some r')
    (ht' : r'.running[i]? = some t') (hrevokes : Revokes r.committed selector t t')
    (hafter : (sessionRunsFrom C r').Reachable Machine.anyStep after)
    (htoken : AuthenticationContext.sessionSelector token = some selector) :
    C.authenticate after.committed.auth.tables token now = .error (.refused "unauthorized") := by
  have hsound := sound_of_reachable hreach
  have hsound' := (sound_of_apply hsound hstep).1
  have hrevoked : Revoked r'.committed.sessions selector := by
    cases TransactionSystem.happens_of_apply hstep with
    | @step j u u' committed hu _ hnext =>
        obtain rfl : u = t := Option.some.inj (hu.symm.trans ht)
        rw [Threads.getElem?_set_self hu] at ht'
        obtain rfl : u' = t' := Option.some.inj ht'
        exact revoked_of_next hsound hrevokes hnext
  exact refused_of_revoked (hrevoked.evolves (evolves_of_reachable hsound' hafter)) htoken

/-- However the calls are interleaved: the CSRF tokens that a session accepts are the last two that
it has been given. -/
theorem csrfValid_last_two {r : Sessions SessionState SessionThread} {row : AdminSession}
    (hreach : (sessionRuns C).Reachable Machine.anyStep r) (hrow : row ∈ r.committed.sessions)
    (csrfToken : Str) :
    csrfValid C r.committed row csrfToken = (C.security.digest csrfToken (lit "csrf")).map
      fun digest => decide (digest ∈ (issuedFor r.committed.issued row.selector).rtake 2) := by
  obtain ⟨hlast, hprevious⟩ := (sound_of_reachable hreach).csrf row hrow
  generalize issuedFor r.committed.issued row.selector = tokens at hlast hprevious ⊢
  obtain ⟨before, rfl⟩ := List.getLast?_eq_some_iff.mp hlast
  rw [List.dropLast_concat] at hprevious
  unfold csrfValid AuthenticationContext.matchesDigest
  rw [hprevious]
  cases hdigest : C.security.digest csrfToken (lit "csrf") with
  | none => rfl
  | some digest =>
      rcases List.eq_nil_or_concat before with rfl | ⟨first, second, rfl⟩
      · by_cases heq : digest = row.csrfDigest <;> simp [heq, List.rtake]
      · by_cases heq : digest = row.csrfDigest <;> simp [heq, List.rtake]

end Results

section Samples

/-- The service with an account that needs no one-time code. -/
def sampleSessionState : SessionState where
  auth := { sampleAuthState with tables := { users :=
    [{ sampleAccount with totpSecretCiphertext := none, totpRequired := false }] } }

def sampleSessionToken : Str :=
  ((sampleContext.security.issueToken (lit "mbs") (lit "session") sampleSessionDraw.token).map
    fun token => token.raw).getD []

/-- A login, and a logout up to its last step. -/
def sampleSessionEvents : List (SessionEvent SessionThread) :=
  [.start (.other (.called (.login (lit "admin") (lit "admin") (lit "key") sampleSessionDraw) 0)),
    .step 0, .step 0, .step 0,
    .start (.called
      (.logout sampleSessionToken (Base64.encodeUrl sampleSessionDraw.csrfBytes) 1) 1),
    .step 1, .step 1]

/-- A login, and two new CSRF tokens. -/
def refreshedEvents : List (SessionEvent SessionThread) :=
  [.start (.other (.called (.login (lit "admin") (lit "admin") (lit "key") sampleSessionDraw) 0)),
    .step 0, .step 0, .step 0,
    .start (.called (.refreshCsrf sampleSessionToken (List.replicate 32 1)) 1), .step 1, .step 1,
    .start (.called (.refreshCsrf sampleSessionToken (List.replicate 32 2)) 2), .step 2, .step 2]

def sampleRun (events : List (SessionEvent SessionThread)) :
    Option (Sessions SessionState SessionThread) :=
  events.foldlM (fun r e => if Machine.anyStep r e then
    (SessionThread.system sampleContext).apply r e else none) { committed := sampleSessionState }

def sampleSessionRun : Option (Sessions SessionState SessionThread) := sampleRun sampleSessionEvents

theorem reachable_sampleRun {events : List (SessionEvent SessionThread)}
    {r : Sessions SessionState SessionThread} (h : sampleRun events = some r) :
    (sessionRuns sampleContext).Reachable Machine.anyStep r := by
  have hfresh : Fresh sampleSessionState := ⟨rfl, rfl, rfl⟩
  exact TransactionSystem.reachable_of_schedule hfresh events h

/-- The selector of a logout before its last step. -/
def leavingOf : SessionThread → Option Str
  | .leaving selector _ => some selector
  | _ => none

/-- The selector of a call that has been accepted. -/
def acceptedOf : SessionThread → Option Str
  | .ended (.accepted selector) => some selector
  | _ => none

/-- After the logout its token is refused, at all times. -/
theorem revoked_for_good_sample : ∃ r : Sessions SessionState SessionThread,
    r.committed.sessions.length = 1 ∧ ∀ now,
      sampleContext.authenticate r.committed.auth.tables sampleSessionToken now =
        .error (.refused "unauthorized") := by
  let selector := (Base64.encodeUrl (List.replicate 12 0))
  have hleaving :
      (sampleSessionRun.bind fun r => r.running[1]?.bind leavingOf) = some selector := by
    decide +kernel
  have hlast : (sampleSessionRun.bind fun r =>
      ((SessionThread.system sampleContext).apply r (.step 1)).bind fun r' =>
        if r'.committed.sessions.length = 1 then r'.running[1]?.bind acceptedOf else none) =
      some selector := by
    decide +kernel
  obtain ⟨r, hr, hthread⟩ := Option.bind_eq_some_iff.mp hleaving
  obtain ⟨t, ht, hselector⟩ := Option.bind_eq_some_iff.mp hthread
  rw [hr, Option.bind_some] at hlast
  obtain ⟨r', hstep, hend⟩ := Option.bind_eq_some_iff.mp hlast
  obtain ⟨hone, hend⟩ := Option.ite_none_right_eq_some.mp hend
  obtain ⟨t', ht', haccepted⟩ := Option.bind_eq_some_iff.mp hend
  refine ⟨r', hone, fun now => ?_⟩
  have hrevokes : Revokes r.committed selector t t' := by
    cases t with
    | leaving found leavesAt =>
        cases t' with
        | ended answer =>
            cases answer with
            | accepted other =>
                rw [Option.some.inj hselector, Option.some.inj haccepted]
                exact .logout
            | refused error => cases haccepted
            | raised => cases haccepted
        | _ => cases haccepted
    | _ => cases hselector
  have htoken : AuthenticationContext.sessionSelector sampleSessionToken = some selector := by
    decide +kernel
  exact revoked_for_good (reachable_sampleRun hr) ht hstep ht' hrevokes (.start rfl) htoken

/-- Of three tokens that it has been given, a session accepts the last two. -/
theorem csrfValid_last_two_sample :
    ∃ (r : Sessions SessionState SessionThread) (row : AdminSession), row ∈ r.committed.sessions ∧
      [0, 1, 2].map (fun b => csrfValid sampleContext r.committed row
        (Base64.encodeUrl (List.replicate 32 b))) = [some false, some true, some true] := by
  have hissued : ((sampleRun refreshedEvents).any fun r => r.committed.sessions.any fun row =>
      decide ([0, 1, 2].map (fun b => (sampleContext.security.digest
        (Base64.encodeUrl (List.replicate 32 b)) (lit "csrf")).map fun digest => decide
          (digest ∈ (issuedFor r.committed.issued row.selector).rtake 2)) =
            [some false, some true, some true])) = true := by
    decide +kernel
  obtain ⟨r, hr, hany⟩ := (Option.any_eq_true _ _).mp hissued
  obtain ⟨row, hrow, hvalid⟩ := List.any_eq_true.mp hany
  refine ⟨r, row, hrow, Eq.trans ?_ (of_decide_eq_true hvalid)⟩
  exact List.map_congr_left fun b _ => csrfValid_last_two (reachable_sampleRun hr) hrow _

end Samples

end MediaBridge.Control
