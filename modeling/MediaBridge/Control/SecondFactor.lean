import MediaBridge.Control.Authentication

/-!
# The second factor of an account

What a session of an account is issued on, once a secret for one-time codes has been confirmed for
it, over the runs of the entry points of `media_bridge_control/bootstrap.py`.

## Implementation notes

The account has a secret in the beginning, and no session. `facts` says which secrets have been
stored since, and whether a session or only a password was shown for them.
-/

namespace MediaBridge.Control

open Foundation MediaBridge.Core Gateway

/-- A secret that was confirmed, or that was stored on the strength of a session. -/
def Trusted (account : Uuid) (confirmed : Str) (facts : List AuthFact) (secret : Str) : Prop :=
  secret = confirmed ∨ .enrolled account secret true ∈ facts

/-- The grounds of a session of the account are a valid code for a trusted secret, or an unused
recovery code. -/
def AcceptableGrounds (C : AuthenticationContext) (account : Uuid) (confirmed : Str)
    (before : List AuthFact) : Grounds → Prop
  | .password => False
  | .totp secret code now => Totp.verifyCode C.totp secret code now = .accepted ∧
      Trusted account confirmed before secret
  | .recoveryCode raw code => C.matchesDigest raw code.codeDigest (lit "recovery") = some true ∧
      code.userId = account ∧ code.usedAt = none

/-- What is done for the account is justified by what was done before: a session by its grounds,
and the storing of a secret by a session that was issued. -/
def Justified (C : AuthenticationContext) (account : Uuid) (confirmed : Str)
    (before : List AuthFact) : AuthFact → Prop
  | .failedCheck .. => True
  | .mailed .. => True
  | .issued userId grounds => userId = account → AcceptableGrounds C account confirmed before grounds
  | .enrolled userId _ bySession => userId = account →
      bySession = true ∧ ∃ grounds, .issued account grounds ∈ before

/-- The account holds a secret that satisfies a condition. -/
def HoldsSecret (C : AuthenticationContext) (account : Uuid) (tables : AccountTables)
    (p : Str → Prop) : Prop :=
  ∃ user, Rows.lookup User.id tables.users account = some user ∧
    ∃ ciphertext, user.totpSecretCiphertext = some ciphertext ∧
      ∃ secret, C.decryptSecret ciphertext = some secret ∧ p secret

/-- The account has a confirmed secret, and no session. -/
structure ConfirmedFactor (C : AuthenticationContext) (account : Uuid) (confirmed : Str)
    (s : AuthState) : Prop where
  keys : (s.tables.users.map User.id).Nodup
  sessions : ∀ session ∈ s.tables.sessions, session.userId ≠ account
  facts : s.facts = []
  stored : HoldsSecret C account s.tables fun secret => secret = confirmed

/-- A call replaces the secret of the account after it has shown a password. -/
def replacesFactor (account : Uuid) (s : AuthState) : AuthThread → Bool
  | .called _ _ => false
  | .admitted .. => false
  | .verified userId _ => decide (userId = account) &&
      (Rows.lookup User.id s.tables.users userId).any fun user =>
        user.totpSecretCiphertext.isSome
  | .mailing .. => false
  | .failed _ _ => false
  | .succeeded _ => false
  | .ended => false

/-- No call with a password replaces a secret of the account. -/
def KeepsFactor (account : Uuid) (s : Sessions AuthState AuthThread) :
    SessionEvent AuthThread → Prop
  | .start _ => True
  | .rollback _ => True
  | .step i => s.running[i]?.any (replacesFactor account s.committed) = false

instance (account : Uuid) (s : Sessions AuthState AuthThread) :
    (e : SessionEvent AuthThread) → Decidable (KeepsFactor account s e)
  | .start _ => isTrue trivial
  | .rollback _ => isTrue trivial
  | .step _ => inferInstanceAs (Decidable (_ = false))

section Invariant

variable {C : AuthenticationContext} {account : Uuid} {confirmed : Str}

/-- What holds between the steps of the calls. -/
structure FactorKept (C : AuthenticationContext) (account : Uuid) (confirmed : Str)
    (s : AuthState) : Prop where
  keys : (s.tables.users.map User.id).Nodup
  sessions : ∀ session ∈ s.tables.sessions, session.userId = account →
    ∃ grounds, .issued account grounds ∈ s.facts
  justified : EachStep (Justified C account confirmed) s.facts
  stored : HoldsSecret C account s.tables (Trusted account confirmed s.facts)

theorem Trusted.append {facts : List AuthFact} {secret : Str} (fact : AuthFact)
    (h : Trusted account confirmed facts secret) :
    Trusted account confirmed (facts ++ [fact]) secret :=
  h.imp_right (List.mem_append_left _)

theorem HoldsSecret.imp {tables : AccountTables} {p q : Str → Prop}
    (h : HoldsSecret C account tables p) (hpq : ∀ secret, p secret → q secret) :
    HoldsSecret C account tables q := by
  obtain ⟨user, huser, ciphertext, hcipher, secret, hsecret, hp⟩ := h
  exact ⟨user, huser, ciphertext, hcipher, secret, hsecret, hpq secret hp⟩

/-- A row of another account, or one with the same secret, is written. -/
theorem HoldsSecret.put {tables tables' : AccountTables} {p : Str → Prop} {user : User} (row : User)
    (h : HoldsSecret C account tables p) (hkeys : (tables.users.map User.id).Nodup)
    (huser : user ∈ tables.users) (hid : row.id = user.id)
    (hsame : user.id = account → row.totpSecretCiphertext = user.totpSecretCiphertext)
    (htables : tables'.users = Rows.put User.id tables.users row) :
    HoldsSecret C account tables' p := by
  obtain ⟨stored, hstored, ciphertext, hcipher, hsecret⟩ := h
  unfold HoldsSecret
  rw [htables]
  by_cases haccount : user.id = account
  · have hfound : Rows.lookup User.id tables.users account = some user :=
      (Rows.lookup_eq_some_iff hkeys).mpr ⟨huser, haccount⟩
    have heq : stored = user := Option.some.inj (hstored.symm.trans hfound)
    rw [← haccount, ← hid] at hfound
    have hput := Rows.lookup_put_self hkeys hfound
    rw [hid, haccount] at hput
    refine ⟨row, hput, ciphertext, ?_, hsecret⟩
    rw [hsame haccount, ← heq]
    exact hcipher
  · refine ⟨stored, ?_, ciphertext, hcipher, hsecret⟩
    rw [Rows.lookup_put_of_ne (by rw [hid]; exact Ne.symm haccount)]
    exact hstored

theorem factorKept_of_confirmed {s : AuthState} (h : ConfirmedFactor C account confirmed s) :
    FactorKept C account confirmed s := by
  refine ⟨h.keys, ?_, ?_, ?_⟩
  · intro session hsession haccount
    exact absurd haccount (h.sessions session hsession)
  · rw [h.facts]
    exact eachStep_nil _
  · exact h.stored.imp fun _ heq => .inl heq

/-- The users and the sessions stay, and a justified fact is added. -/
theorem FactorKept.add {s s' : AuthState} (h : FactorKept C account confirmed s)
    (husers : s'.tables.users = s.tables.users)
    (hsessions : ∀ session ∈ s'.tables.sessions, session.userId = account →
      ∃ grounds, .issued account grounds ∈ s'.facts)
    {fact : AuthFact} (hfacts : s'.facts = s.facts ++ [fact])
    (hfact : Justified C account confirmed s.facts fact) : FactorKept C account confirmed s' := by
  refine ⟨by rw [husers]; exact h.keys, hsessions, ?_, ?_⟩
  · rw [hfacts]
    exact eachStep_append_singleton.mpr ⟨h.justified, hfact⟩
  · rw [hfacts]
    unfold HoldsSecret
    rw [husers]
    exact h.stored.imp fun _ => Trusted.append _

theorem FactorKept.sessions_append {s : AuthState} (h : FactorKept C account confirmed s)
    (fact : AuthFact) : ∀ session ∈ s.tables.sessions, session.userId = account →
      ∃ grounds, .issued account grounds ∈ s.facts ++ [fact] := by
  intro session hsession haccount
  obtain ⟨grounds, hissued⟩ := h.sessions session hsession haccount
  exact ⟨grounds, List.mem_append_left _ hissued⟩

/-- The grounds of a session that is issued for the account are acceptable. -/
theorem FactorKept.acceptable {s : AuthState} (h : FactorKept C account confirmed s) {user : User}
    {grounds : Grounds} (huser : user ∈ s.tables.users) (hgrounds : C.Grounded user grounds)
    (haccount : user.id = account) : AcceptableGrounds C account confirmed s.facts grounds := by
  obtain ⟨stored, hstored, ciphertext, hcipher, secret, hsecret, htrusted⟩ := h.stored
  have hfound : Rows.lookup User.id s.tables.users account = some user :=
    (Rows.lookup_eq_some_iff h.keys).mpr ⟨huser, haccount⟩
  have heq : stored = user := Option.some.inj (hstored.symm.trans hfound)
  subst heq
  cases grounds with
  | password =>
      change stored.totpSecretCiphertext = none at hgrounds
      rw [hcipher] at hgrounds
      cases hgrounds
  | totp used code now =>
      obtain ⟨ciphertext', hcipher', hsecret', hvalid⟩ := hgrounds
      rw [hcipher] at hcipher'
      cases hcipher'
      rw [hsecret] at hsecret'
      cases hsecret'
      exact ⟨hvalid, htrusted⟩
  | recoveryCode raw code => exact ⟨hgrounds.1, hgrounds.2.1.trans haccount, hgrounds.2.2⟩

/-- A transaction that commits keeps what holds of the account. -/
theorem FactorKept.commits {s : AuthState} (h : FactorKept C account confirmed s) {now : Instant}
    {call : AuthCall} {tables : AccountTables} {facts : List AuthFact}
    (hcommits : C.Commits s.tables now call tables facts) :
    FactorKept C account confirmed { s with tables := tables, facts := s.facts ++ facts } := by
  cases hcommits with
  | same husers hsessions =>
      rw [List.append_nil]
      refine ⟨?_, ?_, h.justified, ?_⟩
      · change (tables.users.map User.id).Nodup
        rw [husers]
        exact h.keys
      · intro session hsession
        rw [show _ = _ from hsessions] at hsession
        exact h.sessions session hsession
      · unfold HoldsSecret
        change ∃ user, Rows.lookup User.id tables.users account = _ ∧ _
        rw [husers]
        exact h.stored
  | @issued _ _ user grounds session huser hgrounds husers hsessions hid =>
      have hjustified : Justified C account confirmed s.facts (.issued user.id grounds) :=
        fun haccount => h.acceptable huser hgrounds haccount
      apply h.add husers _ rfl hjustified
      intro issued hissued haccount
      change issued ∈ tables.sessions at hissued
      rw [hsessions] at hissued
      rcases List.mem_append.mp hissued with hold | hnew
      · exact h.sessions_append _ issued hold haccount
      · rw [List.mem_singleton.mp hnew, hid] at haccount
        refine ⟨grounds, ?_⟩
        rw [← haccount]
        exact List.mem_append_right _ List.mem_cons_self
  | @recovered _ _ user passwordHash huser husers hsessions =>
      rw [List.append_nil]
      refine ⟨?_, ?_, h.justified, ?_⟩
      · change (tables.users.map User.id).Nodup
        rw [husers, Rows.keys_put]
        exact h.keys
      · intro session hsession haccount
        obtain ⟨old, hold, hid⟩ := hsessions session hsession
        exact h.sessions old hold (hid.trans haccount)
      · exact HoldsSecret.put { user with passwordHash := passwordHash } h.stored h.keys huser rfl
          (fun _ => rfl) husers
  | @enrolled token draw _ session user facts hauth henroll =>
      obtain ⟨hsession, huser⟩ := C.authenticate_ok hauth
      obtain ⟨hmem, hid⟩ := Rows.mem_of_lookup huser
      obtain ⟨found, hfound, -, rfl, rfl⟩ := C.beginTotpEnrollment_committed henroll
      have hsame : found = user := by
        rw [hid] at hfound
        exact Option.some.inj (hfound.symm.trans huser)
      subst hsame
      have hjustified : Justified C account confirmed s.facts
          (.enrolled found.id (Totp.generateSecret draw.secretBytes) true) := by
        intro haccount
        exact ⟨rfl, h.sessions session hsession (hid.symm.trans haccount)⟩
      refine ⟨?_, ?_, eachStep_append_singleton.mpr ⟨h.justified, hjustified⟩, ?_⟩
      · change ((Rows.put User.id s.tables.users _).map User.id).Nodup
        rw [Rows.keys_put]
        exact h.keys
      · exact h.sessions_append _
      · by_cases haccount : found.id = account
        · refine ⟨found.withSecret (C.encryptSecret draw.fernetBytes
            (Totp.generateSecret draw.secretBytes)), ?_, _, rfl, _, C.decrypt_encrypt _ _, .inr ?_⟩
          · rw [← haccount]
            exact Rows.lookup_put_self h.keys ((Rows.lookup_eq_some_iff h.keys).mpr ⟨hmem, rfl⟩)
          · rw [haccount]
            exact List.mem_append_right _ List.mem_cons_self
        · apply HoldsSecret.put (found.withSecret _) _ h.keys hmem rfl
            (fun heq => absurd heq haccount) rfl
          exact h.stored.imp fun _ => Trusted.append _

/-- What a step changes of the limiter does not matter. -/
theorem FactorKept.limiter {s : AuthState} (h : FactorKept C account confirmed s)
    (limiter : LimiterState) : FactorKept C account confirmed { s with limiter := limiter } :=
  ⟨h.keys, h.sessions, h.justified, h.stored⟩

/-- A fact is added that is neither a session nor a secret. -/
theorem FactorKept.note {s : AuthState} (h : FactorKept C account confirmed s) {fact : AuthFact}
    (hfact : Justified C account confirmed s.facts fact) :
    FactorKept C account confirmed { s with facts := s.facts ++ [fact] } :=
  h.add rfl (h.sessions_append fact) rfl hfact

/-- One step of a call. -/
theorem FactorKept.next {s s' : AuthState} {t t' : AuthThread}
    (h : FactorKept C account confirmed s) (hkeeps : replacesFactor account s t = false)
    (hnext : AuthThread.next C s t = some (s', t')) : FactorKept C account confirmed s' := by
  cases t with
  | called call now =>
      simp only [AuthThread.next] at hnext
      split at hnext
      · cases hnext
      · split at hnext
        · cases hnext
          exact h.limiter _
        · split at hnext
          · cases hnext
            exact h.limiter _
          · cases hnext
            exact h.limiter _
  | admitted call name now =>
      simp only [AuthThread.next] at hnext
      split at hnext
      · next compared error _ =>
          cases hnext
          cases compared with
          | true => exact h.note trivial
          | false =>
              rw [AuthThread.failedCheck, if_neg Bool.false_ne_true, List.append_nil]
              exact h
      · cases hnext
        exact h
      · cases hnext
        exact h
      · next hcommitted =>
          cases hnext
          exact h.commits (C.commits_of_transact hcommitted)
  | verified userId draw =>
      simp only [AuthThread.next] at hnext
      split at hnext
      · next tables facts id hcommitted =>
          cases hnext
          obtain ⟨user, huser, -, rfl, rfl⟩ := C.beginTotpEnrollment_committed hcommitted
          obtain ⟨hmem, hid⟩ := Rows.mem_of_lookup huser
          -- The account has a secret, so this is another one.
          have hother : userId ≠ account := by
            rintro rfl
            obtain ⟨stored, hstored, ciphertext, hcipher, -⟩ := h.stored
            simp [replacesFactor, hstored, hcipher] at hkeeps
          refine ⟨?_, ?_, eachStep_append_singleton.mpr ⟨h.justified, ?_⟩, ?_⟩
          · change ((Rows.put User.id s.tables.users _).map User.id).Nodup
            rw [Rows.keys_put]
            exact h.keys
          · exact h.sessions_append _
          · exact fun haccount => absurd haccount hother
          · apply HoldsSecret.put (user.withSecret _) _ h.keys hmem rfl
              (fun heq => absurd (hid.symm.trans heq) hother) rfl
            exact h.stored.imp fun _ => Trusted.append _
      · cases hnext
        exact h
      · cases hnext
        exact h
      · cases hnext
        exact h
  | mailing key name clientKey now =>
      cases hnext
      exact h.note trivial
  | failed key now =>
      cases hnext
      exact h.limiter _
  | succeeded key =>
      cases hnext
      exact h.limiter _
  | ended => cases hnext

/-- The factor is kept in every run that does not replace it. -/
theorem factorKept_of_reachable {s : Sessions AuthState AuthThread}
    (h : ((AuthThread.system C).machine (ConfirmedFactor C account confirmed)).Reachable
      (KeepsFactor account) s) : FactorKept C account confirmed s.committed := by
  apply h.invariant
  · rintro s ⟨hconfirmed, -⟩
    exact factorKept_of_confirmed hconfirmed
  · intro s e s' hs hallowed hstep
    cases TransactionSystem.happens_of_apply hstep with
    | start _ => exact hs
    | step ht _ hnext =>
        have hkeeps : (s.running[_]?).any (replacesFactor account s.committed) = false := hallowed
        rw [ht] at hkeeps
        exact hs.next hkeeps hnext
    | rollback _ _ => exact hs

end Invariant

section Samples

theorem confirmedFactor_sample :
    ConfirmedFactor sampleContext 1 (lit "JBSWY3DPEHPK3PXP") sampleAuthState :=
  ⟨by decide, by decide, rfl, sampleAccount, rfl, _, rfl, _, rfl, rfl⟩

end Samples

end MediaBridge.Control
