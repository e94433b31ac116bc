import MediaBridge.Control.Authentication

/-!
# Throttled entry points

How many failed checks the entry points of `media_bridge_control/bootstrap.py` make for one account
and client within a window of the limiter, and how many recovery codes are mailed.

## Implementation notes

A failed check is counted at the reading of the clock with which its call has asked the limiter.
The failures that the limiter counts are those of a key; the ones of an entry point, an account and
a client are among them.
-/

namespace MediaBridge.Control

open Foundation MediaBridge.Core Gateway WindowTable

/-- When a failed check that counts for a key was made. -/
def failedTime? (key : Str) : AuthFact → Option Instant
  | .failedCheck entry account clientKey now =>
      if rateKey entry clientKey account = some key then some now else none
  | .mailed .. => none
  | .issued .. => none
  | .enrolled .. => none

def failedTimes (facts : List AuthFact) (key : Str) : List Instant :=
  facts.filterMap (failedTime? key)

/-- When an entry point failed a check for an account and a client. -/
def checkTime? (entry : AuthEntry) (account : Str) (clientKey : Option Str) :
    AuthFact → Option Instant
  | .failedCheck entry' account' clientKey' now =>
      if entry' = entry ∧ account' = account ∧ clientKey' = clientKey then some now else none
  | .mailed .. => none
  | .issued .. => none
  | .enrolled .. => none

def checkTimes (facts : List AuthFact) (entry : AuthEntry) (account : Str)
    (clientKey : Option Str) : List Instant :=
  facts.filterMap (checkTime? entry account clientKey)

/-- When a recovery code was mailed for an account and a client. -/
def mailTime? (account : Str) (clientKey : Option Str) : AuthFact → Option Instant
  | .failedCheck .. => none
  | .mailed account' clientKey' now =>
      if account' = account ∧ clientKey' = clientKey then some now else none
  | .issued .. => none
  | .enrolled .. => none

def mailTimes (facts : List AuthFact) (account : Str) (clientKey : Option Str) : List Instant :=
  facts.filterMap (mailTime? account clientKey)

/-- The times of the window that ends at a moment. -/
def inWindow (window : Int) (last : Instant) (times : List Instant) : List Instant :=
  times.filter fun t => last - window < t ∧ t ≤ last

/-- The entry points that check a secret or mail a code for an account. -/
def AuthEntry.guarded : AuthEntry → Bool
  | .login => true
  | .loginWithTotp => true
  | .beginTotpEnrollmentWithPassword => true
  | .beginTotpEnrollment => false
  | .confirmTotpEnrollment => false
  | .requestRecoveryCode => true
  | .loginWithRecoveryCode => true
  | .recoverPassword => true

section Conditions

variable (C : AuthenticationContext) (s : Sessions AuthState AuthThread)

/-- The password is the one of the account, if there is such an active account. -/
def passwordFits (tables : AccountTables) (name password : Str) : Bool :=
  (AuthenticationContext.userNamed tables name).all fun user =>
    !user.isActive || C.passwords.verify user.passwordHash password

/-- The code is one for the secret of the account, if there is such an active account. -/
def codeFits (tables : AccountTables) (name code : Str) (now : Instant) : Bool :=
  (AuthenticationContext.userNamed tables name).all fun user =>
    !user.isActive || user.totpSecretCiphertext.all fun ciphertext =>
      (C.decryptSecret ciphertext).any fun secret =>
        decide (Totp.verifyCode C.totp secret code now ≠ .totpError)

/-- There is an active account with an address, to which a recovery code can be mailed. -/
def mailable (tables : AccountTables) (name : Str) : Bool :=
  (AuthenticationContext.userNamed tables name).any fun user =>
    user.isActive && !(user.recoveryEmail.getD []).isEmpty

/-- The two entry points that do not ask the limiter are called with the right secrets, and the one
that records nothing has nothing to mail. -/
def NothingToTrack (tables : AccountTables) (name : Str) (now : Instant) : AuthCall → Bool
  | .login .. => true
  | .loginWithTotp _ password code _ _ =>
      passwordFits C tables name password && codeFits C tables name code now
  | .beginTotpEnrollmentWithPassword _ password _ => passwordFits C tables name password
  | .beginTotpEnrollment .. => true
  | .confirmTotpEnrollment .. => true
  | .requestRecoveryCode .. => !mailable tables name
  | .loginWithRecoveryCode .. => true
  | .recoverPassword .. => true

/-- A call asks the limiter while no other call with its key is in flight; what it tells the
limiter evicts no key, and clears none, that has failures in its window. -/
def Tracked (i : Nat) : AuthThread → Prop
  | .called call now => ∀ name ∈ (C.precheck call).toOption,
      ∀ key ∈ rateKey call.entry call.clientKey name,
        (∀ u ∈ s.running.eraseIdx i, u.heldKey ≠ some key) ∧
          C.limiter.KeepsLive s.committed.limiter (.allow key now)
  | .admitted call name now => NothingToTrack C s.committed.tables name now call = true
  | .verified _ _ => True
  | .mailing .. => True
  | .failed key now => C.limiter.KeepsLive s.committed.limiter (.recordFailure key now)
  | .succeeded key => live (s.committed.limiter.now - C.limiter.window)
      (times s.committed.limiter.attempts key) = []
  | .ended => True

/-- Every step is tracked by the limiter. A step that is not goes to a check whose failures the
limiter does not count (wrong secrets without a question to it, a code that is mailed), asks beside
a call that has asked and not yet told, or makes the limiter drop failures in its window. -/
def StepsTracked : SessionEvent AuthThread → Prop
  | .start _ => True
  | .rollback _ => True
  | .step i => ∀ t ∈ s.running[i]?, Tracked C s i t

instance (i : Nat) : ∀ t : AuthThread, Decidable (Tracked C s i t)
  | .called call now => inferInstanceAs (Decidable (∀ name ∈ (C.precheck call).toOption,
      ∀ key ∈ rateKey call.entry call.clientKey name,
        (∀ u ∈ s.running.eraseIdx i, u.heldKey ≠ some key) ∧
          C.limiter.KeepsLive s.committed.limiter (.allow key now)))
  | .admitted .. => inferInstanceAs (Decidable (_ = true))
  | .verified _ _ => inferInstanceAs (Decidable True)
  | .mailing .. => inferInstanceAs (Decidable True)
  | .failed key now => inferInstanceAs (Decidable (C.limiter.KeepsLive _ (.recordFailure key now)))
  | .succeeded _ => inferInstanceAs (Decidable (live _ _ = []))
  | .ended => inferInstanceAs (Decidable True)

instance : ∀ e, Decidable (StepsTracked C s e)
  | .start _ => inferInstanceAs (Decidable True)
  | .rollback _ => inferInstanceAs (Decidable True)
  | .step i => inferInstanceAs (Decidable (∀ t ∈ s.running[i]?, Tracked C s i t))

end Conditions

section Untracked

variable {C : AuthenticationContext} {tables tables' : AccountTables} {name password : Str}
  {now : Instant} {error : String}

/-- A password that fits an account is not rejected after a comparison. -/
theorem passwordCheck_ne_rejected (h : passwordFits C tables name password = true) :
    C.passwordCheck tables name password ≠ .error (.rejected true error) := by
  intro hcheck
  unfold AuthenticationContext.passwordCheck at hcheck
  split at hcheck
  · cases hcheck
  · next user huser =>
      split at hcheck
      · cases hcheck
      · next hactive =>
          split at hcheck
          · next hverify => simp_all [passwordFits]
          · cases hcheck

/-- The user whose password is accepted is the active account of the name. -/
theorem passwordCheck_ok_named {user : User} (h : C.passwordCheck tables name password = .ok user) :
    AuthenticationContext.userNamed tables name = some user ∧ user.isActive = true := by
  unfold AuthenticationContext.passwordCheck at h
  split at h
  · cases h
  · next found hfound =>
      split at h
      · cases h
      · next hactive =>
          split at h
          · cases h
          · cases h
            exact ⟨hfound, by simpa using hactive⟩

theorem issueSession_ne_rejected {user : User} {grounds : Grounds} {draw : SessionDraw}
    {compared : Bool} :
    C.issueSession tables user grounds draw now ≠ .rejected compared error := by
  intro h
  simp only [AuthenticationContext.issueSession] at h
  repeat' split at h
  all_goals cases h

theorem loginWithTotp_ne_rejected {code : Str} {draw : SessionDraw}
    (hpassword : passwordFits C tables name password = true)
    (hcode : codeFits C tables name code now = true) :
    C.loginWithTotp tables name password code draw now ≠ .rejected true error := by
  intro h
  unfold AuthenticationContext.loginWithTotp at h
  split at h
  · next outcome hcheck =>
      rw [h] at hcheck
      exact passwordCheck_ne_rejected hpassword hcheck
  · next user hok =>
      obtain ⟨huser, hactive⟩ := passwordCheck_ok_named hok
      split at h
      · cases h
      · next ciphertext hcipher =>
          have hfits : (C.decryptSecret ciphertext).any (fun secret =>
              decide (Totp.verifyCode C.totp secret code now ≠ .totpError)) = true := by
            simpa [codeFits, huser, hactive, hcipher] using hcode
          split at h
          · next hnone =>
              rw [hnone] at hfits
              cases hfits
          · next secret hsecret =>
              rw [hsecret] at hfits
              split at h
              · next hwrong => simp [hwrong] at hfits
              · cases h
              · exact issueSession_ne_rejected h

/-- Where the limiter is not asked, nothing is compared that fails. -/
theorem compared_eq_false {call : AuthCall} {compared : Bool}
    (htrack : NothingToTrack C tables name now call = true)
    (hkey : rateKey call.entry call.clientKey name = none) (hguarded : call.entry.guarded = true)
    (h : C.transact tables name now call = .rejected compared error) : compared = false := by
  cases compared with
  | false => rfl
  | true =>
      exfalso
      cases call with
      | login _ _ _ _ => cases hkey
      | loginWithTotp _ password code _ draw =>
          obtain ⟨hpassword, hcode⟩ := Bool.and_eq_true_iff.mp htrack
          exact loginWithTotp_ne_rejected hpassword hcode h
      | beginTotpEnrollmentWithPassword _ password _ =>
          change C.verifyForEnrollment tables name password = _ at h
          unfold AuthenticationContext.verifyForEnrollment at h
          split at h
          · next outcome hcheck =>
              rw [h] at hcheck
              exact passwordCheck_ne_rejected htrack hcheck
          · cases h
      | beginTotpEnrollment _ _ => cases hguarded
      | confirmTotpEnrollment _ _ => cases hguarded
      | requestRecoveryCode _ _ _ => cases hkey
      | loginWithRecoveryCode _ _ _ _ _ => cases hkey
      | recoverPassword _ _ _ _ _ => cases hkey

/-- A recovery code is stored for an account to which it can be mailed. -/
theorem mailable_of_committed {codeBytes : Bytes} {facts : List AuthFact} {userId : Uuid}
    (h : C.requestRecoveryCode tables name codeBytes = .committed tables' facts userId) :
    mailable tables name = true := by
  unfold AuthenticationContext.requestRecoveryCode at h
  split at h
  · cases h
  · next user huser =>
      split at h
      · cases h
      · next hfits =>
          rw [not_or, Decidable.not_not] at hfits
          simp [mailable, huser, hfits.1, hfits.2]

end Untracked

section Windows

variable {window : Int} {limit : Nat} {times : List Instant} {now last : Instant}

/-- A failure that finds room in its own window leaves every window within the limit. -/
theorem length_inWindow_append (hroom : (live (now - window) times).length < limit)
    (h : (inWindow window last times).length ≤ limit) :
    (inWindow window last (times ++ [now])).length ≤ limit := by
  unfold inWindow at h ⊢
  rw [List.filter_append, List.length_append]
  by_cases hin : last - window < now ∧ now ≤ last
  · have hlive : (times.filter fun t => decide (last - window < t ∧ t ≤ last)).length ≤
        (live (now - window) times).length := by
      apply List.Sublist.length_le
      apply List.monotone_filter_right
      intro t ht
      simp only [decide_eq_true_eq] at ht ⊢
      exact lt_of_le_of_lt (Int.sub_le_sub_right hin.2 window) ht.1
    rw [List.filter_cons_of_pos (by simpa using hin), List.filter_nil, List.length_singleton]
    omega
  · rw [List.filter_cons_of_neg (by simpa using hin), List.filter_nil]
    exact h

theorem inWindow_sublist {times' : List Instant} (h : times.Sublist times') (window : Int)
    (last : Instant) : (inWindow window last times).Sublist (inWindow window last times') :=
  h.filter _

end Windows

section Facts

/-- Fewer items pass a stricter reading. -/
theorem filterMap_sublist {α β : Type*} {f g : α → Option β}
    (h : ∀ x y, f x = some y → g x = some y) (l : List α) :
    (l.filterMap f).Sublist (l.filterMap g) := by
  induction l with
  | nil => exact List.Sublist.slnil
  | cons x rest ih =>
      cases hf : f x with
      | none =>
          rw [List.filterMap_cons_none hf]
          exact ih.trans ((List.sublist_cons_self x rest).filterMap g)
      | some y =>
          rw [List.filterMap_cons_some hf, List.filterMap_cons_some (h x y hf)]
          exact ih.cons_cons y

variable {facts : List AuthFact} {key : Str}

theorem failedTimes_append (facts more : List AuthFact) (key : Str) :
    failedTimes (facts ++ more) key = failedTimes facts key ++ failedTimes more key :=
  List.filterMap_append

/-- The failures of an entry point, an account and a client are among those of their key. -/
theorem checkTimes_sublist {entry : AuthEntry} {account : Str} {clientKey : Option Str}
    (h : rateKey entry clientKey account = some key) :
    (checkTimes facts entry account clientKey).Sublist (failedTimes facts key) := by
  apply filterMap_sublist
  intro fact time htime
  cases fact with
  | failedCheck entry' account' clientKey' now =>
      obtain ⟨⟨rfl, rfl, rfl⟩, heq⟩ := Option.ite_none_right_eq_some.mp htime
      exact (if_pos h).trans heq
  | mailed _ _ _ => cases htime
  | issued _ _ => cases htime
  | enrolled _ _ _ => cases htime

/-- What a transaction has done is no failed check and no mail. -/
theorem AuthenticationContext.Commits.quiet {C : AuthenticationContext} {tables tables' : AccountTables}
    {now : Instant} {call : AuthCall} (h : C.Commits tables now call tables' facts) :
    ∀ fact ∈ facts, (∃ id grounds, fact = .issued id grounds) ∨
      ∃ id secret bySession, fact = .enrolled id secret bySession := by
  intro fact hfact
  cases h with
  | same _ _ => cases hfact
  | issued _ _ _ _ _ =>
      rw [List.mem_singleton.mp hfact]
      exact .inl ⟨_, _, rfl⟩
  | recovered _ _ _ => cases hfact
  | enrolled _ henroll =>
      obtain ⟨-, -, -, rfl, -⟩ := C.beginTotpEnrollment_committed henroll
      rw [List.mem_singleton.mp hfact]
      exact .inr ⟨_, _, _, rfl⟩

/-- Such facts fail no check. -/
theorem failedTimes_of_quiet (h : ∀ fact ∈ facts, (∃ id grounds, fact = .issued id grounds) ∨
    ∃ id secret bySession, fact = .enrolled id secret bySession) (key : Str) :
    failedTimes facts key = [] := by
  apply List.filterMap_eq_nil_iff.mpr
  intro fact hfact
  rcases h fact hfact with ⟨_, _, rfl⟩ | ⟨_, _, _, rfl⟩ <;> rfl

end Facts

section Limiter

variable (limiter : LoginRateLimiter) {s : LimiterState} {other : Str}

/-- Room for one key adds no times to another. -/
theorem LoginRateLimiter.times_room_subset (h : (Entries.keys s.attempts).Nodup) (key other : Str) :
    ∀ t ∈ times (limiter.room s.attempts key) other, t ∈ times s.attempts other := by
  intro t ht
  rcases @LoginRateLimiter.room_cases limiter s.attempts key h with hsame | ⟨victim, -, -, -, heq⟩
  · rw [hsame] at ht
    exact ht
  · rw [heq] at ht
    by_cases hv : other = victim
    · rw [hv, times_erase_self] at ht
      cases ht
    · rw [times_erase_of_ne hv] at ht
      exact ht

/-- A call of the limiter adds no times to another key. -/
theorem LoginRateLimiter.times_called_subset (h : (Entries.keys s.attempts).Nodup)
    (call : LimiterCall) (hother : other ≠ call.key) :
    ∀ t ∈ times (limiter.called s call).attempts other, t ∈ times s.attempts other := by
  intro t ht
  cases call with
  | allow key now =>
      have hne : other ≠ key := hother
      change t ∈ times (toEnd (limiter.room s.attempts key) key _) other at ht
      rw [times_toEnd_of_ne hne] at ht
      exact limiter.times_room_subset h key other t ht
  | recordFailure key now =>
      have hne : other ≠ key := hother
      change t ∈ times (toEnd (limiter.room s.attempts key) key _) other at ht
      rw [times_toEnd_of_ne hne] at ht
      exact limiter.times_room_subset h key other t ht
  | clear key =>
      have hne : other ≠ key := hother
      change t ∈ times (Entries.erase s.attempts key) other at ht
      rw [times_erase_of_ne hne] at ht
      exact ht

/-- An answer of the limiter adds no times to any key. -/
theorem LoginRateLimiter.times_allow_subset (h : (Entries.keys s.attempts).Nodup) (key other : Str)
    (now : Instant) : ∀ t ∈ times (limiter.called s (.allow key now)).attempts other,
      t ∈ times s.attempts other := by
  by_cases hother : other = key
  · subst hother
    intro t ht
    change t ∈ times (toEnd (limiter.room s.attempts other) other _) other at ht
    rw [times_toEnd_self] at ht
    exact limiter.times_room_subset h other other t ((expire_sublist _ _).subset ht)
  · exact limiter.times_called_subset h (.allow key now) hother

end Limiter

section Invariant

variable {C : AuthenticationContext} {key : Str}

/-- The failures of a key that are in the window: those that the limiter knows, and those that it
is about to be told. -/
def Logged (C : AuthenticationContext) (s : AuthState) (key : Str) (pending : List Instant) : Prop :=
  (live (s.limiter.now - C.limiter.window) (failedTimes s.facts key)).Sublist
    (live (s.limiter.now - C.limiter.window) (ownFailures s.limiter.calls key ++ pending))

/-- The reading of a call in flight is after what the limiter knows of its key. -/
def Recent (s : AuthState) (key : Str) (now : Instant) : Prop :=
  now ≤ s.limiter.now ∧ ∀ t ∈ times s.limiter.attempts key, t ≤ now

/-- What holds of a key, with the call that is in flight for it, if any. -/
def KeyOk (C : AuthenticationContext) (s : AuthState) (key : Str) : Option AuthThread → Prop
  | none => Logged C s key []
  | some (.admitted _ _ now) => Logged C s key [] ∧ Recent s key now ∧
      (live (now - C.limiter.window) (failedTimes s.facts key)).length < C.limiter.limit
  | some (.failed _ now) => Logged C s key [now] ∧ Recent s key now
  | some (.called _ _) => Logged C s key []
  | some (.verified _ _) => Logged C s key []
  | some (.mailing _ _ _ _) => Logged C s key []
  | some (.succeeded _) => Logged C s key []
  | some .ended => Logged C s key []

/-- The call in flight for a key, or that there is none. -/
def InFlight (running : List AuthThread) (key : Str) : Option AuthThread → Prop
  | none => ∀ t ∈ running, t.heldKey ≠ some key
  | some t => t ∈ running ∧ t.heldKey = some key

/-- A step that does not concern a key. -/
structure Untouched (s s' : AuthState) (key : Str) : Prop where
  now : s.limiter.now ≤ s'.limiter.now
  failed : failedTimes s'.facts key = failedTimes s.facts key
  own : ownFailures s'.limiter.calls key = ownFailures s.limiter.calls key
  times : ∀ t ∈ WindowTable.times s'.limiter.attempts key, t ∈ WindowTable.times s.limiter.attempts key

theorem Logged.untouched {s s' : AuthState} {pending : List Instant} (h : Logged C s key pending)
    (hsame : Untouched s s' key) : Logged C s' key pending := by
  unfold Logged at h ⊢
  rw [hsame.failed, hsame.own]
  have hle : s.limiter.now - C.limiter.window ≤ s'.limiter.now - C.limiter.window :=
    Int.sub_le_sub_right hsame.now C.limiter.window
  rw [← live_live hle (failedTimes s.facts key), ← live_live hle (_ ++ pending)]
  exact h.filter _

theorem KeyOk.untouched {s s' : AuthState} {holder : Option AuthThread}
    (h : KeyOk C s key holder) (hsame : Untouched s s' key) : KeyOk C s' key holder := by
  have hrecent : ∀ now, Recent s key now → Recent s' key now :=
    fun now hnow => ⟨hnow.1.trans hsame.now, fun t ht => hnow.2 t (hsame.times t ht)⟩
  cases holder with
  | none => exact Logged.untouched h hsame
  | some t =>
      cases t with
      | admitted call name now =>
          obtain ⟨hlogged, hnow, hroom⟩ := h
          refine ⟨Logged.untouched hlogged hsame, hrecent now hnow, ?_⟩
          rw [hsame.failed]
          exact hroom
      | failed key' now => exact ⟨Logged.untouched h.1 hsame, hrecent now h.2⟩
      | called _ _ => exact Logged.untouched h hsame
      | verified _ _ => exact Logged.untouched h hsame
      | mailing _ _ _ _ => exact Logged.untouched h hsame
      | succeeded _ => exact Logged.untouched h hsame
      | ended => exact Logged.untouched h hsame

/-- Every call in flight for a key knows its failures. -/
theorem KeyOk.logged {s : AuthState} {t : AuthThread} (h : KeyOk C s key (some t))
    (hnot : ∀ key now, t ≠ .failed key now) : Logged C s key [] := by
  cases t with
  | admitted _ _ _ => exact h.1
  | failed key' now => exact absurd rfl (hnot key' now)
  | called _ _ => exact h
  | verified _ _ => exact h
  | mailing _ _ _ _ => exact h
  | succeeded _ => exact h
  | ended => exact h

/-- A failed check has a key, if its entry point is a guarded one, and nothing is mailed. -/
def Accounted : AuthFact → Prop
  | .failedCheck entry account clientKey _ =>
      entry.guarded = true → (rateKey entry clientKey account).isSome = true
  | .mailed _ _ _ => False
  | .issued _ _ => True
  | .enrolled _ _ _ => True

/-- A recovery code is to be mailed. -/
def AuthThread.isMailing : AuthThread → Bool
  | .called _ _ => false
  | .admitted .. => false
  | .verified _ _ => false
  | .mailing .. => true
  | .failed _ _ => false
  | .succeeded _ => false
  | .ended => false

/-- What holds between the steps of the calls. -/
structure Throttled (C : AuthenticationContext) (s : Sessions AuthState AuthThread) : Prop where
  sound : C.limiter.Sound s.committed.limiter
  alone : Threads.Alone (TransactionSystem.Share AuthThread.heldKey) s.running
  keys : ∀ key holder, InFlight s.running key holder → KeyOk C s.committed key holder
  limited : ∀ key last, (inWindow C.limiter.window last
    (failedTimes s.committed.facts key)).length ≤ C.limiter.limit
  tracked : ∀ fact ∈ s.committed.facts, Accounted fact
  unmailed : ∀ t ∈ s.running, t.isMailing = false

/-- The effect of one step on the keys: its own key before and after, and the others. -/
theorem Throttled.advance {s : Sessions AuthState AuthThread} (h : Throttled C s) {i : Nat}
    {t t' : AuthThread} {after : AuthState} (ht : s.running[i]? = some t)
    (hfree : ∀ key, t'.heldKey = some key → t.heldKey = some key ∨
      ∀ j u, s.running[j]? = some u → j ≠ i → u.heldKey ≠ some key)
    (hsound : C.limiter.Sound after.limiter)
    (hself : ∀ key, t'.heldKey = some key → KeyOk C after key (some t'))
    (hleft : ∀ key, t.heldKey = some key → t'.heldKey ≠ some key → KeyOk C after key none)
    (hother : ∀ key, t.heldKey ≠ some key → t'.heldKey ≠ some key →
      Untouched s.committed after key)
    (hlimited : ∀ key last, (inWindow C.limiter.window last
      (failedTimes after.facts key)).length ≤ C.limiter.limit)
    (htracked : ∀ fact ∈ after.facts, Accounted fact)
    (hunmailed : t'.isMailing = false) : Throttled C ⟨after, s.running.set i t'⟩ := by
  -- Another call holds neither the key that the step leaves nor the one that it takes.
  have happart : ∀ j u, s.running[j]? = some u → j ≠ i → ∀ key, u.heldKey = some key →
      t.heldKey ≠ some key ∧ t'.heldKey ≠ some key := by
    intro j u hu hji key hkey
    have hold : t.heldKey ≠ some key := fun heq => hji (h.alone j i u t hu ht ⟨key, hkey, heq⟩)
    refine ⟨hold, ?_⟩
    intro hnew
    rcases hfree key hnew with heq | hnone
    · exact hold heq
    · exact hnone j u hu hji hkey
  refine ⟨hsound, ?_, ?_, hlimited, htracked, ?_⟩
  · apply h.alone.set
    intro j u hu hji
    constructor
    · rintro ⟨key, hnew, hkey⟩
      exact (happart j u hu hji key hkey).2 hnew
    · rintro ⟨key, hkey, hnew⟩
      exact (happart j u hu hji key hkey).2 hnew
  · intro key holder hin
    cases holder with
    | none =>
        have hnew : t'.heldKey ≠ some key := hin t' (Threads.mem_set_self ht)
        by_cases hold : t.heldKey = some key
        · exact hleft key hold hnew
        · apply (h.keys key none _).untouched (hother key hold hnew)
          intro u hu hkey
          by_cases hut : u = t
          · rw [hut] at hkey
            exact hold hkey
          · exact hin u (Threads.mem_set_of_ne ht hu hut) hkey
    | some u =>
        obtain ⟨hmem, hkey⟩ := hin
        obtain ⟨j, hj⟩ := List.mem_iff_getElem?.mp hmem
        rcases Threads.getElem?_set hj with ⟨hji, hu⟩ | ⟨-, rfl⟩
        · obtain ⟨hold, hnew⟩ := happart j u hu hji key hkey
          have hok := h.keys key (some u) ⟨List.mem_of_getElem? hu, hkey⟩
          exact hok.untouched (hother key hold hnew)
        · exact hself key hkey
  · intro u hu
    rcases List.mem_or_eq_of_mem_set hu with hold | rfl
    · exact h.unmailed u hold
    · exact hunmailed

variable {s : Sessions AuthState AuthThread} {i : Nat}

/-- A step that leaves the limiter's failures and the failed checks as they are, at a later
reading. -/
theorem untouched_of_same {before after : AuthState} (hnow : before.limiter.now ≤ after.limiter.now)
    (hfailed : failedTimes after.facts key = failedTimes before.facts key)
    (hcalls : after.limiter.calls = before.limiter.calls)
    (hattempts : after.limiter.attempts = before.limiter.attempts) :
    Untouched before after key := by
  refine ⟨hnow, hfailed, by rw [hcalls], ?_⟩
  rw [hattempts]
  exact fun _ ht => ht

theorem untouched_of_call {before : AuthState} {call : LimiterCall}
    (hnow : before.limiter.now ≤ (C.limiter.called before.limiter call).now)
    (hkeys : (Entries.keys before.limiter.attempts).Nodup) (hkey : key ≠ call.key) :
    Untouched before { before with limiter := C.limiter.called before.limiter call } key :=
  ⟨hnow, rfl, LoginRateLimiter.ownFailures_other _ _ _ hkey,
    C.limiter.times_called_subset hkeys call hkey⟩

/-- An answer of the limiter leaves the failures of every key. -/
theorem untouched_of_allow {before : AuthState} {asked : Str} {now : Instant}
    (hkeys : (Entries.keys before.limiter.attempts).Nodup) :
    Untouched before { before with limiter := C.limiter.called before.limiter (.allow asked now) }
      key := by
  refine ⟨le_max_left _ _, rfl, ?_, C.limiter.times_allow_subset hkeys asked key now⟩
  by_cases hkey : key = asked
  · subst hkey
    exact ownFailures_allow _ key now
  · exact LoginRateLimiter.ownFailures_other _ _ _ hkey

/-- No other call is in flight for a key. -/
theorem inFlight_none {running : List AuthThread} {t : AuthThread} (ht : running[i]? = some t)
    (hheld : t.heldKey = none)
    (hfree : ∀ j u, running[j]? = some u → j ≠ i → u.heldKey ≠ some key) :
    InFlight running key none := by
  intro u hu hkey
  obtain ⟨j, hj⟩ := List.mem_iff_getElem?.mp hu
  by_cases hji : j = i
  · rw [hji, ht] at hj
    cases hj
    rw [hheld] at hkey
    cases hkey
  · exact hfree j u hj hji hkey

/-- A call that the limiter lets pass finds fewer failures of its key in the window than the
limit. -/
theorem Throttled.keyOk_admitted (h : Throttled C s) {call : AuthCall} {name : Str} {now : Instant}
    (hnow : s.committed.limiter.now ≤ now)
    (hlive : C.limiter.KeepsLive s.committed.limiter (.allow key now))
    (hallowed : (C.limiter.allow s.committed.limiter.attempts key now).1 = true)
    (hnone : InFlight s.running key none) :
    KeyOk C { s.committed with limiter := C.limiter.called s.committed.limiter (.allow key now) }
      key (some (.admitted call name now)) := by
  have hmax : max s.committed.limiter.now now = now := max_eq_right hnow
  have hsound := h.sound.allow hnow hlive
  have hlogged : Logged C { s.committed with
      limiter := C.limiter.called s.committed.limiter (.allow key now) } key [] :=
    Logged.untouched (h.keys key none hnone) (untouched_of_allow h.sound.keys)
  refine ⟨hlogged, ⟨le_max_right _ _, fun t ht => (hsound.past key t ht).trans_eq hmax⟩, ?_⟩
  have hcount := h.sound.allow_eq key hnow
  rw [hallowed] at hcount
  have hknown : (live (now - C.limiter.window) (failedTimes s.committed.facts key)).Sublist
      (live (now - C.limiter.window) (ownFailures s.committed.limiter.calls key)) := by
    unfold Logged at hlogged
    change (live (max s.committed.limiter.now now - C.limiter.window) _).Sublist
      (live (max s.committed.limiter.now now - C.limiter.window)
        (ownFailures (s.committed.limiter.calls ++ [.allow key now]) key ++ [])) at hlogged
    rw [hmax, List.append_nil, ownFailures_allow] at hlogged
    exact hlogged
  exact lt_of_le_of_lt hknown.length_le (of_decide_eq_true hcount.symm)

/-- A call enters: the limiter lets it pass, refuses it or is not asked. -/
theorem Throttled.enter (h : Throttled C s) {call : AuthCall} {now : Instant} {after : AuthState}
    {t' : AuthThread} (ht : s.running[i]? = some (.called call now))
    (htracked : Tracked C s i (.called call now))
    (hnext : AuthThread.next C s.committed (.called call now) = some (after, t')) :
    Throttled C ⟨after, s.running.set i t'⟩ := by
  have hnothing : ∀ key, (AuthThread.called call now).heldKey ≠ some key := fun _ hkey => by cases hkey
  simp only [AuthThread.next] at hnext
  split at hnext
  · cases hnext
  · next hclock =>
      have hnow : s.committed.limiter.now ≤ now := le_of_not_gt hclock
      split at hnext
      · cases hnext
        exact h.advance ht (fun _ hkey => by cases hkey) (h.sound.later hnow)
          (fun _ hkey => by cases hkey) (fun key hkey => absurd hkey (hnothing key))
          (fun _ _ _ => untouched_of_same hnow rfl rfl rfl) h.limited h.tracked rfl
      · next name hname =>
          split at hnext
          · next hnone =>
              cases hnext
              have hfree : ∀ key, (AuthThread.admitted call name now).heldKey ≠ some key := by
                intro key hkey
                change rateKey call.entry call.clientKey name = some key at hkey
                rw [hnone] at hkey
                cases hkey
              exact h.advance ht (fun key hkey => absurd hkey (hfree key)) (h.sound.later hnow)
                (fun key hkey => absurd hkey (hfree key))
                (fun key hkey => absurd hkey (hnothing key))
                (fun _ _ _ => untouched_of_same hnow rfl rfl rfl) h.limited h.tracked rfl
          · next key hkey =>
              have hmem : name ∈ (C.precheck call).toOption := by
                rw [hname]
                rfl
              obtain ⟨hothers, hlive⟩ := htracked name hmem key hkey
              have hfree : ∀ j u, s.running[j]? = some u → j ≠ i → u.heldKey ≠ some key :=
                fun j u hu hji => hothers u (List.mem_eraseIdx_iff_getElem?.mpr ⟨j, hji, hu⟩)
              have hsound := h.sound.allow hnow hlive
              have huntouched : ∀ other, Untouched s.committed { s.committed with
                  limiter := C.limiter.called s.committed.limiter (.allow key now) } other :=
                fun _ => untouched_of_allow h.sound.keys
              by_cases hallowed : (C.limiter.allow s.committed.limiter.attempts key now).1 = true
              · rw [if_pos hallowed] at hnext
                cases hnext
                have hheld : ∀ other, (AuthThread.admitted call name now).heldKey = some other →
                    key = other := fun other hother => Option.some.inj (hkey.symm.trans hother)
                apply h.advance ht _ hsound _ (fun key hkey => absurd hkey (hnothing key))
                  (fun other _ _ => huntouched other) h.limited h.tracked rfl
                · intro other hother
                  rw [← hheld other hother]
                  exact .inr hfree
                · intro other hother
                  rw [← hheld other hother]
                  exact h.keyOk_admitted hnow hlive hallowed (inFlight_none ht rfl hfree)
              · rw [if_neg hallowed] at hnext
                cases hnext
                exact h.advance ht (fun _ hkey => by cases hkey) hsound
                  (fun _ hkey => by cases hkey) (fun key hkey => absurd hkey (hnothing key))
                  (fun other _ _ => huntouched other) h.limited h.tracked rfl

/-- Facts that are no failed checks leave the failures of every key. -/
theorem untouched_of_quiet {before : AuthState} {tables : AccountTables} {facts : List AuthFact}
    (hfacts : failedTimes facts key = []) :
    Untouched before { before with tables := tables, facts := before.facts ++ facts } key := by
  refine ⟨le_rfl, ?_, rfl, fun _ ht => ht⟩
  change failedTimes (before.facts ++ facts) key = _
  rw [failedTimes_append, hfacts, List.append_nil]

/-- A call leaves its key with what the limiter knows of it. -/
theorem Throttled.logged (h : Throttled C s) {t : AuthThread} (ht : s.running[i]? = some t)
    (hnot : ∀ key now, t ≠ .failed key now) (hkey : t.heldKey = some key) :
    Logged C s.committed key [] :=
  (h.keys key (some t) ⟨List.mem_of_getElem? ht, hkey⟩).logged hnot

/-- A step whose facts are no failed checks, and which takes no key. -/
theorem Throttled.quiet (h : Throttled C s) {t t' : AuthThread} (ht : s.running[i]? = some t)
    (hnot : ∀ key now, t ≠ .failed key now) {tables : AccountTables} {facts : List AuthFact}
    (hfacts : ∀ key, failedTimes facts key = []) (haccounted : ∀ fact ∈ facts, Accounted fact)
    (hheld : ∀ key, t'.heldKey = some key → t.heldKey = some key ∧ t' = .succeeded key)
    (hmailing : t'.isMailing = false) :
    Throttled C ⟨{ s.committed with tables := tables, facts := s.committed.facts ++ facts },
      s.running.set i t'⟩ := by
  have huntouched : ∀ key, Untouched s.committed
      { s.committed with tables := tables, facts := s.committed.facts ++ facts } key :=
    fun key => untouched_of_quiet (hfacts key)
  refine h.advance ht (fun key hkey => .inl (hheld key hkey).1) h.sound ?_ ?_
    (fun key _ _ => huntouched key) ?_ ?_ hmailing
  · intro key hkey
    obtain ⟨hold, rfl⟩ := hheld key hkey
    exact Logged.untouched (h.logged ht hnot hold) (huntouched key)
  · intro key hold _
    exact Logged.untouched (h.logged ht hnot hold) (huntouched key)
  · intro key last
    change (inWindow _ last (failedTimes (s.committed.facts ++ facts) key)).length ≤ _
    rw [failedTimes_append, hfacts, List.append_nil]
    exact h.limited key last
  · intro fact hfact
    rcases List.mem_append.mp hfact with hold | hnew
    · exact h.tracked fact hold
    · exact haccounted fact hnew

theorem failedTimes_failedCheck {call : AuthCall} {name : Str} {now : Instant} {compared : Bool}
    (h : rateKey call.entry call.clientKey name ≠ some key) :
    failedTimes (AuthThread.failedCheck call name now compared) key = [] := by
  cases compared with
  | false => rfl
  | true =>
      apply List.filterMap_cons_none
      exact if_neg h

/-- A rejected call of an entry point with a key is to be recorded. -/
theorem Throttled.rejected (h : Throttled C s) {call : AuthCall} {name : Str} {now : Instant}
    (ht : s.running[i]? = some (.admitted call name now))
    (hkey : rateKey call.entry call.clientKey name = some key) (compared : Bool) :
    Throttled C ⟨{ s.committed with
      facts := s.committed.facts ++ AuthThread.failedCheck call name now compared },
      s.running.set i (.failed key now)⟩ := by
  have hheld : (AuthThread.admitted call name now).heldKey = some key := hkey
  obtain ⟨hlogged, hrecent, hroom⟩ :=
    h.keys key (some (.admitted call name now)) ⟨List.mem_of_getElem? ht, hheld⟩
  have hother : ∀ other, other ≠ key →
      failedTimes (AuthThread.failedCheck call name now compared) other = [] := by
    intro other hne
    apply failedTimes_failedCheck
    rw [hkey]
    exact fun heq => hne (Option.some.inj heq).symm
  have hself : failedTimes (AuthThread.failedCheck call name now compared) key =
      if compared then [now] else [] := by
    cases compared with
    | false => rfl
    | true => exact List.filterMap_cons_some (if_pos hkey)
  refine h.advance ht ?_ h.sound ?_ ?_ ?_ ?_ ?_ rfl
  · rintro _ ⟨⟩
    exact .inl hheld
  · rintro _ ⟨⟩
    refine ⟨?_, hrecent⟩
    unfold Logged at hlogged ⊢
    change (live _ (failedTimes (s.committed.facts ++ _) key)).Sublist _
    rw [List.append_nil] at hlogged
    rw [failedTimes_append, hself, live_append, live_append]
    apply hlogged.append
    cases compared with
    | false => exact List.nil_sublist _
    | true => exact List.Sublist.refl _
  · intro other hold hnew
    rw [hheld] at hold
    exact absurd hold hnew
  · intro other hold _
    apply untouched_of_quiet
    apply hother
    rintro rfl
    exact hold hheld
  · intro other last
    change (inWindow _ last (failedTimes (s.committed.facts ++ _) other)).length ≤ _
    rw [failedTimes_append]
    by_cases hne : other = key
    · subst hne
      rw [hself]
      cases compared with
      | false =>
          rw [if_neg Bool.false_ne_true, List.append_nil]
          exact h.limited other last
      | true => exact length_inWindow_append hroom (h.limited other last)
    · rw [hother other hne, List.append_nil]
      exact h.limited other last
  · intro fact hfact
    rcases List.mem_append.mp hfact with hold | hnew
    · exact h.tracked fact hold
    · unfold AuthThread.failedCheck at hnew
      split at hnew
      · rw [List.mem_singleton.mp hnew]
        intro _
        rw [hkey]
        rfl
      · cases hnew

/-- A failure is recorded. -/
theorem Throttled.recorded (h : Throttled C s) {now : Instant}
    (ht : s.running[i]? = some (.failed key now))
    (hlive : C.limiter.KeepsLive s.committed.limiter (.recordFailure key now)) :
    Throttled C ⟨{ s.committed with
      limiter := C.limiter.called s.committed.limiter (.recordFailure key now) },
      s.running.set i .ended⟩ := by
  obtain ⟨hlogged, hnow, hrecent⟩ :=
    h.keys key (some (.failed key now)) ⟨List.mem_of_getElem? ht, rfl⟩
  have hmax : max s.committed.limiter.now now = s.committed.limiter.now := max_eq_left hnow
  refine h.advance ht (fun _ hkey => by cases hkey) (h.sound.recordFailure hrecent hlive)
    (fun _ hkey => by cases hkey) ?_ ?_ h.limited h.tracked rfl
  · rintro _ ⟨⟩ -
    unfold KeyOk Logged
    change (live (max s.committed.limiter.now now - C.limiter.window) _).Sublist
      (live (max s.committed.limiter.now now - C.limiter.window)
        (ownFailures (s.committed.limiter.calls ++ [.recordFailure key now]) key ++ []))
    rw [hmax, List.append_nil, ownFailures_recordFailure]
    exact hlogged
  · intro other hold _
    refine untouched_of_call (le_max_left _ _) h.sound.keys ?_
    rintro rfl
    exact hold rfl

/-- The failures of a key are cleared, when none of them is in the window. -/
theorem Throttled.cleared (h : Throttled C s) (ht : s.running[i]? = some (.succeeded key))
    (hnone : live (s.committed.limiter.now - C.limiter.window)
      (times s.committed.limiter.attempts key) = []) :
    Throttled C ⟨{ s.committed with limiter := C.limiter.called s.committed.limiter (.clear key) },
      s.running.set i .ended⟩ := by
  have hlogged := h.logged ht (fun _ _ => by simp) rfl
  refine h.advance ht (fun _ hkey => by cases hkey) (h.sound.clear key)
    (fun _ hkey => by cases hkey) ?_ ?_ h.limited h.tracked rfl
  · rintro _ ⟨⟩ -
    have hown := (h.sound.remembers.live key).symm.trans hnone
    unfold Logged at hlogged
    rw [List.append_nil, hown] at hlogged
    unfold KeyOk Logged
    change (live (s.committed.limiter.now - C.limiter.window)
      (failedTimes s.committed.facts key)).Sublist _
    rw [List.sublist_nil.mp hlogged]
    exact List.nil_sublist _
  · intro other hold _
    refine untouched_of_call le_rfl h.sound.keys ?_
    rintro rfl
    exact hold rfl

/-- A transaction of a call has a rejected secret. -/
theorem Throttled.afterRejection (h : Throttled C s) {call : AuthCall} {name : Str}
    {now : Instant} {compared : Bool} {error : String}
    (ht : s.running[i]? = some (.admitted call name now))
    (htracked : Tracked C s i (.admitted call name now))
    (hreject : C.transact s.committed.tables name now call = .rejected compared error) :
    Throttled C ⟨{ s.committed with
      facts := s.committed.facts ++ AuthThread.failedCheck call name now compared },
      s.running.set i (AuthThread.afterRejection call name now)⟩ := by
  cases hkey : rateKey call.entry call.clientKey name with
  | some key =>
      have hfailed : AuthThread.afterRejection call name now = .failed key now := by
        rw [AuthThread.afterRejection, hkey]
      rw [hfailed]
      exact h.rejected ht hkey compared
  | none =>
      have hended : AuthThread.afterRejection call name now = .ended := by
        rw [AuthThread.afterRejection, hkey]
      rw [hended]
      refine h.quiet ht (fun _ _ heq => by cases heq) ?_ ?_ (fun _ hheld => by cases hheld) rfl
      · intro key
        apply failedTimes_failedCheck
        rw [hkey]
        exact Option.some_ne_none key ∘ Eq.symm
      · intro fact hfact
        unfold AuthThread.failedCheck at hfact
        split at hfact
        · next hcompared =>
            rw [List.mem_singleton.mp hfact]
            intro hguarded
            rw [compared_eq_false htracked hkey hguarded hreject] at hcompared
            cases hcompared
        · cases hfact

/-- A transaction of a call has committed. -/
theorem Throttled.afterCommit (h : Throttled C s) {call : AuthCall} {name : Str} {now : Instant}
    {tables : AccountTables} {facts : List AuthFact} {userId : Uuid}
    (ht : s.running[i]? = some (.admitted call name now))
    (htracked : Tracked C s i (.admitted call name now))
    (hcommit : C.transact s.committed.tables name now call = .committed tables facts userId) :
    Throttled C ⟨{ s.committed with tables := tables, facts := s.committed.facts ++ facts },
      s.running.set i (AuthThread.afterCommit call name now userId)⟩ := by
  have hquiet := (C.commits_of_transact hcommit).quiet
  have hunmailed : ∀ username clientKey codeBytes,
      call ≠ .requestRecoveryCode username clientKey codeBytes := by
    rintro username clientKey codeBytes rfl
    change (!mailable s.committed.tables name) = true at htracked
    rw [mailable_of_committed hcommit] at htracked
    cases htracked
  refine h.quiet ht (fun _ _ heq => by cases heq) (failedTimes_of_quiet hquiet) ?_ ?_ ?_
  · intro fact hfact
    rcases hquiet fact hfact with ⟨_, _, rfl⟩ | ⟨_, _, _, rfl⟩ <;> exact trivial
  · intro key hheld
    cases call with
    | requestRecoveryCode _ _ _ => exact absurd rfl (hunmailed _ _ _)
    | login _ _ _ _ => cases hheld; exact ⟨rfl, rfl⟩
    | loginWithTotp _ _ _ _ _ => cases hheld
    | beginTotpEnrollmentWithPassword _ _ _ => cases hheld
    | beginTotpEnrollment _ _ => cases hheld
    | confirmTotpEnrollment _ _ => cases hheld
    | loginWithRecoveryCode _ _ _ _ _ => cases hheld; exact ⟨rfl, rfl⟩
    | recoverPassword _ _ _ _ _ => cases hheld; exact ⟨rfl, rfl⟩
  · cases call with
    | requestRecoveryCode _ _ _ => exact absurd rfl (hunmailed _ _ _)
    | login _ _ _ _ => rfl
    | loginWithTotp _ _ _ _ _ => rfl
    | beginTotpEnrollmentWithPassword _ _ _ => rfl
    | beginTotpEnrollment _ _ => rfl
    | confirmTotpEnrollment _ _ => rfl
    | loginWithRecoveryCode _ _ _ _ _ => rfl
    | recoverPassword _ _ _ _ _ => rfl

/-- A call ends, and tells the limiter nothing. -/
theorem Throttled.gone (h : Throttled C s) {t : AuthThread} (ht : s.running[i]? = some t)
    (hnot : ∀ key now, t ≠ .failed key now) :
    Throttled C ⟨s.committed, s.running.set i .ended⟩ := by
  have hsame : s.committed =
      { s.committed with tables := s.committed.tables, facts := s.committed.facts ++ [] } := by
    rw [List.append_nil]
  rw [hsame]
  exact h.quiet ht hnot (fun _ => rfl) (fun _ hfact => by cases hfact)
    (fun _ hheld => by cases hheld) rfl

/-- One step of a call. -/
theorem Throttled.next (h : Throttled C s) {t t' : AuthThread} {after : AuthState}
    (ht : s.running[i]? = some t) (htracked : Tracked C s i t)
    (hnext : AuthThread.next C s.committed t = some (after, t')) :
    Throttled C ⟨after, s.running.set i t'⟩ := by
  cases t with
  | called call now => exact h.enter ht htracked hnext
  | admitted call name now =>
      simp only [AuthThread.next] at hnext
      split at hnext
      · next hreject =>
          cases hnext
          exact h.afterRejection ht htracked hreject
      · cases hnext
        exact h.gone ht (fun _ _ heq => by cases heq)
      · cases hnext
        exact h.gone ht (fun _ _ heq => by cases heq)
      · next hcommit =>
          cases hnext
          exact h.afterCommit ht htracked hcommit
  | verified userId draw =>
      simp only [AuthThread.next] at hnext
      split at hnext
      · next hcommit =>
          cases hnext
          obtain ⟨-, -, -, rfl, -⟩ := C.beginTotpEnrollment_committed hcommit
          refine h.quiet ht (fun _ _ heq => by cases heq) (fun _ => rfl) ?_
            (fun _ hheld => by cases hheld) rfl
          intro fact hfact
          rw [List.mem_singleton.mp hfact]
          exact trivial
      · cases hnext
        exact h.gone ht (fun _ _ heq => by cases heq)
      · cases hnext
        exact h.gone ht (fun _ _ heq => by cases heq)
      · cases hnext
        exact h.gone ht (fun _ _ heq => by cases heq)
  | mailing _ _ _ _ =>
      have hmailing := h.unmailed _ (List.mem_of_getElem? ht)
      cases hmailing
  | failed key now =>
      cases hnext
      exact h.recorded ht htracked
  | succeeded key =>
      cases hnext
      exact h.cleared ht htracked
  | ended => cases hnext

/-- A call begins. -/
theorem Throttled.start (h : Throttled C s) {t : AuthThread}
    (hbegins : (AuthThread.system C).begins t = true) :
    Throttled C { s with running := s.running ++ [t] } := by
  have hfree : ∀ key, t.heldKey ≠ some key := by
    intro key hheld
    cases t with
    | called _ _ => cases hheld
    | admitted _ _ _ => cases hbegins
    | verified _ _ => cases hbegins
    | mailing _ _ _ _ => cases hbegins
    | failed _ _ => cases hbegins
    | succeeded _ => cases hbegins
    | ended => cases hbegins
  refine ⟨h.sound, ?_, ?_, h.limited, h.tracked, ?_⟩
  · apply h.alone.append
    · rintro ⟨key, hheld, -⟩
      exact hfree key hheld
    · intro u _
      exact ⟨fun ⟨key, hheld, _⟩ => hfree key hheld, fun ⟨key, _, hheld⟩ => hfree key hheld⟩
  · intro key holder hin
    apply h.keys key holder
    cases holder with
    | none => exact fun u hu => hin u (List.mem_append_left _ hu)
    | some u =>
        obtain ⟨hmem, hheld⟩ := hin
        rcases List.mem_append.mp hmem with hold | hnew
        · exact ⟨hold, hheld⟩
        · rw [List.mem_singleton.mp hnew] at hheld
          exact absurd hheld (hfree key)
  · intro u hu
    rcases List.mem_append.mp hu with hold | hnew
    · exact h.unmailed u hold
    · rw [List.mem_singleton.mp hnew]
      cases t with
      | mailing _ _ _ _ => cases hbegins
      | called _ _ => rfl
      | admitted _ _ _ => rfl
      | verified _ _ => rfl
      | failed _ _ => rfl
      | succeeded _ => rfl
      | ended => rfl

/-- Before the first call. -/
theorem throttled_of_initial (hattempts : s.committed.limiter.attempts = [])
    (hcalls : s.committed.limiter.calls = []) (hfacts : s.committed.facts = [])
    (hrunning : s.running = []) : Throttled C s := by
  refine ⟨LoginRateLimiter.sound_of_reachable (.start ⟨hattempts, hcalls⟩), ?_, ?_, ?_, ?_, ?_⟩
  · rw [hrunning]
    exact Threads.alone_nil
  · intro key holder hin
    cases holder with
    | none =>
        change Logged C s.committed key []
        unfold Logged
        rw [hfacts]
        exact List.nil_sublist _
    | some t =>
        rw [hrunning] at hin
        cases hin.1
  · intro key last
    rw [hfacts]
    exact Nat.zero_le _
  · rw [hfacts]
    exact fun _ hfact => by cases hfact
  · rw [hrunning]
    exact fun _ ht => by cases ht

end Invariant

/-- The limiter has been told nothing. -/
def FreshLimiter (s : AuthState) : Prop :=
  s.limiter.attempts = [] ∧ s.limiter.calls = [] ∧ s.facts = []

theorem throttled_of_reachable {C : AuthenticationContext} {s : Sessions AuthState AuthThread}
    (h : ((AuthThread.system C).machine FreshLimiter).Reachable (StepsTracked C) s) :
    Throttled C s := by
  apply h.invariant
  · rintro s ⟨⟨hattempts, hcalls, hfacts⟩, hrunning⟩
    exact throttled_of_initial hattempts hcalls hfacts hrunning
  · intro s e s' hs hallowed hstep
    cases TransactionSystem.happens_of_apply hstep with
    | start hbegins => exact hs.start hbegins
    | step ht _ hnext => exact hs.next ht (hallowed _ ht) hnext
    | rollback ht haborts =>
        apply hs.gone ht
        rintro key now rfl
        cases haborts

/-- In every run whose steps the limiter tracks, the number of failed checks that a guarded entry
point makes for an account and a client in a window, and the number of codes that are mailed, are
limited. -/
theorem failures_throttled (C : AuthenticationContext) {s : Sessions AuthState AuthThread}
    (h : ((AuthThread.system C).machine FreshLimiter).Reachable (StepsTracked C) s) :
    (∀ entry account clientKey last, entry.guarded = true →
      (inWindow C.limiter.window last
        (checkTimes s.committed.facts entry account clientKey)).length ≤ C.limiter.limit) ∧
    ∀ account clientKey last, (inWindow C.limiter.window last
      (mailTimes s.committed.facts account clientKey)).length ≤ C.limiter.limit := by
  have hthrottled := throttled_of_reachable h
  constructor
  · intro entry account clientKey last hguarded
    cases hkey : rateKey entry clientKey account with
    | some key =>
        calc (inWindow C.limiter.window last
              (checkTimes s.committed.facts entry account clientKey)).length
            ≤ (inWindow C.limiter.window last (failedTimes s.committed.facts key)).length :=
              (inWindow_sublist (checkTimes_sublist hkey) _ _).length_le
          _ ≤ C.limiter.limit := hthrottled.limited key last
    | none =>
        have hnone : checkTimes s.committed.facts entry account clientKey = [] := by
          apply List.filterMap_eq_nil_iff.mpr
          intro fact hfact
          cases fact with
          | failedCheck entry' account' clientKey' now =>
              apply if_neg
              rintro ⟨rfl, rfl, rfl⟩
              have hsome := hthrottled.tracked _ hfact hguarded
              rw [hkey] at hsome
              cases hsome
          | mailed _ _ _ => rfl
          | issued _ _ => rfl
          | enrolled _ _ _ => rfl
        rw [hnone]
        exact Nat.zero_le _
  · intro account clientKey last
    have hnone : mailTimes s.committed.facts account clientKey = [] := by
      apply List.filterMap_eq_nil_iff.mpr
      intro fact hfact
      cases fact with
      | mailed _ _ _ => exact (hthrottled.tracked _ hfact).elim
      | failedCheck _ _ _ _ => rfl
      | issued _ _ => rfl
      | enrolled _ _ _ => rfl
    rw [hnone]
    exact Nat.zero_le _

section Samples

/-- One wrong password, and a second attempt that the limiter refuses. -/
theorem failures_throttled_sample : ∃ s : Sessions AuthState AuthThread,
    s.committed.facts = [.failedCheck .login (lit "admin") (some (lit "::1")) 0] ∧
      (inWindow 300000000 1
        (checkTimes s.committed.facts .login (lit "admin") (some (lit "::1")))).length ≤ 1 := by
  have hrun : (([SessionEvent.start (.called (.login (lit "admin") (lit "guess") (lit "::1")
        sampleSessionDraw) 0), .step 0, .step 0, .step 0,
        .start (.called (.login (lit "admin") (lit "admin") (lit "::1") sampleSessionDraw) 1),
        .step 1] : List (SessionEvent AuthThread)).foldlM (fun s e =>
        if StepsTracked sampleContext s e then (AuthThread.system sampleContext).apply s e else none)
      { committed := sampleAuthState }).map (fun s => s.committed.facts) =
        some [.failedCheck .login (lit "admin") (some (lit "::1")) 0] := by
    decide +kernel
  obtain ⟨s, hs, hfacts⟩ := Option.map_eq_some_iff.mp hrun
  exact ⟨s, hfacts, (failures_throttled sampleContext
    (TransactionSystem.reachable_of_schedule ⟨rfl, rfl, rfl⟩ _ hs)).1 .login _ _ 1 rfl⟩

/-- Two wrong one-time codes in one window. -/
theorem failures_unthrottled : ¬ ∀ (C : AuthenticationContext) (s : Sessions AuthState AuthThread),
    ((AuthThread.system C).machine FreshLimiter).Reachable Machine.anyStep s →
      (∀ entry account clientKey last, entry.guarded = true →
        (inWindow C.limiter.window last
          (checkTimes s.committed.facts entry account clientKey)).length ≤ C.limiter.limit) ∧
      ∀ account clientKey last, (inWindow C.limiter.window last
        (mailTimes s.committed.facts account clientKey)).length ≤ C.limiter.limit := by
  intro h
  have hrun : (([SessionEvent.start (.called (.loginWithTotp (lit "admin") (lit "admin")
        (lit "111111") (lit "::1") sampleSessionDraw) 0), .step 0, .step 0,
        .start (.called (.loginWithTotp (lit "admin") (lit "admin") (lit "222222") (lit "::1")
          sampleSessionDraw) 1), .step 1, .step 1] : List (SessionEvent AuthThread)).foldlM
        (fun s e =>
          if Machine.anyStep s e then (AuthThread.system sampleContext).apply s e else none)
      { committed := sampleAuthState }).map (fun s => s.committed.facts) =
        some [.failedCheck .loginWithTotp (lit "admin") (some (lit "::1")) 0,
          .failedCheck .loginWithTotp (lit "admin") (some (lit "::1")) 1] := by
    decide +kernel
  obtain ⟨s, hs, hfacts⟩ := Option.map_eq_some_iff.mp hrun
  have hlimited := (h sampleContext s (TransactionSystem.reachable_of_schedule ⟨rfl, rfl, rfl⟩ _
    hs)).1 .loginWithTotp (lit "admin") (some (lit "::1")) 1 rfl
  rw [hfacts] at hlimited
  revert hlimited
  decide +kernel

end Samples

end MediaBridge.Control
