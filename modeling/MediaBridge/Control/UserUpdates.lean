import MediaBridge.Control.Accounts
import MediaBridge.Foundation.Interleaving
import MediaBridge.Foundation.Rows

/-!
# Updates of accounts

`update_user` of `media_bridge_control/bootstrap.py`: a transaction that reads one row for update,
counts the active administrators when it takes one of them away, and writes the row.

## Implementation notes

The transactions run under READ COMMITTED. The row is locked from the read until the end, so the
flush and the commit are one step; the count is a read of its own, and locks nothing.
-/

namespace MediaBridge.Control

open Foundation MediaBridge.Core

/-- The arguments of `update_user`, and the salt of the new password. -/
structure UserUpdate where
  userId : Uuid
  password : Option Str
  role : Option Str
  isActive : Option Bool
  salt : Bytes
deriving DecidableEq

/-- The row is an administrator who can sign in. -/
def User.activeAdmin (user : User) : Bool := decide (user.role = .admin) && user.isActive

/-- How many administrators can sign in. -/
def activeAdmins (users : List User) : Nat := users.countP User.activeAdmin

namespace UserUpdate

/-- What has been checked before the transaction begins: the role and the hash to be stored. -/
structure Checked where
  userId : Uuid
  protectedChange : Bool
  role : Option Role
  isActive : Option Bool
  passwordHash : Option Str
deriving DecidableEq

/-- The checks before the transaction. -/
def check (passwords : PasswordHasher) (request : UserUpdate) :
    Except ControlPlaneError Checked := do
  let role ← match request.role with
    | none => .ok none
    | some text =>
        match Role.ofValue? text with
        | none => .error (.controlPlane "invalid_input")
        | some role => .ok (some role)
  let passwordHash ← match request.password with
    | none => .ok none
    | some password =>
        match passwords.hash request.salt password with
        | none => .error (.controlPlane "invalid_input")
        | some hash => .ok (some hash)
  return {
    userId := request.userId
    protectedChange := request.password.isSome || decide (request.isActive = some false)
    role := role
    isActive := request.isActive
    passwordHash := passwordHash }

namespace Checked

/-- The row that is written for the row that has been read. -/
def written (request : Checked) (user : User) : User :=
  { user with
    role := request.role.getD user.role
    isActive := request.isActive.getD user.isActive
    passwordHash := request.passwordHash.getD user.passwordHash }

/-- The update takes an active administrator away. -/
def demotes (request : Checked) (user : User) : Bool :=
  user.activeAdmin && !(request.written user).activeAdmin

end Checked

end UserUpdate

/-- A call of `update_user`: what it has still to do. -/
inductive UserTransaction
  | called (request : UserUpdate)
  | checked (request : UserUpdate.Checked)
  /-- The row is locked, and the administrators have to be counted. -/
  | locked (request : UserUpdate.Checked) (user : User)
  /-- The row is locked, and is written at the commit. -/
  | decided (request : UserUpdate.Checked) (user : User)
  | ended (error : Option ControlPlaneError)
deriving DecidableEq

namespace UserTransaction

/-- The row that a transaction has locked. -/
def lockedRow : UserTransaction → Option Uuid
  | .called _ => none
  | .checked _ => none
  | .locked _ user => some user.id
  | .decided _ user => some user.id
  | .ended _ => none

/-- The row that a transaction is about to lock. -/
def wantedRow : UserTransaction → Option Uuid
  | .called _ => none
  | .checked request => some request.userId
  | .locked .. => none
  | .decided .. => none
  | .ended _ => none

/-- The read for update. -/
def read (users : List User) (request : UserUpdate.Checked) : UserTransaction :=
  match Rows.lookup User.id users request.userId with
  | none => .ended (some (.controlPlane "user_not_found"))
  | some user =>
      if user.username = lit "admin" ∧ request.protectedChange then
        .ended (some (.controlPlane "default_admin_protected"))
      else if request.demotes user then .locked request user
      else .decided request user

/-- One step of `update_user`. -/
def next (passwords : PasswordHasher) (users : List User) :
    UserTransaction → Option (List User × UserTransaction)
  | .called request =>
      match request.check passwords with
      | .error error => some (users, .ended (some error))
      | .ok accepted => some (users, .checked accepted)
  | .checked request => some (users, read users request)
  | .locked request user =>
      if activeAdmins users ≤ 1 then
        some (users, .ended (some (.controlPlane "last_admin_required")))
      else some (users, .decided request user)
  | .decided request user => some (Rows.put User.id users (request.written user), .ended none)
  | .ended _ => none

/-- The calls of `update_user`, interleaved. -/
def system (passwords : PasswordHasher) : TransactionSystem (List User) UserTransaction where
  begins
    | .called _ => true
    | .checked _ => false
    | .locked .. => false
    | .decided .. => false
    | .ended _ => false
  next := next passwords
  waits t u := t.wantedRow.isSome && decide (t.wantedRow = u.lockedRow)
  ended := .ended none

/-- A demotion or deactivation that has counted and has not committed. -/
def demoting : UserTransaction → Bool
  | .called _ => false
  | .checked _ => false
  | .locked .. => false
  | .decided request user => request.demotes user
  | .ended _ => false

/-- How many demotions have counted and have not committed. -/
def pendingDemotions (running : List UserTransaction) : Nat := running.countP demoting

/-- The next step counts the administrators. -/
def counting : UserTransaction → Bool
  | .called _ => false
  | .checked _ => false
  | .locked .. => true
  | .decided .. => false
  | .ended _ => false

/-- A demotion counts the administrators only when it is refused, or when there are more of them
than it and the demotions that have counted before it take away. -/
def CountsApart (s : Sessions (List User) UserTransaction) :
    SessionEvent UserTransaction → Prop
  | .start _ => True
  | .rollback _ => True
  | .step i => s.running[i]?.any counting = true →
      activeAdmins s.committed ≤ 1 ∨ pendingDemotions s.running + 2 ≤ activeAdmins s.committed

instance (s : Sessions (List User) UserTransaction) :
    (e : SessionEvent UserTransaction) → Decidable (CountsApart s e)
  | .start _ => isTrue trivial
  | .rollback _ => isTrue trivial
  | .step _ => inferInstanceAs (Decidable (_ → _))

end UserTransaction

/-- Databases with different accounts, one of them an active administrator. -/
def SomeAdmin (users : List User) : Prop :=
  (users.map User.id).Nodup ∧ 1 ≤ activeAdmins users

instance (users : List User) : Decidable (SomeAdmin users) := inferInstanceAs (Decidable (_ ∧ _))

namespace UserTransaction

section Invariant

variable {passwords : PasswordHasher} {s s' : Sessions (List User) UserTransaction}
  {e : SessionEvent UserTransaction}

/-- What a step of `update_user` does. -/
inductive Moves (passwords : PasswordHasher) (users : List User) :
    UserTransaction → List User → UserTransaction → Prop
  | refuse {t : UserTransaction} {error : Option ControlPlaneError} :
      Moves passwords users t users (.ended error)
  | check {request : UserUpdate} {accepted : UserUpdate.Checked} :
      request.check passwords = .ok accepted →
      Moves passwords users (.called request) users (.checked accepted)
  | lock {request : UserUpdate.Checked} {user : User} :
      Rows.lookup User.id users request.userId = some user → request.demotes user = true →
      Moves passwords users (.checked request) users (.locked request user)
  | decide {request : UserUpdate.Checked} {user : User} :
      Rows.lookup User.id users request.userId = some user → request.demotes user = false →
      Moves passwords users (.checked request) users (.decided request user)
  | count {request : UserUpdate.Checked} {user : User} : 1 < activeAdmins users →
      Moves passwords users (.locked request user) users (.decided request user)
  | commit {request : UserUpdate.Checked} {user : User} :
      Moves passwords users (.decided request user)
        (Rows.put User.id users (request.written user)) (.ended none)

theorem moves_of_next {users users' : List User} {t t' : UserTransaction}
    (h : next passwords users t = some (users', t')) : Moves passwords users t users' t' := by
  cases t with
  | called request =>
      simp only [next] at h
      split at h
      · cases h
        exact .refuse
      · next accepted hcheck =>
          cases h
          exact .check hcheck
  | checked request =>
      simp only [next, Option.some.injEq, Prod.mk.injEq] at h
      obtain ⟨rfl, rfl⟩ := h
      unfold read
      split
      · exact .refuse
      · next user hfound =>
          split
          · exact .refuse
          · split
            · next hdemotes => exact .lock hfound hdemotes
            · next hdemotes => exact .decide hfound (Bool.eq_false_iff.mpr hdemotes)
  | locked request user =>
      simp only [next] at h
      split at h
      · cases h
        exact .refuse
      · next hcount =>
          cases h
          exact .count (Nat.lt_of_not_le hcount)
  | decided request user =>
      cases h
      exact .commit
  | ended error => cases h

theorem locking (passwords : PasswordHasher) :
    TransactionSystem.Locking (system passwords) lockedRow where
  begins t ht := by
    cases t with
    | called _ => rfl
    | checked _ => cases ht
    | locked _ _ => cases ht
    | decided _ _ => cases ht
    | ended _ => rfl
  ended := rfl
  next users t users' t' hnext k hk := by
    have hwaits {request : UserUpdate.Checked} {user : User}
        (hfound : Rows.lookup User.id users request.userId = some user) (hk : user.id = k) :
        ∀ u, lockedRow u = some k → (system passwords).waits (.checked request) u = true := by
      intro u hu
      obtain ⟨-, hid⟩ := Rows.mem_of_lookup hfound
      simp [system, wantedRow, hu, ← hid, hk]
    cases moves_of_next hnext with
    | refuse => cases hk
    | check _ => cases hk
    | lock hfound _ => exact .inr (hwaits hfound (Option.some.inj hk))
    | decide hfound _ => exact .inr (hwaits hfound (Option.some.inj hk))
    | count _ => exact .inl hk
    | commit => cases hk

/-- The row that a transaction has read and locked. -/
def lockedUser : UserTransaction → Option User
  | .called _ => none
  | .checked _ => none
  | .locked _ user => some user
  | .decided _ user => some user
  | .ended _ => none

theorem lockedRow_eq (t : UserTransaction) : t.lockedRow = t.lockedUser.map User.id := by
  cases t <;> rfl

/-- What holds between the steps of the calls. -/
structure AdminsRemain (s : Sessions (List User) UserTransaction) : Prop where
  keys : (s.committed.map User.id).Nodup
  alone : Threads.Alone (TransactionSystem.Share lockedRow) s.running
  /-- A locked row is as it has been read. -/
  current : ∀ t ∈ s.running, ∀ user, t.lockedUser = some user →
    Rows.lookup User.id s.committed user.id = some user
  admins : pendingDemotions s.running + 1 ≤ activeAdmins s.committed

theorem adminsRemain_of_initial (h : ((system passwords).machine SomeAdmin).initial s) :
    AdminsRemain s := by
  obtain ⟨⟨hkeys, hadmins⟩, hrunning⟩ := h
  refine ⟨hkeys, ?_, ?_, ?_⟩
  · rw [hrunning]
    exact Threads.alone_nil
  · intro t ht
    rw [hrunning] at ht
    cases ht
  · rw [hrunning]
    exact hadmins

/-- A step that writes nothing keeps the invariant if its transaction has read what it locks. -/
theorem AdminsRemain.advance (h : AdminsRemain s) {i : Nat} {t' : UserTransaction}
    (halone : Threads.Alone (TransactionSystem.Share lockedRow) (s.running.set i t'))
    (hread : ∀ user, t'.lockedUser = some user →
      Rows.lookup User.id s.committed user.id = some user)
    (hadmins : pendingDemotions (s.running.set i t') + 1 ≤ activeAdmins s.committed) :
    AdminsRemain ⟨s.committed, s.running.set i t'⟩ := by
  refine ⟨h.keys, halone, ?_, hadmins⟩
  intro u hu user huser
  rcases List.mem_or_eq_of_mem_set hu with hold | rfl
  · exact h.current u hold user huser
  · exact hread user huser

/-- A transaction that is not a pending demotion adds none. -/
theorem pendingDemotions_set_le {running : List UserTransaction} {i : Nat} {t u : UserTransaction}
    (ht : running[i]? = some t) (hnot : u.demoting = false) :
    pendingDemotions (running.set i u) + (if t.demoting then 1 else 0) =
      pendingDemotions running := by
  have hcount := Threads.countP_set (x := u) demoting ht
  rw [hnot] at hcount
  simpa [pendingDemotions] using hcount

/-- The administrators that remain after a commit. -/
theorem activeAdmins_put {users : List User} {request : UserUpdate.Checked} {user : User}
    (hkeys : (users.map User.id).Nodup)
    (hfound : Rows.lookup User.id users user.id = some user) :
    activeAdmins users ≤ activeAdmins (Rows.put User.id users (request.written user)) +
      (if request.demotes user then 1 else 0) := by
  have hcount : (Rows.put User.id users (request.written user)).countP User.activeAdmin + _ = _ :=
    Rows.countP_put hkeys hfound
  unfold activeAdmins UserUpdate.Checked.demotes
  cases hold : user.activeAdmin <;> cases hnew : (request.written user).activeAdmin <;>
    simp [hold, hnew] at hcount ⊢ <;> omega

/-- One step of a call keeps the invariant. -/
theorem AdminsRemain.step (h : AdminsRemain s) (hallowed : CountsApart s e)
    (hstep : TransactionSystem.Happens (system passwords) s e s') : AdminsRemain s' := by
  have halone := TransactionSystem.alone_of_happens (locking passwords) hstep h.alone
  cases hstep with
  | @start t hbegins =>
      cases t with
      | called request =>
          refine ⟨h.keys, halone, ?_, ?_⟩
          · intro u hu user huser
            rcases List.mem_append.mp hu with hold | hnew
            · exact h.current u hold user huser
            · rw [List.mem_singleton.mp hnew] at huser
              cases huser
          · have := h.admins
            simpa [pendingDemotions, demoting] using this
      | checked _ => cases hbegins
      | locked _ _ => cases hbegins
      | decided _ _ => cases hbegins
      | ended _ => cases hbegins
  | rollback ht _ =>
      have hpending := pendingDemotions_set_le (u := .ended none) ht rfl
      apply h.advance halone
      · intro user huser
        cases huser
      · have := h.admins
        change pendingDemotions (s.running.set _ (.ended none)) + 1 ≤ _
        omega
  | @step i t t' users' ht hwait hnext =>
      have hadmins := h.admins
      cases moves_of_next hnext with
      | @refuse t error =>
          have hpending := pendingDemotions_set_le (u := .ended error) ht rfl
          refine h.advance halone (fun _ hnone => by cases hnone) (by omega)
      | @check request accepted hcheck =>
          have hpending := pendingDemotions_set_le (u := .checked accepted) ht rfl
          refine h.advance halone (fun _ hnone => by cases hnone) (by omega)
      | @lock request user hfound hdemotes =>
          have hpending := pendingDemotions_set_le (u := .locked request user) ht rfl
          refine h.advance halone ?_ (by omega)
          rintro _ ⟨⟩
          rw [(Rows.mem_of_lookup hfound).2]
          exact hfound
      | @decide request user hfound hdemotes =>
          have hpending := pendingDemotions_set_le (u := .decided request user) ht hdemotes
          refine h.advance halone ?_ (by omega)
          rintro _ ⟨⟩
          rw [(Rows.mem_of_lookup hfound).2]
          exact hfound
      | @count request user hcount =>
          have hcurrent := h.current _ (List.mem_of_getElem? ht) user rfl
          refine h.advance halone ?_ ?_
          · rintro _ ⟨⟩
            exact hcurrent
          · have hpending := Threads.countP_set (x := .decided request user) demoting ht
            have hle : (if (UserTransaction.decided request user).demoting then 1 else 0) ≤ 1 := by
              split <;> omega
            rcases hallowed (by rw [ht]; rfl) with hfew | hmany
            · omega
            · unfold pendingDemotions at hmany ⊢
              omega
      | @commit request user =>
          have hcurrent := h.current _ (List.mem_of_getElem? ht) user rfl
          have hpending := pendingDemotions_set_le (u := .ended none) ht rfl
          have hremain := @activeAdmins_put s.committed request user h.keys hcurrent
          refine ⟨?_, halone, ?_, ?_⟩
          · rw [Rows.keys_put]
            exact h.keys
          · intro u hu other huser
            obtain ⟨j, hj⟩ := List.mem_iff_getElem?.mp hu
            rcases Threads.getElem?_set hj with ⟨hji, hold⟩ | ⟨-, rfl⟩
            · -- The other transactions have locked other rows.
              have hne : other.id ≠ user.id := by
                intro heq
                apply hji
                apply h.alone j i u _ hold ht
                refine ⟨user.id, ?_, rfl⟩
                rw [lockedRow_eq, huser, Option.map_some, heq]
              have hother := h.current u (List.mem_of_getElem? hold) other huser
              calc
                Rows.lookup User.id (Rows.put User.id s.committed (request.written user)) other.id
                    = Rows.lookup User.id s.committed other.id := Rows.lookup_put_of_ne hne
                _ = some other := hother
            · cases huser
          · change pendingDemotions (s.running.set i (.ended none)) + 1 ≤
              activeAdmins (Rows.put User.id s.committed (request.written user))
            have hsame : (UserTransaction.decided request user).demoting =
              request.demotes user := rfl
            rw [hsame] at hpending
            omega

/-- An administrator remains when demotions count the administrators apart. -/
theorem adminsRemain_of_reachable
    (h : ((system passwords).machine SomeAdmin).Reachable CountsApart s) : AdminsRemain s :=
  h.invariant (fun _ => adminsRemain_of_initial) fun _ _ _ hs hallowed hstep =>
    hs.step hallowed (TransactionSystem.happens_of_apply hstep)

end Invariant

end UserTransaction

/-- In every run of calls of `update_user` whose demotions count the administrators apart, some
account is an active administrator after every commit. -/
theorem active_admin_remains (passwords : PasswordHasher)
    {s : Sessions (List User) UserTransaction}
    (h : ((UserTransaction.system passwords).machine SomeAdmin).Reachable
      UserTransaction.CountsApart s) : ∃ user ∈ s.committed, user.activeAdmin = true := by
  have hadmins := (UserTransaction.adminsRemain_of_reachable h).admins
  have hpos : 0 < activeAdmins s.committed := by omega
  exact List.countP_pos_iff.mp hpos

section Samples

/-- An account of an administrator. -/
def sampleAdmin (id : Uuid) (name : String) : User where
  id := id
  username := lit name
  passwordHash := lit "correct horse"
  role := .admin

/-- A demotion. -/
def sampleDemotion (id : Uuid) : UserUpdate where
  userId := id
  password := none
  role := some (lit "viewer")
  isActive := none
  salt := []

/-- Two administrators. -/
def sampleUsers : List User := [sampleAdmin 1 "ada", sampleAdmin 2 "grace"]

theorem someAdmin_sampleUsers : SomeAdmin sampleUsers := by decide +kernel

/-- An account that is no longer one of an administrator. -/
def demoted (user : User) : User := { user with role := .viewer }

/-- One demotion, and then the other, which is refused. -/
theorem active_admin_remains_sample :
    ∃ user ∈ [demoted (sampleAdmin 1 "ada"), sampleAdmin 2 "grace"], user.activeAdmin = true :=
  active_admin_remains plainPasswords
    (s := ⟨_, [.ended none, .ended (some (.controlPlane "last_admin_required"))]⟩)
    (TransactionSystem.reachable_of_schedule someAdmin_sampleUsers
      [.start (.called (sampleDemotion 1)), .step 0, .step 0, .step 0, .step 0,
        .start (.called (sampleDemotion 2)), .step 1, .step 1, .step 1]
      (by decide +kernel))

/-- Two administrators who demote each other at the same time: both count two. -/
theorem no_active_admin_after_two_demotions : ¬ ∀ (passwords : PasswordHasher)
    (s : Sessions (List User) UserTransaction),
    ((UserTransaction.system passwords).machine SomeAdmin).Reachable Machine.anyStep s →
      ∃ user ∈ s.committed, user.activeAdmin = true := by
  intro h
  have hrun : ((UserTransaction.system plainPasswords).machine SomeAdmin).Reachable
      Machine.anyStep ⟨[demoted (sampleAdmin 1 "ada"), demoted (sampleAdmin 2 "grace")],
        [.ended none, .ended none]⟩ :=
    TransactionSystem.reachable_of_schedule someAdmin_sampleUsers
      [.start (.called (sampleDemotion 1)), .start (.called (sampleDemotion 2)),
        .step 0, .step 1, .step 0, .step 1, .step 0, .step 1, .step 0, .step 1]
      (by decide +kernel)
  have hadmin := h plainPasswords _ hrun
  revert hadmin
  decide +kernel

end Samples

end MediaBridge.Control
