import MediaBridge.Personal.Supervisor

/-!
# Runs of the supervisor

In every run of the supervisor a role has at most one process, nothing is launched after a stop and
only a launch that fails makes `reconcile` raise. A dead process is replaced after the delay that
was computed for it.

## Implementation notes

The last two hold as long as no call of `start` finds a role down whose restart is pending, and no
role goes down for the 1025th time. Such a `start` leaves the restart pending with its old time.
-/

namespace MediaBridge.Personal

open Foundation

namespace Supervision

variable {settings : RestartSettings} {s : Supervision} {role : Role} {m first second : Moment}

section Frame

@[simp] theorem children_advance (s : Supervision) (m : Moment) :
    (s.advance m).children = s.children := rfl

@[simp] theorem stopping_advance (s : Supervision) (m : Moment) :
    (s.advance m).stopping = s.stopping := rfl

@[simp] theorem log_advance (s : Supervision) (m : Moment) : (s.advance m).log = s.log := rfl

@[simp] theorem children_setChild_self (s : Supervision) (role : Role) (child : ChildState) :
    (s.setChild role child).children role = child :=
  Function.update_self ..

theorem children_setChild_of_ne {other : Role} (h : other ≠ role) (child : ChildState) :
    (s.setChild role child).children other = s.children other :=
  Function.update_of_ne h ..

@[simp] theorem setChild_setChild (s : Supervision) (role : Role) (child new : ChildState) :
    (s.setChild role child).setChild role new = s.setChild role new := by
  unfold setChild
  simp only [Function.update_idem]

theorem stopping_launch (s : Supervision) (role : Role) (m : Moment) (action : Action) :
    (s.launch role m action).1.stopping = s.stopping := by
  unfold launch
  split
  · rfl
  · rfl

theorem stopping_startChild (s : Supervision) (role : Role) (m : Moment) :
    (s.startChild role m).1.stopping = s.stopping := by
  unfold startChild
  split
  · rfl
  · exact stopping_launch _ _ _ _

theorem stopping_scheduleRestart (s : Supervision) (role : Role) (process : Nat) (now : ℚ) :
    (s.scheduleRestart settings role process now).1.stopping = s.stopping := by
  simp only [scheduleRestart]
  split
  · rfl
  · rfl

theorem stopping_reconcileChild (s : Supervision) (role : Role) (m : Moment) :
    (s.reconcileChild settings role m).1.stopping = s.stopping := by
  simp only [reconcileChild]
  split
  · rfl
  · split
    · exact stopping_launch _ _ _ _
    · split
      · exact stopping_scheduleRestart _ _ _ _
      · split
        · rfl
        · exact stopping_launch _ _ _ _

theorem mem_live_advance {child : Role × Nat} (h : child ∈ (s.advance m).live) :
    child ∈ s.live :=
  (List.mem_filter.mp h).1

end Frame

section Properties

/-- What a log entry may say after the entries before it. -/
structure Permitted (before : List Action) (action : Action) : Prop where
  quiet : action.launches = true → .stopped ∉ before
  patient : ∀ role process now, action = .relaunched role process now →
    ∃ start delay, .scheduled role process start delay ∈ before ∧ start + delay ≤ now
  raises : ∀ e, action = .raised e → e = .launch

/-- What holds of a supervisor in every state. -/
structure Supervised (settings : RestartSettings) (s : Supervision) : Prop where
  single : ∀ role p q, (role, p) ∈ s.live → (role, q) ∈ s.live → p = q
  log : EachStep Permitted s.log
  backoff : ∀ m n d e, m ≤ n → settings.backoff m = some d → settings.backoff n = some e →
    d ≤ e ∧ e ≤ settings.max

/-- A role that `start` finds down has no restart pending. -/
def StartsClean (s : Supervision) (role : Role) (m : Moment) : Prop :=
  (s.advance m).running role = false → (s.children role).pending = false

/-- A role that `reconcile` finds down has been restarted fewer than 1024 times. -/
def ReconcilesClean (s : Supervision) (role : Role) (m : Moment) : Prop :=
  (s.advance m).running role = false → (s.children role).process ≠ none →
    (s.children role).pending = false → (s.children role).failures < 1024

/-- No call leaves a restart pending for a process that is replaced, or a power that is too large. -/
def Allowed (settings : RestartSettings) (s : Supervision) : SupervisorCall → Prop
  | .start first second => s.stopping = false → s.StartsClean .control first ∧
      ((s.startChild .control first).2 = none →
        (s.startChild .control first).1.StartsClean .data second)
  | .reconcile first second => s.stopping = false → s.ReconcilesClean .control first ∧
      ((s.reconcileChild settings .control first).2 = none →
        (s.reconcileChild settings .control first).1.ReconcilesClean .data second)
  | .stop _ _ _ => True

instance (s : Supervision) (role : Role) (m : Moment) : Decidable (s.StartsClean role m) :=
  inferInstanceAs (Decidable (_ → _))

instance (s : Supervision) (role : Role) (m : Moment) : Decidable (s.ReconcilesClean role m) :=
  inferInstanceAs (Decidable (_ → _ → _ → _))

instance (settings : RestartSettings) (s : Supervision) :
    (call : SupervisorCall) → Decidable (Allowed settings s call)
  | .start _ _ => inferInstanceAs (Decidable (_ → _ ∧ (_ → _)))
  | .reconcile _ _ => inferInstanceAs (Decidable (_ → _ ∧ (_ → _)))
  | .stop _ _ _ => isTrue trivial

end Properties

section Backoff

theorem backoff_eq_some {n : Nat} {delay : ℚ} (h : settings.backoff n = some delay) :
    delay = min (settings.base * 2 ^ (n - 1)) settings.max := by
  unfold RestartSettings.backoff at h
  split at h
  · cases h
    rfl
  · cases h

theorem exists_backoff {n : Nat} (h : n < 1024) :
    ∃ delay, settings.backoff (n + 1) = some delay :=
  ⟨_, if_pos h⟩

/-- The delay grows with the failures up to its maximum. -/
theorem backoff_mono {m n : Nat} {d e : ℚ} (hle : m ≤ n) (hd : settings.backoff m = some d)
    (he : settings.backoff n = some e) : d ≤ e ∧ e ≤ settings.max := by
  rw [backoff_eq_some hd, backoff_eq_some he]
  refine ⟨min_le_min_right _ ?_, min_le_right _ _⟩
  apply mul_le_mul_of_nonneg_left _ settings.base_pos.le
  exact pow_le_pow_right₀ (by decide) (Nat.sub_le_sub_right hle 1)

end Backoff

section Invariant

/-- The invariant: a running process is the one of its role, and a pending restart is that of the
process of its role. -/
structure Sound (s : Supervision) : Prop where
  handles : ∀ role p, (role, p) ∈ s.live → (s.children role).process = some p
  quiet : s.stopping = false → .stopped ∉ s.log
  waits : s.stopping = false → ∀ role, (s.children role).pending = true →
    ∃ process start delay, (s.children role).process = some process ∧
      .scheduled role process start delay ∈ s.log ∧ start + delay ≤ (s.children role).restartAt
  log : EachStep Permitted s.log

theorem sound_initial (time : ℚ) : (initial time).Sound where
  handles _ _ h := absurd h List.not_mem_nil
  quiet _ := List.not_mem_nil
  waits _ _ h := by cases h
  log := eachStep_nil _

theorem Sound.advance (h : s.Sound) (m : Moment) : (s.advance m).Sound where
  handles role p hp := h.handles role p (mem_live_advance hp)
  quiet := h.quiet
  waits := h.waits
  log := h.log

theorem Sound.note (h : s.Sound) {action : Action} (hpermitted : Permitted s.log action)
    (hne : action ≠ .stopped) : (s.note action).Sound where
  handles := h.handles
  quiet hstopping hmem := by
    rcases List.mem_append.mp hmem with hold | hnew
    · exact h.quiet hstopping hold
    · exact hne (List.mem_singleton.mp hnew).symm
  waits hstopping role hpending := by
    obtain ⟨process, start, delay, hprocess, hmem, hle⟩ := h.waits hstopping role hpending
    exact ⟨process, start, delay, hprocess, List.mem_append_left _ hmem, hle⟩
  log := eachStep_append_singleton.mpr ⟨h.log, hpermitted⟩

/-- A role whose new state has no pending restart, with the same process. -/
theorem Sound.setChild (h : s.Sound) {child : ChildState}
    (hprocess : child.process = (s.children role).process)
    (hwaits : s.stopping = false → child.pending = true → ∃ process start delay,
      child.process = some process ∧ .scheduled role process start delay ∈ s.log ∧
        start + delay ≤ child.restartAt) : (s.setChild role child).Sound where
  handles r p hp := by
    by_cases hrole : r = role
    · subst hrole
      rw [children_setChild_self, hprocess]
      exact h.handles r p hp
    · rw [children_setChild_of_ne hrole]
      exact h.handles r p hp
  quiet := h.quiet
  waits hstopping r hpending := by
    by_cases hrole : r = role
    · subst hrole
      rw [children_setChild_self] at hpending ⊢
      exact hwaits hstopping hpending
    · rw [children_setChild_of_ne hrole] at hpending ⊢
      exact h.waits hstopping r hpending
  log := h.log

theorem Sound.clearRestartPending (h : s.Sound) (role : Role) :
    (s.clearRestartPending role).Sound := by
  refine h.setChild rfl ?_
  intro _ hpending
  cases hpending

/-- A launch for a role that is down and waits for no restart. -/
theorem Sound.launch (h : s.Sound) (hdown : s.running role = false)
    (hpending : (s.children role).pending = false) {action : Action}
    (hpermitted : Permitted s.log action) (hne : action ≠ .stopped) :
    (s.launch role m action).1.Sound := by
  unfold Supervision.launch
  split
  · have hnew : (s.setChild role { s.children role with process := some s.launches }).children role =
        { s.children role with process := some s.launches } := children_setChild_self ..
    refine ⟨?_, (h.note hpermitted hne).quiet, ?_, (h.note hpermitted hne).log⟩
    · intro r p hp
      change ((s.setChild role _).children r).process = some p
      rcases List.mem_cons.mp hp with heq | hold
      · cases heq
        rw [hnew]
      · have hother : r ≠ role := by
          rintro rfl
          have hrunning : s.running r = true := by
            rw [running, h.handles r p hold]
            exact decide_eq_true hold
          rw [hdown] at hrunning
          cases hrunning
        rw [children_setChild_of_ne hother]
        exact h.handles r p hold
    · intro hstopping r hwaits
      change ((s.setChild role _).children r).pending = true at hwaits
      change ∃ process start delay, ((s.setChild role _).children r).process = some process ∧ _ ∧
        _ ≤ ((s.setChild role _).children r).restartAt
      by_cases hrole : r = role
      · subst hrole
        rw [hnew] at hwaits
        rw [hpending] at hwaits
        cases hwaits
      · rw [children_setChild_of_ne hrole] at hwaits ⊢
        exact (h.note hpermitted hne).waits hstopping r hwaits
  · exact h

/-- A dead process with a delay for its restart. -/
theorem Sound.scheduleRestart (h : s.Sound) {process : Nat} (now : ℚ)
    (hprocess : (s.children role).process = some process)
    (hfailures : (s.children role).failures < 1024) :
    (s.scheduleRestart settings role process now).1.Sound ∧
      (s.scheduleRestart settings role process now).2 = none := by
  obtain ⟨delay, hdelay⟩ : ∃ delay, settings.backoff ((s.children role).failures + 1) = some delay :=
    exists_backoff hfailures
  have hpermitted : Permitted s.log (.scheduled role process now delay) :=
    ⟨by rintro ⟨⟩, by rintro _ _ _ ⟨⟩, by rintro _ ⟨⟩⟩
  have heq : s.scheduleRestart settings role process now =
      ((s.note (.scheduled role process now delay)).setChild role
        { s.children role with
          failures := (s.children role).failures + 1
          pending := true
          restartAt := now + delay }, none) := by
    unfold Supervision.scheduleRestart
    simp only [hdelay, children_setChild_self, setChild_setChild]
    rfl
  rw [heq]
  refine ⟨(h.note hpermitted (by rintro ⟨⟩)).setChild rfl ?_, rfl⟩
  intro _ _
  exact ⟨process, now, delay, hprocess, List.mem_append_right _ List.mem_cons_self, le_rfl⟩

theorem permitted_launched (h : .stopped ∉ s.log) (role : Role) (process : Nat) :
    Permitted s.log (.launched role process) :=
  ⟨fun _ => h, by rintro _ _ _ ⟨⟩, by rintro _ ⟨⟩⟩

theorem launch_error {action : Action} {e : SupervisorError}
    (h : (s.launch role m action).2 = some e) : e = .launch := by
  unfold launch at h
  split at h
  · cases h
  · cases h
    rfl

theorem Sound.startChild (h : s.Sound) (hstopping : s.stopping = false)
    (hclean : s.StartsClean role m) : (s.startChild role m).1.Sound := by
  unfold Supervision.startChild
  split
  · exact h.advance m
  · next hdown =>
      rw [Bool.not_eq_true] at hdown
      apply (h.advance m).launch hdown (hclean hdown)
      · exact permitted_launched ((h.advance m).quiet hstopping) role _
      · rintro ⟨⟩

/-- One role of `reconcile` keeps the invariant and raises only when it cannot launch. -/
theorem Sound.reconcileChild (h : s.Sound) (hstopping : s.stopping = false)
    (hclean : s.ReconcilesClean role m) : (s.reconcileChild settings role m).1.Sound ∧
      ∀ e, (s.reconcileChild settings role m).2 = some e → e = .launch := by
  have hmoment := h.advance m
  have hquiet := hmoment.quiet hstopping
  simp only [Supervision.reconcileChild]
  split
  · exact ⟨hmoment, by rintro _ ⟨⟩⟩
  · next hdown =>
      rw [Bool.not_eq_true] at hdown
      split
      · next hnone =>
          have hpending : (s.children role).pending = false := by
            by_contra hpending
            rw [Bool.not_eq_false] at hpending
            obtain ⟨process, _, _, hprocess, -⟩ := h.waits hstopping role hpending
            rw [children_advance, hprocess] at hnone
            cases hnone
          refine ⟨hmoment.launch hdown hpending (permitted_launched hquiet role _) ?_,
            fun e he => launch_error he⟩
          rintro ⟨⟩
      · next process hprocess =>
          split
          · next hpending =>
              have hfailures := hclean hdown (by
                rw [← children_advance s m, hprocess]
                rintro ⟨⟩) hpending
              obtain ⟨hsound, hok⟩ :=
                @Sound.scheduleRestart settings _ role hmoment process m.now hprocess hfailures
              refine ⟨hsound, ?_⟩
              intro e he
              rw [hok] at he
              cases he
          · next hpending =>
              rw [Bool.not_eq_false] at hpending
              split
              · exact ⟨hmoment, by rintro _ ⟨⟩⟩
              · next hready =>
                  obtain ⟨found, start, delay, hfound, hmem, hle⟩ :=
                    hmoment.waits hstopping role hpending
                  rw [hprocess, Option.some.injEq] at hfound
                  subst hfound
                  refine ⟨(hmoment.clearRestartPending role).launch ?_ ?_ ⟨fun _ => hquiet, ?_, ?_⟩ ?_,
                    fun e he => launch_error he⟩
                  · rw [running, Supervision.clearRestartPending, children_setChild_self]
                    exact hdown
                  · rw [Supervision.clearRestartPending, children_setChild_self]
                  · rintro _ _ _ ⟨⟩
                    exact ⟨start, delay, hmem, hle.trans (not_lt.mp hready)⟩
                  · rintro _ ⟨⟩
                  · rintro ⟨⟩

theorem Sound.start (h : s.Sound) (hallowed : Allowed settings s (.start first second)) :
    (s.start first second).1.Sound := by
  unfold Supervision.start
  split
  · exact h
  · next hstopping =>
      rw [Bool.not_eq_true] at hstopping
      obtain ⟨hcontrol, hdata⟩ := hallowed hstopping
      have hfirst := h.startChild hstopping hcontrol
      have hstill := stopping_startChild s .control first
      unfold andThen
      split
      · next hok => exact hfirst.startChild (hstill.trans hstopping) (hdata hok)
      · exact hfirst

theorem Sound.reconcile (h : s.Sound) (hallowed : Allowed settings s (.reconcile first second)) :
    (s.reconcile settings first second).1.Sound ∧
      ∀ e, (s.reconcile settings first second).2 = some e → e = .launch := by
  unfold Supervision.reconcile
  split
  · exact ⟨h, by rintro _ ⟨⟩⟩
  · next hstopping =>
      rw [Bool.not_eq_true] at hstopping
      obtain ⟨hcontrol, hdata⟩ := hallowed hstopping
      obtain ⟨hfirst, hraises⟩ := @Sound.reconcileChild settings s .control first h hstopping hcontrol
      have hstill := @stopping_reconcileChild settings s .control first
      unfold andThen
      split
      · next hok =>
          exact hfirst.reconcileChild (hstill.trans hstopping) (hdata hok)
      · next e hraised => exact ⟨hfirst, fun e' he' => hraises e' (hraised.trans he')⟩

theorem Sound.reconciled (h : s.Sound) (hallowed : Allowed settings s (.reconcile first second)) :
    (s.reconciled settings first second).Sound := by
  obtain ⟨hsound, hraises⟩ := h.reconcile hallowed
  unfold Supervision.reconciled
  split
  · next heq =>
      rw [heq] at hsound
      exact hsound
  · next e heq =>
      rw [heq] at hsound hraises
      obtain rfl : e = .launch := hraises e rfl
      apply hsound.note ⟨by rintro ⟨⟩, by rintro _ _ _ ⟨⟩, _⟩
      · rintro ⟨⟩
      · rintro _ ⟨⟩
        rfl

theorem Sound.stop (h : s.Sound) (timeout : ℚ) (m : Moment) (waited : Bool) :
    (s.stop timeout m waited).1.Sound := by
  have hlog : EachStep Permitted (s.log ++ [.stopped]) :=
    eachStep_append_singleton.mpr ⟨h.log, ⟨by rintro ⟨⟩, by rintro _ _ _ ⟨⟩, by rintro _ ⟨⟩⟩⟩
  simp only [Supervision.stop]
  split
  · exact h
  · split
    · refine ⟨?_, by rintro ⟨⟩, by rintro ⟨⟩, hlog⟩
      intro role p hp
      obtain ⟨hlive, hne⟩ := List.mem_filter.mp hp
      exact absurd ((h.advance m).handles role p hlive) (of_decide_eq_true hne)
    · exact ⟨(h.advance m).handles, by rintro ⟨⟩, by rintro ⟨⟩, hlog⟩

/-- Every allowed call keeps the invariant. -/
theorem Sound.run (h : s.Sound) {call : SupervisorCall} (hallowed : Allowed settings s call) :
    (s.run settings call).Sound := by
  cases call with
  | start first second => exact h.start hallowed
  | reconcile first second => exact h.reconciled hallowed
  | stop timeout m waited => exact h.stop timeout m waited

theorem sound_of_reachable (h : (supervisor settings).Reachable (Allowed settings) s) :
    s.Sound := by
  apply h.invariant
  · rintro _ ⟨time, rfl⟩
    exact sound_initial time
  · rintro s call _ hsound hallowed ⟨-, rfl⟩
    exact hsound.run hallowed

end Invariant

section Samples

/-- The default settings. -/
def sampleSettings : RestartSettings := ⟨1 / 20, 5, by decide +kernel, by decide +kernel⟩

/-- The state after a call under a clock that does not go back. -/
def follow (settings : RestartSettings) (s : Supervision) (call : SupervisorCall) :
    Option Supervision :=
  if (s.time :: call.readings).Pairwise (· ≤ ·) then some (s.run settings call) else none

/-- The state after an allowed call. -/
def followAllowed (settings : RestartSettings) (s : Supervision) (call : SupervisorCall) :
    Option Supervision :=
  if Allowed settings s call then follow settings s call else none

theorem step_of_follow {call : SupervisorCall} {s' : Supervision}
    (h : follow settings s call = some s') : (supervisor settings).step s call s' := by
  unfold follow at h
  split at h
  · next hclock =>
      cases h
      exact ⟨hclock, rfl⟩
  · cases h

theorem reachable_of_follow {calls : List SupervisorCall} {time : ℚ}
    (h : calls.foldlM (follow settings) (initial time) = some s) :
    (supervisor settings).Reachable Machine.anyStep s :=
  Machine.Reachable.foldlM (fun _ _ _ hs => ⟨trivial, step_of_follow hs⟩) (.start ⟨time, rfl⟩) h

theorem reachable_of_followAllowed {calls : List SupervisorCall} {time : ℚ}
    (h : calls.foldlM (followAllowed settings) (initial time) = some s) :
    (supervisor settings).Reachable (Allowed settings) s := by
  refine Machine.Reachable.foldlM ?_ (.start ⟨time, rfl⟩) h
  intro s call s' hs
  unfold followAllowed at hs
  split at hs
  · next hallowed => exact ⟨hallowed, step_of_follow hs⟩
  · cases hs

/-- A moment at which some processes have gone and a launch works. -/
def moment (now : ℚ) (exited : List Nat) : Moment := ⟨now, exited, true⟩

/-- The Control process goes and is launched again. -/
def restartedCalls : List SupervisorCall :=
  [.start (moment 0 []) (moment 0 []), .reconcile (moment 1 [0]) (moment 1 []),
    .reconcile (moment 2 []) (moment 2 [])]

theorem restartedCalls_allowed :
    (restartedCalls.foldlM (followAllowed sampleSettings) (initial 0)).isSome = true := by
  decide +kernel

/-- A process that `start` launches while a restart is pending goes as well. -/
def overtakenCalls : List SupervisorCall :=
  [.start (moment 0 []) (moment 0 []), .reconcile (moment 1 [0]) (moment 1 []),
    .start (moment 2 []) (moment 2 []), .reconcile (moment 3 [2]) (moment 3 [])]

theorem overtakenCalls_ordered :
    (overtakenCalls.foldlM (follow sampleSettings) (initial 0)).isSome = true := by
  decide +kernel

end Samples

end Supervision

end MediaBridge.Personal
