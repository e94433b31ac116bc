import MediaBridge.Gateway.RateLimit
import Mathlib.Tactic.NormNum

/-!
# What a rate limiter admits

In every time the limiter admits of a key at most its capacity and what is refilled in that time,
if no bucket is forgotten before it is full again, and no call enters late.

## Implementation notes

The calls of a run stand in the order of their locked sections. A thread that has read the clock
waits for the lock, and may enter after threads that have read a later time.
-/

namespace MediaBridge.Gateway

open Foundation

namespace CredentialRouteRateLimiter

variable {limiter : CredentialRouteRateLimiter} {key : RateKey} {calls : List RateCall}
  {call : RateCall} {s t : ℚ}

variable (limiter) in
/-- A bucket that is idle for so long that it is removed has been refilled. -/
def FullWhenIdle : Prop :=
  limiter.capacity ≤ limiter.refillPerSecond * limiter.idleTtlSeconds

/-- A bucket that is removed was full. -/
theorem level_of_idle (hfull : limiter.FullWhenIdle) {bucket : RateBucket}
    (hseen : bucket.lastSeenAt = bucket.updatedAt) (htokens : 0 ≤ bucket.tokens) {now : ℚ}
    (hidle : bucket.lastSeenAt ≤ now - limiter.idleTtlSeconds) :
    TokenBucket.level limiter.allowance now (some (tokenBucket bucket)) = limiter.capacity := by
  refine min_eq_left ?_
  have hlong : limiter.idleTtlSeconds ≤ max 0 (now - bucket.updatedAt) := by
    refine le_max_of_le_right ?_
    rw [← hseen]
    linarith
  calc
    limiter.capacity ≤ limiter.refillPerSecond * limiter.idleTtlSeconds := hfull
    _ ≤ limiter.refillPerSecond * max 0 (now - bucket.updatedAt) :=
      mul_le_mul_of_nonneg_left hlong limiter.refill_pos.le
    _ = max 0 (now - bucket.updatedAt) * limiter.refillPerSecond := mul_comm _ _
    _ ≤ bucket.tokens + max 0 (now - bucket.updatedAt) * limiter.refillPerSecond :=
      le_add_of_nonneg_left htokens

/-- No bucket of a run owes anything. -/
theorem tokens_nonneg {bucket : RateBucket}
    (h : Entries.get? (limiter.run calls).1 key = some bucket) : 0 ≤ bucket.tokens := by
  have hlevel := TokenBucket.level_nonneg (a := limiter.allowance) (limiter.history key calls)
    bucket.updatedAt
  rw [run_history, view, h] at hlevel
  have htokens := hlevel.trans (min_le_right _ _)
  change 0 ≤ bucket.tokens + max 0 (bucket.updatedAt - bucket.updatedAt) * _ at htokens
  rwa [sub_self, max_self, zero_mul, add_zero] at htokens

/-- The bucket of a key is dropped only when it is full. -/
theorem droppedFull_history (hfull : limiter.FullWhenIdle) (calls : List RateCall) :
    TokenBucket.DroppedFull limiter.allowance (limiter.history key calls) := by
  induction calls using List.reverseRecOn with
  | nil => exact TokenBucket.droppedFull_nil
  | append_singleton calls call ih =>
      rw [history_append_singleton, keyOps]
      cases limiter.accepts call with
      | false => rwa [if_neg Bool.false_ne_true, List.append_nil]
      | true =>
          rw [if_pos rfl, ← List.append_assoc]
          have hdrop : TokenBucket.DroppedFull limiter.allowance
              (limiter.history key calls ++ limiter.dropOps key (limiter.run calls).1 call) := by
            unfold dropOps
            split
            · rename_i hgone
              rw [Bool.and_eq_true, Bool.not_eq_true', Entries.has, Entries.has,
                get?_purgeIdle (wellKept_run calls)] at hgone
              obtain ⟨hhas, hgone⟩ := hgone
              obtain ⟨bucket, hget⟩ := Option.isSome_iff_exists.mp hhas
              refine TokenBucket.droppedFull_append_singleton.mpr ⟨ih, ?_⟩
              rw [run_history, view, hget]
              refine level_of_idle hfull ((wellKept_run calls).seen _ (Entries.mem_of_get? hget))
                (tokens_nonneg hget) ?_
              rw [hget, Option.filter_some] at hgone
              by_contra hlate
              rw [if_pos (by simpa using hlate)] at hgone
              cases hgone
            · rwa [List.append_nil]
          unfold takeOps
          simp only
          split
          · exact TokenBucket.droppedFull_append_singleton.mpr ⟨hdrop, trivial⟩
          · rwa [List.append_nil]

/-- The bound, for a history whose readings do not go back. -/
theorem admittedCost_le (hfull : limiter.FullWhenIdle)
    (horder : TokenBucket.InOrder (limiter.history key calls)) (hst : s ≤ t) :
    admittedCost (limiter.run calls).2 key s t ≤
      limiter.capacity + limiter.refillPerSecond * (t - s) := by
  have hspent := TokenBucket.spent_le horder (droppedFull_history hfull calls) hst
  rw [run_history, ← admittedCost_eq] at hspent
  exact hspent

/-- The calls enter in the order of their readings. -/
def Ordered (calls : List RateCall) : Prop := (calls.map RateCall.now).Pairwise (· ≤ ·)

theorem exists_of_mem_history {op : TokenBucket.Op ℚ} (h : op ∈ limiter.history key calls) :
    ∃ call ∈ calls, op.now = call.now := by
  induction calls using List.reverseRecOn with
  | nil => cases h
  | append_singleton calls call ih =>
      rw [history_append_singleton] at h
      rcases List.mem_append.mp h with h | h
      · obtain ⟨c, hc, heq⟩ := ih h
        exact ⟨c, List.mem_append_left _ hc, heq⟩
      · exact ⟨call, List.mem_append_right _ (List.mem_singleton_self _), now_of_mem_keyOps h⟩

/-- Calls in order make a history in order. -/
theorem inOrder_history (h : Ordered calls) :
    TokenBucket.InOrder (limiter.history key calls) := by
  induction calls using List.reverseRecOn with
  | nil => exact TokenBucket.inOrder_nil
  | append_singleton calls call ih =>
      rw [Ordered, List.map_append, List.pairwise_append] at h
      obtain ⟨hbefore, -, hlast⟩ := h
      rw [history_append_singleton]
      refine (ih hbefore).append ?_ fun o ho => now_of_mem_keyOps ho
      intro o ho o' ho'
      obtain ⟨c, hc, heq⟩ := exists_of_mem_history ho
      rw [heq, now_of_mem_keyOps ho']
      exact hlast _ (List.mem_map_of_mem hc) _ (List.mem_singleton_self _)

variable (limiter) in
/-- The rate bound: whatever is called, what is admitted of a key in a time is at most the
capacity and what is refilled in that time. -/
def RateBound : Prop :=
  ∀ calls, Ordered calls → ∀ key s t, s ≤ t →
    admittedCost (limiter.run calls).2 key s t ≤
      limiter.capacity + limiter.refillPerSecond * (t - s)

variable (call) in
/-- A call that finds no bucket left. -/
theorem enter_of_empty {buckets : RateBuckets} (h : limiter.purgeIdle call.now buckets = []) :
    limiter.enter call buckets = ((take call.cost (limiter.newBucket call.now)).1,
      [(call.key, (take call.cost (limiter.newBucket call.now)).2)]) := by
  unfold enter
  rw [h]
  exact if_neg (Nat.not_le.mpr limiter.keys_pos)

variable (limiter) in
/-- A call that takes a whole bucket. -/
def emptying (now : ℚ) : RateCall := ⟨lit "key", lit "/mcp", limiter.capacity, now⟩

theorem accepts_emptying (now : ℚ) : limiter.accepts (limiter.emptying now) = true := by
  unfold accepts emptying
  have hnames : (credentialSelectorPattern (lit "key") && routePattern (lit "/mcp")) = true := by
    decide
  rw [decide_eq_true (zero_lt_one.trans_le limiter.capacity_pos), decide_eq_true le_rfl, hnames]
  rfl

/-- A bucket is emptied. -/
theorem take_emptying (now : ℚ) :
    take limiter.capacity (limiter.newBucket now) = (true, ⟨0, now, now⟩) := by
  unfold take newBucket
  rw [if_neg (lt_irrefl _), sub_self]

theorem allow_emptying {buckets : RateBuckets} {now : ℚ}
    (h : limiter.purgeIdle now buckets = []) :
    limiter.allow (limiter.emptying now) buckets =
      (true, [((lit "key", lit "/mcp"), ⟨0, now, now⟩)]) := by
  rw [allow, if_pos (accepts_emptying now), enter_of_empty (limiter.emptying now) h]
  change ((take limiter.capacity (limiter.newBucket now)).1,
    [(_, (take limiter.capacity (limiter.newBucket now)).2)]) = _
  rw [take_emptying]
  rfl

/-- A call that is admitted. -/
theorem record_of_admitted {acc : RateBuckets × List RateCall} {buckets : RateBuckets}
    (h : limiter.allow call acc.1 = (true, buckets)) :
    limiter.record acc call = (buckets, acc.2 ++ [call]) := by
  rw [record, h]
  rfl

variable (limiter) in
/-- A bucket is emptied, is forgotten when it has been idle, and is emptied again. -/
def twiceEmptied : List RateCall := [limiter.emptying 0, limiter.emptying limiter.idleTtlSeconds]

theorem run_twiceEmptied : (limiter.run limiter.twiceEmptied).2 = limiter.twiceEmptied := by
  have hfirst : limiter.allow (limiter.emptying 0) [] =
      (true, [((lit "key", lit "/mcp"), ⟨0, 0, 0⟩)]) := allow_emptying rfl
  have hpurge : limiter.purgeIdle limiter.idleTtlSeconds
      [((lit "key", lit "/mcp"), ⟨0, 0, 0⟩)] = [] := by
    unfold purgeIdle
    rw [sub_self, List.filter_cons_of_neg (by simp)]
    rfl
  have hsecond := allow_emptying hpurge
  have honce : limiter.record ([], []) (limiter.emptying 0) = _ := record_of_admitted hfirst
  unfold run twiceEmptied
  rw [List.foldl_cons, List.foldl_cons, List.foldl_nil, honce, record_of_admitted hsecond]
  rfl

/-- Twice the capacity is admitted in one idle time. -/
theorem admittedCost_twiceEmptied :
    admittedCost (limiter.run limiter.twiceEmptied).2 (lit "key", lit "/mcp") 0
      limiter.idleTtlSeconds = limiter.capacity + limiter.capacity := by
  have hidle := limiter.idle_pos.le
  rw [run_twiceEmptied, admittedCost_eq]
  change TokenBucket.spent ([(0, limiter.capacity)] ++ [(limiter.idleTtlSeconds, limiter.capacity)])
    0 limiter.idleTtlSeconds = _
  rw [TokenBucket.spent_append, TokenBucket.spent_singleton le_rfl hidle,
    TokenBucket.spent_singleton hidle le_rfl]

theorem ordered_twiceEmptied : Ordered limiter.twiceEmptied :=
  List.pairwise_pair.mpr limiter.idle_pos.le

variable (limiter) in
/-- A limiter keeps the rate bound exactly when what is idle for so long that it is forgotten
has been refilled. -/
theorem rateBound_iff : limiter.RateBound ↔ limiter.FullWhenIdle := by
  constructor
  · intro h
    have hbound := h limiter.twiceEmptied ordered_twiceEmptied (lit "key", lit "/mcp") 0
      limiter.idleTtlSeconds limiter.idle_pos.le
    rw [admittedCost_twiceEmptied, sub_zero] at hbound
    exact (add_le_add_iff_left _).mp hbound
  · intro hfull calls horder key s t hst
    exact admittedCost_le hfull (inOrder_history horder) hst

/-- The settings that a gateway takes from its environment: they refill the bucket more slowly
than they forget it. -/
def sample : CredentialRouteRateLimiter where
  capacity := 10000
  refillPerSecond := 1
  maxKeys := 100000
  idleTtlSeconds := 600
  capacity_pos := by norm_num
  refill_pos := by norm_num
  keys_pos := by norm_num
  idle_pos := by norm_num

theorem not_rateBound : ¬ ∀ limiter, RateBound limiter := by
  intro hall
  have hbound := hall sample sample.twiceEmptied ordered_twiceEmptied (lit "key", lit "/mcp") 0
    sample.idleTtlSeconds sample.idle_pos.le
  rw [admittedCost_twiceEmptied] at hbound
  change (10000 : ℚ) + 10000 ≤ 10000 + 1 * (600 - 0) at hbound
  norm_num at hbound

end CredentialRouteRateLimiter

/-- Threads that call a limiter: those that have read the clock wait for the lock. -/
structure RateThreads where
  clock : ℚ := 0
  waiting : List RateCall := []
  entered : List RateCall := []
  buckets : RateBuckets := []
  admitted : List RateCall := []

/-- A step of a thread: it reads the clock, or the `i`-th waiting thread enters the locked
section. -/
inductive RateEvent
  | reads (call : RateCall)
  | enters (i : Nat)

namespace RateThreads

/-- The threads after a locked section. -/
def afterEntering (limiter : CredentialRouteRateLimiter) (threads : RateThreads) (i : Nat)
    (call : RateCall) : RateThreads where
  clock := threads.clock
  waiting := threads.waiting.eraseIdx i
  entered := threads.entered ++ [call]
  buckets := (limiter.record (threads.buckets, threads.admitted) call).1
  admitted := (limiter.record (threads.buckets, threads.admitted) call).2

/-- A step; `none` if the clock would go back, or no thread waits there. -/
def step (limiter : CredentialRouteRateLimiter) (threads : RateThreads) :
    RateEvent → Option RateThreads
  | .reads call =>
      if threads.clock ≤ call.now then
        some { threads with clock := call.now, waiting := threads.waiting ++ [call] }
      else none
  | .enters i => (threads.waiting[i]?).map (threads.afterEntering limiter i)

/-- The interleavings: the clock does not go back, and the locked sections run in any order. -/
def machine (limiter : CredentialRouteRateLimiter) : Machine RateThreads RateEvent where
  initial threads := threads = {}
  step threads event threads' := threads.step limiter event = some threads'

/-- A thread that enters does not touch the bucket of the key with an earlier reading than one
with which that bucket has been updated or removed. -/
def Timely (limiter : CredentialRouteRateLimiter) (key : RateKey) (threads : RateThreads) :
    RateEvent → Prop
  | .reads _ => True
  | .enters i => ∀ call ∈ threads.waiting[i]?,
      ∀ earlier ∈ limiter.history key threads.entered,
        ∀ op ∈ limiter.keyOps key threads.buckets call, earlier.now ≤ op.now

/-- The total cost of a key that was admitted with readings up to a time. -/
def costUntil (admitted : List RateCall) (key : RateKey) (t : ℚ) : ℚ :=
  ((admitted.filter fun call => decide (call.key = key) && decide (call.now ≤ t)).map
    RateCall.cost).sum

/-- What is true of all threads: the buckets are those of the calls that have entered, and no
reading was before the start. -/
structure Consistent (limiter : CredentialRouteRateLimiter) (threads : RateThreads) : Prop where
  run : (threads.buckets, threads.admitted) = limiter.run threads.entered
  clock : 0 ≤ threads.clock
  waiting : ∀ call ∈ threads.waiting, 0 ≤ call.now
  admitted : ∀ call ∈ threads.admitted, 0 ≤ call.now

variable {limiter : CredentialRouteRateLimiter} {key : RateKey} {threads : RateThreads} {t : ℚ}

theorem step_reads {call : RateCall} {threads' : RateThreads}
    (h : threads.step limiter (.reads call) = some threads') :
    threads.clock ≤ call.now ∧
      threads' = { threads with clock := call.now, waiting := threads.waiting ++ [call] } := by
  simp only [step] at h
  split at h
  · rename_i hclock
    exact ⟨hclock, (Option.some.inj h).symm⟩
  · cases h

theorem step_enters {i : Nat} {threads' : RateThreads}
    (h : threads.step limiter (.enters i) = some threads') :
    ∃ call, threads.waiting[i]? = some call ∧ threads' = threads.afterEntering limiter i call := by
  obtain ⟨call, hcall, rfl⟩ := Option.map_eq_some_iff.mp h
  exact ⟨call, hcall, rfl⟩

theorem consistent_initial : Consistent limiter {} :=
  ⟨rfl, le_rfl, nofun, nofun⟩

theorem Consistent.step (h : Consistent limiter threads) {event : RateEvent}
    {threads' : RateThreads} (hstep : (machine limiter).step threads event threads') :
    Consistent limiter threads' := by
  cases event with
  | reads call =>
      obtain ⟨hclock, rfl⟩ := step_reads hstep
      have hnow := h.clock.trans hclock
      refine ⟨h.run, hnow, ?_, h.admitted⟩
      rw [List.forall_mem_append, List.forall_mem_singleton]
      exact ⟨h.waiting, hnow⟩
  | enters i =>
      obtain ⟨call, hcall, rfl⟩ := step_enters hstep
      refine ⟨?_, h.clock, fun c hc => h.waiting c ((List.eraseIdx_subset) hc), ?_⟩
      · change limiter.record (threads.buckets, threads.admitted) call = _
        rw [h.run, afterEntering, CredentialRouteRateLimiter.run_append_singleton]
      · have hnow := h.waiting call (List.mem_of_getElem? hcall)
        unfold afterEntering CredentialRouteRateLimiter.record
        simp only
        split
        · rw [List.forall_mem_append, List.forall_mem_singleton]
          exact ⟨h.admitted, hnow⟩
        · exact h.admitted

/-- Threads whose steps are timely for a key: its history is in order. -/
theorem inOrder_of_timely
    (h : (machine limiter).Reachable (Timely limiter key) threads) :
    Consistent limiter threads ∧
      TokenBucket.InOrder (limiter.history key threads.entered) := by
  induction h with
  | start hinitial =>
      subst hinitial
      exact ⟨consistent_initial, TokenBucket.inOrder_nil⟩
  | @next threads threads' event _ htimely hstep ih =>
      obtain ⟨hconsistent, horder⟩ := ih
      refine ⟨hconsistent.step hstep, ?_⟩
      cases event with
      | reads call =>
          obtain ⟨-, rfl⟩ := step_reads hstep
          exact horder
      | enters i =>
          obtain ⟨call, hcall, rfl⟩ := step_enters hstep
          have hbuckets : threads.buckets = (limiter.run threads.entered).1 :=
            congrArg Prod.fst hconsistent.run
          have hops := htimely call hcall
          rw [hbuckets] at hops
          change TokenBucket.InOrder (limiter.history key (threads.entered ++ [call]))
          rw [CredentialRouteRateLimiter.history_append_singleton]
          exact horder.append hops
            fun op hop => CredentialRouteRateLimiter.now_of_mem_keyOps hop

instance (event : RateEvent) : Decidable (Timely limiter key threads event) :=
  match event with
  | .reads _ => instDecidableTrue
  | .enters i => inferInstanceAs (Decidable (∀ call ∈ threads.waiting[i]?,
      ∀ earlier ∈ limiter.history key threads.entered,
        ∀ op ∈ limiter.keyOps key threads.buckets call, earlier.now ≤ op.now))

/-- A run that can be computed. -/
theorem reachable_of_foldlM {events : List RateEvent}
    (h : events.foldlM (step limiter) {} = some threads) :
    (machine limiter).Reachable Machine.anyStep threads :=
  Machine.Reachable.foldlM (fun _ _ _ hstep => ⟨trivial, hstep⟩) (.start rfl) h

/-- A step that is timely for a key. -/
def timelyStep (limiter : CredentialRouteRateLimiter) (key : RateKey) (threads : RateThreads)
    (event : RateEvent) : Option RateThreads :=
  if Timely limiter key threads event then threads.step limiter event else none

/-- A run of timely steps that can be computed. -/
theorem reachable_of_timely {events : List RateEvent}
    (h : events.foldlM (timelyStep limiter key) {} = some threads) :
    (machine limiter).Reachable (Timely limiter key) threads := by
  refine Machine.Reachable.foldlM (fun threads event threads' hstep => ?_) (.start rfl) h
  unfold timelyStep at hstep
  split at hstep
  · rename_i htimely
    exact ⟨htimely, hstep⟩
  · cases hstep

/-- The bound over threads: no time is credited twice, if no thread enters late. -/
theorem costUntil_le (hfull : limiter.FullWhenIdle)
    (h : (machine limiter).Reachable (Timely limiter key) threads) (ht : 0 ≤ t) :
    costUntil threads.admitted key t ≤ limiter.capacity + limiter.refillPerSecond * t := by
  obtain ⟨hconsistent, horder⟩ := inOrder_of_timely h
  have hadmitted : threads.admitted = (limiter.run threads.entered).2 :=
    congrArg Prod.snd hconsistent.run
  have hbound := CredentialRouteRateLimiter.admittedCost_le hfull horder ht
  rw [sub_zero, ← hadmitted] at hbound
  have hcost : costUntil threads.admitted key t =
      CredentialRouteRateLimiter.admittedCost threads.admitted key 0 t := by
    unfold costUntil CredentialRouteRateLimiter.admittedCost
    congr 2
    apply List.filter_congr
    intro call hcall
    rw [decide_eq_true (hconsistent.admitted call hcall), Bool.and_true]
  rw [hcost]
  exact hbound

/-- Ten tokens, of which one comes back in a second. -/
def sampleLimiter : CredentialRouteRateLimiter where
  capacity := 10
  refillPerSecond := 1
  maxKeys := 10
  idleTtlSeconds := 600
  capacity_pos := by norm_num
  refill_pos := by norm_num
  keys_pos := by norm_num
  idle_pos := by norm_num

theorem fullWhenIdle_sampleLimiter : sampleLimiter.FullWhenIdle := by
  change (10 : ℚ) ≤ 1 * 600
  norm_num

def sampleKey : RateKey := (lit "key", lit "/mcp")

/-- A call of one key. -/
def sampleCall (cost now : ℚ) : RateCall := ⟨lit "key", lit "/mcp", cost, now⟩

/-- Two threads that enter in the order of their readings. -/
def timelyEvents : List RateEvent :=
  [.reads (sampleCall 10 0), .reads (sampleCall 10 10), .enters 0, .enters 0]

/-- Four threads read the clock at 0, 5, 10 and 10; the second one enters as the third. -/
def lateEvents : List RateEvent :=
  [.reads (sampleCall 10 0), .reads (sampleCall 10 5), .reads (sampleCall 10 10),
    .reads (sampleCall 5 10), .enters 0, .enters 1, .enters 0, .enters 0]

theorem costUntil_timelyEvents :
    ∃ threads, timelyEvents.foldlM (timelyStep sampleLimiter sampleKey) {} = some threads ∧
      costUntil threads.admitted sampleKey 10 = 20 ∧
      costUntil threads.admitted sampleKey 10 ≤
        sampleLimiter.capacity + sampleLimiter.refillPerSecond * 10 := by
  have hcost : ((timelyEvents.foldlM (timelyStep sampleLimiter sampleKey) {}).map fun threads =>
      costUntil threads.admitted sampleKey 10) = some 20 := by
    decide +kernel
  obtain ⟨threads, hrun, hspent⟩ := Option.map_eq_some_iff.mp hcost
  exact ⟨threads, hrun, hspent,
    costUntil_le fullWhenIdle_sampleLimiter (reachable_of_timely hrun) (by norm_num)⟩

/-- A thread that enters late makes the five seconds after its reading count twice. -/
theorem not_costUntil_le : ¬ ∀ limiter : CredentialRouteRateLimiter, limiter.FullWhenIdle →
    ∀ threads, (machine limiter).Reachable Machine.anyStep threads → ∀ key t, 0 ≤ t →
      costUntil threads.admitted key t ≤ limiter.capacity + limiter.refillPerSecond * t := by
  have hcost : ((lateEvents.foldlM (step sampleLimiter) {}).map fun threads =>
      costUntil threads.admitted sampleKey 10) = some 25 := by
    decide +kernel
  obtain ⟨threads, hrun, hspent⟩ := Option.map_eq_some_iff.mp hcost
  intro hall
  have hbound := hall sampleLimiter fullWhenIdle_sampleLimiter threads (reachable_of_foldlM hrun)
    sampleKey 10 (by norm_num)
  rw [hspent] at hbound
  change (25 : ℚ) ≤ 10 + 1 * 10 at hbound
  norm_num at hbound

end RateThreads

end MediaBridge.Gateway
