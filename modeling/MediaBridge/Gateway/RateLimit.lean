import MediaBridge.Foundation.TokenBucket
import MediaBridge.Gateway.Auth

/-!
# The rate limiter

`media_bridge_gateway/rate_limit.py`: a token bucket for each selector and route. Buckets that
were not seen for a while are removed, and a call of an unknown key is refused at capacity.

## Implementation notes

Costs, rates and times are exact. A call carries the clock reading with which it enters the
locked section. What the calls do to the bucket of one key is a history of a `TokenBucket`.
-/

namespace MediaBridge.Gateway

open Foundation

/-- `CredentialRouteRateLimiter`, with the settings that its constructor accepts. -/
structure CredentialRouteRateLimiter where
  capacity : ℚ
  refillPerSecond : ℚ
  maxKeys : Nat
  idleTtlSeconds : ℚ
  capacity_pos : 1 ≤ capacity
  refill_pos : 0 < refillPerSecond
  keys_pos : 1 ≤ maxKeys
  idle_pos : 0 < idleTtlSeconds

/-- `_Bucket`. -/
structure RateBucket where
  tokens : ℚ
  updatedAt : ℚ
  lastSeenAt : ℚ

/-- A selector and a route. -/
abbrev RateKey := Str × Str

abbrev RateBuckets := Entries RateKey RateBucket

/-- A character of a route. -/
def routeChar (c : CodePoint) : Bool :=
  c.isAsciiLower || c.isAsciiDigit || c == cp 47 || c == cp 95 || c == cp 45

/-- `^/[a-z0-9/_-]{1,127}$`. -/
def routePattern : Str → Bool
  | [] => false
  | c :: rest => c == cp 47 && 1 ≤ rest.length && rest.length ≤ 127 && rest.all routeChar

/-- A call of `allow`, with its reading of the clock. -/
structure RateCall where
  selector : Str
  route : Str
  cost : ℚ := 1
  now : ℚ

/-- The key of a call. -/
def RateCall.key (call : RateCall) : RateKey := (call.selector, call.route)

namespace CredentialRouteRateLimiter

variable (limiter : CredentialRouteRateLimiter)

/-- The checks of `allow` before it reads the clock. -/
def accepts (call : RateCall) : Bool :=
  credentialSelectorPattern call.selector && routePattern call.route &&
    decide (0 < call.cost) && decide (call.cost ≤ limiter.capacity)

/-- `_purge_idle`. -/
def purgeIdle (now : ℚ) (buckets : RateBuckets) : RateBuckets :=
  buckets.filter fun e => decide (now - limiter.idleTtlSeconds < e.2.lastSeenAt)

/-- The bucket of a key that is not known. -/
def newBucket (now : ℚ) : RateBucket := ⟨limiter.capacity, now, now⟩

/-- The bucket after the time since its last update. -/
def refilled (now : ℚ) (bucket : RateBucket) : RateBucket where
  tokens := min limiter.capacity
    (bucket.tokens + max 0 (now - bucket.updatedAt) * limiter.refillPerSecond)
  updatedAt := now
  lastSeenAt := now

/-- The tokens are taken if there are enough. -/
def take (cost : ℚ) (bucket : RateBucket) : Bool × RateBucket :=
  if bucket.tokens < cost then (false, bucket)
  else (true, { bucket with tokens := bucket.tokens - cost })

/-- The locked section of `allow`. -/
def enter (call : RateCall) (buckets : RateBuckets) : Bool × RateBuckets :=
  let buckets := limiter.purgeIdle call.now buckets
  match Entries.get? buckets call.key with
  | none =>
      if limiter.maxKeys ≤ buckets.length then (false, buckets)
      else
        let taken := take call.cost (limiter.newBucket call.now)
        (taken.1, buckets ++ [(call.key, taken.2)])
  | some bucket =>
      let taken := take call.cost (limiter.refilled call.now bucket)
      (taken.1, Entries.erase buckets call.key ++ [(call.key, taken.2)])

/-- `allow`. -/
def allow (call : RateCall) (buckets : RateBuckets) : Bool × RateBuckets :=
  if limiter.accepts call then limiter.enter call buckets else (false, buckets)

/-- A call on the buckets and on the list of the calls that were admitted. -/
def record (acc : RateBuckets × List RateCall) (call : RateCall) : RateBuckets × List RateCall :=
  let result := limiter.allow call acc.1
  (result.2, if result.1 then acc.2 ++ [call] else acc.2)

/-- The buckets after some calls, and the calls that were admitted. -/
def run (calls : List RateCall) : RateBuckets × List RateCall :=
  calls.foldl limiter.record ([], [])

/-- The total cost of a key that was admitted from one time to another. -/
def admittedCost (admitted : List RateCall) (key : RateKey) (s t : ℚ) : ℚ :=
  ((admitted.filter fun call => decide (call.key = key) && decide (s ≤ call.now) &&
    decide (call.now ≤ t)).map RateCall.cost).sum

/-- The limiter's buckets as token buckets. -/
def allowance : Allowance ℚ where
  capacity := limiter.capacity
  rate := limiter.refillPerSecond
  capacity_nonneg := zero_le_one.trans limiter.capacity_pos
  rate_nonneg := limiter.refill_pos.le

/-- A bucket as a token bucket. -/
def tokenBucket (bucket : RateBucket) : TokenBucket ℚ := ⟨bucket.tokens, bucket.updatedAt⟩

/-- The token bucket of a key. -/
def view (buckets : RateBuckets) (key : RateKey) : Option (TokenBucket ℚ) :=
  (Entries.get? buckets key).map tokenBucket

/-- What a call does to the bucket of a key when it purges the idle ones. -/
def dropOps (key : RateKey) (buckets : RateBuckets) (call : RateCall) :
    List (TokenBucket.Op ℚ) :=
  if Entries.has buckets key && !Entries.has (limiter.purgeIdle call.now buckets) key then
    [.drop call.now]
  else []

/-- What a call does to the bucket of a key after that. -/
def takeOps (key : RateKey) (buckets : RateBuckets) (call : RateCall) :
    List (TokenBucket.Op ℚ) :=
  let buckets := limiter.purgeIdle call.now buckets
  if decide (call.key = key) &&
      (Entries.has buckets key || decide (buckets.length < limiter.maxKeys)) then
    [.take call.now call.cost]
  else []

/-- What a call does to the bucket of a key. -/
def keyOps (key : RateKey) (buckets : RateBuckets) (call : RateCall) :
    List (TokenBucket.Op ℚ) :=
  if limiter.accepts call then limiter.dropOps key buckets call ++ limiter.takeOps key buckets call
  else []

/-- What some calls do to the bucket of a key, beginning with some buckets. -/
def historyFrom (key : RateKey) : RateBuckets → List RateCall → List (TokenBucket.Op ℚ)
  | _, [] => []
  | buckets, call :: rest =>
      limiter.keyOps key buckets call ++ historyFrom key (limiter.allow call buckets).2 rest

/-- What some calls do to the bucket of a key. -/
def history (key : RateKey) (calls : List RateCall) : List (TokenBucket.Op ℚ) :=
  limiter.historyFrom key [] calls

/-- No key twice, and a bucket was last seen when it was updated. -/
structure WellKept (buckets : RateBuckets) : Prop where
  nodup : (Entries.keys buckets).Nodup
  seen : ∀ e ∈ buckets, e.2.lastSeenAt = e.2.updatedAt

variable {limiter} {buckets : RateBuckets} {key : RateKey} {call : RateCall}
  {calls : List RateCall}

@[simp] theorem run_nil : limiter.run [] = ([], []) := rfl

@[simp] theorem run_append_singleton :
    limiter.run (calls ++ [call]) = limiter.record (limiter.run calls) call := by
  rw [run, List.foldl_append]
  rfl

@[simp] theorem history_nil : limiter.history key [] = [] := rfl

theorem historyFrom_append_singleton (acc : RateBuckets × List RateCall) :
    limiter.historyFrom key acc.1 (calls ++ [call]) = limiter.historyFrom key acc.1 calls ++
      limiter.keyOps key (calls.foldl limiter.record acc).1 call := by
  induction calls generalizing acc with
  | nil =>
      rw [List.nil_append, historyFrom, historyFrom, historyFrom, List.append_nil]
      rfl
  | cons first rest ih =>
      rw [List.cons_append, historyFrom, historyFrom, List.append_assoc, List.foldl_cons]
      exact congrArg _ (ih (limiter.record acc first))

@[simp] theorem history_append_singleton : limiter.history key (calls ++ [call]) =
    limiter.history key calls ++ limiter.keyOps key (limiter.run calls).1 call :=
  historyFrom_append_singleton ([], [])

/-- A call reads the clock once. -/
theorem now_of_mem_keyOps {op : TokenBucket.Op ℚ} (h : op ∈ limiter.keyOps key buckets call) :
    op.now = call.now := by
  unfold keyOps dropOps takeOps at h
  split at h
  · rcases List.mem_append.mp h with h | h
    · split at h
      · rw [List.mem_singleton.mp h]
        rfl
      · cases h
    · simp only at h
      split at h
      · rw [List.mem_singleton.mp h]
        rfl
      · cases h
  · cases h

variable (limiter) in
/-- Purging keeps the buckets well kept. -/
theorem WellKept.purge (h : WellKept buckets) (now : ℚ) :
    WellKept (limiter.purgeIdle now buckets) where
  nodup := h.nodup.sublist (Entries.keys_sublist List.filter_sublist)
  seen := fun e he => h.seen e (List.mem_of_mem_filter he)

/-- Purging keeps the bucket of a key if it was seen since. -/
theorem get?_purgeIdle (h : WellKept buckets) (now : ℚ) :
    Entries.get? (limiter.purgeIdle now buckets) key =
      (Entries.get? buckets key).filter
        fun bucket => decide (now - limiter.idleTtlSeconds < bucket.lastSeenAt) := by
  apply Option.ext
  intro bucket
  rw [Entries.get?_eq_some_iff (h.purge limiter now).nodup, Option.filter_eq_some_iff,
    Entries.get?_eq_some_iff h.nodup]
  exact List.mem_filter

/-- The first part of a call: the bucket of a key is dropped, or stays. -/
theorem apply_dropOps (h : WellKept buckets) (admitted : List (ℚ × ℚ)) :
    (limiter.dropOps key buckets call).foldl (TokenBucket.apply limiter.allowance)
        (view buckets key, admitted) =
      (view (limiter.purgeIdle call.now buckets) key, admitted) := by
  unfold dropOps Entries.has view
  rw [get?_purgeIdle h]
  cases Entries.get? buckets key with
  | none => rfl
  | some bucket =>
      rw [Option.filter_some]
      cases decide (call.now - limiter.idleTtlSeconds < bucket.lastSeenAt) with
      | true => rfl
      | false => rfl

variable (limiter) in
/-- Taking from a bucket that has just been refilled or made. -/
theorem apply_take (bucket : RateBucket) (b : Option (TokenBucket ℚ)) (now cost : ℚ)
    (hlevel : bucket.tokens = TokenBucket.level limiter.allowance now b)
    (hnow : bucket.updatedAt = now) (admitted : List (ℚ × ℚ)) :
    TokenBucket.apply limiter.allowance (b, admitted) (.take now cost) =
      (some (tokenBucket (take cost bucket).2),
        admitted ++ if (take cost bucket).1 = true then [(now, cost)] else []) := by
  unfold TokenBucket.apply take tokenBucket
  simp only [← hlevel]
  by_cases hcost : bucket.tokens < cost
  · rw [if_pos hcost, if_pos hcost, hnow, if_neg Bool.false_ne_true, List.append_nil]
  · rw [if_neg hcost, if_neg hcost, hnow, if_pos rfl]

theorem view_append {bucket : RateBucket} (h : key ∉ Entries.keys buckets) :
    view (buckets ++ [(key, bucket)]) key = some (tokenBucket bucket) := by
  rw [view, Entries.get?_append, Entries.get?_eq_none_iff.mpr h, Option.none_or,
    Entries.get?_cons_self, Option.map_some]

theorem view_append_of_ne {bucket : RateBucket} {other : RateKey} (h : other ≠ key) :
    view (buckets ++ [(other, bucket)]) key = view buckets key := by
  rw [view, Entries.get?_append, Entries.get?_cons, if_neg h, Entries.get?_nil, Option.or_none]
  rfl

/-- The second part of a call: its own bucket, and no other, is refilled and taken from. -/
theorem apply_takeOps (admitted : List (ℚ × ℚ)) :
    (limiter.takeOps key buckets call).foldl (TokenBucket.apply limiter.allowance)
        (view (limiter.purgeIdle call.now buckets) key, admitted) =
      (view (limiter.enter call buckets).2 key, admitted ++
        if (limiter.enter call buckets).1 = true ∧ call.key = key then [(call.now, call.cost)]
        else []) := by
  unfold takeOps enter Entries.has
  generalize limiter.purgeIdle call.now buckets = purged
  simp only
  by_cases hkey : call.key = key
  · subst hkey
    cases hget : Entries.get? purged call.key with
    | none =>
        simp only
        by_cases hroom : limiter.maxKeys ≤ purged.length
        · rw [if_neg (by simpa using hroom), if_pos hroom, if_neg (by simp), List.append_nil]
          rfl
        · have hnew := apply_take limiter (limiter.newBucket call.now) none call.now
            call.cost rfl rfl admitted
          rw [if_pos (by simpa using hroom), if_neg hroom, view, hget,
            view_append (Entries.get?_eq_none_iff.mp hget)]
          simpa using hnew
    | some bucket =>
        have hheld := apply_take limiter (limiter.refilled call.now bucket)
          (some (tokenBucket bucket)) call.now call.cost rfl rfl admitted
        rw [if_pos (by simp), view, hget,
          view_append (Entries.get?_eq_none_iff.mp (Entries.get?_erase_self purged call.key))]
        simpa using hheld
  · have hother (ok : Bool) : ¬ (ok = true ∧ call.key = key) := fun h => hkey h.2
    rw [decide_eq_false hkey, Bool.false_and, if_neg Bool.false_ne_true, if_neg (hother _),
      List.append_nil]
    cases Entries.get? purged call.key with
    | none =>
        simp only
        split
        · rfl
        · rw [view_append_of_ne hkey]
          rfl
    | some bucket =>
        simp only
        rw [view_append_of_ne hkey, view, view, Entries.get?_erase_of_ne _ (Ne.symm hkey)]
        rfl

/-- A call is, to the bucket of a key, what `keyOps` says. -/
theorem apply_keyOps (h : WellKept buckets) (admitted : List (ℚ × ℚ)) :
    (limiter.keyOps key buckets call).foldl (TokenBucket.apply limiter.allowance)
        (view buckets key, admitted) =
      (view (limiter.allow call buckets).2 key, admitted ++
        if (limiter.allow call buckets).1 = true ∧ call.key = key then [(call.now, call.cost)]
        else []) := by
  unfold keyOps allow
  cases limiter.accepts call with
  | false => rw [if_neg Bool.false_ne_true, if_neg Bool.false_ne_true, if_neg (by simp),
      List.append_nil, List.foldl_nil]
  | true =>
      rw [if_pos rfl, if_pos rfl, List.foldl_append, apply_dropOps h, apply_takeOps]

theorem wellKept_nil : WellKept [] := ⟨List.nodup_nil, nofun⟩

/-- A bucket after its tokens are taken. -/
theorem updatedAt_take (cost : ℚ) (bucket : RateBucket) :
    (take cost bucket).2.updatedAt = bucket.updatedAt ∧
      (take cost bucket).2.lastSeenAt = bucket.lastSeenAt := by
  unfold take
  split
  · exact ⟨rfl, rfl⟩
  · exact ⟨rfl, rfl⟩

/-- A call keeps the buckets well kept. -/
theorem WellKept.allow (h : WellKept buckets) (call : RateCall) :
    WellKept (limiter.allow call buckets).2 := by
  unfold CredentialRouteRateLimiter.allow enter
  split
  · have hpurge := h.purge limiter call.now
    revert hpurge
    generalize limiter.purgeIdle call.now buckets = purged
    intro hpurge
    have hseen (bucket : RateBucket) (hbucket : bucket.lastSeenAt = bucket.updatedAt) :
        (take call.cost bucket).2.lastSeenAt = (take call.cost bucket).2.updatedAt := by
      rw [(updatedAt_take call.cost bucket).1, (updatedAt_take call.cost bucket).2, hbucket]
    simp only
    split
    · rename_i hget
      split
      · exact hpurge
      · constructor
        · rw [Entries.keys_append]
          exact List.Nodup.append hpurge.nodup (List.nodup_singleton _)
            (List.disjoint_singleton.mpr (Entries.get?_eq_none_iff.mp hget))
        · rw [List.forall_mem_append, List.forall_mem_singleton]
          exact ⟨hpurge.seen, hseen _ rfl⟩
    · constructor
      · exact Entries.nodup_erase_append hpurge.nodup _ _
      · rw [List.forall_mem_append, List.forall_mem_singleton]
        exact ⟨fun e he => hpurge.seen e (Entries.mem_erase.mp he).1, hseen _ rfl⟩
  · exact h

theorem wellKept_run (calls : List RateCall) : WellKept (limiter.run calls).1 := by
  induction calls using List.reverseRecOn with
  | nil => exact wellKept_nil
  | append_singleton calls call ih =>
      rw [run_append_singleton]
      exact ih.allow call

/-- What was admitted of a key. -/
def admittedOf (admitted : List RateCall) (key : RateKey) : List (ℚ × ℚ) :=
  (admitted.filter fun call => decide (call.key = key)).map fun call => (call.now, call.cost)

theorem admittedCost_eq (admitted : List RateCall) (s t : ℚ) :
    admittedCost admitted key s t = TokenBucket.spent (admittedOf admitted key) s t := by
  unfold admittedCost TokenBucket.spent admittedOf
  rw [List.filter_map, List.map_map, List.filter_filter]
  congr 2
  apply List.filter_congr
  intro call _
  simp only [Function.comp_apply]
  ac_rfl

/-- The bucket of a key, and what was admitted of it, are those of its history. -/
theorem run_history (calls : List RateCall) :
    TokenBucket.run limiter.allowance (limiter.history key calls) =
      (view (limiter.run calls).1 key, admittedOf (limiter.run calls).2 key) := by
  induction calls using List.reverseRecOn with
  | nil => rfl
  | append_singleton calls call ih =>
      rw [history_append_singleton, TokenBucket.run, List.foldl_append]
      change List.foldl _ (TokenBucket.run limiter.allowance (limiter.history key calls)) _ = _
      rw [ih, apply_keyOps (wellKept_run calls), run_append_singleton, record]
      congr 1
      unfold admittedOf
      cases (limiter.allow call (limiter.run calls).1).1 with
      | false => rw [if_neg (by simp), if_neg Bool.false_ne_true, List.append_nil]
      | true =>
          rw [if_pos rfl, List.filter_append, List.map_append]
          congr 1
          by_cases hkey : call.key = key
          · rw [if_pos ⟨rfl, hkey⟩, List.filter_cons_of_pos (by simpa using hkey)]
            rfl
          · rw [if_neg (fun h => hkey h.2), List.filter_cons_of_neg (by simpa using hkey)]
            rfl

end CredentialRouteRateLimiter

end MediaBridge.Gateway
