import MediaBridge.Foundation.Dict
import Mathlib.Data.Finset.Card
import Mathlib.Order.Basic

/-!
# Bounded maps whose entries expire

A map that keeps a limited number of entries for a limited time: expired entries are purged
before each operation, a key that is put moves to the end, and the oldest entries are evicted.

## Implementation notes

The history of a map is a list of operations. `latest` is the map without limits: each key
that was put since the last clearing, in the order of the last puts. What a bounded map still
shows at a time is the newest part of it.
-/

namespace MediaBridge.Foundation.Expiring

variable {κ ν τ : Type*}

/-- The last `n` items. -/
def lastN {α : Type*} (n : Nat) (l : List α) : List α := l.drop (l.length - n)

section LastN

variable {α : Type*} {n : Nat}

theorem lastN_nil : lastN n ([] : List α) = [] := List.drop_nil

theorem length_lastN (l : List α) : (lastN n l).length = min n l.length := by
  rw [lastN, List.length_drop]
  omega

theorem lastN_suffix (l : List α) : lastN n l <:+ l := List.drop_suffix _ _

theorem lastN_of_length_le {l : List α} (h : l.length ≤ n) : lastN n l = l := by
  rw [lastN, Nat.sub_eq_zero_of_le h, List.drop_zero]

/-- Enough items at the end hide those before. -/
theorem lastN_append_of_le {a b : List α} (h : n ≤ b.length) :
    lastN n (a ++ b) = lastN n b := by
  rw [lastN, lastN, List.length_append, List.drop_append,
    List.drop_eq_nil_of_le (by omega), List.nil_append]
  congr 1
  omega

/-- Too few items at the end leave all of them. -/
theorem exists_lastN_append {a b : List α} (h : b.length ≤ n) :
    ∃ a', a' <:+ a ∧ lastN n (a ++ b) = a' ++ b := by
  refine ⟨lastN (n - b.length) a, lastN_suffix a, ?_⟩
  rw [lastN, lastN, List.length_append, List.drop_append]
  have hzero : a.length + b.length - n - a.length = 0 := by omega
  rw [hzero, List.drop_zero]
  congr 2
  omega

/-- An item stays exactly when fewer than `n` items follow it. -/
theorem mem_lastN_iff {a b : List α} {x : α} (hx : x ∉ b) :
    x ∈ lastN n (a ++ x :: b) ↔ b.length < n := by
  constructor
  · intro hmem
    by_contra hle
    rw [List.append_cons, lastN_append_of_le (by omega)] at hmem
    exact hx ((lastN_suffix b).subset hmem)
  · intro hlt
    obtain ⟨a', -, heq⟩ := exists_lastN_append (a := a) (b := x :: b) (n := n) hlt
    rw [heq]
    simp

end LastN

section Purge

variable [LinearOrder τ] (expiry : ν → τ)

/-- What is left when the expired entries are removed. -/
def purge (now : τ) (d : Entries κ ν) : Entries κ ν :=
  d.filter fun e => decide (now < expiry e.2)

/-- The entries in the order in which they expire. -/
def Aging (d : Entries κ ν) : Prop :=
  d.Pairwise fun e e' => expiry e.2 ≤ expiry e'.2

variable {expiry} {capacity : Nat} {d : Entries κ ν} {t now : τ}

theorem mem_purge {e : κ × ν} : e ∈ purge expiry now d ↔ e ∈ d ∧ now < expiry e.2 := by
  rw [purge, List.mem_filter, decide_eq_true_iff]

theorem purge_sublist : (purge expiry now d).Sublist d := List.filter_sublist

/-- A later purge removes what an earlier one would have removed. -/
theorem purge_purge (h : t ≤ now) : purge expiry now (purge expiry t d) = purge expiry now d := by
  rw [purge, purge, List.filter_filter]
  apply List.filter_congr
  intro e _
  rw [← Bool.decide_and, decide_eq_decide]
  exact ⟨And.left, fun hlive => ⟨hlive, lt_of_le_of_lt h hlive⟩⟩

/-- What has expired comes before what has not. -/
theorem Aging.split (h : Aging expiry d) (now : τ) :
    ∃ a, d = a ++ purge expiry now d ∧ purge expiry now a = [] := by
  induction d with
  | nil => exact ⟨[], rfl, rfl⟩
  | cons e rest ih =>
      obtain ⟨hfirst, hrest⟩ := List.pairwise_cons.mp h
      by_cases hlive : now < expiry e.2
      · refine ⟨[], ?_, rfl⟩
        have hall : purge expiry now (e :: rest) = e :: rest := by
          rw [purge, List.filter_eq_self]
          intro e' he'
          rw [decide_eq_true_iff]
          rcases List.mem_cons.mp he' with rfl | he'
          · exact hlive
          · exact lt_of_lt_of_le hlive (hfirst e' he')
        rw [hall, List.nil_append]
      · obtain ⟨a, ha, hnone⟩ := ih hrest
        refine ⟨e :: a, ?_, ?_⟩
        · rw [purge, List.filter_cons_of_neg (by simpa using hlive)]
          change e :: rest = e :: (a ++ purge expiry now rest)
          rw [← ha]
        · rw [purge, List.filter_cons_of_neg (by simpa using hlive)]
          exact hnone

/-- Purging and evicting commute. -/
theorem purge_lastN (h : Aging expiry d) :
    purge expiry now (lastN capacity d) = lastN capacity (purge expiry now d) := by
  obtain ⟨a, ha, hnone⟩ := h.split now
  have hidem : purge expiry now (purge expiry now d) = purge expiry now d := purge_purge le_rfl
  rcases Nat.lt_or_ge capacity (purge expiry now d).length with hlong | hshort
  · conv_lhs => rw [ha]
    rw [lastN_append_of_le hlong.le, purge, List.filter_eq_self]
    intro e he
    rw [decide_eq_true_iff]
    exact (mem_purge.mp ((lastN_suffix _).subset he)).2
  · obtain ⟨a', ha', heq⟩ := exists_lastN_append (a := a) hshort
    have hempty : purge expiry now a' = [] := by
      have hsub := (ha'.sublist.filter fun e => decide (now < expiry e.2))
      change (purge expiry now a').Sublist (purge expiry now a) at hsub
      rw [hnone] at hsub
      exact List.sublist_nil.mp hsub
    conv_lhs => rw [ha]
    rw [heq, purge, List.filter_append]
    change purge expiry now a' ++ purge expiry now (purge expiry now d) = _
    rw [hempty, hidem, List.nil_append, lastN_of_length_le hshort]

end Purge

section Renew

variable [DecidableEq κ] {capacity : Nat} {d : Entries κ ν}

/-- The key moves to the end with its new value. -/
def renew (d : Entries κ ν) (k : κ) (v : ν) : Entries κ ν := Entries.erase d k ++ [(k, v)]

/-- Only one entry can have a key. -/
theorem length_le_erase (hd : (Entries.keys d).Nodup) (k : κ) :
    d.length ≤ (Entries.erase d k).length + 1 := by
  induction d with
  | nil => exact Nat.zero_le _
  | cons e rest ih =>
      obtain ⟨hnot, hrest⟩ := List.nodup_cons.mp hd
      by_cases hk : e.1 = k
      · have hsame : Entries.erase rest k = rest := by
          rw [Entries.erase, List.filter_eq_self]
          intro e' he'
          have hne : e'.1 ≠ k := by
            intro heq
            apply hnot
            rw [hk, ← heq]
            exact List.mem_map_of_mem he'
          simpa using hne
        rw [Entries.erase, List.filter_cons_of_neg (by simpa using hk)]
        change (e :: rest).length ≤ (Entries.erase rest k).length + 1
        rw [hsame, List.length_cons]
      · rw [Entries.erase, List.filter_cons_of_pos (by simpa using hk), List.length_cons,
          List.length_cons]
        exact Nat.succ_le_succ (ih hrest)

/-- What was evicted before does not matter to the next eviction. -/
theorem lastN_renew (hd : (Entries.keys d).Nodup) (k : κ) (v : ν) :
    lastN capacity (renew (lastN capacity d) k v) = lastN capacity (renew d k v) := by
  obtain ⟨a, ha⟩ := lastN_suffix (n := capacity) d
  rcases Nat.lt_or_ge capacity d.length with hlong | hshort
  · have hnodup : (Entries.keys (lastN capacity d)).Nodup :=
      hd.sublist (Entries.keys_sublist (lastN_suffix d).sublist)
    have hlength := length_le_erase hnodup k
    rw [length_lastN, Nat.min_eq_left hlong.le] at hlength
    conv_rhs => rw [← ha]
    have hsplit : renew (a ++ lastN capacity d) k v =
        Entries.erase a k ++ renew (lastN capacity d) k v := by
      rw [renew, renew, Entries.erase, Entries.erase, Entries.erase, List.filter_append,
        List.append_assoc]
    rw [hsplit, lastN_append_of_le]
    rw [renew, List.length_append, List.length_singleton]
    exact hlength
  · rw [lastN_of_length_le hshort]

end Renew

/-- What is done to a map, at the time that the clock shows. -/
inductive Op (κ ν τ : Type*)
  | put (now : τ) (k : κ) (v : ν)
  | look (now : τ)
  | clear

namespace Op

/-- The reading of the clock. -/
def reading? : Op κ ν τ → Option τ
  | .put now _ _ => some now
  | .look now => some now
  | .clear => none

/-- The key that is put. -/
def key? : Op κ ν τ → Option κ
  | .put _ k _ => some k
  | .look _ => none
  | .clear => none

/-- The operation leaves what was put under a key. -/
def Keeps (k : κ) (op : Op κ ν τ) : Prop := op ≠ .clear ∧ op.key? ≠ some k

end Op

section Latest

variable [DecidableEq κ]

/-- The unlimited map after an operation. -/
def remember (d : Entries κ ν) : Op κ ν τ → Entries κ ν
  | .put _ k v => renew d k v
  | .look _ => d
  | .clear => []

/-- The unlimited map after a history. -/
def latest (ops : List (Op κ ν τ)) : Entries κ ν := ops.foldl remember []

/-- The keys that are put in a history. -/
def putKeys (ops : List (Op κ ν τ)) : Finset κ := (ops.filterMap Op.key?).toFinset

variable {d : Entries κ ν} {ops : List (Op κ ν τ)} {op : Op κ ν τ}

@[simp] theorem latest_append_singleton : latest (ops ++ [op]) = remember (latest ops) op := by
  rw [latest, List.foldl_append]
  rfl

theorem nodup_remember (hd : (Entries.keys d).Nodup) : (Entries.keys (remember d op)).Nodup := by
  cases op with
  | put t k v => exact Entries.nodup_erase_append hd k v
  | look t => exact hd
  | clear => exact List.nodup_nil

theorem nodup_latest (ops : List (Op κ ν τ)) : (Entries.keys (latest ops)).Nodup := by
  induction ops using List.reverseRecOn with
  | nil => exact List.nodup_nil
  | append_singleton ops op ih =>
      rw [latest_append_singleton]
      exact nodup_remember ih

/-- The last put of a key, and what came after it. -/
structure LastPut (ops : List (Op κ ν τ)) (k : κ) (v : ν) (before : List (Op κ ν τ)) (t : τ)
    (after : List (Op κ ν τ)) : Prop where
  split : ops = before ++ .put t k v :: after
  kept : ∀ op ∈ after, op.Keeps k

variable {k : κ} {v : ν}

theorem putKeys_append (ops more : List (Op κ ν τ)) :
    putKeys (ops ++ more) = putKeys ops ∪ putKeys more := by
  rw [putKeys, List.filterMap_append, List.toFinset_append, putKeys, putKeys]

/-- The keys in front of and behind the last put of a key. -/
theorem LastPut.split_latest {before after : List (Op κ ν τ)} {t : τ}
    (h : LastPut ops k v before t after) :
    ∃ a b, latest ops = a ++ (k, v) :: b ∧ (Entries.keys b).toFinset = putKeys after := by
  obtain ⟨rfl, hkept⟩ := h
  induction after using List.reverseRecOn with
  | nil =>
      rw [latest_append_singleton]
      exact ⟨Entries.erase (latest before) k, [], rfl, rfl⟩
  | append_singleton after op ih =>
      obtain ⟨a, b, hlatest, hkeys⟩ := ih fun op' hop => hkept op' (List.mem_append_left _ hop)
      obtain ⟨hclear, hkey⟩ := hkept op (List.mem_append_right _ (List.mem_singleton_self op))
      rw [← List.cons_append, ← List.append_assoc, latest_append_singleton, hlatest]
      cases op with
      | clear => exact absurd rfl hclear
      | look t' =>
          refine ⟨a, b, rfl, ?_⟩
          rw [hkeys, putKeys_append]
          exact (Finset.union_empty _).symm
      | put t' k' v' =>
          have hne : k ≠ k' := by
            rintro rfl
            exact hkey rfl
          refine ⟨Entries.erase a k', renew b k' v', ?_, ?_⟩
          · rw [remember, renew, Entries.erase, List.filter_append,
              List.filter_cons_of_pos (by simpa using hne), List.append_assoc, List.cons_append]
            rfl
          · ext j
            rw [putKeys_append, ← hkeys, renew, Entries.keys_append, List.toFinset_append,
              Finset.mem_union, Finset.mem_union]
            have hnew : j ∈ putKeys [Op.put t' k' v'] ↔ j = k' := by
              simp [putKeys, Op.key?]
            have hlast : j ∈ (Entries.keys [(k', v')]).toFinset ↔ j = k' := by
              simp [Entries.keys]
            rw [hnew, hlast, List.mem_toFinset, List.mem_toFinset]
            by_cases hj : j = k'
            · exact iff_of_true (.inr hj) (.inr hj)
            · have hsame : j ∈ Entries.keys (Entries.erase b k') ↔ j ∈ Entries.keys b := by
                rw [← not_iff_not, ← Entries.get?_eq_none_iff, ← Entries.get?_eq_none_iff,
                  Entries.get?_erase_of_ne b hj]
              rw [hsame]

/-- What is remembered was put, and has been kept since. -/
theorem exists_lastPut (h : (k, v) ∈ latest ops) : ∃ before t after,
    LastPut ops k v before t after := by
  induction ops using List.reverseRecOn with
  | nil => cases h
  | append_singleton ops op ih =>
      have hold (hmem : (k, v) ∈ latest ops) (hkeeps : op.Keeps k) : ∃ before t after,
          LastPut (ops ++ [op]) k v before t after := by
        obtain ⟨before, t, after, rfl, hkept⟩ := ih hmem
        refine ⟨before, t, after ++ [op], by simp, ?_⟩
        rw [List.forall_mem_append, List.forall_mem_singleton]
        exact ⟨hkept, hkeeps⟩
      rw [latest_append_singleton] at h
      cases op with
      | clear => cases h
      | look t => exact hold h ⟨nofun, nofun⟩
      | put t k' v' =>
          rcases List.mem_append.mp h with hmem | hnew
          · obtain ⟨hmem, hne⟩ := Entries.mem_erase.mp hmem
            refine hold hmem ⟨nofun, ?_⟩
            rintro ⟨⟩
            exact hne rfl
          · cases List.mem_singleton.mp hnew
            exact ⟨ops, t, [], rfl, nofun⟩

end Latest

section Clock

variable {ops : List (Op κ ν τ)} {op : Op κ ν τ}

theorem reading?_append_singleton :
    (ops ++ [op]).filterMap Op.reading? = ops.filterMap Op.reading? ++ op.reading?.toList := by
  rw [List.filterMap_append]
  cases hreading : op.reading? with
  | none => rw [List.filterMap_cons_none hreading]; rfl
  | some t => rw [List.filterMap_cons_some hreading]; rfl

variable [LinearOrder τ]

/-- The clock never goes back, and `now` is its last reading. -/
structure InOrder (ops : List (Op κ ν τ)) (now : τ) : Prop where
  ordered : (ops.filterMap Op.reading?).Pairwise (· ≤ ·)
  past : ∀ t ∈ ops.filterMap Op.reading?, t ≤ now

/-- What is put at a time lives for a while, and longer the later it is put. -/
structure Lives (expiry : ν → τ) (lifetime : τ → τ) (ops : List (Op κ ν τ)) : Prop where
  mono : Monotone lifetime
  later : ∀ t, t < lifetime t
  expires : ∀ t k v, .put t k v ∈ ops → expiry v = lifetime t

variable {expiry : ν → τ} {lifetime : τ → τ} {k : κ} {v : ν} {t now : τ}

/-- The operations before the last one, up to its reading. -/
theorem InOrder.init (h : InOrder (ops ++ [op]) now) (hreading : op.reading? = some t) :
    InOrder ops t ∧ t ≤ now := by
  have hordered := h.ordered
  have hpast := h.past
  rw [reading?_append_singleton, hreading] at hordered hpast
  obtain ⟨hbefore, -, hlast⟩ := List.pairwise_append.mp hordered
  exact ⟨⟨hbefore, fun t' ht' => hlast t' ht' t List.mem_cons_self⟩,
    hpast t (List.mem_append_right _ List.mem_cons_self)⟩

theorem InOrder.mono (h : InOrder ops t) (hle : t ≤ now) : InOrder ops now :=
  ⟨h.ordered, fun t' ht' => (h.past t' ht').trans hle⟩

theorem InOrder.of_append (h : InOrder (ops ++ [op]) now) : InOrder ops now := by
  have hordered := h.ordered
  have hpast := h.past
  rw [reading?_append_singleton] at hordered hpast
  exact ⟨(List.pairwise_append.mp hordered).1, fun t ht => hpast t (List.mem_append_left _ ht)⟩

theorem Lives.of_append (h : Lives expiry lifetime (ops ++ [op])) : Lives expiry lifetime ops :=
  ⟨h.mono, h.later, fun t k v hmem => h.expires t k v (List.mem_append_left _ hmem)⟩

theorem Lives.last (h : Lives expiry lifetime (ops ++ [.put t k v])) : expiry v = lifetime t :=
  h.expires t k v (List.mem_append_right _ (List.mem_singleton_self _))

end Clock

section Run

variable [DecidableEq κ] [LinearOrder τ] (expiry : ν → τ)

/-- The map after an operation. -/
def apply (capacity : Nat) (d : Entries κ ν) : Op κ ν τ → Entries κ ν
  | .put now k v => lastN capacity (renew (purge expiry now d) k v)
  | .look now => purge expiry now d
  | .clear => []

/-- The map after a history. -/
def run (capacity : Nat) (ops : List (Op κ ν τ)) : Entries κ ν :=
  ops.foldl (apply expiry capacity) []

variable {expiry} {capacity : Nat} {d : Entries κ ν} {ops : List (Op κ ν τ)} {op : Op κ ν τ}
  {k : κ} {v : ν} {t now : τ}

@[simp] theorem run_append_singleton :
    run expiry capacity (ops ++ [op]) = apply expiry capacity (run expiry capacity ops) op := by
  rw [run, List.foldl_append]
  rfl

/-- What is put and has not expired is kept by a purge. -/
theorem purge_renew (h : now < expiry v) :
    purge expiry now (renew d k v) = renew (purge expiry now d) k v := by
  rw [renew, renew, purge, List.filter_append, List.filter_singleton, decide_eq_true h]
  congr 1
  rw [Entries.erase, Entries.erase, purge, List.filter_filter, List.filter_filter]
  simp only [Bool.and_comm]

variable {lifetime : τ → τ}

/-- Everything in a map was put there. -/
theorem exists_put_of_mem_run {e : κ × ν} (h : e ∈ run expiry capacity ops) :
    ∃ t, .put t e.1 e.2 ∈ ops := by
  induction ops using List.reverseRecOn with
  | nil => cases h
  | append_singleton ops op ih =>
      have hold (hmem : e ∈ run expiry capacity ops) : ∃ t, .put t e.1 e.2 ∈ ops ++ [op] := by
        obtain ⟨t, ht⟩ := ih hmem
        exact ⟨t, List.mem_append_left _ ht⟩
      rw [run_append_singleton] at h
      cases op with
      | clear => cases h
      | look t => exact hold (mem_purge.mp h).1
      | put t k v =>
          rcases List.mem_append.mp ((lastN_suffix _).subset h) with hmem | hnew
          · exact hold (mem_purge.mp (Entries.mem_erase.mp hmem).1).1
          · rw [List.mem_singleton.mp hnew]
            exact ⟨t, List.mem_append_right _ (List.mem_singleton_self _)⟩

/-- What is remembered is in the order of its expiry, and nothing lives longer than what would
be put now. -/
theorem aging_latest (hlives : Lives expiry lifetime ops) (horder : InOrder ops now) :
    Aging expiry (latest ops) ∧ ∀ e ∈ latest ops, expiry e.2 ≤ lifetime now := by
  induction ops using List.reverseRecOn generalizing now with
  | nil => exact ⟨.nil, nofun⟩
  | append_singleton ops op ih =>
      rw [latest_append_singleton]
      cases op with
      | clear => exact ⟨.nil, nofun⟩
      | look t => exact ih hlives.of_append horder.of_append
      | put t k v =>
          obtain ⟨hbefore, hle⟩ := horder.init rfl
          obtain ⟨hold, hbound⟩ := ih hlives.of_append hbefore
          have herase : ∀ e ∈ Entries.erase (latest ops) k, expiry e.2 ≤ expiry v := by
            intro e he
            rw [hlives.last]
            exact hbound e (Entries.mem_erase.mp he).1
          constructor
          · refine List.pairwise_append.mpr ⟨hold.sublist List.filter_sublist,
              List.pairwise_singleton _ _, ?_⟩
            rintro e he e' he'
            rw [List.mem_singleton.mp he']
            exact herase e he
          · rw [remember, renew, List.forall_mem_append, List.forall_mem_singleton]
            refine ⟨fun e he => (herase e he).trans ?_, ?_⟩
            · rw [hlives.last]
              exact hlives.mono hle
            · rw [hlives.last]
              exact hlives.mono hle

variable (capacity) in
/-- The bounded map shows the newest part of what is remembered. -/
theorem purge_run (hlives : Lives expiry lifetime ops) (horder : InOrder ops now) :
    purge expiry now (run expiry capacity ops) =
      lastN capacity (purge expiry now (latest ops)) := by
  induction ops using List.reverseRecOn generalizing now with
  | nil => exact lastN_nil.symm
  | append_singleton ops op ih =>
      rw [run_append_singleton, latest_append_singleton]
      cases op with
      | clear => exact lastN_nil.symm
      | look t =>
          obtain ⟨-, hle⟩ := horder.init rfl
          rw [apply, purge_purge hle]
          exact ih hlives.of_append horder.of_append
      | put t k v =>
          obtain ⟨hbefore, hle⟩ := horder.init rfl
          have hlive : t < expiry v := by
            rw [hlives.last]
            exact hlives.later t
          have haging := (aging_latest hlives horder).1
          rw [latest_append_singleton, remember] at haging
          have hnodup : (Entries.keys (purge expiry t (latest ops))).Nodup :=
            (nodup_latest ops).sublist (Entries.keys_sublist purge_sublist)
          have hpurged : Aging expiry (purge expiry t (renew (latest ops) k v)) :=
            haging.sublist purge_sublist
          calc
            purge expiry now (apply expiry capacity (run expiry capacity ops) (.put t k v)) =
                purge expiry now (lastN capacity (renew (lastN capacity
                  (purge expiry t (latest ops))) k v)) := by
              rw [apply, ih hlives.of_append hbefore]
            _ = purge expiry now (lastN capacity (renew (purge expiry t (latest ops)) k v)) := by
              rw [lastN_renew hnodup]
            _ = purge expiry now (lastN capacity (purge expiry t (renew (latest ops) k v))) := by
              rw [purge_renew hlive]
            _ = lastN capacity (purge expiry now (remember (latest ops) (.put t k v))) := by
              rw [purge_lastN hpurged, purge_purge hle]
              rfl

/-- What is remembered and lives, around the last put of a key. -/
theorem LastPut.split_purge (hlives : Lives expiry lifetime ops) (horder : InOrder ops now)
    {before after : List (Op κ ν τ)} (h : LastPut ops k v before t after)
    (hlive : now < expiry v) :
    ∃ a b, purge expiry now (latest ops) = a ++ (k, v) :: b ∧ (k, v) ∉ b ∧
      b.length = (putKeys after).card ∧ ∀ e ∈ b, e.1 ∈ putKeys after := by
  obtain ⟨a, b, hlatest, hkeys⟩ := h.split_latest
  have haging := (aging_latest hlives horder).1
  have hnodup := nodup_latest ops
  rw [hlatest] at haging hnodup
  have hafter := (List.pairwise_cons.mp (List.pairwise_append.mp haging).2.1).1
  have hlater : purge expiry now ((k, v) :: b) = (k, v) :: b := by
    rw [purge, List.filter_eq_self, List.forall_mem_cons]
    refine ⟨decide_eq_true hlive, fun e he => decide_eq_true ?_⟩
    exact lt_of_lt_of_le hlive (hafter e he)
  rw [Entries.keys_append] at hnodup
  obtain ⟨hnot, hnodup⟩ := List.nodup_cons.mp (List.nodup_append.mp hnodup).2.1
  refine ⟨purge expiry now a, b, ?_, fun hmem => hnot (List.mem_map_of_mem hmem), ?_, ?_⟩
  · conv_rhs => rw [← hlater]
    rw [hlatest, purge, List.filter_append]
    rfl
  · rw [← hkeys, Entries.keys, List.toFinset_card_of_nodup hnodup, List.length_map]
  · intro e he
    rw [← hkeys, List.mem_toFinset]
    exact List.mem_map_of_mem he

/-- A bounded map shows a key exactly while its last put lives and fewer than `capacity` other
keys were put after it. -/
theorem get?_purge_run_iff (hlives : Lives expiry lifetime ops) (horder : InOrder ops now) :
    Entries.get? (purge expiry now (run expiry capacity ops)) k = some v ↔
      ∃ before t after, LastPut ops k v before t after ∧ now < expiry v ∧
        (putKeys after).card < capacity := by
  have hnodup : (Entries.keys (lastN capacity (purge expiry now (latest ops)))).Nodup :=
    (nodup_latest ops).sublist
      (Entries.keys_sublist ((lastN_suffix _).sublist.trans purge_sublist))
  rw [purge_run capacity hlives horder, Entries.get?_eq_some_iff hnodup]
  constructor
  · intro hmem
    obtain ⟨hlatest, hlive⟩ := mem_purge.mp ((lastN_suffix _).subset hmem)
    obtain ⟨before, t, after, hlast⟩ := exists_lastPut hlatest
    obtain ⟨a, b, hsplit, hnot, hlength, -⟩ := hlast.split_purge hlives horder hlive
    rw [hsplit, mem_lastN_iff hnot, hlength] at hmem
    exact ⟨before, t, after, hlast, hlive, hmem⟩
  · rintro ⟨before, t, after, hlast, hlive, hfew⟩
    obtain ⟨a, b, hsplit, hnot, hlength, -⟩ := hlast.split_purge hlives horder hlive
    rw [hsplit, mem_lastN_iff hnot, hlength]
    exact hfew

/-- What has just been put is in the map. -/
theorem mem_apply_put (h : 0 < capacity) : (k, v) ∈ apply expiry capacity d (.put now k v) := by
  obtain ⟨a, -, heq⟩ := exists_lastN_append (a := Entries.erase (purge expiry now d) k)
    (b := [(k, v)]) h
  rw [apply, renew, heq]
  simp

variable (capacity) in
/-- Nothing that a map holds after an operation has expired. -/
theorem lives_run (hlives : Lives expiry lifetime (ops ++ [op]))
    (hreading : op.reading? = some now) :
    ∀ e ∈ run expiry capacity (ops ++ [op]), now < expiry e.2 := by
  intro e he
  rw [run_append_singleton] at he
  cases op with
  | clear => cases hreading
  | look t =>
      cases hreading
      exact (mem_purge.mp he).2
  | put t k v =>
      cases hreading
      rcases List.mem_append.mp ((lastN_suffix _).subset he) with hold | hnew
      · exact (mem_purge.mp (Entries.mem_erase.mp hold).1).2
      · rw [List.mem_singleton.mp hnew, hlives.last]
        exact hlives.later _

/-- An entry that lives is evicted only when the map is full of keys that were put later. -/
theorem full_of_evicted (hlives : Lives expiry lifetime (ops ++ [op]))
    (horder : InOrder (ops ++ [op]) now) (hreading : op.reading? = some now)
    (hcapacity : 0 < capacity) (hmem : (k, v) ∈ run expiry capacity ops) (hlive : now < expiry v)
    (hgone : k ∉ Entries.keys (run expiry capacity (ops ++ [op]))) :
    ∃ before t after, LastPut (ops ++ [op]) k v before t after ∧
      (run expiry capacity (ops ++ [op])).length = capacity ∧
      ∀ e ∈ run expiry capacity (ops ++ [op]), now < expiry e.2 ∧ e.1 ∈ putKeys after := by
  have hkeeps : op.Keeps k := by
    rw [run_append_singleton] at hgone
    cases op with
    | clear => cases hreading
    | look t => exact ⟨nofun, nofun⟩
    | put t k' v' =>
        refine ⟨nofun, ?_⟩
        rintro ⟨⟩
        exact hgone (List.mem_map_of_mem (mem_apply_put hcapacity))
  have hpurge := purge_run capacity hlives.of_append horder.of_append
  have hlatest : (k, v) ∈ latest ops := by
    have hshown := mem_purge.mpr ⟨hmem, hlive⟩
    rw [hpurge] at hshown
    exact (mem_purge.mp ((lastN_suffix _).subset hshown)).1
  obtain ⟨before, t, after, rfl, hkept⟩ := exists_lastPut hlatest
  have hlast : LastPut (before ++ .put t k v :: after ++ [op]) k v before t (after ++ [op]) := by
    refine ⟨by simp, ?_⟩
    rw [List.forall_mem_append, List.forall_mem_singleton]
    exact ⟨hkept, hkeeps⟩
  obtain ⟨a, b, hsplit, hnot, -, hkeys⟩ := hlast.split_purge hlives horder hlive
  have hall := lives_run capacity hlives hreading
  have hsame := purge_run capacity hlives horder
  have hself : purge expiry now (run expiry capacity (before ++ .put t k v :: after ++ [op])) =
      run expiry capacity (before ++ .put t k v :: after ++ [op]) := by
    rw [purge, List.filter_eq_self]
    exact fun e he => decide_eq_true (hall e he)
  rw [hself, hsplit] at hsame
  have hfull : capacity ≤ b.length := by
    by_contra hfew
    apply hgone
    rw [hsame]
    exact List.mem_map_of_mem ((mem_lastN_iff hnot).mpr (Nat.lt_of_not_le hfew))
  rw [List.append_cons a, lastN_append_of_le hfull] at hsame
  refine ⟨before, t, after ++ [op], hlast, ?_, fun e he => ⟨hall e he, ?_⟩⟩
  · rw [hsame, length_lastN, Nat.min_eq_left hfull]
  · rw [hsame] at he
    exact hkeys e ((lastN_suffix b).subset he)

end Run

end MediaBridge.Foundation.Expiring
