import Mathlib.Data.List.Basic
import Mathlib.Data.List.Nodup

/-!
# Insertion-ordered dictionaries

Python's `dict` and `OrderedDict` keep their entries in insertion order. An
entry list models both: assignment to a present key keeps its place, and
assignment to an absent key goes to the end.

## Implementation notes

Mathlib's `AList` inserts in front and so forgets the order in which eviction
and iteration see the entries. Uniqueness of keys is a separate predicate,
carried by the structures that hold a dictionary.
-/

namespace MediaBridge.Foundation

/-- The entries of a dictionary in insertion order. -/
abbrev Entries (κ ν : Type*) := List (κ × ν)

namespace Entries

variable {κ ν : Type*} [DecidableEq κ]

/-- `d.get(k)`. -/
def get? : Entries κ ν → κ → Option ν
  | [], _ => none
  | (k', v) :: rest, k => if k' = k then some v else get? rest k

/-- `k in d`. -/
def has (d : Entries κ ν) (k : κ) : Bool := (get? d k).isSome

/-- `d[k] = v`. -/
def set : Entries κ ν → κ → ν → Entries κ ν
  | [], k, v => [(k, v)]
  | (k', v') :: rest, k, v => if k' = k then (k, v) :: rest else (k', v') :: set rest k v

/-- `d.pop(k, None)`, keeping the remaining order. -/
def erase (d : Entries κ ν) (k : κ) : Entries κ ν := d.filter fun e => e.1 ≠ k

/-- `d.keys()`. -/
def keys (d : Entries κ ν) : List κ := d.map Prod.fst

@[simp] theorem get?_nil (k : κ) : get? ([] : Entries κ ν) k = none := rfl

theorem get?_cons (k' : κ) (v : ν) (rest : Entries κ ν) (k : κ) :
    get? ((k', v) :: rest) k = if k' = k then some v else get? rest k := rfl

@[simp] theorem get?_cons_self (k : κ) (v : ν) (rest : Entries κ ν) :
    get? ((k, v) :: rest) k = some v := by
  simp [get?_cons]

theorem mem_of_get? {d : Entries κ ν} {k : κ} {v : ν} (h : get? d k = some v) :
    (k, v) ∈ d := by
  induction d with
  | nil => cases h
  | cons e rest ih =>
      obtain ⟨k', v'⟩ := e
      rw [get?_cons] at h
      split at h
      · rename_i hk
        cases h
        subst hk
        exact List.mem_cons_self
      · exact List.mem_cons_of_mem _ (ih h)

theorem get?_eq_none_iff {d : Entries κ ν} {k : κ} : get? d k = none ↔ k ∉ keys d := by
  induction d with
  | nil => simp [keys]
  | cons e rest ih =>
      obtain ⟨k', v'⟩ := e
      rw [get?_cons]
      by_cases hk : k' = k
      · simp [keys, hk]
      · simpa [keys, hk, Ne.symm hk] using ih

theorem has_iff {d : Entries κ ν} {k : κ} : has d k = true ↔ k ∈ keys d := by
  rw [has, Option.isSome_iff_ne_none, ne_eq, get?_eq_none_iff, not_not]

/-- With unique keys, reading a key is the same as finding its entry. -/
theorem get?_eq_some_iff {d : Entries κ ν} (hd : (keys d).Nodup) {k : κ} {v : ν} :
    get? d k = some v ↔ (k, v) ∈ d := by
  refine ⟨mem_of_get?, fun h => ?_⟩
  induction d with
  | nil => cases h
  | cons e rest ih =>
      obtain ⟨k', v'⟩ := e
      obtain ⟨hnot, hrest⟩ := List.nodup_cons.mp hd
      rcases List.mem_cons.mp h with heq | hmem
      · cases heq
        simp
      · have hkey : k ∈ rest.map Prod.fst := List.mem_map_of_mem hmem
        have hne : k' ≠ k := fun hk => hnot (hk ▸ hkey)
        rw [get?_cons, if_neg hne]
        exact ih hrest hmem

theorem get?_set_self (d : Entries κ ν) (k : κ) (v : ν) : get? (set d k v) k = some v := by
  induction d with
  | nil => simp [set]
  | cons e rest ih =>
      obtain ⟨k', v'⟩ := e
      by_cases hk : k' = k
      · simp [set, hk]
      · simpa [set, get?_cons, hk] using ih

theorem get?_set_of_ne (d : Entries κ ν) {k k' : κ} (v : ν) (h : k' ≠ k) :
    get? (set d k v) k' = get? d k' := by
  induction d with
  | nil => simp [set, get?_cons, h.symm]
  | cons e rest ih =>
      obtain ⟨j, w⟩ := e
      by_cases hj : j = k
      · subst hj
        simp [set, get?_cons, h.symm]
      · simp [set, hj, get?_cons, ih]

theorem get?_set (d : Entries κ ν) (k k' : κ) (v : ν) :
    get? (set d k v) k' = if k' = k then some v else get? d k' := by
  split
  · rename_i heq
    rw [heq, get?_set_self]
  · rename_i hne
    exact get?_set_of_ne d v hne

/-- An assignment brings one entry into a dictionary. -/
theorem mem_set {d : Entries κ ν} {k : κ} {v : ν} {e : κ × ν} (h : e ∈ set d k v) :
    e = (k, v) ∨ e ∈ d := by
  induction d with
  | nil => exact .inl (List.mem_singleton.mp h)
  | cons e' rest ih =>
      obtain ⟨k', v'⟩ := e'
      rw [set] at h
      split at h
      · rcases List.mem_cons.mp h with heq | hrest
        · exact .inl heq
        · exact .inr (List.mem_cons_of_mem _ hrest)
      · rcases List.mem_cons.mp h with heq | hrest
        · exact .inr (List.mem_cons.mpr (.inl heq))
        · exact (ih hrest).imp_right (List.mem_cons_of_mem _)

/-- Assignment to an absent key appends. -/
theorem set_of_notMem {d : Entries κ ν} {k : κ} (h : k ∉ keys d) (v : ν) :
    set d k v = d ++ [(k, v)] := by
  induction d with
  | nil => rfl
  | cons e rest ih =>
      obtain ⟨k', v'⟩ := e
      simp only [keys, List.map_cons, List.mem_cons, not_or] at h
      rw [set, if_neg (Ne.symm h.1), ih h.2, List.cons_append]

/-- Assignment to a present key keeps the keys. -/
theorem keys_set_of_mem {d : Entries κ ν} {k : κ} (h : k ∈ keys d) (v : ν) :
    keys (set d k v) = keys d := by
  induction d with
  | nil => cases h
  | cons e rest ih =>
      obtain ⟨k', v'⟩ := e
      rw [set]
      split
      · next hk =>
          rw [← hk]
          rfl
      · next hk =>
          have hrest : k ∈ keys rest := by
            rcases List.mem_cons.mp h with heq | hmem
            · exact absurd heq.symm hk
            · exact hmem
          exact congrArg (List.cons k') (ih hrest)

theorem nodup_set {d : Entries κ ν} (hd : (keys d).Nodup) (k : κ) (v : ν) :
    (keys (set d k v)).Nodup := by
  by_cases hk : k ∈ keys d
  · rw [keys_set_of_mem hk]
    exact hd
  · rw [set_of_notMem hk]
    unfold keys
    rw [List.map_append]
    apply List.Nodup.append hd (List.nodup_singleton k)
    intro k' hk' hmem
    rw [List.mem_singleton.mp hmem] at hk'
    exact hk hk'

/-- With unique keys, a value of a dictionary is one that a key holds. -/
theorem any_iff {d : Entries κ ν} (hd : (keys d).Nodup) {p : ν → Bool} :
    (d.any fun e => p e.2) = true ↔ ∃ k v, get? d k = some v ∧ p v = true := by
  rw [List.any_eq_true]
  constructor
  · rintro ⟨⟨k, v⟩, hmem, hp⟩
    exact ⟨k, v, (get?_eq_some_iff hd).mpr hmem, hp⟩
  · rintro ⟨k, v, hget, hp⟩
    exact ⟨(k, v), mem_of_get? hget, hp⟩

/-- Assigning what a key already holds changes nothing. -/
theorem set_of_get? {d : Entries κ ν} {k : κ} {v : ν} (h : get? d k = some v) :
    set d k v = d := by
  induction d with
  | nil => cases h
  | cons e rest ih =>
      obtain ⟨k', v'⟩ := e
      rw [get?_cons] at h
      rw [set]
      split at h
      · rename_i hk
        cases h
        rw [if_pos hk, hk]
      · rename_i hk
        rw [if_neg hk, ih h]

/-- Filtering by key keeps the entries of the kept keys. -/
theorem get?_filter (d : Entries κ ν) (p : κ → Bool) (k : κ) :
    get? (d.filter fun e => p e.1) k = if p k then get? d k else none := by
  induction d with
  | nil => simp
  | cons e rest ih =>
      obtain ⟨k', v'⟩ := e
      by_cases hk : k' = k
      · subst hk
        cases hp : p k' with
        | true => simp [hp]
        | false => simpa [hp] using ih
      · cases hp : p k' with
        | true => simpa [hp, get?_cons, hk] using ih
        | false => simpa [hp, get?_cons, hk] using ih

theorem get?_append (d e : Entries κ ν) (k : κ) :
    get? (d ++ e) k = (get? d k).or (get? e k) := by
  induction d with
  | nil => simp
  | cons p rest ih =>
      obtain ⟨k', v⟩ := p
      by_cases hk : k' = k
      · simp [hk]
      · simpa [get?_cons, hk] using ih

theorem get?_erase_self (d : Entries κ ν) (k : κ) : get? (erase d k) k = none := by
  simp [get?_eq_none_iff, keys, erase]

theorem get?_erase_of_ne (d : Entries κ ν) {k k' : κ} (h : k' ≠ k) :
    get? (erase d k) k' = get? d k' := by
  induction d with
  | nil => rfl
  | cons e rest ih =>
      obtain ⟨j, w⟩ := e
      by_cases hj : j = k
      · subst hj
        simpa [erase, get?_cons, h.symm] using ih
      · simp only [erase, ne_eq, hj, not_false_eq_true, decide_true, List.filter_cons_of_pos,
          get?_cons]
        split
        · rfl
        · simpa [erase] using ih

theorem mem_erase {d : Entries κ ν} {k : κ} {e : κ × ν} :
    e ∈ erase d k ↔ e ∈ d ∧ e.1 ≠ k := by
  simp [erase]

omit [DecidableEq κ] in
theorem keys_append (d e : Entries κ ν) : keys (d ++ e) = keys d ++ keys e :=
  List.map_append

omit [DecidableEq κ] in
theorem keys_sublist {d e : Entries κ ν} (h : d.Sublist e) : (keys d).Sublist (keys e) :=
  h.map _

theorem nodup_erase {d : Entries κ ν} (hd : (keys d).Nodup) (k : κ) :
    (keys (erase d k)).Nodup :=
  hd.sublist (keys_sublist List.filter_sublist)

/-- Removing a key and appending it again keeps the keys unique. -/
theorem nodup_erase_append {d : Entries κ ν} (hd : (keys d).Nodup) (k : κ) (v : ν) :
    (keys (erase d k ++ [(k, v)])).Nodup := by
  rw [keys_append]
  refine List.Nodup.append (nodup_erase hd k) (List.nodup_singleton _) ?_
  intro k' hk' hmem
  obtain rfl : k' = k := by simpa [keys] using hmem
  exact (get?_eq_none_iff.mp (get?_erase_self d k')) hk'

end Entries

end MediaBridge.Foundation
