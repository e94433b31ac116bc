import Mathlib.Data.List.Nodup

/-!
# Rows of a table

A table is a list of rows, and its key tells them apart. `lookup` is a query by the key, `put` an
update of one row, `drop` a deletion.
-/

namespace MediaBridge.Foundation.Rows

variable {ρ κ : Type*} [DecidableEq κ] (key : ρ → κ)

/-- The row with a key. -/
def lookup (rows : List ρ) (k : κ) : Option ρ := rows.find? fun row => key row = k

/-- The rows after one of them has been written. -/
def put (rows : List ρ) (row : ρ) : List ρ := rows.map fun x => if key x = key row then row else x

/-- The rows after the one with a key has been deleted. -/
def drop (rows : List ρ) (k : κ) : List ρ := rows.filter fun row => key row ≠ k

variable {key} {rows : List ρ} {row x : ρ} {k : κ}

theorem mem_of_lookup (h : lookup key rows k = some row) : row ∈ rows ∧ key row = k :=
  ⟨List.mem_of_find?_eq_some h, by simpa using List.find?_some h⟩

theorem lookup_eq_none : lookup key rows k = none ↔ ∀ row ∈ rows, key row ≠ k := by
  simp [lookup]

/-- A row is found by its key. -/
theorem lookup_eq_some_iff (hkeys : (rows.map key).Nodup) :
    lookup key rows k = some row ↔ row ∈ rows ∧ key row = k := by
  constructor
  · exact mem_of_lookup
  · rintro ⟨hmem, rfl⟩
    cases hfound : lookup key rows (key row) with
    | none => exact absurd rfl (lookup_eq_none.mp hfound row hmem)
    | some other =>
        obtain ⟨hother, hkey⟩ := mem_of_lookup hfound
        rw [List.inj_on_of_nodup_map hkeys hother hmem hkey]

theorem keys_put (rows : List ρ) (row : ρ) : (put key rows row).map key = rows.map key := by
  unfold put
  rw [List.map_map]
  apply List.map_congr_left
  intro x _
  simp only [Function.comp_apply]
  split
  · next hkey => exact hkey.symm
  · rfl

theorem mem_put (h : x ∈ put key rows row) : x = row ∨ x ∈ rows ∧ key x ≠ key row := by
  obtain ⟨y, hy, hx⟩ := List.mem_map.mp h
  split at hx
  · exact .inl hx.symm
  · next hne =>
      subst hx
      exact .inr ⟨hy, hne⟩

theorem mem_put_self (h : x ∈ rows) (hkey : key x = key row) : row ∈ put key rows row :=
  List.mem_map.mpr ⟨x, h, if_pos hkey⟩

theorem mem_drop : x ∈ drop key rows k ↔ x ∈ rows ∧ key x ≠ k := by
  simp [drop]

/-- The row that has been written is found. -/
theorem lookup_put_self (hkeys : (rows.map key).Nodup) (h : lookup key rows (key row) = some x) :
    lookup key (put key rows row) (key row) = some row := by
  have hput : ((put key rows row).map key).Nodup := by
    rw [keys_put]
    exact hkeys
  obtain ⟨hmem, hkey⟩ := mem_of_lookup h
  exact (lookup_eq_some_iff hput).mpr ⟨mem_put_self hmem hkey, rfl⟩

/-- The other rows stay as they are. -/
theorem lookup_put_of_ne (hne : k ≠ key row) : lookup key (put key rows row) k =
    lookup key rows k := by
  induction rows with
  | nil => rfl
  | cons y rest ih =>
      unfold lookup put at ih ⊢
      rw [List.map_cons, List.find?_cons, List.find?_cons]
      by_cases hy : key y = key row
      · rw [if_pos hy, decide_eq_false (Ne.symm hne), decide_eq_false (by rw [hy]; exact hne.symm)]
        exact ih
      · rw [if_neg hy]
        split
        · rfl
        · exact ih

/-- A row that is found is found in a longer table. -/
theorem lookup_append (h : lookup key rows k = some x) (more : List ρ) :
    lookup key (rows ++ more) k = some x := by
  unfold lookup at h ⊢
  rw [List.find?_append, h, Option.some_or]

/-- The other rows are found after a deletion. -/
theorem lookup_drop_of_ne {k' : κ} (hne : k ≠ k') : lookup key (drop key rows k') k =
    lookup key rows k := by
  have hsame : (fun row : ρ => decide (decide (key row ≠ k') = true ∧ decide (key row = k) = true)) =
      fun row => decide (key row = k) := by
    funext row
    by_cases hkey : key row = k
    · simp [hkey, hne]
    · simp [hkey]
  unfold lookup drop
  rw [List.find?_filter, hsame]

/-- What is found after a write is what was found, or the written row in its place. -/
theorem lookup_put (rows : List ρ) (row : ρ) (k : κ) : lookup key (put key rows row) k =
    (lookup key rows k).map fun x => if key x = key row then row else x := by
  have hsame : ((fun x => decide (key x = k)) ∘ fun x => if key x = key row then row else x) =
      fun x => decide (key x = k) := by
    funext x
    simp only [Function.comp_apply]
    split
    · next hkey => rw [hkey]
    · rfl
  unfold lookup put
  rw [List.find?_map, hsame]

/-- Rows that are pairwise apart are so after one of them has been written, if it is apart from the
others. -/
theorem pairwise_put {R : ρ → ρ → Prop} (hsymm : ∀ a b, R a b → R b a)
    (hkey : ∀ a b, R a b → key a ≠ key b) (h : rows.Pairwise R)
    (hrow : ∀ x ∈ drop key rows (key row), R x row) : (put key rows row).Pairwise R := by
  induction rows with
  | nil => exact List.Pairwise.nil
  | cons y rest ih =>
      obtain ⟨hy, hrest⟩ := List.pairwise_cons.mp h
      have hdrop : ∀ x ∈ drop key rest (key row), R x row := by
        intro x hx
        obtain ⟨hmem, hne⟩ := mem_drop.mp hx
        exact hrow x (mem_drop.mpr ⟨List.mem_cons_of_mem _ hmem, hne⟩)
      change ((if key y = key row then row else y) :: put key rest row).Pairwise R
      apply List.pairwise_cons.mpr
      refine ⟨?_, ih hrest hdrop⟩
      intro x hx
      by_cases hfirst : key y = key row
      · rw [if_pos hfirst]
        rcases mem_put hx with rfl | ⟨hmem, hne⟩
        · obtain ⟨z, hz, hzx⟩ := List.mem_map.mp hx
          have hother : key z ≠ key x := fun heq => hkey y z (hy z hz) (hfirst.trans heq.symm)
          have hsame : z = x := (if_neg hother).symm.trans hzx
          exact absurd (congrArg key hsame) hother
        · exact hsymm x row (hdrop x (mem_drop.mpr ⟨hmem, hne⟩))
      · rw [if_neg hfirst]
        rcases mem_put hx with rfl | ⟨hmem, -⟩
        · exact hrow y (mem_drop.mpr ⟨List.mem_cons_self, hfirst⟩)
        · exact hy x hmem

/-- A row of rows that are pairwise apart is found by its key, and is apart from the others. -/
theorem lookup_of_pairwise {R : ρ → ρ → Prop} (hsymm : ∀ a b, R a b → R b a)
    (hkey : ∀ a b, R a b → key a ≠ key b) (h : rows.Pairwise R) (hrow : row ∈ rows) :
    lookup key rows (key row) = some row ∧ ∀ x ∈ drop key rows (key row), R x row := by
  have hkeys : (rows.map key).Nodup := List.pairwise_map.mpr (h.imp fun hR => hkey _ _ hR)
  refine ⟨(lookup_eq_some_iff hkeys).mpr ⟨hrow, rfl⟩, ?_⟩
  induction rows with
  | nil => cases hrow
  | cons y rest ih =>
      obtain ⟨hy, hrest⟩ := List.pairwise_cons.mp h
      intro x hx
      obtain ⟨hmem, hne⟩ := mem_drop.mp hx
      rcases List.mem_cons.mp hrow with rfl | hlater
      · rcases List.mem_cons.mp hmem with rfl | hx
        · exact absurd rfl hne
        · exact hsymm _ _ (hy x hx)
      · rcases List.mem_cons.mp hmem with rfl | hx
        · exact hy row hlater
        · exact ih hrest hlater (List.nodup_cons.mp hkeys).2 x (mem_drop.mpr ⟨hx, hne⟩)

/-- Writing a row as it is changes nothing. -/
theorem put_of_mem (hkeys : (rows.map key).Nodup) (h : row ∈ rows) : put key rows row = rows := by
  calc put key rows row = rows.map id := by
        apply List.map_congr_left
        intro x hx
        by_cases hkey : key x = key row
        · rw [if_pos hkey]
          exact List.inj_on_of_nodup_map hkeys h hx hkey.symm
        · exact if_neg hkey
    _ = rows := List.map_id rows

/-- A write is known by what it leaves. -/
theorem eq_of_put {row' : ρ} (h : x ∈ rows) (hkey : key x = key row) (hkey' : key x = key row')
    (hput : put key rows row = put key rows row') : row = row' := by
  have hsame := List.map_inj_left.mp hput x h
  rwa [if_pos hkey, if_pos hkey'] at hsame

/-- A write changes a count by what it does to its row. -/
theorem countP_put {p : ρ → Bool} (hkeys : (rows.map key).Nodup)
    (h : lookup key rows (key row) = some x) :
    (put key rows row).countP p + (if p x then 1 else 0) =
      rows.countP p + (if p row then 1 else 0) := by
  obtain ⟨hmem, hkey⟩ := mem_of_lookup h
  clear h
  induction rows with
  | nil => cases hmem
  | cons y rest ih =>
      rw [List.map_cons, List.nodup_cons] at hkeys
      unfold put at ih ⊢
      rw [List.map_cons, List.countP_cons, List.countP_cons]
      rcases List.mem_cons.mp hmem with rfl | hrest
      · -- The written row is the first: no other one has its key.
        have hothers : (rest.map fun z => if key z = key row then row else z) = rest := by
          calc rest.map (fun z => if key z = key row then row else z) = rest.map id := by
                apply List.map_congr_left
                intro z hz
                apply if_neg
                intro heq
                apply hkeys.1
                rw [hkey, ← heq]
                exact List.mem_map_of_mem hz
            _ = rest := List.map_id rest
        rw [hothers, if_pos hkey]
        omega
      · have hy : key y ≠ key row := by
          intro heq
          apply hkeys.1
          rw [heq, ← hkey]
          exact List.mem_map_of_mem hrest
        have := ih hkeys.2 hrest
        rw [if_neg hy]
        omega

end MediaBridge.Foundation.Rows
