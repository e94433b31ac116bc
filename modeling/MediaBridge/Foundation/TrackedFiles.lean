import MediaBridge.Foundation.Dict

/-!
# Files with records

A directory whose files are known by their records. A file is removed first, then looked for, and
its record is dropped only if it is gone. `Shrinks` says what such removals, which may fail at
any point, can do; whatever holds of them is proved from it.
-/

namespace MediaBridge.Foundation

/-- How an attempt to remove a file ends. -/
structure Removal where
  removed : Bool
  raises : Bool
deriving DecidableEq

/-- An attempt that works. -/
def Removal.Works (r : Removal) : Prop := r.removed = true ∧ r.raises = false

/-- What is known after an attempt to remove a file. -/
inductive RemovalVerdict
  | gone
  | failed
  | remains
deriving DecidableEq

/-- Records and files, by the same keys. -/
structure TrackedFiles (κ ρ β : Type*) where
  records : Entries κ ρ := []
  files : Entries κ β := []

namespace TrackedFiles

variable {κ ρ β : Type*} [DecidableEq κ]

/-- A file is removed and looked for. -/
def unlink (t : TrackedFiles κ ρ β) (k : κ) (r : Removal) : TrackedFiles κ ρ β × RemovalVerdict :=
  let files := if r.removed then Entries.erase t.files k else t.files
  ({ t with files := files },
    if r.raises then .failed else if Entries.has files k then .remains else .gone)

/-- A record is dropped. -/
def forget (t : TrackedFiles κ ρ β) (k : κ) : TrackedFiles κ ρ β :=
  { t with records := Entries.erase t.records k }

/-- The files of some keys are removed one after the other, until this fails; `forgets` says
whether each record is dropped at once. -/
def removeEach (removal : κ → Removal) (forgets : Bool) :
    List κ → TrackedFiles κ ρ β → TrackedFiles κ ρ β × RemovalVerdict
  | [], t => (t, .gone)
  | k :: rest, t =>
      match t.unlink k (removal k) with
      | (t', .gone) => removeEach removal forgets rest (if forgets then t'.forget k else t')
      | (t', verdict) => (t', verdict)

/-- Some records and files are gone, of touched keys only, and no record whose file is there. -/
structure Shrinks (touched : κ → Prop) (t t' : TrackedFiles κ ρ β) : Prop where
  files : ∀ k b, Entries.get? t'.files k = some b → Entries.get? t.files k = some b
  records : ∀ k r, Entries.get? t'.records k = some r → Entries.get? t.records k = some r
  kept : ∀ k r, Entries.get? t.records k = some r → Entries.has t'.files k = true →
    Entries.get? t'.records k = some r
  untouched : ∀ k, ¬ touched k → Entries.get? t'.files k = Entries.get? t.files k

variable {t t' t'' : TrackedFiles κ ρ β} {touched : κ → Prop}

theorem Shrinks.refl (touched : κ → Prop) (t : TrackedFiles κ ρ β) : Shrinks touched t t where
  files := fun _ _ h => h
  records := fun _ _ h => h
  kept := fun _ _ h _ => h
  untouched := fun _ _ => rfl

/-- A file that is there after a removal was there before. -/
theorem Shrinks.has_files (h : Shrinks touched t t') {k : κ}
    (hk : Entries.has t'.files k = true) : Entries.has t.files k = true := by
  obtain ⟨b, hb⟩ := Option.isSome_iff_exists.mp hk
  exact Option.isSome_iff_exists.mpr ⟨b, h.files k b hb⟩

theorem Shrinks.trans (h : Shrinks touched t t') (h' : Shrinks touched t' t'') :
    Shrinks touched t t'' where
  files := fun k b hb => h.files k b (h'.files k b hb)
  records := fun k r hr => h.records k r (h'.records k r hr)
  kept := fun k r hr hk => h'.kept k r (h.kept k r hr (h'.has_files hk)) hk
  untouched := fun k hk => (h'.untouched k hk).trans (h.untouched k hk)

/-- Removing a file leaves the other ones. -/
theorem shrinks_unlink {k : κ} (hk : touched k) (r : Removal) :
    Shrinks touched t (t.unlink k r).1 := by
  have hother (k' : κ) (hne : k' ≠ k) :
      Entries.get? (t.unlink k r).1.files k' = Entries.get? t.files k' := by
    unfold unlink
    dsimp only
    split
    · exact Entries.get?_erase_of_ne t.files hne
    · rfl
  constructor
  case files =>
    intro k' b hb
    by_cases hkk : k' = k
    · subst hkk
      unfold unlink at hb
      dsimp only at hb
      split at hb
      · rw [Entries.get?_erase_self] at hb
        cases hb
      · exact hb
    · rwa [hother k' hkk] at hb
  case records => exact fun _ _ h => h
  case kept => exact fun _ _ h _ => h
  case untouched =>
    intro k' hk'
    apply hother
    rintro rfl
    exact hk' hk

/-- A file that is gone has been looked for. -/
theorem has_of_unlink_gone {k : κ} {r : Removal} (h : t.unlink k r = (t', .gone)) :
    Entries.has t'.files k = false := by
  unfold unlink at h
  obtain ⟨rfl, hverdict⟩ := Prod.mk.inj h
  by_cases hraises : r.raises = true
  · rw [if_pos hraises] at hverdict
    cases hverdict
  · rw [if_neg hraises] at hverdict
    rw [Bool.eq_false_iff]
    intro hhas
    rw [if_pos hhas] at hverdict
    cases hverdict

/-- The record of a file that is gone may be dropped. -/
theorem shrinks_forget {k : κ} (h : Entries.has t.files k = false) :
    Shrinks touched t (t.forget k) where
  files := fun _ _ h => h
  records := by
    intro k' r hr
    by_cases hkk : k' = k
    · subst hkk
      change Entries.get? (Entries.erase t.records k') k' = some r at hr
      rw [Entries.get?_erase_self] at hr
      cases hr
    · change Entries.get? (Entries.erase t.records k) k' = some r at hr
      rwa [Entries.get?_erase_of_ne t.records hkk] at hr
  kept := by
    intro k' r hr hk'
    have hne : k' ≠ k := by
      rintro rfl
      exact Bool.false_ne_true (h.symm.trans hk')
    exact (Entries.get?_erase_of_ne t.records hne).trans hr
  untouched := fun _ _ => rfl

theorem shrinks_unlink_forget {k : κ} (hk : touched k) {r : Removal}
    (h : t.unlink k r = (t', .gone)) : Shrinks touched t (t'.forget k) := by
  have hunlink : Shrinks touched t (t.unlink k r).1 := shrinks_unlink hk r
  rw [h] at hunlink
  exact hunlink.trans (shrinks_forget (has_of_unlink_gone h))

variable {removal : κ → Removal} {forgets : Bool} {ks : List κ} {verdict : RemovalVerdict}

/-- The state of a loop after a file that is gone. -/
theorem shrinks_round {k : κ} (hk : touched k) (h : t.unlink k (removal k) = (t', .gone)) :
    Shrinks touched t (if forgets then t'.forget k else t') := by
  split
  · exact shrinks_unlink_forget hk h
  · have hunlink : Shrinks touched t (t.unlink k (removal k)).1 := shrinks_unlink hk _
    rwa [h] at hunlink

/-- Wherever a loop stops, it has only removed files of its keys. -/
theorem shrinks_removeEach (hks : ∀ k ∈ ks, touched k) :
    Shrinks touched t (removeEach removal forgets ks t).1 := by
  induction ks generalizing t with
  | nil => exact .refl touched t
  | cons k rest ih =>
      have hk := hks k List.mem_cons_self
      have hunlink : Shrinks touched t (t.unlink k (removal k)).1 := shrinks_unlink hk _
      rw [removeEach]
      split
      · rename_i t' h
        exact (shrinks_round hk h).trans (ih fun k' hk' => hks k' (List.mem_cons_of_mem _ hk'))
      · rename_i t' verdict h
        rwa [h] at hunlink

/-- A loop that ends has gone through its rounds. -/
theorem round_of_removeEach_gone {k : κ} {rest : List κ}
    (h : removeEach removal forgets (k :: rest) t = (t', .gone)) :
    ∃ next, t.unlink k (removal k) = (next, .gone) ∧
      removeEach removal forgets rest (if forgets then next.forget k else next) = (t', .gone) := by
  rw [removeEach] at h
  split at h
  · rename_i next hnext
    exact ⟨next, hnext, h⟩
  · rename_i next verdict hne hnext
    obtain ⟨-, rfl⟩ := Prod.mk.inj h
    exact absurd rfl hne

theorem shrinks_of_removeEach_eq (h : removeEach removal forgets ks t = (t', verdict)) :
    Shrinks (· ∈ ks) t t' := by
  have hshrinks : Shrinks (· ∈ ks) t (removeEach removal forgets ks t).1 :=
    shrinks_removeEach fun _ hk => hk
  rwa [h] at hshrinks

/-- A loop that ends has removed the files of its keys. -/
theorem has_of_removeEach_gone (h : removeEach removal forgets ks t = (t', .gone)) :
    ∀ k ∈ ks, Entries.has t'.files k = false := by
  induction ks generalizing t with
  | nil => exact fun _ hk => absurd hk List.not_mem_nil
  | cons k rest ih =>
      obtain ⟨next, hnext, hrest⟩ := round_of_removeEach_gone h
      rw [List.forall_mem_cons]
      refine ⟨?_, ih hrest⟩
      rw [Bool.eq_false_iff]
      intro hhas
      have hbefore := (shrinks_of_removeEach_eq hrest).has_files hhas
      have hfiles : (if forgets then next.forget k else next).files = next.files := by
        split <;> rfl
      rw [hfiles, has_of_unlink_gone hnext] at hbefore
      cases hbefore

/-- A loop that drops records as it goes has dropped those of its keys when it ends. -/
theorem records_of_removeEach_gone (h : removeEach removal true ks t = (t', .gone)) :
    ∀ k ∈ ks, Entries.get? t'.records k = none := by
  induction ks generalizing t with
  | nil => exact fun _ hk => absurd hk List.not_mem_nil
  | cons k rest ih =>
      obtain ⟨next, -, hrest⟩ := round_of_removeEach_gone h
      rw [List.forall_mem_cons]
      refine ⟨?_, ih hrest⟩
      rw [Option.eq_none_iff_forall_ne_some]
      intro r hget
      have hbefore : Entries.get? (Entries.erase next.records k) k = some r :=
        (shrinks_of_removeEach_eq hrest).records k r hget
      rw [Entries.get?_erase_self] at hbefore
      cases hbefore

/-- A loop ends if every attempt works. -/
theorem removeEach_of_works (hworks : ∀ k ∈ ks, (removal k).Works) :
    (removeEach removal forgets ks t).2 = .gone := by
  induction ks generalizing t with
  | nil => rfl
  | cons k rest ih =>
      obtain ⟨hremoved, hraises⟩ := hworks k List.mem_cons_self
      have hunlink : t.unlink k (removal k) =
          ({ t with files := Entries.erase t.files k }, .gone) := by
        unfold unlink
        simp only [hremoved, hraises, if_true, Bool.false_eq_true, if_false, Entries.has,
          Entries.get?_erase_self, Option.isSome_none]
      rw [removeEach, hunlink]
      exact ih fun k' hk' => hworks k' (List.mem_cons_of_mem _ hk')

end TrackedFiles

end MediaBridge.Foundation
