import MediaBridge.Foundation.Runs
import MediaBridge.Personal.LocalState

/-!
# What the state store recovers

Every snapshot that is accepted is read back with an equal value. Over a run of publishes that fail
or die at any step, with an active file that may become unreadable at any time, the store gives the
last snapshot that reached the active file, or the one before it.

## Implementation notes

A run remembers every call of `publish` with how it ended. `Kept` is what the two files hold of the
snapshots that reached the active file. The previous file is replaced before the active one, so a
publish that is broken off between the two, or that finds the active file unreadable, loses the
snapshot before the active one.
-/

namespace MediaBridge.Personal

open Foundation MediaBridge.Core JsonText

variable {H : StateHost} {snapshot : Json} {data : Bytes} {fields : Entries Str Json}

section ReadBack

theorem sorted_dictionary (fields : List (Str × Json)) :
    Json.sorted (.obj fields) = .obj (Json.sortedEntries fields) := Json.sorted_obj fields

theorem safeItems_eq (items : List Json) : safeItems H items = items.all (safeValue H none) := by
  induction items with
  | nil => rfl
  | cons v rest ih => rw [safeItems, ih, List.all_cons]

theorem safeFields_eq (fields : List (Str × Json)) :
    safeFields H fields = fields.all fun e => safeValue H (some e.1) e.2 := by
  induction fields with
  | nil => rfl
  | cons e rest ih => rw [safeFields, ih, List.all_cons]

/-- The order of the keys does not matter to the checks. -/
theorem safeValue_sorted (v : Json) (name : Option Str) :
    safeValue H name v.sorted = safeValue H name v := by
  induction v using Json.induct generalizing name with
  | null => rw [Json.sorted_null]
  | bool b => rw [Json.sorted_bool]
  | int n => rw [Json.sorted_int]
  | float bits => rw [Json.sorted_float]
  | str s => rw [Json.sorted_str]
  | arr items ih =>
      rw [Json.sorted_arr, safeValue, safeValue, safeItems_eq, safeItems_eq, List.all_map]
      congr 1
      rw [Bool.eq_iff_iff, List.all_eq_true, List.all_eq_true]
      refine forall₂_congr fun v hv => ?_
      rw [Function.comp_apply, ih v hv]
  | obj fields ih =>
      have hperm : (Json.sortedEntries fields).all (fun e => safeValue H (some e.1) e.2) =
          (fields.map fun e => (e.1, e.2.sorted)).all fun e => safeValue H (some e.1) e.2 := by
        rw [Bool.eq_iff_iff, List.all_eq_true, List.all_eq_true]
        simp only [(Json.sortedEntries_perm fields).mem_iff]
      rw [sorted_dictionary, safeValue, safeValue, safeFields_eq, safeFields_eq, hperm, List.all_map]
      congr 1
      rw [Bool.eq_iff_iff, List.all_eq_true, List.all_eq_true]
      refine forall₂_congr fun e he => ?_
      rw [Function.comp_apply, ih e he]

theorem validateSnapshot_eq_ok_iff :
    validateSnapshot H snapshot = .ok fields ↔
      snapshot = .obj fields ∧ (∃ n, Json.field fields "version" = .int n ∧ 1 ≤ n) ∧
        (Json.obj fields).depth ≤ H.interpreter.platform.jsonDepth ∧
        safeValue H none (.obj fields) = true := by
  unfold validateSnapshot
  constructor
  · intro h
    split at h
    next found =>
      split at h
      next n hversion =>
        split at h
        · cases h
        next hpositive =>
        split at h
        · cases h
        next hdepth =>
        split at h
        next hsafe =>
          cases h
          exact ⟨rfl, ⟨n, hversion, by omega⟩, by omega, hsafe⟩
        · cases h
      · cases h
    · cases h
  · rintro ⟨rfl, ⟨n, hversion, hpositive⟩, hdepth, hsafe⟩
    simp only [hversion, if_neg (Int.not_lt.mpr hpositive), if_neg (Nat.not_lt.mpr hdepth),
      if_pos hsafe]

/-- A snapshot is accepted with its keys in order if it is accepted at all. -/
theorem validateSnapshot_sorted (hnodup : (Entries.keys fields).Nodup)
    (h : validateSnapshot H (.obj fields) = .ok fields) :
    validateSnapshot H (.obj (Json.sortedEntries fields)) = .ok (Json.sortedEntries fields) := by
  obtain ⟨-, ⟨n, hversion, hpositive⟩, hdepth, hsafe⟩ := validateSnapshot_eq_ok_iff.mp h
  refine validateSnapshot_eq_ok_iff.mpr ⟨rfl, ⟨n, ?_, hpositive⟩, ?_, ?_⟩
  · rw [Json.field_sortedEntries hnodup, hversion, Json.sorted_int]
  · rw [← sorted_dictionary]
    exact Json.depth_sorted_le hdepth
  · rw [← sorted_dictionary, safeValue_sorted]
    exact hsafe

theorem serialize_eq_ok_iff :
    serialize H snapshot = .ok data ↔
      ∃ fields text, validateSnapshot H snapshot = .ok fields ∧
        dumps H.interpreter.platform.float snapshotStyle (.obj fields) = some text ∧
        Utf8.encode (text ++ [cp 10]) = some data := by
  unfold serialize
  constructor
  · intro h
    split at h
    · cases h
    next fields hvalid =>
      split at h
      next found hfound =>
        cases h
        obtain ⟨text, htext, hdata⟩ := Option.bind_eq_some_iff.mp hfound
        exact ⟨fields, text, hvalid, htext, hdata⟩
      · cases h
  · rintro ⟨fields, text, hvalid, htext, hdata⟩
    simp only [hvalid, htext, Option.bind_eq_bind, Option.bind_some, hdata]

/-- What `publish` accepts is a dictionary that can be written as it is. -/
theorem verbatim_of_serialize (hwell : snapshot.WellFormed)
    (h : serialize H snapshot = .ok data) :
    ∃ fields, snapshot = .obj fields ∧ Verbatim (.obj fields) := by
  obtain ⟨fields, text, hvalid, htext, hdata⟩ := serialize_eq_ok_iff.mp h
  obtain ⟨rfl, -⟩ := validateSnapshot_eq_ok_iff.mp hvalid
  refine ⟨fields, rfl, verbatim_of_encoded rfl rfl hwell ⟨text, htext, ?_⟩⟩
  rw [Utf8.encode] at hdata
  split at hdata
  next hencodable => exact (Str.encodable_append.mp hencodable).1
  · cases hdata

/-- An accepted snapshot is read back with its keys in order. -/
theorem readValid_of_serialize (hverbatim : Verbatim (.obj fields))
    (h : serialize H (.obj fields) = .ok data) :
    readValid H (some data) = .ok (some (Json.sortedEntries fields)) := by
  obtain ⟨found, text, hvalid, htext, hdata⟩ := serialize_eq_ok_iff.mp h
  obtain ⟨heq, -, hdepth, -⟩ := validateSnapshot_eq_ok_iff.mp hvalid
  cases heq
  have hdecoded : Utf8.decode data = some (text ++ [cp 10]) := Utf8.decodeWith_encode false hdata
  have hnewlines := hverbatim.universalNewlines_line H.faithful htext
  have hloads := hverbatim.loads_line_sorted H.faithful rfl htext hdepth
  rw [sorted_dictionary] at hloads
  have hvalidated := validateSnapshot_sorted hverbatim.nodup hvalid
  simp only [readValid, Option.bind_eq_bind, Option.bind_some, hdecoded, hnewlines, hloads,
    hvalidated]

end ReadBack

section Publishing

variable {name : StateName} {fates : StateStep → Fate} {s : LocalFiles}

/-- The write replaces the file. -/
def replaces (fates : StateStep → Fate) (name : StateName) : Bool :=
  decide (fates (.writeTemporary name) = .works ∧ fates (.replace name) = .works)

/-- The write replaces the file and returns. -/
def returns (fates : StateStep → Fate) (name : StateName) : Bool :=
  replaces fates name && decide (fates (.syncDirectory name) = .works)

theorem storeStep_works {label : StateStep} (h : fates label = .works)
    (change : LocalFiles → LocalFiles) (s : LocalFiles) :
    storeStep label change fates s = (.returned (), change s) :=
  Faulty.perform_works h rfl

theorem storeStep_broken {label : StateStep} (h : fates label ≠ .works)
    (change : LocalFiles → LocalFiles) (s : LocalFiles) :
    (storeStep label change fates s).2 = s ∧ (storeStep label change fates s).1.Unfinished :=
  ⟨Faulty.perform_untouched h fun _ => rfl, Faulty.perform_unfinished h⟩

/-- What follows a broken step is not done. -/
theorem storeStep_bind_broken {label : StateStep} (h : fates label ≠ .works)
    (change : LocalFiles → LocalFiles) (s : LocalFiles)
    (more : Unit → Faulty StateStep LocalFiles StateError Unit) :
    ((storeStep label change >>= more) fates s).2 = s ∧
      ((storeStep label change >>= more) fates s).1 ≠ .returned () := by
  obtain ⟨hstate, hunfinished⟩ := storeStep_broken h change s
  obtain ⟨hending, hsame⟩ := Faulty.bind_unfinished hunfinished
  exact ⟨hsame.trans hstate, hending ()⟩

/-- A write has its effect, and returns, exactly as its steps work. -/
theorem writeAtomic_spec (name : StateName) (data : Bytes) (fates : StateStep → Fate)
    (s : LocalFiles) :
    (writeAtomic name data fates s).2 = (if replaces fates name then s.put name data else s) ∧
      ((writeAtomic name data fates s).1 = .returned () ↔ returns fates name = true) := by
  unfold writeAtomic
  by_cases htemporary : fates (.writeTemporary name) = .works
  · rw [Faulty.bind_returned (storeStep_works htemporary id s)]
    by_cases hreplace : fates (.replace name) = .works
    · have hreplaces : replaces fates name = true := decide_eq_true ⟨htemporary, hreplace⟩
      rw [Faulty.bind_returned (storeStep_works hreplace _ _), if_pos hreplaces, returns, hreplaces,
        Bool.true_and, decide_eq_true_eq]
      by_cases hsync : fates (.syncDirectory name) = .works
      · rw [storeStep_works hsync]
        exact ⟨rfl, fun _ => hsync, fun _ => rfl⟩
      · obtain ⟨hstate, hending⟩ := storeStep_broken hsync id ((id s).put name data)
        exact ⟨hstate, fun h => absurd h (hending ()), fun h => absurd h hsync⟩
    · have hreplaces : replaces fates name = false := by simp [replaces, hreplace]
      obtain ⟨hstate, hending⟩ := storeStep_bind_broken hreplace (·.put name data) (id s)
        (fun _ => storeStep (.syncDirectory name) id)
      rw [hreplaces, returns, hreplaces]
      exact ⟨hstate, fun h => absurd h hending, fun h => by cases h⟩
  · have hreplaces : replaces fates name = false := by simp [replaces, htemporary]
    obtain ⟨hstate, hending⟩ := storeStep_bind_broken htemporary id s
      fun _ => storeStep (.replace name) (·.put name data) >>=
        fun _ => storeStep (.syncDirectory name) id
    rw [hreplaces, returns, hreplaces]
    exact ⟨hstate, fun h => absurd h hending, fun h => by cases h⟩

/-- The call of `publish` replaces the active file. -/
def installs (H : StateHost) (snapshot : Json) (fates : StateStep → Fate) (s : LocalFiles) :
    Bool :=
  match serialize H snapshot, (readActive H fates s).1 with
  | .ok _, .returned none => replaces fates .active
  | .ok _, .returned (some found) =>
      match serialize H (.obj found) with
      | .ok _ => returns fates .previous && replaces fates .active
      | .error _ => false
  | _, _ => false

/-- The call of `publish` replaces the previous file. -/
def replacesPrevious (H : StateHost) (snapshot : Json) (fates : StateStep → Fate)
    (s : LocalFiles) : Bool :=
  match serialize H snapshot, (readActive H fates s).1 with
  | .ok _, .returned (some found) =>
      match serialize H (.obj found) with
      | .ok _ => replaces fates .previous
      | .error _ => false
  | _, _ => false

theorem state_readActive (fates : StateStep → Fate) (s : LocalFiles) :
    (readActive H fates s).2 = s := by
  unfold readActive
  split
  · split
    · rfl
    · rfl
  · rfl
  · rfl

/-- What a call of `publish` leaves. -/
inductive Published (H : StateHost) (snapshot : Json) (fates : StateStep → Fate)
    (s : LocalFiles) : LocalFiles → Bool → Prop
  /-- No file is replaced. -/
  | nothing : installs H snapshot fates s = false → Published H snapshot fates s s false
  /-- The call is broken off between the two files. -/
  | half {kept : Bytes} : replacesPrevious H snapshot fates s = true →
      installs H snapshot fates s = false →
      Published H snapshot fates s (s.put .previous kept) false
  /-- The active file is replaced, with nothing to keep. -/
  | first {data : Bytes} {returned : Bool} : serialize H snapshot = .ok data →
      (readActive H fates s).1 = .returned none → installs H snapshot fates s = true →
      Published H snapshot fates s (s.put .active data) returned
  /-- Both files are replaced. -/
  | both {found : Entries Str Json} {kept data : Bytes} {returned : Bool} :
      serialize H snapshot = .ok data → (readActive H fates s).1 = .returned (some found) →
      serialize H (.obj found) = .ok kept → installs H snapshot fates s = true →
      Published H snapshot fates s ((s.put .previous kept).put .active data) returned

/-- Whether a call came back. -/
def hasReturned (ending : Ending StateError Unit) : Bool := decide (ending = .returned ())

theorem hasReturned_eq_false {ending : Ending StateError Unit} (h : ending ≠ .returned ()) :
    hasReturned ending = false := decide_eq_false h

theorem replaces_of_returns (h : returns fates name = true) : replaces fates name = true :=
  (Bool.and_eq_true_iff.mp h).1

/-- The last write of a call that kept what it found. -/
private theorem published_kept {found : Entries Str Json} {kept : Bytes}
    (hdata : serialize H snapshot = .ok data)
    (hread : (readActive H fates s).1 = .returned (some found))
    (hkept : serialize H (.obj found) = .ok kept) :
    Published H snapshot fates s
      ((writeAtomic .previous kept >>= fun _ => writeAtomic .active data) fates s).2
      (hasReturned
        ((writeAtomic .previous kept >>= fun _ => writeAtomic .active data) fates s).1) := by
  obtain ⟨hstate, hreturns⟩ := writeAtomic_spec .previous kept fates s
  by_cases hprevious : returns fates .previous = true
  · have hfirst : writeAtomic .previous kept fates s = (.returned (), s.put .previous kept) := by
      rw [replaces_of_returns hprevious, if_pos rfl] at hstate
      exact Prod.ext (hreturns.mpr hprevious) hstate
    obtain ⟨hstate', hreturns'⟩ := writeAtomic_spec .active data fates (s.put .previous kept)
    rw [Faulty.bind_returned hfirst, hstate']
    by_cases hactive : replaces fates .active = true
    · rw [if_pos hactive]
      refine .both hdata hread hkept ?_
      simp only [installs, hdata, hread, hkept, hprevious, hactive, Bool.and_self]
    · rw [if_neg hactive]
      rw [hasReturned_eq_false fun h => hactive (replaces_of_returns (hreturns'.mp h))]
      have hreplaced := replaces_of_returns hprevious
      refine .half (by simp only [replacesPrevious, hdata, hread, hkept, hreplaced]) ?_
      simp only [installs, hdata, hread, hkept, Bool.and_eq_false_iff]
      exact .inr (Bool.eq_false_iff.mpr hactive)
  · have hunfinished : (writeAtomic .previous kept fates s).1.Unfinished :=
      fun _ h => hprevious (hreturns.mp h)
    obtain ⟨hending, hsame⟩ := Faulty.bind_unfinished (f := fun _ => writeAtomic .active data)
      hunfinished
    have hnot : installs H snapshot fates s = false := by
      simp only [installs, hdata, hread, hkept, Bool.and_eq_false_iff]
      exact .inl (Bool.eq_false_iff.mpr hprevious)
    rw [hsame, hstate, hasReturned_eq_false (hending ())]
    by_cases hreplaces : replaces fates .previous = true
    · rw [if_pos hreplaces]
      exact .half (by simp only [replacesPrevious, hdata, hread, hkept, hreplaces]) hnot
    · rw [if_neg hreplaces]
      exact .nothing hnot

/-- The ways in which a call of `publish` goes. -/
theorem published (snapshot : Json) (fates : StateStep → Fate) (s : LocalFiles) :
    Published H snapshot fates s (publish H snapshot fates s).2
      (hasReturned (publish H snapshot fates s).1) := by
  unfold publish
  cases hdata : serialize H snapshot with
  | error e => exact .nothing (by simp only [installs, hdata])
  | ok data =>
      have hsame : (readActive H fates s).2 = s := state_readActive fates s
      cases hread : readActive H fates s with
      | mk ending s' =>
          rw [hread] at hsame
          change s' = s at hsame
          subst s'
          dsimp only
          cases ending with
          | raised e =>
              rw [Faulty.bind_raised hread]
              exact .nothing (by simp only [installs, hdata, hread])
          | died =>
              rw [Faulty.bind_died hread]
              exact .nothing (by simp only [installs, hdata, hread])
          | returned found =>
              rw [Faulty.bind_returned hread]
              have hfound : (readActive H fates s).1 = .returned found := by rw [hread]
              cases found with
              | none =>
                  obtain ⟨hstate, hreturns⟩ := writeAtomic_spec .active data fates s
                  change Published H snapshot fates s (writeAtomic .active data fates s).2
                    (hasReturned (writeAtomic .active data fates s).1)
                  rw [hstate]
                  by_cases hactive : replaces fates .active = true
                  · rw [if_pos hactive]
                    refine .first hdata hfound ?_
                    simp only [installs, hdata, hfound, hactive]
                  · rw [if_neg hactive]
                    rw [hasReturned_eq_false fun h =>
                      hactive (replaces_of_returns (hreturns.mp h))]
                    refine .nothing ?_
                    simp only [installs, hdata, hfound]
                    exact Bool.eq_false_iff.mpr hactive
              | some found =>
                  cases hkept : serialize H (.obj found) with
                  | error e =>
                      simp only [keepPrevious, hkept]
                      exact .nothing (by simp only [installs, hdata, hfound, hkept])
                  | ok kept =>
                      simp only [keepPrevious, hkept]
                      exact published_kept hdata hfound hkept

end Publishing

section Runs

/-- A call of `publish` that was made. -/
structure Attempt where
  snapshot : Json
  installed : Bool
  returned : Bool

/-- The snapshot as it is read back. -/
def inOrder : Json → Entries Str Json
  | .obj fields => Json.sortedEntries fields
  | _ => []

/-- The files, the calls that were made, the latest first, and whether the active file became
unreadable since it was last replaced. -/
structure StoreRun where
  files : LocalFiles
  attempts : List Attempt
  damaged : Bool

/-- The snapshots that reached the active file, the latest first. -/
def StoreRun.installed (r : StoreRun) : List (Entries Str Json) :=
  (r.attempts.filter Attempt.installed).map fun a => inOrder a.snapshot

/-- A store in an empty directory. -/
def StoreRun.start : StoreRun := ⟨⟨none, none⟩, [], false⟩

/-- What happens to a store. -/
inductive StoreEvent
  /-- A call of `publish`, with the fate of each of its steps. -/
  | publish (snapshot : Json) (fates : StateStep → Fate)
  /-- The active file gets a content that cannot be read. -/
  | damage (content : Option Bytes)

variable (H : StateHost)

/-- A store after an event. -/
def StoreRun.after (r : StoreRun) : StoreEvent → StoreRun
  | .publish snapshot fates =>
      let installed := installs H snapshot fates r.files
      { files := (publish H snapshot fates r.files).2
        attempts := ⟨snapshot, installed,
          hasReturned (publish H snapshot fates r.files).1⟩ :: r.attempts
        damaged := r.damaged && !installed }
  | .damage content => { r with files := { r.files with active := content }, damaged := true }

/-- A store after a list of events. -/
def StoreRun.run (events : List StoreEvent) : StoreRun := events.foldl (StoreRun.after H) .start

/-- An event that can happen: a snapshot is a dictionary of the language, and damage makes a file
unreadable. -/
def StoreEvent.Possible : StoreEvent → Prop
  | .publish snapshot _ => snapshot.WellFormed
  | .damage content => readValid H content = .ok none

/-- A publish that replaces `previous.json` replaces `active.json` too, and one that replaces
`active.json` found the snapshot in it that was there before. -/
def Unbroken (r : StoreRun) : StoreEvent → Prop
  | .publish snapshot fates =>
      (replacesPrevious H snapshot fates r.files = true →
        installs H snapshot fates r.files = true) ∧
      (installs H snapshot fates r.files = true → r.installed ≠ [] →
        fates .readActive = .works ∧ r.damaged = false)
  | .damage _ => True

variable {H} {r : StoreRun}

/-- What the files hold. -/
structure Kept (H : StateHost) (r : StoreRun) : Prop where
  verbatim : ∀ fields ∈ r.installed, Verbatim (.obj fields) ∧ Json.sortedEntries fields = fields
  active : r.damaged = false → readValid H r.files.active = .ok r.installed[0]?
  damaged : r.damaged = true → readValid H r.files.active = .ok none
  previous : ∀ fields, r.installed[1]? = some fields →
    readValid H r.files.previous = .ok (some fields)
  returned : ∀ a ∈ r.attempts, a.returned = true → a.installed = true

theorem kept_start : Kept H .start where
  verbatim := nofun
  active _ := rfl
  damaged := nofun
  previous := nofun
  returned := nofun

theorem sortedEntries_sortedEntries (fields : Entries Str Json) :
    Json.sortedEntries (Json.sortedEntries fields) = Json.sortedEntries fields := by
  have h := Json.sorted_sorted (.obj fields)
  rw [sorted_dictionary, sorted_dictionary, Json.obj.injEq] at h
  exact h

/-- An accepted snapshot, as it is read back. -/
theorem reads_of_serialize (hwell : snapshot.WellFormed) (h : serialize H snapshot = .ok data) :
    readValid H (some data) = .ok (some (inOrder snapshot)) ∧ Verbatim (.obj (inOrder snapshot)) ∧
      Json.sortedEntries (inOrder snapshot) = inOrder snapshot := by
  obtain ⟨fields, rfl, hverbatim⟩ := verbatim_of_serialize hwell h
  have hsorted := hverbatim.sorted
  rw [sorted_dictionary] at hsorted
  exact ⟨readValid_of_serialize hverbatim h, hsorted, sortedEntries_sortedEntries fields⟩

/-- What was found in the active file is what its content says. -/
theorem readValid_of_readActive {fates : StateStep → Fate} {s : LocalFiles}
    {found : Entries Str Json} (h : (readActive H fates s).1 = .returned (some found)) :
    readValid H s.active = .ok (some found) := by
  unfold readActive at h
  split at h
  · split at h
    next hread =>
      cases h
      exact hread
    · cases h
  · cases h
  · cases h

/-- A publish in a run keeps the files right. -/
theorem Kept.publish {fates : StateStep → Fate} (h : Kept H r) (hwell : snapshot.WellFormed)
    (hunbroken : Unbroken H r (.publish snapshot fates)) :
    Kept H (r.after H (.publish snapshot fates)) := by
  obtain ⟨hwhole, hfinds⟩ := hunbroken
  have hpublished := published (H := H) snapshot fates r.files
  change Kept H ⟨(Personal.publish H snapshot fates r.files).2,
    ⟨snapshot, installs H snapshot fates r.files,
      hasReturned (Personal.publish H snapshot fates r.files).1⟩ :: r.attempts,
    r.damaged && !installs H snapshot fates r.files⟩
  generalize (Personal.publish H snapshot fates r.files).2 = files' at hpublished ⊢
  generalize hasReturned (Personal.publish H snapshot fates r.files).1 = returned at hpublished ⊢
  cases hpublished with
  | nothing hnot =>
      rw [hnot, Bool.not_false, Bool.and_true]
      exact ⟨h.verbatim, h.active, h.damaged, h.previous,
        List.forall_mem_cons.mpr ⟨nofun, h.returned⟩⟩
  | half hprevious hnot =>
      rw [hwhole hprevious] at hnot
      cases hnot
  | first hdata hread hinstalls =>
      obtain ⟨hback, hverbatim⟩ := reads_of_serialize hwell hdata
      have hnone : r.installed = [] := by
        by_contra hne
        obtain ⟨hworks, hdamaged⟩ := hfinds hinstalls hne
        obtain ⟨fields, rest, hcons⟩ := List.exists_cons_of_ne_nil hne
        have hactive := h.active hdamaged
        rw [hcons] at hactive
        rw [readActive, hworks] at hread
        simp only [hactive] at hread
        cases hread
      rw [hinstalls, Bool.not_true, Bool.and_false]
      refine ⟨?_, fun _ => hback, nofun, ?_, List.forall_mem_cons.mpr ⟨fun _ => rfl, h.returned⟩⟩
      · change ∀ fields ∈ inOrder snapshot :: r.installed, _
        exact List.forall_mem_cons.mpr ⟨hverbatim, h.verbatim⟩
      · intro fields hsecond
        change (inOrder snapshot :: r.installed)[1]? = some fields at hsecond
        rw [hnone] at hsecond
        cases hsecond
  | @both found kept data returned hdata hread hkept hinstalls =>
      obtain ⟨hback, hverbatim⟩ := reads_of_serialize hwell hdata
      have hfound := readValid_of_readActive hread
      have hlatest : r.installed[0]? = some found := by
        cases hdamaged : r.damaged with
        | true =>
            rw [h.damaged hdamaged] at hfound
            cases hfound
        | false =>
            rw [h.active hdamaged] at hfound
            exact Except.ok.inj hfound
      obtain ⟨hfoundVerbatim, hordered⟩ := h.verbatim found (List.mem_of_getElem? hlatest)
      rw [hinstalls, Bool.not_true, Bool.and_false]
      refine ⟨?_, fun _ => hback, nofun, ?_, List.forall_mem_cons.mpr ⟨fun _ => rfl, h.returned⟩⟩
      · change ∀ fields ∈ inOrder snapshot :: r.installed, _
        exact List.forall_mem_cons.mpr ⟨hverbatim, h.verbatim⟩
      · intro fields hsecond
        change r.installed[0]? = some fields at hsecond
        rw [hlatest, Option.some.injEq] at hsecond
        subst hsecond
        have hagain := readValid_of_serialize hfoundVerbatim hkept
        rw [hordered] at hagain
        exact hagain

theorem Kept.after {e : StoreEvent} (h : Kept H r) (hpossible : e.Possible H)
    (hunbroken : Unbroken H r e) : Kept H (r.after H e) := by
  cases e with
  | publish snapshot fates => exact h.publish hpossible hunbroken
  | damage content => exact ⟨h.verbatim, nofun, fun _ => hpossible, h.previous, h.returned⟩

variable (H) in
/-- The store, its calls and the damage that can come between them. -/
def stateStore : Machine StoreRun StoreEvent where
  initial r := r = .start
  step r e r' := e.Possible H ∧ r' = r.after H e

/-- What is promised of a store at any point of a run. -/
structure Recovers (H : StateHost) (r : StoreRun) : Prop where
  /-- An accepted snapshot is read back with an equal value. -/
  readBack : ∀ snapshot data, snapshot.WellFormed → serialize H snapshot = .ok data →
    ∃ fields, readValid H (some data) = .ok (some fields) ∧
      Json.equal snapshot (.obj fields) = true
  /-- The last publish that returned, or a failed one after it, is loaded. -/
  latest : r.damaged = false → r.installed ≠ [] →
    ∃ later a earlier, r.attempts = later ++ a :: earlier ∧
      (∀ b ∈ later, b.returned = false) ∧ a.installed = true ∧
      loadLastKnownGood H r.files = .ok (inOrder a.snapshot)
  /-- Without the active file, the snapshot that was in it before is loaded. -/
  previous : r.damaged = true → ∀ fields, r.installed[1]? = some fields →
    loadLastKnownGood H r.files = .ok fields

/-- The calls after the one whose snapshot is in the active file did not return. -/
theorem exists_latest {attempts : List Attempt} {fields : Entries Str Json}
    (hreturned : ∀ a ∈ attempts, a.returned = true → a.installed = true)
    (h : ((attempts.filter Attempt.installed).map fun a => inOrder a.snapshot)[0]? =
      some fields) :
    ∃ later a earlier, attempts = later ++ a :: earlier ∧ (∀ b ∈ later, b.returned = false) ∧
      a.installed = true ∧ inOrder a.snapshot = fields := by
  induction attempts with
  | nil => cases h
  | cons a rest ih =>
      obtain ⟨ha, hrest⟩ := List.forall_mem_cons.mp hreturned
      by_cases hinstalled : a.installed = true
      · rw [List.filter_cons_of_pos hinstalled] at h
        exact ⟨[], a, rest, rfl, nofun, hinstalled, Option.some.inj h⟩
      · rw [List.filter_cons_of_neg hinstalled] at h
        obtain ⟨later, b, earlier, rfl, hlater, hb, hfields⟩ := ih hrest h
        refine ⟨a :: later, b, earlier, rfl, ?_, hb, hfields⟩
        refine List.forall_mem_cons.mpr ⟨?_, hlater⟩
        exact Bool.eq_false_iff.mpr fun hback => hinstalled (ha hback)

theorem Kept.recovers (h : Kept H r) : Recovers H r where
  readBack snapshot data hwell hserialize := by
    obtain ⟨fields, rfl, hverbatim⟩ := verbatim_of_serialize hwell hserialize
    refine ⟨Json.sortedEntries fields, readValid_of_serialize hverbatim hserialize, ?_⟩
    rw [← sorted_dictionary]
    exact hverbatim.equal_sorted
  latest hdamaged hne := by
    obtain ⟨fields, rest, hcons⟩ := List.exists_cons_of_ne_nil hne
    have hfirst : r.installed[0]? = some fields := by rw [hcons]; rfl
    obtain ⟨later, a, earlier, hattempts, hlater, ha, hfields⟩ :=
      exists_latest h.returned hfirst
    refine ⟨later, a, earlier, hattempts, hlater, ha, ?_⟩
    have hactive := h.active hdamaged
    rw [hfirst] at hactive
    rw [loadLastKnownGood, hactive, hfields]
  previous hdamaged fields hsecond := by
    rw [loadLastKnownGood, h.damaged hdamaged, h.previous fields hsecond]

/-- Publishes that are not broken off between the two files, and that find the snapshot that is to
be kept, keep the store recoverable. -/
theorem recovers_of_unbroken (h : (stateStore H).Reachable (Unbroken H) r) : Recovers H r := by
  apply Kept.recovers
  apply h.invariant
  · rintro s rfl
    exact kept_start
  · rintro s e s' hkept hunbroken ⟨hpossible, rfl⟩
    exact hkept.after hpossible hunbroken

end Runs

section Sample

/-- An interpreter for concrete runs. -/
def sampleStateHost : StateHost where
  interpreter := ⟨{ Platform.sample with float := .numbered }, .ascii id, Str.asciiLower⟩
  faithful := FloatText.numbered_faithful
  isAbsoluteWindows _ := false

/-- A snapshot of a version. -/
def versionSnapshot (n : Int) : Json := .obj [(lit "version", .int n)]

theorem wellFormed_versionSnapshot (n : Int) : (versionSnapshot n).WellFormed := by
  simp [versionSnapshot, Json.WellFormed, Json.WellFormedFields, Entries.keys]

/-- Every step works but one. -/
def failingAt (label : StateStep) : StateStep → Fate :=
  fun l => if l = label then .fails false else .works

/-- Two snapshots are published, and the active file is lost. -/
def calmRun : List StoreEvent :=
  [.publish (versionSnapshot 1) fun _ => .works, .publish (versionSnapshot 2) fun _ => .works,
    .damage none]

theorem recovers_of_unbroken_sample :
    Recovers sampleStateHost (StoreRun.run sampleStateHost calmRun) := by
  have hpublish (r : StoreRun) (n : Int)
      (h : (stateStore sampleStateHost).Reachable (Unbroken sampleStateHost) r)
      (hinstalls : installs sampleStateHost (versionSnapshot n) (fun _ => .works) r.files = true)
      (hdamaged : r.damaged = false) :
      (stateStore sampleStateHost).Reachable (Unbroken sampleStateHost)
        (r.after sampleStateHost (.publish (versionSnapshot n) fun _ => .works)) := by
    have hunbroken : Unbroken sampleStateHost r (.publish (versionSnapshot n) fun _ => .works) :=
      ⟨fun _ => hinstalls, fun _ _ => ⟨rfl, hdamaged⟩⟩
    exact h.next hunbroken ⟨wellFormed_versionSnapshot n, rfl⟩
  have hfirst := hpublish .start 1 (.start rfl) (by decide +kernel) rfl
  have hsecond := hpublish _ 2 hfirst (by decide +kernel) (by decide +kernel)
  have hdamage (r : StoreRun) : Unbroken sampleStateHost r (.damage none) := trivial
  exact recovers_of_unbroken (hsecond.next (hdamage _) ⟨rfl, rfl⟩)

/-- The third publish fails between the two files, and then the active file is lost. -/
def brokenRun : List StoreEvent :=
  [.publish (versionSnapshot 1) fun _ => .works, .publish (versionSnapshot 2) fun _ => .works,
    .publish (versionSnapshot 3) (failingAt (.replace .active)), .damage none]

/-- The version of the snapshot that is loaded. -/
def loadedVersion (H : StateHost) (s : LocalFiles) : Option Int :=
  match loadLastKnownGood H s with
  | .ok fields =>
      match Json.field fields "version" with
      | .int n => some n
      | _ => none
  | .error _ => none

/-- The snapshot that was in the active file is loaded, and not the one before it. -/
theorem previous_lost_by_failed_publish :
    ∃ r, (stateStore sampleStateHost).Reachable Machine.anyStep r ∧ r.damaged = true ∧
      r.installed[0]? = some (inOrder (versionSnapshot 2)) ∧
      r.installed[1]? = some (inOrder (versionSnapshot 1)) ∧
      loadedVersion sampleStateHost r.files = some 2 ∧ ¬ Recovers sampleStateHost r := by
  have hdamaged : (StoreRun.run sampleStateHost brokenRun).damaged = true := by decide +kernel
  have hload : loadedVersion sampleStateHost (StoreRun.run sampleStateHost brokenRun).files =
      some 2 := by
    decide +kernel
  have hflags : (StoreRun.run sampleStateHost brokenRun).attempts.map Attempt.installed =
      [false, true, true] := by
    decide +kernel
  have hsnapshots : (StoreRun.run sampleStateHost brokenRun).attempts.map Attempt.snapshot =
      [versionSnapshot 3, versionSnapshot 2, versionSnapshot 1] := rfl
  have hinstalled : (StoreRun.run sampleStateHost brokenRun).installed =
      [inOrder (versionSnapshot 2), inOrder (versionSnapshot 1)] := by
    unfold StoreRun.installed
    generalize (StoreRun.run sampleStateHost brokenRun).attempts = attempts at hflags hsnapshots
    match attempts, hflags, hsnapshots with
    | [⟨_, _, _⟩, ⟨_, _, _⟩, ⟨_, _, _⟩], rfl, rfl => rfl
  refine ⟨StoreRun.run sampleStateHost brokenRun, ?_, hdamaged, by rw [hinstalled]; rfl,
    by rw [hinstalled]; rfl, hload, ?_⟩
  · apply Machine.Reachable.foldl _ (.start rfl)
    intro r e he
    refine ⟨?_, rfl⟩
    simp only [brokenRun, List.mem_cons, List.not_mem_nil, or_false] at he
    rcases he with rfl | rfl | rfl | rfl
    · exact wellFormed_versionSnapshot 1
    · exact wellFormed_versionSnapshot 2
    · exact wellFormed_versionSnapshot 3
    · rfl
  · intro h
    have hprevious := h.previous hdamaged (inOrder (versionSnapshot 1)) (by rw [hinstalled]; rfl)
    have hversion : loadedVersion sampleStateHost (StoreRun.run sampleStateHost brokenRun).files =
        some 1 := by
      rw [loadedVersion, hprevious]
      rfl
    rw [hload] at hversion
    cases hversion

end Sample

end MediaBridge.Personal
