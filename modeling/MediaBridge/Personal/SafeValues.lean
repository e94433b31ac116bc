import MediaBridge.Foundation.JsonEntries
import MediaBridge.Personal.LocalStateRuns

/-!
# What the state files hold

No file of the store has an entry with a forbidden name, and none has a path that is absolute right
under a key ending in `_path`. The checks of `_validate_safe_values` lose that key when they go on
to the items of a list, so a path in a list is written.

## Implementation notes

Names are compared as the checks compare them, in lower case.
-/

namespace MediaBridge.Personal

open Foundation MediaBridge.Core JsonText

section Values

variable (H : StateHost)

/-- The key ends in `_path`, in any letter case. -/
def IsPathKey (key : Str) : Prop := lit "_path" <:+ H.interpreter.unicode.lower key

/-- The path is absolute on one of the two platforms. -/
def isAbsolute (s : Str) : Bool := isAbsolutePosix s || H.isAbsoluteWindows s

/-- A value that is an absolute path, or a list that holds one at any depth. -/
inductive HoldsPath : Json → Prop
  | path {s : Str} : isAbsolute H s = true → HoldsPath (.str s)
  | item {items : List Json} {v : Json} : v ∈ items → HoldsPath v → HoldsPath (.arr items)

/-- An entry of a state file that is safe. -/
structure SafeEntry (key : Str) (v : Json) : Prop where
  allowed : H.interpreter.unicode.lower key ∉ forbiddenFieldNames
  noPath : IsPathKey H key → ¬ HoldsPath H v

/-- All entries at any depth are safe. -/
def SafeContents (v : Json) : Prop := v.Everywhere (SafeEntry H)

/-- The entry has no path in a list. -/
def Unlisted (key : Str) (v : Json) : Prop :=
  ∀ items, v = .arr items → IsPathKey H key → ¬ HoldsPath H v

/-- No key ending in `_path` has an absolute path in its lists. -/
def NoListedPath (v : Json) : Prop := v.Everywhere (Unlisted H)

variable {H} {v : Json} {key s : Str} {items : List Json}

theorem holdsPath_arr_iff : HoldsPath H (.arr items) ↔ ∃ v ∈ items, HoldsPath H v :=
  ⟨fun h => by cases h with | item hv h => exact ⟨_, hv, h⟩, fun ⟨_, hv, h⟩ => .item hv h⟩

theorem holdsPath_sorted (v : Json) : HoldsPath H v.sorted ↔ HoldsPath H v := by
  induction v using Json.induct with
  | null => rw [Json.sorted_null]
  | bool b => rw [Json.sorted_bool]
  | int n => rw [Json.sorted_int]
  | float bits => rw [Json.sorted_float]
  | str s => rw [Json.sorted_str]
  | arr items ih =>
      rw [Json.sorted_arr, holdsPath_arr_iff, holdsPath_arr_iff]
      simp only [List.mem_map, exists_exists_and_eq_and]
      exact exists_congr fun v => and_congr_right fun hv => ih v hv
  | obj fields ih =>
      rw [Json.sorted_obj]
      exact ⟨nofun, nofun⟩

theorem safeEntry_sorted (key : Str) (v : Json) :
    SafeEntry H key v.sorted ↔ SafeEntry H key v := by
  constructor
  · exact fun h => ⟨h.allowed, fun hkey hpath => h.noPath hkey ((holdsPath_sorted v).mpr hpath)⟩
  · exact fun h => ⟨h.allowed, fun hkey hpath => h.noPath hkey ((holdsPath_sorted v).mp hpath)⟩

/-- What the checks of a name and its value allow. -/
theorem safeName_iff :
    safeName H (some key) v = true ↔ H.interpreter.unicode.lower key ∉ forbiddenFieldNames ∧
      ∀ s, v = .str s → IsPathKey H key → isAbsolute H s = false := by
  unfold safeName
  rw [Bool.and_eq_true, decide_eq_true_eq]
  refine and_congr_right fun _ => ?_
  cases v with
  | str s =>
      simp only [Bool.not_eq_true', Bool.and_eq_false_imp, decide_eq_true_eq]
      constructor
      · rintro h s' heq
        cases heq
        exact h
      · exact fun h => h s rfl
  | _ => exact ⟨fun _ => nofun, fun _ => rfl⟩

/-- An entry that the checks allow is safe unless its path is in a list. -/
theorem safeEntry_iff (h : safeName H (some key) v = true) :
    SafeEntry H key v ↔ Unlisted H key v := by
  obtain ⟨hallowed, hdirect⟩ := safeName_iff.mp h
  constructor
  · exact fun hsafe _ _ => hsafe.noPath
  · intro hunlisted
    refine ⟨hallowed, fun hkey hpath => ?_⟩
    cases hpath with
    | path habsolute => exact Bool.eq_false_iff.mp (hdirect _ rfl hkey) habsolute
    | item hv hpath => exact hunlisted _ rfl hkey (.item hv hpath)

/-- The checks look at every entry. -/
theorem safeValue_iff (v : Json) (name : Option Str) :
    safeValue H name v = true ↔ safeName H name v = true ∧
      v.Everywhere fun key w => safeName H (some key) w = true := by
  induction v using Json.induct generalizing name with
  | null => exact (and_iff_left (Json.everywhere_of_flat fun _ h => by cases h)).symm
  | bool b => exact (and_iff_left (Json.everywhere_of_flat fun _ h => by cases h)).symm
  | int n => exact (and_iff_left (Json.everywhere_of_flat fun _ h => by cases h)).symm
  | float bits => exact (and_iff_left (Json.everywhere_of_flat fun _ h => by cases h)).symm
  | str s => exact (and_iff_left (Json.everywhere_of_flat fun _ h => by cases h)).symm
  | arr items ih =>
      rw [safeValue, Bool.and_eq_true, safeItems_eq, List.all_eq_true, Json.everywhere_arr_iff]
      refine and_congr_right fun _ => forall₂_congr fun v hv => ?_
      rw [ih v hv none]
      exact and_iff_right rfl
  | obj fields ih =>
      rw [safeValue, Bool.and_eq_true, safeFields_eq, List.all_eq_true, Json.everywhere_obj_iff]
      exact and_congr_right fun _ => forall₂_congr fun e he => ih e he (some e.1)

/-- A value that the checks accept is safe exactly if no path is in a list. -/
theorem safeContents_iff (h : safeValue H none v = true) :
    SafeContents H v ↔ NoListedPath H v := by
  have hnames := ((safeValue_iff v none).mp h).2
  exact forall₂_congr fun fields hfields => forall₂_congr fun e he =>
    safeEntry_iff (hnames fields hfields e he)

end Values

section Files

variable {H : StateHost} {snapshot : Json} {fields : Entries Str Json} {data : Bytes}
  {fates : StateStep → Fate} {s s' : LocalFiles}

/-- The file can be read, and holds safe values. -/
def SafeFile (H : StateHost) (data : Bytes) : Prop :=
  ∃ text v, Utf8.decode data = some text ∧
    JsonText.loads H.interpreter.platform.float H.interpreter.platform.jsonDepth
      (Str.universalNewlines text) = .ok v ∧ SafeContents H v

/-- The snapshot that a call finds in the active file. -/
def foundSnapshot (H : StateHost) (fates : StateStep → Fate) (s : LocalFiles) :
    Option (Entries Str Json) :=
  match (readActive H fates s).1 with
  | .returned found => found
  | _ => none

/-- The files that a call wrote hold safe values: the active one, and the previous one if a
snapshot was found. -/
structure WroteSafely (H : StateHost) (fates : StateStep → Fate) (s s' : LocalFiles) : Prop where
  active : ∀ data, s'.active = some data → SafeFile H data
  previous : foundSnapshot H fates s ≠ none → ∀ data, s'.previous = some data → SafeFile H data

/-- What is found in the active file was read from it. -/
theorem wellFormed_of_found (h : foundSnapshot H fates s = some fields) :
    (Json.obj fields).WellFormed := by
  have hread : (readActive H fates s).1 = .returned (some fields) := by
    unfold foundSnapshot at h
    split at h
    next hfound => rw [hfound, h]
    · cases h
  have hvalid := readValid_of_readActive hread
  unfold readValid at hvalid
  split at hvalid
  · cases hvalid
  next text htext =>
    obtain ⟨_, -, hdecoded⟩ := Option.bind_eq_some_iff.mp htext
    have hencodable := Str.encodable_universalNewlines (Utf8.encodable_of_decode hdecoded)
    split at hvalid
    · cases hvalid
    · cases hvalid
    next v hv =>
      split at hvalid
      next found hfound =>
        cases hvalid
        obtain ⟨rfl, -⟩ := validateSnapshot_eq_ok_iff.mp hfound
        exact (readable_of_loads H.faithful hencodable hv).1.wellFormed
      · cases hvalid
      · cases hvalid

/-- A written document is safe exactly if no path is in a list. -/
theorem safeFile_iff (hwell : (Json.obj fields).WellFormed)
    (h : serialize H (.obj fields) = .ok data) :
    SafeFile H data ↔ NoListedPath H (.obj fields) := by
  obtain ⟨found, text, hvalid, htext, hdata⟩ := serialize_eq_ok_iff.mp h
  obtain ⟨heq, -, hdepth, hsafe⟩ := validateSnapshot_eq_ok_iff.mp hvalid
  cases heq
  obtain ⟨_, heq, hverbatim⟩ := verbatim_of_serialize hwell h
  cases heq
  have hdecoded : Utf8.decode data = some (text ++ [cp 10]) := Utf8.decodeWith_encode false hdata
  have hloads := hverbatim.loads_line_sorted H.faithful rfl htext hdepth
  rw [← hverbatim.universalNewlines_line H.faithful htext] at hloads
  rw [← safeContents_iff hsafe]
  unfold SafeContents
  rw [← Json.everywhere_sorted safeEntry_sorted]
  constructor
  · rintro ⟨text', v, htext', hv, hcontents⟩
    cases hdecoded.symm.trans htext'
    cases hloads.symm.trans hv
    exact hcontents
  · exact fun hcontents => ⟨_, _, hdecoded, hloads, hcontents⟩

/-- What a call of `publish` leaves in the files if it returns. -/
theorem files_of_publish (h : publish H snapshot fates s = (.returned (), s')) :
    ∃ data, serialize H snapshot = .ok data ∧ s'.active = some data ∧
      ∀ fields, foundSnapshot H fates s = some fields →
        ∃ kept, serialize H (.obj fields) = .ok kept ∧ s'.previous = some kept := by
  have hpublished := published (H := H) snapshot fates s
  rw [h] at hpublished
  generalize hleft : ((Ending.returned () : Ending StateError Unit), s').2 = left at hpublished
  generalize hreturned : hasReturned ((Ending.returned () : Ending StateError Unit), s').1 = b
    at hpublished
  cases hpublished with
  | nothing _ => cases hreturned
  | half _ _ => cases hreturned
  | first hdata hfound _ =>
      cases hleft
      refine ⟨_, hdata, rfl, fun fields hfields => ?_⟩
      unfold foundSnapshot at hfields
      rw [hfound] at hfields
      cases hfields
  | both hdata hfound hkept _ =>
      cases hleft
      refine ⟨_, hdata, rfl, fun fields hfields => ?_⟩
      unfold foundSnapshot at hfields
      rw [hfound] at hfields
      cases hfields
      exact ⟨_, hkept, rfl⟩

/-- What `publish` accepts is written safely exactly if neither the snapshot nor the one that was
found in the active file has an absolute path in a list under a key ending in `_path`. -/
theorem wroteSafely_iff (hwell : snapshot.WellFormed)
    (h : publish H snapshot fates s = (.returned (), s')) :
    WroteSafely H fates s s' ↔ NoListedPath H snapshot ∧
      ∀ fields, foundSnapshot H fates s = some fields → NoListedPath H (.obj fields) := by
  obtain ⟨data, hdata, hactive, hprevious⟩ := files_of_publish h
  obtain ⟨fields, rfl, -⟩ := verbatim_of_serialize hwell hdata
  constructor
  · rintro ⟨hsafe, hkept⟩
    refine ⟨(safeFile_iff hwell hdata).mp (hsafe data hactive), fun found hfound => ?_⟩
    obtain ⟨kept, hserialized, hput⟩ := hprevious found hfound
    refine (safeFile_iff (wellFormed_of_found hfound) hserialized).mp (hkept ?_ kept hput)
    rw [hfound]
    exact Option.some_ne_none found
  · rintro ⟨hsnapshot, hfound⟩
    constructor
    · intro data' hdata'
      cases hactive.symm.trans hdata'
      exact (safeFile_iff hwell hdata).mpr hsnapshot
    · intro hsome data' hdata'
      obtain ⟨found, hread⟩ := Option.ne_none_iff_exists'.mp hsome
      obtain ⟨kept, hserialized, hput⟩ := hprevious found hread
      cases hput.symm.trans hdata'
      exact (safeFile_iff (wellFormed_of_found hread) hserialized).mpr (hfound found hread)

end Files

section Samples

/-- A snapshot with a path in a list. -/
def listedSnapshot : Json :=
  .obj [(lit "version", .int 1), (lit "log_path", .arr [.str (lit "/var/log")])]

theorem publish_sample (snapshot : Json) (s : LocalFiles)
    (h : (publish sampleStateHost snapshot (fun _ => .works) s).1 = .returned ()) :
    publish sampleStateHost snapshot (fun _ => .works) s =
      (.returned (), (publish sampleStateHost snapshot (fun _ => .works) s).2) :=
  Prod.ext h rfl

theorem noListedPath_version (n : Int) : NoListedPath sampleStateHost (versionSnapshot n) := by
  refine Json.everywhere_obj_iff.mpr (List.forall_mem_singleton.mpr ⟨nofun, ?_⟩)
  exact Json.everywhere_of_flat fun _ h => by cases h

def isVersion (n : Int) : Option (Entries Str Json) → Bool
  | some [(key, .int m)] => key == lit "version" && m == n
  | _ => false

theorem eq_of_isVersion {n : Int} {found : Option (Entries Str Json)}
    (h : isVersion n found = true) : found = some [(lit "version", .int n)] := by
  unfold isVersion at h
  split at h
  · rw [Bool.and_eq_true, beq_iff_eq, beq_iff_eq] at h
    rw [h.1, h.2]
  · cases h

/-- The second version is written, and the first is kept. -/
theorem wroteSafely_versions :
    let first := (publish sampleStateHost (versionSnapshot 1) (fun _ => .works) ⟨none, none⟩).2
    foundSnapshot sampleStateHost (fun _ => .works) first = some [(lit "version", .int 1)] ∧
      WroteSafely sampleStateHost (fun _ => .works) first
        (publish sampleStateHost (versionSnapshot 2) (fun _ => .works) first).2 := by
  intro first
  have hfound : foundSnapshot sampleStateHost (fun _ => .works) first =
      some [(lit "version", .int 1)] := eq_of_isVersion (by decide +kernel)
  refine ⟨hfound, (wroteSafely_iff (wellFormed_versionSnapshot 2)
    (publish_sample _ first (by decide +kernel))).mpr ⟨noListedPath_version 2, ?_⟩⟩
  intro fields hfields
  cases hfound.symm.trans hfields
  exact noListedPath_version 1

/-- The path is written. -/
theorem listed_path_written :
    (publish sampleStateHost listedSnapshot (fun _ => .works) ⟨none, none⟩).1 = .returned () ∧
      ¬ WroteSafely sampleStateHost (fun _ => .works) ⟨none, none⟩
        (publish sampleStateHost listedSnapshot (fun _ => .works) ⟨none, none⟩).2 := by
  have hreturned : (publish sampleStateHost listedSnapshot (fun _ => .works) ⟨none, none⟩).1 =
      .returned () := by decide +kernel
  have hwell : listedSnapshot.WellFormed := by
    simp only [listedSnapshot, Json.WellFormed, Json.WellFormedFields, Json.WellFormedItems,
      and_true]
    decide
  refine ⟨hreturned, fun hsafe => ?_⟩
  obtain ⟨data, hdata, hactive, -⟩ := files_of_publish (publish_sample _ _ hreturned)
  have hnone := (safeFile_iff hwell hdata).mp (hsafe.active data hactive)
  have hentry := hnone _ (.here _) (lit "log_path", .arr [.str (lit "/var/log")])
    (List.mem_cons_of_mem _ List.mem_cons_self)
  have hkey : IsPathKey sampleStateHost (lit "log_path") :=
    show lit "_path" <:+ sampleStateHost.interpreter.unicode.lower (lit "log_path") by decide
  exact hentry _ rfl hkey (.item List.mem_cons_self (.path (by decide)))

end Samples

end MediaBridge.Personal
