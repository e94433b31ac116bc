import MediaBridge.Core.Contracts
import MediaBridge.Core.Gate
import MediaBridge.Foundation.Raise

/-!
# Local media

`acquire` of `media_bridge/acquisition.py` for a local path, and `_read_local`, which looks at the
path several times before it opens it. The directories can change between any two of these looks.

## Implementation notes

A path is its anchor with its components, in the case in which the platform compares them; what
`os.path.abspath` makes of a text is a function of the platform. Every call of the file system sees
the state of its own moment. The table of links in `os.path.realpath` is left out: a link that is
met again is read again. The validation of images and PDF documents is code of other packages.
-/

namespace MediaBridge.Core.LocalMedia

open Foundation

section Files

/-- An absolute path: a root or a drive, and the components under it. -/
structure FsPath where
  anchor : Str
  parts : List Str
deriving DecidableEq

def FsPath.child (p : FsPath) (name : Str) : FsPath := ⟨p.anchor, p.parts ++ [name]⟩

def FsPath.parent (p : FsPath) : FsPath := ⟨p.anchor, p.parts.dropLast⟩

/-- What a directory holds under a name. A link leads to components under an anchor, or under the
directory it is in. -/
inductive Entry
  | directory
  | file (node : Nat)
  | link (anchor : Option Str) (parts : List Str)
  | special (node : Nat)
deriving DecidableEq

/-- The file system at a moment. -/
structure FileSystem where
  entry : FsPath → Option Entry
  content : Nat → Bytes
  /-- The `st_size` of what is no regular file. -/
  otherSize : FsPath → Nat

def dotdot : Str := lit ".."

variable (fs : FileSystem) (limit : Nat)

def FileSystem.isDirectory (p : FsPath) : Bool :=
  p.parts.isEmpty || decide (fs.entry p = some .directory)

/-- Where a path leads, all links followed, in at most so many steps. -/
def walk : Nat → FsPath → List Str → Option FsPath
  | _, current, [] => some current
  | 0, _, _ :: _ => none
  | fuel + 1, current, name :: rest =>
      if name = dotdot then walk fuel current.parent rest
      else if ¬ fs.isDirectory current then none
      else
        match fs.entry (current.child name) with
        | none => none
        | some (.link none parts) => walk fuel current (parts ++ rest)
        | some (.link (some anchor) parts) => walk fuel ⟨anchor, []⟩ (parts ++ rest)
        | some _ => walk fuel (current.child name) rest

/-- `lstat`: the links of the directories are followed, and not the last one. -/
def lstat (p : FsPath) : Option Entry :=
  match p.parts.getLast? with
  | none => some .directory
  | some name =>
      match walk fs limit ⟨p.anchor, []⟩ p.parts.dropLast with
      | none => none
      | some directory => if fs.isDirectory directory then fs.entry (directory.child name) else none

/-- `stat`. -/
def stat (p : FsPath) : Option Entry :=
  match walk fs limit ⟨p.anchor, []⟩ p.parts with
  | none => none
  | some found => if found.parts.isEmpty then some .directory else fs.entry found

def isLink : Option Entry → Bool
  | some (.link _ _) => true
  | _ => false

end Files

section Acquisition

/-- Why no media is returned. -/
inductive AcquireError
  /-- The `AcquisitionError`. -/
  | acquisition (message : String)
  /-- An `OSError`. -/
  | system
deriving DecidableEq

/-- What the acquirer runs on. -/
structure LocalHost where
  /-- `Path(os.path.abspath(text))`. -/
  absolute : Str → FsPath
  normal : ∀ text, dotdot ∉ (absolute text).parts
  /-- `Path(text).name`. -/
  fileName : Str → Str
  /-- `text.lower()`. -/
  lower : Str → Str
  /-- How many steps a path may take. -/
  limit : Nat
  /-- `_validate_image` and `_validate_pdf` do not raise. -/
  validates : MediaType → Bytes → Bool

structure AcquisitionPolicy where
  allowLocal : Bool
  localRoots : List FsPath

structure MediaLimits where
  maxBytes : Nat

variable (H : LocalHost) (states : Nat → FileSystem)

/-- `Path.resolve(strict=True)` from a moment on, and the moment after it. -/
def resolve : Nat → Nat → FsPath → List Str → Option (FsPath × Nat)
  | _, t, current, [] => some (current, t)
  | 0, _, _, _ :: _ => none
  | fuel + 1, t, current, name :: rest =>
      if name = dotdot then resolve fuel t current.parent rest
      else
        match lstat (states t) H.limit (current.child name) with
        | none => none
        | some (.link _ _) =>
            -- the target is read in a second call
            match lstat (states (t + 1)) H.limit (current.child name) with
            | some (.link none parts) => resolve fuel (t + 2) current (parts ++ rest)
            | some (.link (some anchor) parts) => resolve fuel (t + 2) ⟨anchor, []⟩ (parts ++ rest)
            | _ => none
        | some _ => resolve fuel (t + 1) (current.child name) rest

/-- `path.relative_to(root)`. -/
def relativeTo (path root : FsPath) : Option (List Str) :=
  if path.anchor = root.anchor ∧ root.parts <+: path.parts then
    some (path.parts.drop root.parts.length)
  else none

/-- The root that the path is under, with the components under it, and the moment after. -/
def matchedRoot (lexical : FsPath) :
    Nat → List FsPath → Except AcquireError (FsPath × List Str × Nat)
  | _, [] => .error (.acquisition "local path is outside the configured roots")
  | t, configured :: rest =>
      match resolve H states H.limit t ⟨configured.anchor, []⟩ configured.parts with
      | none => .error .system
      | some (root, t) =>
          if isLink (lstat (states t) H.limit configured) then
            .error (.acquisition "configured local root cannot be a symlink")
          else
            match relativeTo lexical root with
            | none => matchedRoot lexical (t + 1) rest
            | some relative => .ok (root, relative, t + 1)

/-- No component under the root is a link; the moment after the checks. -/
def checkComponents : Nat → FsPath → List Str → Except AcquireError Nat
  | t, _, [] => .ok t
  | t, current, name :: rest =>
      if isLink (lstat (states t) H.limit (current.child name)) then
        .error (.acquisition "local path symlinks are not permitted")
      else checkComponents (t + 1) (current.child name) rest

/-- What the checks found: the root, and the moments between which the path was resolved. -/
structure Checked where
  root : FsPath
  started : Nat
  resolved : Nat
deriving DecidableEq

/-- The moment at which the file is opened, and the one at which it is read. -/
def Checked.opened (c : Checked) : Nat := c.resolved + 2

def Checked.read (c : Checked) : Nat := c.resolved + 3

variable (policy : AcquisitionPolicy) (limits : MediaLimits)

/-- The checks of `_read_local` up to `resolve`. -/
def checkPath (sourcePath : Str) : Except AcquireError Checked :=
  if ¬ policy.allowLocal then .error (.acquisition "local path media input is disabled")
  else if (H.absolute sourcePath).anchor = [] then
    .error (.acquisition "local path must be absolute")
  else do
    let lexical := H.absolute sourcePath
    let (root, relative, t) ← matchedRoot H states lexical 0 policy.localRoots
    let started ← checkComponents H states t root relative
    match resolve H states H.limit started ⟨lexical.anchor, []⟩ lexical.parts with
    | none => .error (.acquisition "local media path is unavailable")
    | some (found, resolved) =>
        if found ≠ lexical then .error (.acquisition "local media path is not a regular direct file")
        else .ok ⟨root, started, resolved⟩

/-- The `st_size` of what lies at a path. -/
def entrySize (fs : FileSystem) (path : FsPath) : Entry → Nat
  | .file node => (fs.content node).length
  | _ => fs.otherSize path

/-- `_read_local`. -/
def readLocal (sourcePath : Str) : Except AcquireError Bytes := do
  let lexical := H.absolute sourcePath
  let c ← checkPath H states policy sourcePath
  match stat (states c.resolved) H.limit lexical with
  | some (.file _) =>
      match stat (states (c.resolved + 1)) H.limit lexical with
      | none => .error .system
      | some entry =>
          if limits.maxBytes < entrySize (states (c.resolved + 1)) lexical entry then
            .error (.acquisition "media exceeds the configured byte limit")
          else
            match stat (states c.opened) H.limit lexical with
            | some (.file node) => .ok ((states c.read).content node)
            | some (.special node) => .ok ((states c.read).content node)
            | _ => .error .system
  | _ => .error (.acquisition "local media path is not a regular direct file")

/-- The bytes of a constant. -/
def bytesOf (text : String) : Bytes := (lit text).map fun c => Utf8.byte c.val

/-- `_detect_content`. -/
def detectContent (data : Bytes) : Except AcquireError (MediaType × Str) :=
  if [137, 80, 78, 71, 13, 10, 26, 10] <+: data then .ok (.image, lit "image/png")
  else if [255, 216, 255] <+: data then .ok (.image, lit "image/jpeg")
  else if 12 ≤ data.length ∧ bytesOf "RIFF" <+: data ∧
      (data.drop 8).take 4 = bytesOf "WEBP" then .ok (.image, lit "image/webp")
  else if bytesOf "%PDF-" <+: data then .ok (.pdf, lit "application/pdf")
  else .error (.acquisition "unsupported or unrecognized media content")

/-- `declared_mime.partition(";")[0].strip().lower()`. -/
def normalizedMime (mime : Str) : Str := H.lower (Str.strip (mime.takeWhile (· ≠ cp 59)))

/-- `acquire` of a part with a local path. -/
def acquireLocal (part : MediaPart) (sourcePath : Str) : Except AcquireError AcquiredMedia := do
  let data ← readLocal H states policy limits sourcePath
  if limits.maxBytes < data.length then
    .error (.acquisition "media exceeds the configured byte limit")
  else
    let (detected, mime) ← detectContent data
    if detected ≠ part.mediaType then
      .error (.acquisition "declared media type does not match content")
    else if part.declaredMime.any fun m => normalizedMime H m.value ≠ mime then
      .error (.acquisition "declared MIME does not match content")
    else if ¬ H.validates detected data then
      .error (.acquisition "media content is malformed")
    else
      .ok { data, mediaType := detected.value, mimeType := mime
            filename :=
              match part.filename with
              | some name =>
                  some (if name.value.isEmpty then H.fileName sourcePath else name.value)
              | none => some (H.fileName sourcePath)
            forbiddenLocators := [sourcePath] }

end Acquisition

section Confinement

variable (H : LocalHost) (states : Nat → FileSystem) (policy : AcquisitionPolicy)
  (limits : MediaLimits)

/-- The paths of the directories that a path goes through, and the path itself. -/
def OnPath (p path : FsPath) : Prop := p.anchor = path.anchor ∧ p.parts <+: path.parts ∧ p.parts ≠ []

/-- The media are the bytes of a regular file that lay under an allowed root, reached without a
link, when it was opened. -/
structure Confined (part : MediaPart) (sourcePath : Str) (media : AcquiredMedia) : Prop where
  enabled : policy.allowLocal = true
  size : media.data.length ≤ limits.maxBytes
  kind : ∃ mime, detectContent media.data = .ok (part.mediaType, mime)
  inside : ∃ c, checkPath H states policy sourcePath = .ok c ∧
    (∃ configured ∈ policy.localRoots, ∃ t t', resolve H states H.limit t
      ⟨configured.anchor, []⟩ configured.parts = some (c.root, t')) ∧
    c.root.anchor = (H.absolute sourcePath).anchor ∧
    c.root.parts <+: (H.absolute sourcePath).parts ∧
    (∀ p, OnPath p (H.absolute sourcePath) → ¬ isLink (lstat (states c.opened) H.limit p)) ∧
    ∃ node, (states c.opened).entry (H.absolute sourcePath) = some (.file node) ∧
      media.data = (states c.read).content node

/-- Since the path began to be resolved, no entry on it that was there without being a link has
turned into a link, and no regular file at its end into a special one, when it is opened. -/
structure Undisturbed (sourcePath : Str) : Prop where
  links : ∀ c, checkPath H states policy sourcePath = .ok c →
    ∀ p, OnPath p (H.absolute sourcePath) → ∀ t, c.started ≤ t → t < c.opened → ∀ entry,
      lstat (states t) H.limit p = some entry → ¬ isLink (some entry) →
        ¬ isLink (lstat (states c.opened) H.limit p)
  regular : ∀ c, checkPath H states policy sourcePath = .ok c →
    ∀ t, c.started ≤ t → t < c.opened → ∀ node,
      stat (states t) H.limit (H.absolute sourcePath) = some (.file node) →
        ∀ node', stat (states c.opened) H.limit (H.absolute sourcePath) ≠ some (.special node')

end Confinement

section Walking

variable {fs : FileSystem} {limit : Nat} {anchor : Str}

/-- The components lead from a directory straight on, through no link. -/
def Straight (fs : FileSystem) (anchor : Str) : List Str → List Str → Prop
  | _, [] => True
  | base, name :: rest => (name ≠ dotdot ∧ fs.isDirectory ⟨anchor, base⟩ = true ∧
      ∃ entry, fs.entry ⟨anchor, base ++ [name]⟩ = some entry ∧ ¬ isLink (some entry)) ∧
      Straight fs anchor (base ++ [name]) rest

theorem straight_append {base first rest : List Str} :
    Straight fs anchor base (first ++ rest) ↔
      Straight fs anchor base first ∧ Straight fs anchor (base ++ first) rest := by
  induction first generalizing base with
  | nil => simp [Straight]
  | cons name first ih => simp [Straight, ih, and_assoc]

theorem walk_step {fuel : Nat} {base : List Str} {name : Str} {rest : List Str} {entry : Entry}
    (hname : name ≠ dotdot) (hdirectory : fs.isDirectory ⟨anchor, base⟩ = true)
    (hentry : fs.entry ⟨anchor, base ++ [name]⟩ = some entry) (hlink : ¬ isLink (some entry)) :
    walk fs (fuel + 1) ⟨anchor, base⟩ (name :: rest) =
      walk fs fuel ⟨anchor, base ++ [name]⟩ rest := by
  rw [walk, if_neg hname, if_neg (not_not_intro hdirectory), FsPath.child, hentry]
  cases entry with
  | link _ _ => exact absurd rfl hlink
  | directory => rfl
  | file node => rfl
  | special node => rfl

/-- A path without links leads to itself. -/
theorem walk_of_straight {base rest : List Str} (h : Straight fs anchor base rest) {fuel : Nat}
    (hfuel : rest.length ≤ fuel) :
    walk fs fuel ⟨anchor, base⟩ rest = some ⟨anchor, base ++ rest⟩ := by
  induction rest generalizing base fuel with
  | nil => cases fuel <;> rw [walk, List.append_nil]
  | cons name rest ih =>
      obtain ⟨fuel, rfl⟩ : ∃ n, fuel = n + 1 := ⟨fuel - 1, by simp at hfuel; omega⟩
      obtain ⟨⟨hname, hdirectory, entry, hentry, hlink⟩, hrest⟩ := h
      rw [walk_step hname hdirectory hentry hlink, ih hrest (by simpa using hfuel)]
      simp

/-- The last component of a straight path is looked at where it is. -/
theorem lstat_of_straight {base : List Str} (h : Straight fs anchor [] base)
    (hlimit : base.length ≤ limit) (hdirectory : fs.isDirectory ⟨anchor, base⟩ = true)
    (name : Str) :
    lstat fs limit ⟨anchor, base ++ [name]⟩ = fs.entry ⟨anchor, base ++ [name]⟩ := by
  have hwalk := walk_of_straight h hlimit
  rw [List.nil_append] at hwalk
  simp only [lstat, List.getLast?_append, List.getLast?_singleton, Option.some_or,
    List.dropLast_concat, hwalk, if_pos hdirectory, FsPath.child]

/-- A path on which no entry is a link leads straight to itself. -/
theorem straight_of_walk {base rest : List Str} (hbase : Straight fs anchor [] base)
    {fuel : Nat} (hlimit : base.length + fuel ≤ limit) {found : FsPath}
    (hnormal : dotdot ∉ rest)
    (hlinks : ∀ p, p <+: rest → p ≠ [] → ¬ isLink (lstat fs limit ⟨anchor, base ++ p⟩))
    (h : walk fs fuel ⟨anchor, base⟩ rest = some found) :
    Straight fs anchor [] (base ++ rest) ∧ found = ⟨anchor, base ++ rest⟩ := by
  induction rest generalizing base fuel with
  | nil =>
      cases fuel <;> rw [walk, Option.some.injEq] at h <;>
        exact ⟨by rwa [List.append_nil], by rw [List.append_nil]; exact h.symm⟩
  | cons name rest ih =>
      cases fuel with
      | zero => cases h
      | succ fuel =>
          obtain ⟨hname, hnormal⟩ := not_or.mp (mt List.mem_cons.mpr hnormal)
          have hnot : name ≠ dotdot := fun heq => hname heq.symm
          have hdirectory : fs.isDirectory ⟨anchor, base⟩ = true := by
            by_contra hbad
            rw [walk, if_neg hnot, if_pos hbad] at h
            cases h
          have hshort : base.length ≤ limit := by omega
          have hlstat := lstat_of_straight hbase hshort hdirectory name
          have hlink := hlinks [name] ⟨rest, rfl⟩ (List.cons_ne_nil _ _)
          rw [hlstat] at hlink
          cases hentry : fs.entry ⟨anchor, base ++ [name]⟩ with
          | none =>
              rw [walk, if_neg hnot, if_neg (not_not_intro hdirectory), FsPath.child, hentry] at h
              cases h
          | some entry =>
              rw [hentry] at hlink
              rw [walk_step hnot hdirectory hentry hlink] at h
              have hnext : Straight fs anchor [] (base ++ [name]) :=
                straight_append.mpr ⟨hbase, ⟨hnot, hdirectory, entry, hentry, hlink⟩, trivial⟩
              have hshort : (base ++ [name]).length + fuel ≤ limit := by
                rw [List.length_append, List.length_singleton]
                omega
              have hrest := ih hnext hshort hnormal
                (fun p hp _ => by
                  rw [List.append_assoc]
                  exact hlinks (name :: p) (List.cons_prefix_cons.mpr ⟨rfl, hp⟩)
                    (List.cons_ne_nil _ _)) h
              rw [List.append_assoc] at hrest
              exact hrest

end Walking

section Resolving

variable {H : LocalHost} {states : Nat → FileSystem}

/-- Every entry on the path was there at a moment, and was no link. -/
def Seen (H : LocalHost) (states : Nat → FileSystem) (first last : Nat) (path : FsPath) : Prop :=
  ∀ p, OnPath p path → ∃ t, first ≤ t ∧ t < last ∧
    ∃ entry, lstat (states t) H.limit p = some entry ∧ ¬ isLink (some entry)

theorem Seen.mono {first last later : Nat} {path : FsPath} (h : Seen H states first last path)
    (hle : last ≤ later) : Seen H states first later path := by
  intro p hp
  obtain ⟨t, hfirst, hlast, hentry⟩ := h p hp
  exact ⟨t, hfirst, by omega, hentry⟩

theorem seen_anchor (first last : Nat) (anchor : Str) : Seen H states first last ⟨anchor, []⟩ :=
  fun _ hp => absurd (List.prefix_nil.mp hp.2.1) hp.2.2

/-- What `resolve` gives was looked at, entry by entry. -/
theorem seen_of_resolve {fuel t first last : Nat} {current found : FsPath} {todo : List Str}
    (hfirst : first ≤ t) (hseen : Seen H states first t current)
    (h : resolve H states fuel t current todo = some (found, last)) :
    t ≤ last ∧ Seen H states first last found := by
  induction fuel generalizing t current todo with
  | zero =>
      cases todo with
      | nil =>
          cases h
          exact ⟨le_rfl, hseen⟩
      | cons name rest => cases h
  | succ fuel ih =>
      cases todo with
      | nil =>
          cases h
          exact ⟨le_rfl, hseen⟩
      | cons name rest =>
          rw [resolve] at h
          split_ifs at h with hname
          · have hparent : Seen H states first t current.parent := fun p hp =>
              hseen p ⟨hp.1, hp.2.1.trans (List.dropLast_prefix _), hp.2.2⟩
            exact ih hfirst hparent h
          · split at h
            · cases h
            · split at h
              · obtain ⟨hle, hfound⟩ := ih (by omega) (hseen.mono (by omega)) h
                exact ⟨by omega, hfound⟩
              · obtain ⟨hle, hfound⟩ := ih (by omega) (seen_anchor _ _ _) h
                exact ⟨by omega, hfound⟩
              · cases h
            next entry hnot hentry =>
              have hchild : Seen H states first (t + 1) (current.child name) := by
                intro p hp
                by_cases hlast : p = current.child name
                · subst hlast
                  refine ⟨t, hfirst, by omega, entry, hentry, ?_⟩
                  cases entry with
                  | link anchor parts => exact absurd rfl (hnot anchor parts)
                  | directory => exact Bool.false_ne_true
                  | file node => exact Bool.false_ne_true
                  | special node => exact Bool.false_ne_true
                · have hprefix : p.parts <+: current.parts ++ [name] := hp.2.1
                  have hshort : p.parts <+: current.parts := by
                    rcases List.prefix_concat_iff.mp hprefix with heq | hpre
                    · exact absurd (congrArg₂ FsPath.mk hp.1 heq) hlast
                    · exact hpre
                  exact (hseen.mono (Nat.le_succ t)) p ⟨hp.1, hshort, hp.2.2⟩
              obtain ⟨hle, hfound⟩ := ih (by omega) hchild h
              exact ⟨by omega, hfound⟩

end Resolving

section Results

variable {H : LocalHost} {states : Nat → FileSystem} {policy : AcquisitionPolicy}
  {limits : MediaLimits} {part : MediaPart} {sourcePath : Str} {media : AcquiredMedia}

/-- Where no entry on the path is a link, what it leads to is what lies there. -/
theorem entry_of_stat {fs : FileSystem} {limit : Nat} {path : FsPath}
    (hnormal : dotdot ∉ path.parts)
    (hlinks : ∀ p, OnPath p path → ¬ isLink (lstat fs limit p)) {entry : Entry}
    (h : stat fs limit path = some entry) (hentry : entry ≠ .directory) :
    fs.entry path = some entry := by
  obtain ⟨anchor, parts⟩ := path
  unfold stat at h
  split at h
  · cases h
  next found hfound =>
    have hbase : Straight fs anchor [] [] := trivial
    have hlimit : ([] : List Str).length + limit ≤ limit := (Nat.zero_add limit).le
    obtain ⟨-, rfl⟩ := straight_of_walk hbase hlimit hnormal
      (fun p hp hne => hlinks ⟨anchor, p⟩ ⟨rfl, hp, hne⟩) hfound
    split_ifs at h
    · exact absurd (Option.some.inj h).symm hentry
    · exact h

theorem exists_of_matchedRoot {lexical root : FsPath} {t t' : Nat} {roots : List FsPath}
    {relative : List Str} (h : matchedRoot H states lexical t roots = .ok (root, relative, t')) :
    (∃ configured ∈ roots, ∃ s s', resolve H states H.limit s ⟨configured.anchor, []⟩
      configured.parts = some (root, s')) ∧
    root.anchor = lexical.anchor ∧ root.parts <+: lexical.parts := by
  induction roots generalizing t with
  | nil => cases h
  | cons configured rest ih =>
      rw [matchedRoot] at h
      split at h
      · cases h
      next found s hresolve =>
        split_ifs at h with hlink
        split at h
        · obtain ⟨⟨other, hother, hfound⟩, hunder⟩ := ih h
          exact ⟨⟨other, List.mem_cons_of_mem _ hother, hfound⟩, hunder⟩
        next hrelative =>
          cases h
          unfold relativeTo at hrelative
          split_ifs at hrelative with hunder
          exact ⟨⟨configured, List.mem_cons_self, t, s, hresolve⟩, hunder.1.symm, hunder.2⟩

/-- What the checks of the path say. -/
theorem checks_of_checkPath {c : Checked} (h : checkPath H states policy sourcePath = .ok c) :
    policy.allowLocal = true ∧
    (∃ configured ∈ policy.localRoots, ∃ t t', resolve H states H.limit t
      ⟨configured.anchor, []⟩ configured.parts = some (c.root, t')) ∧
    c.root.anchor = (H.absolute sourcePath).anchor ∧
    c.root.parts <+: (H.absolute sourcePath).parts ∧
    resolve H states H.limit c.started ⟨(H.absolute sourcePath).anchor, []⟩
      (H.absolute sourcePath).parts = some (H.absolute sourcePath, c.resolved) := by
  unfold checkPath at h
  split_ifs at h with hallow hanchor
  obtain ⟨⟨root, relative, t⟩, hroot, h⟩ := ok_of_bind h
  obtain ⟨started, hstarted, h⟩ := ok_of_bind h
  obtain ⟨hconfigured, hrootAnchor, hparts⟩ := exists_of_matchedRoot hroot
  split at h
  · cases h
  next found resolved hresolve =>
    split_ifs at h with hfound
    cases h
    rw [not_not] at hfound
    subst hfound
    exact ⟨hallow, hconfigured, hrootAnchor, hparts, hresolve⟩

/-- What is read is what the path leads to when it is opened. -/
theorem exists_of_readLocal {data : Bytes}
    (h : readLocal H states policy limits sourcePath = .ok data) :
    ∃ c, checkPath H states policy sourcePath = .ok c ∧
      (∃ node, stat (states c.resolved) H.limit (H.absolute sourcePath) = some (.file node)) ∧
      ∃ node, (stat (states c.opened) H.limit (H.absolute sourcePath) = some (.file node) ∨
        stat (states c.opened) H.limit (H.absolute sourcePath) = some (.special node)) ∧
        data = (states c.read).content node := by
  obtain ⟨c, hc, h⟩ := ok_of_bind h
  refine ⟨c, hc, ?_⟩
  split at h
  next node hfile =>
    refine ⟨⟨node, hfile⟩, ?_⟩
    split at h
    · cases h
    · split_ifs at h
      split at h
      next node' hopened =>
        cases h
        exact ⟨node', .inl hopened, rfl⟩
      next node' hopened =>
        cases h
        exact ⟨node', .inr hopened, rfl⟩
      · cases h
  · cases h

theorem checks_of_acquireLocal
    (h : acquireLocal H states policy limits part sourcePath = .ok media) :
    readLocal H states policy limits sourcePath = .ok media.data ∧
      media.data.length ≤ limits.maxBytes ∧
      ∃ mime, detectContent media.data = .ok (part.mediaType, mime) := by
  obtain ⟨data, hdata, h⟩ := ok_of_bind h
  split_ifs at h with hsize
  obtain ⟨⟨detected, mime⟩, hdetect, h⟩ := ok_of_bind h
  dsimp only at h
  split_ifs at h with hkind hmime hvalid
  cases h
  rw [not_not] at hkind
  subst hkind
  exact ⟨hdata, not_lt.mp hsize, mime, hdetect⟩

/-- Media that are returned are confined exactly where the path was left alone between the checks
and the opening. -/
theorem confined_iff (h : acquireLocal H states policy limits part sourcePath = .ok media) :
    Confined H states policy limits part sourcePath media ↔
      Undisturbed H states policy sourcePath := by
  obtain ⟨hread, hsize, hkind⟩ := checks_of_acquireLocal h
  obtain ⟨c, hc, ⟨checkedNode, hchecked⟩, node, hopened, hdata⟩ := exists_of_readLocal hread
  obtain ⟨hallow, hconfigured, hanchor, hparts, hresolve⟩ := checks_of_checkPath hc
  obtain ⟨hstarted, hseen⟩ := seen_of_resolve le_rfl
    (seen_anchor c.started c.started _) hresolve
  have hwindow : c.resolved < c.opened := Nat.lt_add_of_pos_right (by decide)
  have hentry (hlinks : ∀ p, OnPath p (H.absolute sourcePath) →
      ¬ isLink (lstat (states c.opened) H.limit p)) {entry : Entry}
      (hstat : stat (states c.opened) H.limit (H.absolute sourcePath) = some entry)
      (hne : entry ≠ .directory) : (states c.opened).entry (H.absolute sourcePath) = some entry :=
    entry_of_stat (H.normal sourcePath) hlinks hstat hne
  constructor
  · rintro ⟨-, -, -, c', hc', -, -, -, hlinks, node', hnode', -⟩
    cases hc.symm.trans hc'
    constructor
    · rintro d hd p hp - - - - - -
      cases hc.symm.trans hd
      exact hlinks p hp
    · rintro d hd - - - - - special hspecial
      cases hc.symm.trans hd
      have hlies := hentry hlinks hspecial nofun
      cases hlies.symm.trans hnode'
  · intro hundisturbed
    have hlinks : ∀ p, OnPath p (H.absolute sourcePath) →
        ¬ isLink (lstat (states c.opened) H.limit p) := by
      intro p hp
      obtain ⟨t, hfirst, hlast, entry, hthere, hlink⟩ := hseen p hp
      exact hundisturbed.links c hc p hp t hfirst (by omega) entry hthere hlink
    refine ⟨hallow, hsize, hkind, c, hc, hconfigured, hanchor, hparts, hlinks, node, ?_, hdata⟩
    rcases hopened with hfile | hspecial
    · exact hentry hlinks hfile nofun
    · exact absurd hspecial (hundisturbed.regular c hc c.resolved hstarted hwindow checkedNode
        hchecked node)

end Results

section Sample

/-- `os.path.abspath` on POSIX, in the root directory. -/
def posixAbsolute (text : Str) : FsPath :=
  ⟨lit "/", (Str.splitOn (cp 47) text).foldl (fun parts name =>
    if name = [] ∨ name = lit "." then parts
    else if name = dotdot then parts.dropLast
    else parts ++ [name]) []⟩

theorem posixAbsolute_normal (text : Str) : dotdot ∉ (posixAbsolute text).parts := by
  have hfold (names parts : List Str) (h : dotdot ∉ parts) :
      dotdot ∉ names.foldl (fun parts name =>
        if name = [] ∨ name = lit "." then parts
        else if name = dotdot then parts.dropLast
        else parts ++ [name]) parts := by
    induction names generalizing parts with
    | nil => exact h
    | cons name rest ih =>
        apply ih
        dsimp only
        split_ifs with hempty hdots
        · exact h
        · exact fun hmem => h (List.mem_of_mem_dropLast hmem)
        · intro hmem
          rcases List.mem_append.mp hmem with hmem | hmem
          · exact h hmem
          · exact hdots (List.mem_singleton.mp hmem).symm
  exact hfold _ [] (List.not_mem_nil)

def sampleLocalHost : LocalHost where
  absolute := posixAbsolute
  normal := posixAbsolute_normal
  fileName text := ((Str.splitOn (cp 47) text).getLast?).getD []
  lower := Str.asciiLower
  limit := 40
  validates _ _ := true

def pngHeader : Bytes := [137, 80, 78, 71, 13, 10, 26, 10]

/-- A root with an image, and another directory with another image. -/
def sampleFiles (image : Entry) : FileSystem where
  entry p :=
    if p = posixAbsolute (lit "/data") ∨ p = posixAbsolute (lit "/other") then some .directory
    else if p = posixAbsolute (lit "/data/a.png") then some image
    else if p = posixAbsolute (lit "/other/b.png") then some (.file 1)
    else none
  content node := pngHeader ++ [if node = 0 then 0 else 1]
  otherSize _ := 0

def samplePolicy : AcquisitionPolicy := ⟨true, [posixAbsolute (lit "/data")]⟩

def samplePart : MediaPart :=
  { mediaType := .image, source := .localPath ⟨lit "/data/a.png", by decide, by decide, rfl⟩ }

/-- Another image is put in the place of the image just before it is opened. -/
def replacedFiles (t : Nat) : FileSystem := sampleFiles (.file (if t < 7 then 0 else 1))

theorem entry_sampleFiles {n : Nat} {p : FsPath} {entry : Entry}
    (h : (sampleFiles (.file n)).entry p = some entry) :
    entry = .directory ∨ ∃ node, entry = .file node := by
  simp only [sampleFiles] at h
  split_ifs at h <;> cases h
  · exact .inl rfl
  · exact .inr ⟨_, rfl⟩
  · exact .inr ⟨_, rfl⟩

theorem lstat_sampleFiles (n limit : Nat) (p : FsPath) :
    ¬ isLink (lstat (sampleFiles (.file n)) limit p) := by
  intro h
  unfold lstat at h
  split at h
  · cases h
  split at h
  · cases h
  split_ifs at h
  · cases hentry : (sampleFiles (.file n)).entry (FsPath.child _ _) with
    | none =>
        rw [hentry] at h
        cases h
    | some entry =>
        rw [hentry] at h
        obtain rfl | ⟨node, rfl⟩ := entry_sampleFiles hentry <;> cases h
  · cases h

theorem stat_sampleFiles (n limit node : Nat) (p : FsPath) :
    stat (sampleFiles (.file n)) limit p ≠ some (.special node) := by
  intro h
  unfold stat at h
  split at h
  · cases h
  split_ifs at h
  · cases h
  · obtain hkind | ⟨_, hkind⟩ := entry_sampleFiles h <;> cases hkind

/-- The new image is the one that is read, and it is confined. -/
theorem confined_iff_sample : ∃ media,
    acquireLocal sampleLocalHost replacedFiles samplePolicy ⟨100⟩ samplePart
      (lit "/data/./a.png") = .ok media ∧ media.data = pngHeader ++ [1] ∧
    Confined sampleLocalHost replacedFiles samplePolicy ⟨100⟩ samplePart
      (lit "/data/./a.png") media := by
  have hread : (acquireLocal sampleLocalHost replacedFiles samplePolicy ⟨100⟩ samplePart
      (lit "/data/./a.png")).toOption.map (fun media => media.data) =
        some (pngHeader ++ [1]) := by
    decide +kernel
  obtain ⟨media, hmedia, hdata⟩ := Option.map_eq_some_iff.mp hread
  have hmedia := eq_ok_of_toOption hmedia
  refine ⟨media, hmedia, hdata, (confined_iff hmedia).mpr ⟨?_, ?_⟩⟩
  · exact fun _ _ p _ _ _ _ _ _ _ => lstat_sampleFiles _ _ p
  · exact fun _ _ _ _ _ _ _ node => stat_sampleFiles _ _ node _

/-- The image becomes a link to the other directory just before it is opened. -/
def swappedFiles (t : Nat) : FileSystem :=
  sampleFiles (if t < 7 then .file 0 else .link none [dotdot, lit "other", lit "b.png"])

theorem swapped_image_returned : ∃ media,
    acquireLocal sampleLocalHost swappedFiles samplePolicy ⟨100⟩ samplePart
      (lit "/data/a.png") = .ok media ∧ media.data = pngHeader ++ [1] ∧
    ¬ Confined sampleLocalHost swappedFiles samplePolicy ⟨100⟩ samplePart
      (lit "/data/a.png") media := by
  have hread : readLocal sampleLocalHost swappedFiles samplePolicy ⟨100⟩ (lit "/data/a.png") =
      .ok (pngHeader ++ [1]) := by
    decide +kernel
  obtain ⟨media, hmedia⟩ : ∃ media, acquireLocal sampleLocalHost swappedFiles samplePolicy ⟨100⟩
      samplePart (lit "/data/a.png") = .ok media :=
    exists_of_isOk (by decide +kernel)
  have hdata := (checks_of_acquireLocal hmedia).1
  refine ⟨media, hmedia, (Except.ok.inj (hread.symm.trans hdata)).symm, fun h => ?_⟩
  obtain ⟨c, hc, -, -, -, hlinks, -⟩ := h.inside
  have hchecked : checkPath sampleLocalHost swappedFiles samplePolicy (lit "/data/a.png") =
      .ok ⟨posixAbsolute (lit "/data"), 3, 5⟩ := by
    decide +kernel
  cases hchecked.symm.trans hc
  refine hlinks (posixAbsolute (lit "/data/a.png")) ⟨rfl, List.prefix_rfl, by decide⟩ ?_
  decide +kernel

end Sample

end MediaBridge.Core.LocalMedia
