import MediaBridge.Deploy.SecretSet
import MediaBridge.Foundation.Interleaving

/-!
# Making the secrets once

`ensure_secrets` in `deploy/scripts/secret_bootstrap.py`: any number of calls on one directory, with
their steps in any order, any of which may fail or be the last one of its process.

## Implementation notes

A call reads the directory in one step. A step that fails may have written a part of a file. An
operator may remove a lock that no running call holds. What a call draws and which of its steps fail
comes with it. The files of the directory are changed by nothing else.
-/

namespace MediaBridge.Deploy

open Foundation

/-- A step on one of the files. -/
inductive OpKind
  /-- `mkstemp` -/
  | create
  | write
  | chown
  /-- `os.chmod(temporary, 0o400)` -/
  | chmodStaged
  | link
  /-- `os.chmod(temporary, 0o600)` -/
  | chmodLinked
  | unlink
  /-- `os.chmod(secrets_dir / name, 0o400)` -/
  | protect
deriving DecidableEq

namespace OpKind

/-- The place of a step among those of its file. -/
def rank : OpKind → Nat
  | create => 0
  | write => 1
  | chown => 2
  | chmodStaged => 3
  | link => 4
  | chmodLinked => 5
  | unlink => 6
  | protect => 7

def all : List OpKind :=
  [create, write, chown, chmodStaged, link, chmodLinked, unlink, protect]

theorem mem_all (k : OpKind) : k ∈ all := by
  cases k <;> decide

end OpKind

structure FileOp where
  kind : OpKind
  name : SecretName
deriving DecidableEq

/-- The steps in the `try` of `ensure_secrets`. -/
def bootstrapOps (chowns : Bool) : List FileOp :=
  (SecretName.all.flatMap fun n =>
    [⟨.create, n⟩, ⟨.write, n⟩] ++ (if chowns then [⟨.chown, n⟩] else []) ++ [⟨.chmodStaged, n⟩]) ++
  (SecretName.all.map fun n => ⟨.link, n⟩) ++
  (SecretName.all.flatMap fun n => [⟨.chmodLinked, n⟩, ⟨.unlink, n⟩]) ++
  SecretName.all.map fun n => ⟨.protect, n⟩

section Order

/-- The steps that are left come in their order, and after a step all later ones of its file. -/
structure Proper (chowns : Bool) (ops : List FileOp) : Prop where
  ordered : ops.Pairwise fun a b => a.name = b.name → a.kind.rank < b.kind.rank
  closed : ∀ a ∈ ops, ∀ k ∈ OpKind.all, a.kind.rank < k.rank → (k = .chown → chowns = true) →
    ⟨k, a.name⟩ ∈ ops

theorem proper_bootstrapOps (chowns : Bool) : Proper chowns (bootstrapOps chowns) := by
  cases chowns with
  | true => exact ⟨by decide +kernel, by decide +kernel⟩
  | false => exact ⟨by decide +kernel, by decide +kernel⟩

variable {chowns : Bool} {ops : List FileOp} {op : FileOp} {k k' : OpKind} {n : SecretName}

theorem Proper.tail (h : Proper chowns (op :: ops)) : Proper chowns ops := by
  obtain ⟨hfirst, hrest⟩ := List.pairwise_cons.mp h.ordered
  refine ⟨hrest, ?_⟩
  intro a ha k hk hlt hchown
  rcases List.mem_cons.mp (h.closed a (List.mem_cons_of_mem _ ha) k hk hlt hchown) with heq | hmem
  · -- The step would be the first one, which comes before `a`.
    subst heq
    exact absurd (hfirst a ha rfl) (Nat.lt_asymm hlt)
  · exact hmem

/-- The steps of a file that are left after one of them are later ones. -/
theorem Proper.notMem (h : Proper chowns (⟨k, n⟩ :: ops)) (hle : k'.rank ≤ k.rank) :
    ⟨k', n⟩ ∉ ops := by
  intro hmem
  exact absurd ((List.pairwise_cons.mp h.ordered).1 _ hmem rfl) (Nat.not_lt.mpr hle)

theorem Proper.mem (h : Proper chowns (⟨k, n⟩ :: ops)) (hlt : k.rank < k'.rank)
    (hchown : k' = .chown → chowns = true) : ⟨k', n⟩ ∈ ops := by
  rcases List.mem_cons.mp (h.closed _ List.mem_cons_self k' (OpKind.mem_all k') hlt hchown) with
    heq | hmem
  · rw [(FileOp.mk.inj heq).1] at hlt
    exact absurd hlt (Nat.lt_irrefl _)
  · exact hmem

/-- A file whose link is made has been written before. -/
theorem Proper.done_of_linked (h : Proper chowns ops) (hlinked : ⟨.link, n⟩ ∉ ops)
    (hlt : k.rank < OpKind.link.rank) : ⟨k, n⟩ ∉ ops := by
  intro hmem
  exact hlinked (h.closed _ hmem .link (OpKind.mem_all _) hlt nofun)

end Order

section Calls

/-- A call, with what it draws. `mkstemp` hands out no name twice. -/
structure BootstrapCall where
  /-- The directory is one, and no link. -/
  directoryValid : Bool
  opensslFound : Bool
  databaseVolumeExists : Bool
  ownerIds : Option OwnerIds
  /-- `os.geteuid()` -/
  user : Nat
  draw : SecretSetDraw
  temporaries : SecretName → Nat
  temporaries_injective : Function.Injective temporaries

/-- How a step goes. -/
inductive StepFate
  | works
  /-- It raises, and has written this much of a file. -/
  | fails (written : Nat)
deriving DecidableEq

inductive Bootstrapped
  | created
  | preserved
deriving DecidableEq

abbrev BootstrapOutcome := Except SetupError Bootstrapped

def changedError : SetupError := .bootstrap "secret_set_changed_during_bootstrap"

variable (c : BootstrapCall) (values : SecretName → Bytes) (d : SecretsDirectory)

/-- The temporary file of a secret. -/
def BootstrapCall.temporary (n : SecretName) : DirName := .temporary (c.temporaries n)

theorem BootstrapCall.secret_ne_temporary (n m : SecretName) : .secret m ≠ c.temporary n := by
  rintro ⟨⟩

/-- A change of the node that a name leads to. -/
def SecretsDirectory.update (name : DirName) (f : Node → Node) :
    Except SetupError SecretsDirectory :=
  match d.node? name with
  | none => .error .raised
  | some (i, node) => .ok (d.setNode i (f node))

/-- One step. A `FileExistsError` means that the set has changed. -/
def FileOp.perform (op : FileOp) : Except SetupError SecretsDirectory :=
  let temporary := c.temporary op.name
  match op.kind with
  | .create =>
      if Entries.has d.entries temporary then .error changedError
      else .ok (d.create temporary c.user)
  | .write => d.update temporary fun node => { node with content := values op.name }
  | .chown => d.update temporary fun node =>
      { node with owner := (c.ownerIds.map (·.owner op.name)).getD node.owner }
  | .chmodStaged => d.update temporary fun node => { node with mode := 0o400 }
  | .link =>
      match d.node? temporary with
      | none => .error .raised
      | some (i, _) =>
          if Entries.has d.entries (.secret op.name) then .error changedError
          else .ok (d.link (.secret op.name) i)
  | .chmodLinked => d.update temporary fun node => { node with mode := 0o600 }
  | .unlink =>
      if Entries.has d.entries temporary then .ok (d.unlink temporary) else .error .raised
  | .protect => d.update (.secret op.name) fun node => { node with mode := 0o400 }

/-- What a step leaves that fails. -/
def FileOp.torn (op : FileOp) (written : Nat) : SecretsDirectory :=
  match op.kind with
  | .write =>
      match d.update (c.temporary op.name) fun node =>
        { node with content := (values op.name).take written } with
      | .ok d' => d'
      | .error _ => d
  | _ => d

/-- A call: what it has still to do. -/
inductive BootstrapThread
  | called (c : BootstrapCall) (fates : List StepFate)
  /-- The lock is held. -/
  | checking (c : BootstrapCall) (fates : List StepFate)
  | making (c : BootstrapCall) (values : SecretName → Bytes) (ops : List FileOp)
      (staged : List SecretName) (fates : List StepFate)
  /-- The temporary files that are left are removed. -/
  | cleaning (c : BootstrapCall) (staged : List SecretName) (outcome : BootstrapOutcome)
      (fates : List StepFate)
  | closing (c : BootstrapCall) (outcome : BootstrapOutcome) (fates : List StepFate)
  | ended (c : BootstrapCall) (outcome : BootstrapOutcome)
  /-- An operator is to remove the lock. -/
  | unlocking
  | killed

namespace BootstrapThread

/-- What a call finds under the lock. -/
def check (O : OpenSsl) (fates : List StepFate) : BootstrapThread :=
  let present := SecretName.all.map fun n => Entries.has d.entries (.secret n)
  if present.all id then
    .closing c ((validateExisting O d c.ownerIds).map fun _ => .preserved) fates
  else if present.any id then .closing c (.error (.bootstrap "secret_set_incomplete")) fates
  else if c.databaseVolumeExists then
    .closing c (.error (.bootstrap "secret_set_missing_for_existing_database")) fates
  else if c.ownerIds.isSome ∧ c.user ≠ 0 then
    .closing c (.error (.bootstrap "secret_bootstrap_requires_root")) fates
  else
    match generatedValues O c.draw with
    | .error e => .closing c (.error e) fates
    | .ok values => .making c values (bootstrapOps c.ownerIds.isSome) [] fates

/-- `staged` after a step. -/
def stagedAfter (op : FileOp) (staged : List SecretName) : List SecretName :=
  if op.kind = .create then staged ++ [op.name] else staged

def next (O : OpenSsl) (d : SecretsDirectory) :
    BootstrapThread → Option (SecretsDirectory × BootstrapThread)
  | called c fates =>
      if ¬ c.directoryValid then
        some (d, ended c (.error (.bootstrap "secret_directory_invalid")))
      else if ¬ c.opensslFound then some (d, ended c (.error (.bootstrap "openssl_unavailable")))
      else if Entries.has d.entries .lock then
        some (d, ended c (.error (.bootstrap "secret_bootstrap_in_progress")))
      else
        match fates.headD .works with
        | .works => some (d.create .lock c.user, checking c fates.tail)
        | .fails _ => some (d, ended c (.error .raised))
  | checking c fates => some (d, check c d O fates)
  | making c _ [] staged fates => some (d, cleaning c staged (.ok .created) fates)
  | making c values (op :: ops) staged fates =>
      match fates.headD .works with
      | .works =>
          match op.perform c values d with
          | .ok d' => some (d', making c values ops (stagedAfter op staged) fates.tail)
          | .error e => some (d, cleaning c staged (.error e) fates.tail)
      | .fails written =>
          some (op.torn c values d written, cleaning c staged (.error .raised) fates.tail)
  | cleaning c [] outcome fates => some (d, closing c outcome fates)
  | cleaning c (n :: rest) outcome fates =>
      match fates.headD .works with
      | .works => some (d.unlink (c.temporary n), cleaning c rest outcome fates.tail)
      | .fails _ => some (d, closing c (.error .raised) fates.tail)
  | closing c outcome fates =>
      match fates.headD .works with
      | .works => some (d.unlink .lock, ended c outcome)
      | .fails _ => some (d, ended c (.error .raised))
  | ended _ _ => none
  | unlocking => some (d.unlink .lock, killed)
  | killed => none

/-- A call between the lock and its removal. -/
def inside : BootstrapThread → Bool
  | called _ _ => false
  | checking _ _ => true
  | making .. => true
  | cleaning .. => true
  | closing .. => true
  | ended _ _ => false
  | unlocking => false
  | killed => false

def isMaking : BootstrapThread → Bool
  | making .. => true
  | _ => false

/-- The call that has returned, if it has made the set. -/
def madeBy : BootstrapThread → Option BootstrapCall
  | ended c (.ok .created) => some c
  | _ => none

/-- The calls on one directory, interleaved. -/
def system (O : OpenSsl) : TransactionSystem SecretsDirectory BootstrapThread where
  begins
    | called _ _ => true
    | unlocking => true
    | _ => false
  next := next O
  waits
    | unlocking, u => u.inside
    | _, _ => false
  ended := killed

end BootstrapThread

end Calls

section Progress

/-- What is there of one file, whose node is `i`, when some steps are left. -/
structure Made (c : BootstrapCall) (values : SecretName → Bytes) (d : SecretsDirectory)
    (ops : List FileOp) (i : Nat) (n : SecretName) : Prop where
  staged : ⟨.create, n⟩ ∉ ops → ∀ j,
    Entries.get? d.entries (c.temporary n) = some (.file j) → j = i
  node : ⟨.create, n⟩ ∉ ops → ∃ node, d.nodes[i]? = some node ∧
    (node.mode = 0o400 ∨ node.mode = 0o600) ∧
    (⟨.write, n⟩ ∉ ops → node.content = values n) ∧
    (⟨.chown, n⟩ ∉ ops → ∀ ids, c.ownerIds = some ids → node.owner = ids.owner n) ∧
    (⟨.protect, n⟩ ∉ ops → node.mode = 0o400)
  absent : ⟨.link, n⟩ ∈ ops → Entries.get? d.entries (.secret n) = none
  linked : ⟨.link, n⟩ ∉ ops → Entries.get? d.entries (.secret n) = some (.file i)

/-- What is there of a set, when some steps are left. -/
structure Progress (c : BootstrapCall) (values : SecretName → Bytes) (d : SecretsDirectory)
    (ops : List FileOp) (ino : SecretName → Nat) : Prop where
  injective : ∀ m n, ⟨.create, m⟩ ∉ ops → ⟨.create, n⟩ ∉ ops → ino m = ino n → m = n
  made : ∀ n, Made c values d ops (ino n) n

variable {c : BootstrapCall} {values : SecretName → Bytes} {d d' : SecretsDirectory}
  {ops : List FileOp} {op : FileOp} {i j : Nat} {m n : SecretName} {ino : SecretName → Nat}
  {k : OpKind}

theorem get?_of_node? {name : DirName} {node : Node} (h : d.node? name = some (i, node)) :
    Entries.get? d.entries name = some (.file i) ∧ d.nodes[i]? = some node := by
  unfold SecretsDirectory.node? at h
  split at h
  · next j hget =>
      obtain ⟨node', hnode, heq⟩ := Option.map_eq_some_iff.mp h
      cases heq
      exact ⟨hget, hnode⟩
  · cases h

theorem node?_eq {name : DirName} {node : Node}
    (hentry : Entries.get? d.entries name = some (.file i)) (hnode : d.nodes[i]? = some node) :
    d.node? name = some (i, node) := by
  simp only [SecretsDirectory.node?, hentry, hnode, Option.map_some]

theorem mem_cons_iff_of_ne (h : m ≠ op.name) : ⟨k, m⟩ ∈ op :: ops ↔ ⟨k, m⟩ ∈ ops := by
  rw [List.mem_cons, or_iff_right_iff_imp]
  rintro rfl
  exact absurd rfl h

/-- A step on one file leaves another one as it is. -/
theorem Made.other (h : Made c values d (op :: ops) i m) (hne : m ≠ op.name)
    (htemporary : Entries.get? d'.entries (c.temporary m) =
      Entries.get? d.entries (c.temporary m))
    (hsecret : Entries.get? d'.entries (.secret m) = Entries.get? d.entries (.secret m))
    (hnode : ⟨.create, m⟩ ∉ ops → d'.nodes[i]? = d.nodes[i]?) : Made c values d' ops i m := by
  have hmem (k : OpKind) : ⟨k, m⟩ ∈ op :: ops ↔ ⟨k, m⟩ ∈ ops := mem_cons_iff_of_ne hne
  constructor
  case staged =>
    intro hcreate j hj
    exact h.staged (mt (hmem _).mp hcreate) j (htemporary ▸ hj)
  case node =>
    intro hcreate
    obtain ⟨node, hget, hmode, hcontent, howner, hprotect⟩ := h.node (mt (hmem _).mp hcreate)
    refine ⟨node, (hnode hcreate).trans hget, hmode, ?_, ?_, ?_⟩
    · exact fun hk => hcontent (mt (hmem _).mp hk)
    · exact fun hk => howner (mt (hmem _).mp hk)
    · exact fun hk => hprotect (mt (hmem _).mp hk)
  case absent => exact fun hlink => hsecret.trans (h.absent ((hmem _).mpr hlink))
  case linked => exact fun hlink => hsecret.trans (h.linked (mt (hmem _).mp hlink))

theorem mem_cons_iff_of_kind {k' : OpKind} (h : k' ≠ k) :
    ⟨k', n⟩ ∈ ⟨k, n⟩ :: ops ↔ ⟨k', n⟩ ∈ ops := by
  rw [List.mem_cons, or_iff_right_iff_imp]
  intro heq
  exact absurd (FileOp.mk.inj heq).1 h

theorem notMem_cons_of_kind {k' : OpKind} (h : ⟨k', n⟩ ∉ ops) (hne : k' ≠ k) :
    ⟨k', n⟩ ∉ ⟨k, n⟩ :: ops := mt (mem_cons_iff_of_kind hne).mp h

/-- A file that has been created before a step that creates none. -/
theorem notMem_cons_create (hk : k ≠ .create) (hm : ⟨.create, m⟩ ∉ ops) :
    ⟨.create, m⟩ ∉ ⟨k, n⟩ :: ops := by
  rw [List.mem_cons, not_or]
  exact ⟨fun heq => hk (FileOp.mk.inj heq).1.symm, hm⟩

/-- A change of the node of a file. -/
theorem Progress.update {node changed : Node}
    (h : Progress c values d (⟨k, n⟩ :: ops) ino) (hcreate : k ≠ .create) (hlink : k ≠ .link)
    (hdone : ⟨.create, n⟩ ∉ ops) (hnode : d.nodes[ino n]? = some node)
    (hmode : changed.mode = 0o400 ∨ changed.mode = 0o600)
    (hcontent : ⟨.write, n⟩ ∉ ops → changed.content = values n)
    (howner : ⟨.chown, n⟩ ∉ ops → ∀ ids, c.ownerIds = some ids → changed.owner = ids.owner n)
    (hprotect : ⟨.protect, n⟩ ∉ ops → changed.mode = 0o400) :
    Progress c values (d.setNode (ino n) changed) ops ino := by
  have hcreated (m : SecretName) (hm : ⟨.create, m⟩ ∉ ops) : ⟨.create, m⟩ ∉ ⟨k, n⟩ :: ops :=
    notMem_cons_create hcreate hm
  constructor
  · intro m m' hm hm' heq
    exact h.injective m m' (hcreated m hm) (hcreated m' hm') heq
  · intro m
    by_cases hmn : m = n
    · subst hmn
      have hmade := h.made m
      constructor
      case staged => exact fun hk => hmade.staged (hcreated m hk)
      case node =>
        intro _
        refine ⟨changed, ?_, hmode, hcontent, howner, hprotect⟩
        obtain ⟨hlt, -⟩ := List.getElem?_eq_some_iff.mp hnode
        exact List.getElem?_set_self hlt
      case absent => exact fun hk => hmade.absent ((mem_cons_iff_of_kind hlink.symm).mpr hk)
      case linked =>
        exact fun hk => hmade.linked (mt (mem_cons_iff_of_kind hlink.symm).mp hk)
    · refine Made.other (h.made m) hmn rfl rfl ?_
      intro hm
      apply List.getElem?_set_ne
      intro heq
      exact hmn (h.injective n m (hcreated n hdone) (hcreated m hm) heq).symm

theorem update_eq_ok {name : DirName} {f : Node → Node} (h : d.update name f = .ok d') :
    ∃ i node, Entries.get? d.entries name = some (.file i) ∧ d.nodes[i]? = some node ∧
      d' = d.setNode i (f node) := by
  unfold SecretsDirectory.update at h
  split at h
  · cases h
  · next i node hnode =>
      cases h
      obtain ⟨hentry, hget⟩ := get?_of_node? hnode
      exact ⟨i, node, hentry, hget, rfl⟩

variable (hproper : Proper c.ownerIds.isSome (⟨k, n⟩ :: ops))
  (h : Progress c values d (⟨k, n⟩ :: ops) ino)

include hproper h

/-- The node of a file that has been created, with what is known of it. -/
theorem Progress.node_of_temporary {node : Node} (hpos : 0 < k.rank)
    (hentry : Entries.get? d.entries (c.temporary n) = some (.file i))
    (hget : d.nodes[i]? = some node) :
    i = ino n ∧ ⟨.create, n⟩ ∉ ops ∧ (node.mode = 0o400 ∨ node.mode = 0o600) ∧
    (⟨.write, n⟩ ∉ ⟨k, n⟩ :: ops → node.content = values n) ∧
    (⟨.chown, n⟩ ∉ ⟨k, n⟩ :: ops → ∀ ids, c.ownerIds = some ids → node.owner = ids.owner n) ∧
    (⟨.protect, n⟩ ∉ ⟨k, n⟩ :: ops → node.mode = 0o400) := by
  have hdone : ⟨.create, n⟩ ∉ ops := hproper.notMem (Nat.zero_le _)
  have hbefore : ⟨.create, n⟩ ∉ ⟨k, n⟩ :: ops := by
    rw [List.mem_cons, not_or]
    refine ⟨?_, hdone⟩
    intro heq
    rw [← (FileOp.mk.inj heq).1] at hpos
    exact absurd hpos (Nat.lt_irrefl _)
  have hi := (h.made n).staged hbefore i hentry
  subst hi
  obtain ⟨node', hget', hfacts⟩ := (h.made n).node hbefore
  obtain rfl := Option.some.inj (hget.symm.trans hget')
  exact ⟨rfl, hdone, hfacts⟩

/-- A new temporary file. -/
theorem Progress.create (hkind : k = .create)
    (hfree : Entries.has d.entries (c.temporary n) = false) :
    Progress c values (d.create (c.temporary n) c.user) ops
      (Function.update ino n d.nodes.length) := by
  subst hkind
  have hother (m : SecretName) (hm : ⟨.create, m⟩ ∉ ops) (hmn : m ≠ n) :
      ⟨.create, m⟩ ∉ ⟨.create, n⟩ :: ops := mt (mem_cons_iff_of_ne hmn).mp hm
  have hlt (m : SecretName) (hm : ⟨.create, m⟩ ∉ ops) (hmn : m ≠ n) : ino m < d.nodes.length := by
    obtain ⟨node, hget, -⟩ := (h.made m).node (hother m hm hmn)
    exact (List.getElem?_eq_some_iff.mp hget).1
  constructor
  · intro m m' hm hm' heq
    by_cases hmn : m = n
    · by_cases hmn' : m' = n
      · exact hmn.trans hmn'.symm
      · rw [hmn, Function.update_self, Function.update_of_ne hmn'] at heq
        exact absurd (heq ▸ hlt m' hm' hmn') (Nat.lt_irrefl _)
    · by_cases hmn' : m' = n
      · rw [hmn', Function.update_self, Function.update_of_ne hmn] at heq
        exact absurd (heq ▸ hlt m hm hmn) (Nat.lt_irrefl _)
      · rw [Function.update_of_ne hmn, Function.update_of_ne hmn'] at heq
        exact h.injective m m' (hother m hm hmn) (hother m' hm' hmn') heq
  · intro m
    by_cases hmn : m = n
    · subst hmn
      rw [Function.update_self]
      have hsecret : Entries.get? (d.create (c.temporary m) c.user).entries (.secret m) =
          Entries.get? d.entries (.secret m) := Entries.get?_set_of_ne _ _ nofun
      have hlater (k' : OpKind) (hpos : 0 < k'.rank)
          (hchown : k' = .chown → c.ownerIds.isSome = true) : ⟨k', m⟩ ∈ ops :=
        hproper.mem hpos hchown
      constructor
      case staged =>
        intro _ j hj
        have hself : Entries.get? (d.create (c.temporary m) c.user).entries (c.temporary m) =
            some (.file d.nodes.length) := Entries.get?_set_self _ _ _
        rw [hself] at hj
        exact (DirEntry.file.inj (Option.some.inj hj)).symm
      case node =>
        intro _
        refine ⟨⟨[], 0o600, c.user⟩, List.getElem?_concat_length, .inr rfl, ?_, ?_, ?_⟩
        · exact fun hk => absurd (hlater .write (by decide) nofun) hk
        · intro hk ids hids
          refine absurd (hlater .chown (by decide) fun _ => ?_) hk
          rw [hids, Option.isSome_some]
        · exact fun hk => absurd (hlater .protect (by decide) nofun) hk
      case absent =>
        intro hk
        exact hsecret.trans ((h.made m).absent (List.mem_cons_of_mem _ hk))
      case linked => exact fun hk => absurd (hlater .link (by decide) nofun) hk
    · rw [Function.update_of_ne hmn]
      refine Made.other (h.made m) hmn ?_ ?_ ?_
      · apply Entries.get?_set_of_ne
        intro heq
        exact hmn (c.temporaries_injective (DirName.temporary.inj heq))
      · exact Entries.get?_set_of_ne _ _ nofun
      · intro hm
        exact List.getElem?_append_left (hlt m hm hmn)

/-- A step keeps the account of what is there. -/
theorem Progress.perform (hok : FileOp.perform c values d ⟨k, n⟩ = .ok d') :
    ∃ ino, Progress c values d' ops ino := by
  cases k with
  | create =>
      simp only [FileOp.perform] at hok
      split at hok
      · cases hok
      · next hfree =>
          cases hok
          exact ⟨_, h.create hproper rfl (Bool.eq_false_iff.mpr hfree)⟩
  | write =>
      obtain ⟨i, node, hentry, hget, rfl⟩ := update_eq_ok hok
      obtain ⟨rfl, hdone, hmode, hcontent, howner, hprotect⟩ :=
        h.node_of_temporary hproper (by decide) hentry hget
      refine ⟨ino, h.update nofun nofun hdone hget hmode (fun _ => rfl) ?_ ?_⟩
      · exact fun hk => howner (notMem_cons_of_kind hk (by decide))
      · exact fun hk => hprotect (notMem_cons_of_kind hk (by decide))
  | chown =>
      obtain ⟨i, node, hentry, hget, rfl⟩ := update_eq_ok hok
      obtain ⟨rfl, hdone, hmode, hcontent, howner, hprotect⟩ :=
        h.node_of_temporary hproper (by decide) hentry hget
      refine ⟨ino, h.update nofun nofun hdone hget hmode ?_ ?_ ?_⟩
      · exact fun hk => hcontent (notMem_cons_of_kind hk (by decide))
      · intro _ ids hids
        simp only [hids, Option.map_some, Option.getD_some]
      · exact fun hk => hprotect (notMem_cons_of_kind hk (by decide))
  | chmodStaged =>
      obtain ⟨i, node, hentry, hget, rfl⟩ := update_eq_ok hok
      obtain ⟨rfl, hdone, hmode, hcontent, howner, hprotect⟩ :=
        h.node_of_temporary hproper (by decide) hentry hget
      refine ⟨ino, h.update nofun nofun hdone hget (.inl rfl) ?_ ?_ (fun _ => rfl)⟩
      · exact fun hk => hcontent (notMem_cons_of_kind hk (by decide))
      · exact fun hk => howner (notMem_cons_of_kind hk (by decide))
  | link =>
      simp only [FileOp.perform] at hok
      split at hok
      · cases hok
      · next i node hnode =>
          split at hok
          · cases hok
          · cases hok
            obtain ⟨hentry, hget⟩ := get?_of_node? hnode
            obtain ⟨rfl, hdone, hmode, hcontent, howner, hprotect⟩ :=
              h.node_of_temporary hproper (by decide) hentry hget
            refine ⟨ino, ?_, ?_⟩
            · intro m m' hm hm' heq
              exact h.injective m m' (notMem_cons_create nofun hm)
                (notMem_cons_create nofun hm') heq
            · intro m
              by_cases hmn : m = n
              · subst hmn
                have hmade := h.made m
                constructor
                case staged =>
                  intro _ j hj
                  have hother : Entries.get? (d.link (.secret m) (ino m)).entries
                      (c.temporary m) = Entries.get? d.entries (c.temporary m) :=
                    Entries.get?_set_of_ne _ _ nofun
                  exact hmade.staged (notMem_cons_of_kind hdone (by decide)) j (hother ▸ hj)
                case node =>
                  intro _
                  refine ⟨node, hget, hmode, ?_, ?_, ?_⟩
                  · exact fun hk => hcontent (notMem_cons_of_kind hk (by decide))
                  · exact fun hk => howner (notMem_cons_of_kind hk (by decide))
                  · exact fun hk => hprotect (notMem_cons_of_kind hk (by decide))
                case absent => exact fun hk => absurd hk (hproper.notMem le_rfl)
                case linked => exact fun _ => Entries.get?_set_self _ _ _
              · refine Made.other (h.made m) hmn ?_ ?_ fun _ => rfl
                · exact Entries.get?_set_of_ne _ _ nofun
                · apply Entries.get?_set_of_ne
                  intro heq
                  exact hmn (DirName.secret.inj heq)
  | chmodLinked =>
      obtain ⟨i, node, hentry, hget, rfl⟩ := update_eq_ok hok
      obtain ⟨rfl, hdone, hmode, hcontent, howner, hprotect⟩ :=
        h.node_of_temporary hproper (by decide) hentry hget
      refine ⟨ino, h.update nofun nofun hdone hget (.inr rfl) ?_ ?_ ?_⟩
      · exact fun hk => hcontent (notMem_cons_of_kind hk (by decide))
      · exact fun hk => howner (notMem_cons_of_kind hk (by decide))
      · intro hk
        have hlater : ⟨.protect, n⟩ ∈ ops := hproper.mem (by decide) nofun
        exact absurd hlater hk
  | unlink =>
      simp only [FileOp.perform] at hok
      split at hok
      · cases hok
        refine ⟨ino, ?_, ?_⟩
        · intro m m' hm hm' heq
          exact h.injective m m' (notMem_cons_create nofun hm) (notMem_cons_create nofun hm') heq
        · intro m
          by_cases hmn : m = n
          · subst hmn
            have hmade := h.made m
            have hsecret : Entries.get? (d.unlink (c.temporary m)).entries (.secret m) =
                Entries.get? d.entries (.secret m) := Entries.get?_erase_of_ne _ nofun
            constructor
            case staged =>
              intro _ j hj
              have hgone : Entries.get? (d.unlink (c.temporary m)).entries (c.temporary m) = none :=
                Entries.get?_erase_self _ _
              rw [hgone] at hj
              cases hj
            case node =>
              intro hk
              obtain ⟨node, hget, hmode, hcontent, howner, hprotect⟩ :=
                hmade.node (notMem_cons_of_kind hk (by decide))
              refine ⟨node, hget, hmode, ?_, ?_, ?_⟩
              · exact fun hk => hcontent (notMem_cons_of_kind hk (by decide))
              · exact fun hk => howner (notMem_cons_of_kind hk (by decide))
              · exact fun hk => hprotect (notMem_cons_of_kind hk (by decide))
            case absent =>
              exact fun hk => hsecret.trans (hmade.absent (List.mem_cons_of_mem _ hk))
            case linked =>
              exact fun hk =>
                hsecret.trans (hmade.linked (notMem_cons_of_kind hk (by decide)))
          · refine Made.other (h.made m) hmn ?_ ?_ fun _ => rfl
            · apply Entries.get?_erase_of_ne
              intro heq
              exact hmn (c.temporaries_injective (DirName.temporary.inj heq))
            · exact Entries.get?_erase_of_ne _ nofun
      · cases hok
  | protect =>
      obtain ⟨i, node, hentry, hget, rfl⟩ := update_eq_ok hok
      have hdone : ⟨.create, n⟩ ∉ ops := hproper.notMem (by decide)
      have hlinked : ⟨.link, n⟩ ∉ ops := hproper.notMem (by decide)
      have hsame := (h.made n).linked (notMem_cons_of_kind hlinked (by decide))
      obtain rfl : i = ino n :=
        DirEntry.file.inj (Option.some.inj (hentry.symm.trans hsame))
      obtain ⟨node', hget', -, hcontent, howner, -⟩ :=
        (h.made n).node (notMem_cons_of_kind hdone (by decide))
      obtain rfl := Option.some.inj (hget.symm.trans hget')
      refine ⟨ino, h.update nofun nofun hdone hget (.inl rfl) ?_ ?_ (fun _ => rfl)⟩
      · exact fun hk => hcontent (notMem_cons_of_kind hk (by decide))
      · exact fun hk => howner (notMem_cons_of_kind hk (by decide))

omit hproper h in
/-- A write that fails leaves the other nodes and all names as they are. -/
theorem torn_eq (c : BootstrapCall) (values : SecretName → Bytes) (d : SecretsDirectory)
    (k : OpKind) (n : SecretName) (written : Nat) :
    FileOp.torn c values d ⟨k, n⟩ written = d ∨ k = .write ∧ ∃ i node changed,
      Entries.get? d.entries (c.temporary n) = some (.file i) ∧ d.nodes[i]? = some node ∧
        FileOp.torn c values d ⟨k, n⟩ written = d.setNode i changed := by
  cases k with
  | write =>
      simp only [FileOp.torn]
      split
      · next d' hok =>
          obtain ⟨i, node, hentry, hget, rfl⟩ := update_eq_ok hok
          exact .inr ⟨trivial, i, node, _, hentry, hget, rfl⟩
      · exact .inl rfl
  | _ => exact .inl rfl

end Progress

section Settled

/-- A file of a set: for its owner alone, and complete. -/
def IsSecret (c : BootstrapCall) (values : SecretName → Bytes) (n : SecretName) (node : Node) :
    Prop :=
  (node.mode = 0o400 ∨ node.mode = 0o600) ∧ node.content = values n ∧
    ∀ ids, c.ownerIds = some ids → node.owner = ids.owner n

/-- The secrets that are there are those of one set. -/
def Settled (O : OpenSsl) (d : SecretsDirectory) : Prop :=
  (∀ n, Entries.get? d.entries (.secret n) = none) ∨
    ∃ c values, generatedValues O c.draw = .ok values ∧ ∀ n entry,
      Entries.get? d.entries (.secret n) = some entry →
        ∃ i node, entry = .file i ∧ d.nodes[i]? = some node ∧ IsSecret c values n node

/-- The secrets that are there, and all files, stay as they are. -/
structure Kept (d d' : SecretsDirectory) : Prop where
  secret : ∀ n, Entries.get? d'.entries (.secret n) = Entries.get? d.entries (.secret n)
  node : ∀ (i : Nat) (node : Node), d.nodes[i]? = some node → d'.nodes[i]? = some node

variable {O : OpenSsl} {c : BootstrapCall} {values : SecretName → Bytes}
  {d d' d'' : SecretsDirectory} {ops : List FileOp} {op : FileOp} {ino : SecretName → Nat}

theorem Kept.refl (d : SecretsDirectory) : Kept d d := ⟨fun _ => rfl, fun _ _ h => h⟩

theorem Kept.trans (h : Kept d d') (h' : Kept d' d'') : Kept d d'' where
  secret n := (h'.secret n).trans (h.secret n)
  node i node hi := h'.node i node (h.node i node hi)

theorem kept_create {name : DirName} (h : ∀ n, .secret n ≠ name) (owner : Nat) :
    Kept d (d.create name owner) where
  secret n := Entries.get?_set_of_ne _ _ (h n)
  node i node hi := by
    obtain ⟨hlt, -⟩ := List.getElem?_eq_some_iff.mp hi
    exact (List.getElem?_append_left hlt).trans hi

theorem kept_unlink {name : DirName} (h : ∀ n, .secret n ≠ name) : Kept d (d.unlink name) where
  secret n := Entries.get?_erase_of_ne _ (h n)
  node _ _ hi := hi

theorem Settled.kept (h : Settled O d) (hkept : Kept d d') : Settled O d' := by
  rcases h with hnone | ⟨c, values, hvalues, hfiles⟩
  · exact .inl fun n => (hkept.secret n).trans (hnone n)
  · refine .inr ⟨c, values, hvalues, ?_⟩
    intro n entry hentry
    rw [hkept.secret] at hentry
    obtain ⟨i, node, rfl, hget, hsecret⟩ := hfiles n entry hentry
    exact ⟨i, node, rfl, hkept.node i node hget, hsecret⟩

theorem installed_kept {ownerIds : Option OwnerIds} (h : Installed O d ownerIds)
    (hkept : Kept d d') : Installed O d' ownerIds := by
  obtain ⟨draw, values, hvalues, hfiles⟩ := h
  refine ⟨draw, values, hvalues, ?_⟩
  intro n
  obtain ⟨i, node, hnode, hfacts⟩ := hfiles n
  obtain ⟨hentry, hget⟩ := get?_of_node? hnode
  exact ⟨i, node, node?_eq ((hkept.secret n).trans hentry) (hkept.node i node hget), hfacts⟩

/-- A set that has been installed has all of its files. -/
theorem Installed.has {ownerIds : Option OwnerIds} (h : Installed O d ownerIds) (n : SecretName) :
    Entries.has d.entries (.secret n) = true := by
  obtain ⟨draw, values, -, hfiles⟩ := h
  obtain ⟨i, node, hnode, -⟩ := hfiles n
  rw [Entries.has, (get?_of_node? hnode).1, Option.isSome_some]

variable (hproper : Proper c.ownerIds.isSome ops) (h : Progress c values d ops ino)

include hproper h

/-- A secret whose name is there is complete. -/
theorem Progress.isSecret {n : SecretName} (hlinked : ⟨.link, n⟩ ∉ ops) :
    ∃ node, d.nodes[ino n]? = some node ∧ IsSecret c values n node := by
  obtain ⟨node, hget, hmode, hcontent, howner, -⟩ :=
    (h.made n).node (hproper.done_of_linked hlinked (by decide))
  refine ⟨node, hget, hmode, ?_, ?_⟩
  · exact hcontent (hproper.done_of_linked hlinked (by decide))
  · exact howner (hproper.done_of_linked hlinked (by decide))

theorem Progress.settled (hvalues : generatedValues O c.draw = .ok values) : Settled O d := by
  refine .inr ⟨c, values, hvalues, ?_⟩
  intro n entry hentry
  have hlinked : ⟨.link, n⟩ ∉ ops := by
    intro hlink
    rw [(h.made n).absent hlink] at hentry
    cases hentry
  rw [(h.made n).linked hlinked] at hentry
  cases hentry
  obtain ⟨node, hget, hsecret⟩ := h.isSecret hproper hlinked
  exact ⟨_, node, rfl, hget, hsecret⟩

omit hproper in
/-- A set is there when nothing is left to be done. -/
theorem Progress.installed (hvalues : generatedValues O c.draw = .ok values)
    (hops : ops = []) : Installed O d c.ownerIds := by
  subst hops
  refine ⟨c.draw, values, hvalues, ?_⟩
  intro n
  have hmade := h.made n
  obtain ⟨node, hget, -, hcontent, howner, hprotect⟩ := hmade.node List.not_mem_nil
  exact ⟨_, node, node?_eq (hmade.linked List.not_mem_nil) hget, hcontent List.not_mem_nil,
    hprotect List.not_mem_nil, howner List.not_mem_nil⟩

omit hproper h in
theorem progress_start (hnone : ∀ n, Entries.get? d.entries (.secret n) = none) (chowns : Bool) :
    Progress c values d (bootstrapOps chowns) ino := by
  have hcreate (n : SecretName) : ⟨.create, n⟩ ∈ bootstrapOps chowns := by
    cases chowns <;> cases n <;> decide
  have hlink (n : SecretName) : ⟨.link, n⟩ ∈ bootstrapOps chowns := by
    cases chowns <;> cases n <;> decide
  constructor
  · exact fun m _ hm => absurd (hcreate m) hm
  · intro n
    exact ⟨fun hn => absurd (hcreate n) hn, fun hn => absurd (hcreate n) hn, fun _ => hnone n,
      fun hn => absurd (hlink n) hn⟩

omit hproper h in
theorem lock_update {name : DirName} {f : Node → Node} (hok : d.update name f = .ok d') :
    d'.entries = d.entries := by
  obtain ⟨i, node, -, -, rfl⟩ := update_eq_ok hok
  rfl

omit hproper h in
/-- The steps on the files leave the lock. -/
theorem lock_of_perform {k : OpKind} {n : SecretName}
    (hok : FileOp.perform c values d ⟨k, n⟩ = .ok d') :
    Entries.has d'.entries .lock = Entries.has d.entries .lock := by
  cases k with
  | create =>
      simp only [FileOp.perform] at hok
      split at hok
      · cases hok
      · cases hok
        exact congrArg Option.isSome (Entries.get?_set_of_ne _ _ nofun)
  | link =>
      simp only [FileOp.perform] at hok
      split at hok
      · cases hok
      · split at hok
        · cases hok
        · cases hok
          exact congrArg Option.isSome (Entries.get?_set_of_ne _ _ nofun)
  | unlink =>
      simp only [FileOp.perform] at hok
      split at hok
      · cases hok
        exact congrArg Option.isSome (Entries.get?_erase_of_ne _ nofun)
      · cases hok
  | _ => rw [lock_update hok]

omit hproper h in
theorem lock_of_torn {k : OpKind} {n : SecretName} {written : Nat} :
    Entries.has (FileOp.torn c values d ⟨k, n⟩ written).entries .lock =
      Entries.has d.entries .lock := by
  rcases torn_eq c values d k n written with hsame | ⟨-, i, node, changed, -, -, htorn⟩
  · rw [hsame]
  · rw [htorn]
    rfl

omit hproper h in
/-- A write that fails damages no secret. -/
theorem Progress.settled_torn {k : OpKind} {n : SecretName} {written : Nat}
    (hproper : Proper c.ownerIds.isSome (⟨k, n⟩ :: ops))
    (h : Progress c values d (⟨k, n⟩ :: ops) ino)
    (hvalues : generatedValues O c.draw = .ok values) :
    Settled O (FileOp.torn c values d ⟨k, n⟩ written) := by
  rcases torn_eq c values d k n written with hsame | ⟨rfl, i, node, changed, hentry, hget, htorn⟩
  · rw [hsame]
    exact h.settled hproper hvalues
  · rw [htorn]
    obtain ⟨rfl, hdone, -⟩ := h.node_of_temporary hproper (by decide) hentry hget
    refine .inr ⟨c, values, hvalues, ?_⟩
    intro m entry hm
    have hlinked : ⟨.link, m⟩ ∉ ⟨.write, n⟩ :: ops := by
      intro hlink
      have hnone : Entries.get? d.entries (.secret m) = none := (h.made m).absent hlink
      exact absurd (hnone.symm.trans hm) nofun
    have hmn : m ≠ n := by
      rintro rfl
      exact hlinked (List.mem_cons_of_mem _ (hproper.mem (by decide) nofun))
    have hfile : some entry = some (.file (ino m)) := hm.symm.trans ((h.made m).linked hlinked)
    cases hfile
    obtain ⟨node', hget', hsecret⟩ := h.isSecret hproper hlinked
    refine ⟨_, node', rfl, ?_, hsecret⟩
    rw [← hget']
    apply List.getElem?_set_ne
    intro heq
    have hcreated := hproper.done_of_linked hlinked (k := .create) (by decide)
    exact hmn (h.injective n m (notMem_cons_create nofun hdone) hcreated heq).symm

end Settled

section Runs

namespace BootstrapThread

variable {O : OpenSsl} {c : BootstrapCall} {d d' : SecretsDirectory} {t t' u : BootstrapThread}

/-- What a call relies on. -/
def Assertion (O : OpenSsl) (d : SecretsDirectory) : BootstrapThread → Prop
  | called _ _ => True
  | checking _ _ => Entries.has d.entries .lock = true
  | making c values ops _ _ => Entries.has d.entries .lock = true ∧
      generatedValues O c.draw = .ok values ∧ Proper c.ownerIds.isSome ops ∧
      ∃ ino, Progress c values d ops ino
  | cleaning c _ outcome _ => Entries.has d.entries .lock = true ∧
      (outcome = .ok .created → Installed O d c.ownerIds)
  | closing c outcome _ => Entries.has d.entries .lock = true ∧
      (outcome = .ok .created → Installed O d c.ownerIds)
  | ended c outcome => outcome = .ok .created → Installed O d c.ownerIds
  | unlocking => True
  | killed => True

/-- Two calls hold the lock, or one makes a set that the other one has made. -/
def Conflict (t u : BootstrapThread) : Prop :=
  (t.inside = true ∧ u.inside = true) ∨ (t.isMaking = true ∧ u.madeBy.isSome = true) ∨
    (t.madeBy.isSome = true ∧ u.isMaking = true)

theorem conflict_symm (h : Conflict t u) : Conflict u t := by
  rcases h with ⟨ht, hu⟩ | ⟨ht, hu⟩ | ⟨ht, hu⟩
  · exact .inl ⟨hu, ht⟩
  · exact .inr (.inr ⟨hu, ht⟩)
  · exact .inr (.inl ⟨hu, ht⟩)

theorem not_conflict_of_outside (hinside : t.inside = false) (hmade : t.madeBy = none) :
    ¬ Conflict t u := by
  have hmaking : t.isMaking = false := by
    cases t <;> first | rfl | cases hinside
  rintro (⟨ht, -⟩ | ⟨ht, -⟩ | ⟨ht, -⟩)
  · exact Bool.false_ne_true (hinside.symm.trans ht)
  · exact Bool.false_ne_true (hmaking.symm.trans ht)
  · rw [hmade] at ht
    cases ht

/-- A call that holds the lock is in conflict with no other one, if it makes no set. -/
theorem not_conflict_of_outside_other (hu : u.inside = false) (ht : t.isMaking = false) :
    ¬ Conflict t u := by
  have hmaking : u.isMaking = false := by
    cases u <;> first | rfl | cases hu
  rintro (⟨-, h⟩ | ⟨h, -⟩ | ⟨-, h⟩)
  · exact Bool.false_ne_true (hu.symm.trans h)
  · exact Bool.false_ne_true (ht.symm.trans h)
  · exact Bool.false_ne_true (hmaking.symm.trans h)

/-- A call outside that has made no set is in conflict with no other one. -/
theorem not_conflict_of_unmade (hu : u.inside = false) (hmade : u.madeBy = none) :
    ¬ Conflict t u :=
  fun h => not_conflict_of_outside hu hmade (conflict_symm h)

theorem lock_of_inside (h : Assertion O d u) (hu : u.inside = true) :
    Entries.has d.entries .lock = true := by
  cases u with
  | checking c fates => exact h
  | making c values ops staged fates => exact h.1
  | cleaning c staged outcome fates => exact h.1
  | closing c outcome fates => exact h.1
  | _ => cases hu

/-- What a call outside relies on stays true while the files do. -/
theorem Assertion.kept (h : Assertion O d u) (hkept : Kept d d') (hu : u.inside = false) :
    Assertion O d' u := by
  cases u with
  | called c fates => trivial
  | ended c outcome => exact fun hcreated => installed_kept (h hcreated) hkept
  | unlocking => trivial
  | killed => trivial
  | _ => cases hu

/-- What a call outside that has made no set relies on is always true. -/
theorem assertion_of_outside (hu : u.inside = false) (hmade : u.madeBy = none) :
    Assertion O d u := by
  cases u with
  | called c fates => trivial
  | ended c outcome =>
      rintro rfl
      cases hmade
  | unlocking => trivial
  | killed => trivial
  | _ => cases hu

theorem outside_of_not_conflict (ht : t.inside = true) (h : ¬ Conflict t u) :
    u.inside = false := by
  rw [Bool.eq_false_iff]
  exact fun hu => h (.inl ⟨ht, hu⟩)

theorem not_made_of_not_conflict (ht : t.isMaking = true) (h : ¬ Conflict t u) :
    u.madeBy = none := by
  rw [← Option.not_isSome_iff_eq_none]
  exact fun hu => h (.inr (.inl ⟨ht, hu⟩))

/-- What a step does for the directory, for its call and for the other ones. -/
def Moves (O : OpenSsl) (d : SecretsDirectory) (t : BootstrapThread) (d' : SecretsDirectory)
    (t' : BootstrapThread) : Prop :=
  Settled O d' ∧ Assertion O d' t' ∧ ∀ u, Assertion O d u → ¬ Conflict t u →
    (system O).waits t u = false → Assertion O d' u ∧ ¬ Conflict t' u

/-- A step of a call that holds the lock, or does not want it, which makes no set. -/
theorem moves_of_kept (hsettled : Settled O d) (hkept : Kept d d') (ht' : t'.isMaking = false)
    (hown : Assertion O d' t')
    (hothers : ∀ u, Assertion O d u → ¬ Conflict t u → (system O).waits t u = false →
      u.inside = false) : Moves O d t d' t' := by
  refine ⟨hsettled.kept hkept, hown, ?_⟩
  intro u hu hfree hwait
  have houtside := hothers u hu hfree hwait
  exact ⟨hu.kept hkept houtside, not_conflict_of_outside_other houtside ht'⟩

/-- A call that ends before it has the lock. -/
theorem moves_refused {fates : List StepFate} {e : SetupError} (hsettled : Settled O d) :
    Moves O d (called c fates) d (ended c (.error e)) :=
  ⟨hsettled, nofun, fun _ hu _ _ => ⟨hu, not_conflict_of_outside rfl rfl⟩⟩

theorem moves_called {fates : List StepFate} (hsettled : Settled O d)
    (hnext : next O d (called c fates) = some (d', t')) :
    Moves O d (called c fates) d' t' := by
  simp only [next] at hnext
  split at hnext
  · cases hnext
    exact moves_refused hsettled
  · split at hnext
    · cases hnext
      exact moves_refused hsettled
    · split at hnext
      · cases hnext
        exact moves_refused hsettled
      · next hfree =>
          split at hnext
          · cases hnext
            have hlock : Entries.has (d.create .lock c.user).entries .lock = true := by
              rw [Entries.has]
              exact (congrArg Option.isSome (Entries.get?_set_self _ _ _)).trans rfl
            refine moves_of_kept hsettled (kept_create DirName.secret_ne_lock _) rfl hlock ?_
            intro u hu _ _
            rw [Bool.eq_false_iff]
            exact fun hinside => hfree (lock_of_inside hu hinside)
          · cases hnext
            exact moves_refused hsettled

/-- Where no secret is there, a call finds nothing to preserve. -/
theorem check_of_making {fates fates' : List StepFate} {values : SecretName → Bytes}
    {ops : List FileOp} {staged : List SecretName} {c' : BootstrapCall}
    (h : check c d O fates = making c' values ops staged fates') :
    c' = c ∧ ops = bootstrapOps c.ownerIds.isSome ∧ generatedValues O c.draw = .ok values ∧
      ∀ n, Entries.get? d.entries (.secret n) = none := by
  unfold check at h
  dsimp only at h
  split_ifs at h with hall hany hvolume hroot
  split at h
  · cases h
  · next values' hvalues =>
      cases h
      refine ⟨rfl, rfl, hvalues, ?_⟩
      intro n
      rw [← Option.not_isSome_iff_eq_none]
      intro hsome
      apply hany
      rw [List.any_eq_true]
      exact ⟨true, List.mem_map.mpr ⟨n, n.mem_all, hsome⟩, rfl⟩

theorem check_cases (c : BootstrapCall) (d : SecretsDirectory) (O : OpenSsl)
    (fates : List StepFate) :
    (∃ outcome, check c d O fates = closing c outcome fates ∧ outcome ≠ .ok .created) ∨
      ∃ values ops, check c d O fates = making c values ops [] fates := by
  unfold check
  dsimp only
  split_ifs
  · refine .inl ⟨_, rfl, ?_⟩
    cases validateExisting O d c.ownerIds <;> nofun
  · exact .inl ⟨_, rfl, nofun⟩
  · exact .inl ⟨_, rfl, nofun⟩
  · exact .inl ⟨_, rfl, nofun⟩
  · split
    · exact .inl ⟨_, rfl, nofun⟩
    · exact .inr ⟨_, _, rfl⟩

/-- Where a secret is missing, no call has made the set. -/
theorem madeBy_of_absent {n : SecretName} (h : Assertion O d u)
    (hnone : Entries.get? d.entries (.secret n) = none) : u.madeBy = none := by
  cases u with
  | ended c outcome =>
      match outcome, h with
      | .error e, _ => rfl
      | .ok .preserved, _ => rfl
      | .ok .created, h =>
          have hhas := (h rfl).has n
          rw [Entries.has, hnone] at hhas
          cases hhas
  | _ => rfl

theorem moves_checking {fates : List StepFate} (hsettled : Settled O d)
    (hown : Assertion O d (checking c fates))
    (hnext : next O d (checking c fates) = some (d', t')) :
    Moves O d (checking c fates) d' t' := by
  obtain ⟨rfl, rfl⟩ := Prod.mk.inj (Option.some.inj hnext)
  rcases check_cases c d O fates with ⟨outcome, hcheck, hnot⟩ | ⟨values, ops, hcheck⟩
  · rw [hcheck]
    apply moves_of_kept hsettled (.refl d) rfl
    · exact ⟨hown, fun hcreated => absurd hcreated hnot⟩
    · exact fun u _ hfree _ => outside_of_not_conflict rfl hfree
  · obtain ⟨-, rfl, hvalues, hnone⟩ := check_of_making hcheck
    rw [hcheck]
    refine ⟨hsettled, ⟨hown, hvalues, proper_bootstrapOps _, fun _ => 0, ?_⟩, ?_⟩
    · exact progress_start hnone _
    · intro u hu hfree _
      exact ⟨hu, not_conflict_of_unmade (outside_of_not_conflict rfl hfree)
        (madeBy_of_absent hu (hnone .dbPassword))⟩

/-- A call that makes a set relies on no other one. -/
theorem moves_of_making {values : SecretName → Bytes} {ops : List FileOp}
    {staged : List SecretName} {fates : List StepFate} (hsettled : Settled O d')
    (hown : Assertion O d' t') : Moves O d (making c values ops staged fates) d' t' := by
  refine ⟨hsettled, hown, ?_⟩
  intro u hu hfree _
  have houtside := outside_of_not_conflict rfl hfree
  have hunmade := not_made_of_not_conflict rfl hfree
  exact ⟨assertion_of_outside houtside hunmade, not_conflict_of_unmade houtside hunmade⟩

theorem moves_making {values : SecretName → Bytes} {ops : List FileOp}
    {staged : List SecretName} {fates : List StepFate}
    (hown : Assertion O d (making c values ops staged fates))
    (hnext : next O d (making c values ops staged fates) = some (d', t')) :
    Moves O d (making c values ops staged fates) d' t' := by
  obtain ⟨hlock, hvalues, hproper, ino, hprogress⟩ := hown
  have hsettled := hprogress.settled hproper hvalues
  cases ops with
  | nil =>
      cases hnext
      exact moves_of_making hsettled ⟨hlock, fun _ => hprogress.installed hvalues rfl⟩
  | cons op ops =>
      obtain ⟨k, n⟩ := op
      simp only [next] at hnext
      split at hnext
      · split at hnext
        · next hok =>
            cases hnext
            obtain ⟨ino', hafter⟩ := hprogress.perform hproper hok
            apply moves_of_making (hafter.settled hproper.tail hvalues)
            exact ⟨(lock_of_perform hok).trans hlock, hvalues, hproper.tail, ino', hafter⟩
        · cases hnext
          exact moves_of_making hsettled ⟨hlock, nofun⟩
      · cases hnext
        apply moves_of_making (hprogress.settled_torn hproper hvalues)
        exact ⟨lock_of_torn.trans hlock, nofun⟩

theorem moves_cleaning {staged : List SecretName} {outcome : BootstrapOutcome}
    {fates : List StepFate} (hsettled : Settled O d)
    (hown : Assertion O d (cleaning c staged outcome fates))
    (hnext : next O d (cleaning c staged outcome fates) = some (d', t')) :
    Moves O d (cleaning c staged outcome fates) d' t' := by
  have hothers (u : BootstrapThread) (_ : Assertion O d u)
      (hfree : ¬ Conflict (cleaning c staged outcome fates) u)
      (_ : (system O).waits (cleaning c staged outcome fates) u = false) : u.inside = false :=
    outside_of_not_conflict rfl hfree
  cases staged with
  | nil =>
      cases hnext
      exact moves_of_kept hsettled (.refl d) rfl hown hothers
  | cons n rest =>
      simp only [next] at hnext
      split at hnext
      · cases hnext
        have hlock : Entries.get? (d.unlink (c.temporary n)).entries .lock =
            Entries.get? d.entries .lock := Entries.get?_erase_of_ne _ nofun
        refine moves_of_kept hsettled (kept_unlink (c.secret_ne_temporary n)) rfl ⟨?_, ?_⟩ hothers
        · exact (congrArg Option.isSome hlock).trans hown.1
        · intro hcreated
          exact installed_kept (hown.2 hcreated) (kept_unlink (c.secret_ne_temporary n))
      · cases hnext
        exact moves_of_kept hsettled (.refl d) rfl ⟨hown.1, nofun⟩ hothers

theorem moves_closing {outcome : BootstrapOutcome} {fates : List StepFate} (hsettled : Settled O d)
    (hown : Assertion O d (closing c outcome fates))
    (hnext : next O d (closing c outcome fates) = some (d', t')) :
    Moves O d (closing c outcome fates) d' t' := by
  have hothers (u : BootstrapThread) (_ : Assertion O d u)
      (hfree : ¬ Conflict (closing c outcome fates) u)
      (_ : (system O).waits (closing c outcome fates) u = false) : u.inside = false :=
    outside_of_not_conflict rfl hfree
  simp only [next] at hnext
  split at hnext
  · cases hnext
    refine moves_of_kept hsettled (kept_unlink DirName.secret_ne_lock) rfl ?_ hothers
    exact fun hcreated => installed_kept (hown.2 hcreated) (kept_unlink DirName.secret_ne_lock)
  · cases hnext
    exact moves_of_kept hsettled (.refl d) rfl nofun hothers

/-- What a step of a call does. -/
theorem moves_of_next (hsettled : Settled O d) (hown : Assertion O d t)
    (hnext : next O d t = some (d', t')) : Moves O d t d' t' := by
  cases t with
  | called c fates => exact moves_called hsettled hnext
  | checking c fates => exact moves_checking hsettled hown hnext
  | making c values ops staged fates => exact moves_making hown hnext
  | cleaning c staged outcome fates => exact moves_cleaning hsettled hown hnext
  | closing c outcome fates => exact moves_closing hsettled hown hnext
  | ended c outcome => cases hnext
  | unlocking =>
      cases hnext
      exact moves_of_kept hsettled (kept_unlink DirName.secret_ne_lock) rfl trivial
        fun _ _ _ hwait => hwait
  | killed => cases hnext

/-- The runs on a directory. -/
def runs (O : OpenSsl) (start : SecretsDirectory) :
    Machine (Sessions SecretsDirectory BootstrapThread) (SessionEvent BootstrapThread) :=
  (system O).machine fun d => d = start

variable {start : SecretsDirectory} {s : Sessions SecretsDirectory BootstrapThread}

/-- What holds at every moment, if there was no secret. -/
theorem assertions_of_reachable (hnone : ∀ n, Entries.get? start.entries (.secret n) = none)
    (h : (runs O start).Reachable Machine.anyStep s) :
    Settled O s.committed ∧ (∀ t ∈ s.running, Assertion O s.committed t) ∧
      Threads.Alone Conflict s.running := by
  apply h.invariant
  · rintro s ⟨hstart, hrunning⟩
    rw [hrunning, hstart]
    exact ⟨.inl hnone, fun t ht => absurd ht List.not_mem_nil, Threads.alone_nil⟩
  · rintro s e s' ⟨hsettled, hthreads, halone⟩ - hstep
    have hhappens := TransactionSystem.happens_of_apply hstep
    refine hhappens.keepsAlone (fun _ _ => conflict_symm) hsettled hthreads halone ?_ ?_ ?_
    · intro t ht
      cases t with
      | called c fates => exact ⟨trivial, fun u => not_conflict_of_outside rfl rfl⟩
      | unlocking => exact ⟨trivial, fun u => not_conflict_of_outside rfl rfl⟩
      | _ => cases ht
    · exact ⟨trivial, fun u => not_conflict_of_outside rfl rfl⟩
    · intro t d' t' hown hnext
      exact moves_of_next hsettled hown hnext

/-- A thread that has made and will make no set. -/
def Idle : BootstrapThread → Prop
  | making .. => False
  | cleaning _ _ outcome _ => outcome ≠ .ok .created
  | closing _ outcome _ => outcome ≠ .ok .created
  | ended _ outcome => outcome ≠ .ok .created
  | _ => True

/-- Where a secret is there, a call changes no secret and no file. -/
theorem idle_of_next {n : SecretName} (hkept : Kept start d) (hidle : Idle t)
    (hhas : Entries.has start.entries (.secret n) = true) (hnext : next O d t = some (d', t')) :
    Kept start d' ∧ Idle t' := by
  cases t with
  | called c fates =>
      simp only [next] at hnext
      split at hnext
      · cases hnext
        exact ⟨hkept, nofun⟩
      · split at hnext
        · cases hnext
          exact ⟨hkept, nofun⟩
        · split at hnext
          · cases hnext
            exact ⟨hkept, nofun⟩
          · split at hnext
            · cases hnext
              exact ⟨hkept.trans (kept_create DirName.secret_ne_lock _), trivial⟩
            · cases hnext
              exact ⟨hkept, nofun⟩
  | checking c fates =>
      obtain ⟨rfl, rfl⟩ := Prod.mk.inj (Option.some.inj hnext)
      refine ⟨hkept, ?_⟩
      rcases check_cases c d O fates with ⟨outcome, hcheck, hnot⟩ | ⟨values, ops, hcheck⟩
      · rw [hcheck]
        exact hnot
      · obtain ⟨-, -, -, hnone⟩ := check_of_making hcheck
        rw [Entries.has, ← hkept.secret, hnone n] at hhas
        cases hhas
  | making c values ops staged fates => exact hidle.elim
  | cleaning c staged outcome fates =>
      cases staged with
      | nil =>
          cases hnext
          exact ⟨hkept, hidle⟩
      | cons m rest =>
          simp only [next] at hnext
          split at hnext
          · cases hnext
            exact ⟨hkept.trans (kept_unlink (c.secret_ne_temporary m)), hidle⟩
          · cases hnext
            exact ⟨hkept, nofun⟩
  | closing c outcome fates =>
      simp only [next] at hnext
      split at hnext
      · cases hnext
        exact ⟨hkept.trans (kept_unlink DirName.secret_ne_lock), hidle⟩
      · cases hnext
        exact ⟨hkept, nofun⟩
  | ended c outcome => cases hnext
  | unlocking =>
      cases hnext
      exact ⟨hkept.trans (kept_unlink DirName.secret_ne_lock), trivial⟩
  | killed => cases hnext

end BootstrapThread

end Runs

section Results

variable {O : OpenSsl} {start : SecretsDirectory}
  {s : Sessions SecretsDirectory BootstrapThread}

/-- However the steps of any number of calls come after one another, fail or are the last ones: the
secrets that are there are complete files of one generated set, with its owners and for them alone;
a call that has made the set has left one that every later check accepts; and no two calls are at
work at once. -/
theorem secrets_of_one_set (hnone : ∀ n, Entries.get? start.entries (.secret n) = none)
    (h : (BootstrapThread.runs O start).Reachable Machine.anyStep s) :
    Settled O s.committed ∧
      (∀ c, .ended c (.ok .created) ∈ s.running →
        validateExisting O s.committed c.ownerIds = .ok ()) ∧
      Threads.Alone (fun t u => t.inside = true ∧ u.inside = true) s.running := by
  obtain ⟨hsettled, hthreads, halone⟩ := BootstrapThread.assertions_of_reachable hnone h
  refine ⟨hsettled, ?_, ?_⟩
  · intro c hc
    exact (hthreads _ hc rfl).validateExisting
  · intro i j t u ht hu hinside
    exact halone i j t u ht hu (.inl hinside)

/-- Where one of the secrets is there, no call, however it is broken off, changes a secret or the
content, the mode or the owner of a file, and none claims to have made the set. -/
theorem secrets_kept {n : SecretName} (hhas : Entries.has start.entries (.secret n) = true)
    (h : (BootstrapThread.runs O start).Reachable Machine.anyStep s) :
    Kept start s.committed ∧ ∀ c, .ended c (.ok .created) ∉ s.running := by
  have hall : Kept start s.committed ∧ ∀ t ∈ s.running, t.Idle := by
    apply h.invariant
    · rintro s ⟨hstart, hrunning⟩
      rw [hrunning, hstart]
      exact ⟨.refl _, fun t ht => absurd ht List.not_mem_nil⟩
    · rintro s e s' ⟨hkept, hthreads⟩ - hstep
      have hhappens := TransactionSystem.happens_of_apply hstep
      have hrule := hhappens.keeps (J := Kept start) (Q := fun _ t => t.Idle) hkept hthreads
      refine hrule ?_ trivial ?_
      · intro t ht
        cases t with
        | called c fates => trivial
        | unlocking => trivial
        | _ => cases ht
      · intro i t d' t' _ _ hidle hnext
        obtain ⟨hafter, hidle'⟩ := BootstrapThread.idle_of_next hkept hidle hhas hnext
        exact ⟨hafter, hidle', fun _ hu => hu⟩
  exact ⟨hall.1, fun c hc => hall.2 _ hc rfl⟩

end Results

section Samples

/-- A tool that knows one key. -/
def sampleOpenSsl : OpenSsl where
  publicKeyDer key := if key = [1] then some (spkiStart ++ List.replicate 32 7) else none
  publicKeyDer_nil := rfl

theorem length_sampleSecret (b : Byte) : (List.replicate 32 b).length = 32 :=
  List.length_replicate

def sampleSetDraw : SecretSetDraw where
  password := List.replicate 32 1
  pepper := List.replicate 32 2
  receipt := List.replicate 32 3
  privateKey := some [1]
  password_length := length_sampleSecret 1
  pepper_length := length_sampleSecret 2
  receipt_length := length_sampleSecret 3

/-- A call of the administrator for a new database. -/
def sampleBootstrap : BootstrapCall where
  directoryValid := true
  opensslFound := true
  databaseVolumeExists := false
  ownerIds := some ⟨10001, 999⟩
  user := 0
  draw := sampleSetDraw
  temporaries n := (SecretName.all.idxOf n)
  temporaries_injective := by
    intro m n h
    revert h
    cases m <;> cases n <;> decide

def sampleRun (start : SecretsDirectory) (events : List (SessionEvent BootstrapThread)) :
    Option (Sessions SecretsDirectory BootstrapThread) :=
  events.foldlM (fun s e => if Machine.anyStep s e then
    (BootstrapThread.system sampleOpenSsl).apply s e else none) { committed := start }

theorem reachable_sampleRun {start : SecretsDirectory}
    {events : List (SessionEvent BootstrapThread)}
    {s : Sessions SecretsDirectory BootstrapThread} (h : sampleRun start events = some s) :
    (BootstrapThread.runs sampleOpenSsl start).Reachable Machine.anyStep s :=
  TransactionSystem.reachable_of_schedule rfl events h

/-- A call that makes the set, and one that is refused while it is at work. -/
def sampleSchedule : List (SessionEvent BootstrapThread) :=
  [.start (.called sampleBootstrap []), .start (.called sampleBootstrap []), .step 0, .step 1] ++
    List.replicate 58 (.step 0)

/-- A set that is made passes its check. -/
theorem secrets_of_one_set_sample : ∃ s,
    (BootstrapThread.runs sampleOpenSsl ⟨[], []⟩).Reachable Machine.anyStep s ∧
      (s.running.any fun t => t.madeBy.isSome) = true ∧
      ∀ c, .ended c (.ok .created) ∈ s.running →
        validateExisting sampleOpenSsl s.committed c.ownerIds = .ok () := by
  have hmade : ((sampleRun ⟨[], []⟩ sampleSchedule).any fun s =>
      s.running.any fun t => t.madeBy.isSome) = true := by decide +kernel
  obtain ⟨s, hs, hany⟩ := (Option.any_eq_true _ _).mp hmade
  have hreach := reachable_sampleRun hs
  exact ⟨s, hreach, hany, (secrets_of_one_set (fun _ => rfl) hreach).2.1⟩

/-- A directory with one of the secrets. -/
def sampleDirectory : SecretsDirectory :=
  ⟨[(.secret .dbPassword, .file 0)], [⟨[1], 0o400, 999⟩]⟩

/-- A call that finds one of the secrets leaves it. -/
theorem secrets_kept_sample : ∃ s,
    (BootstrapThread.runs sampleOpenSsl sampleDirectory).Reachable Machine.anyStep s ∧
      (s.running.all fun t => !t.inside) = true ∧ Kept sampleDirectory s.committed := by
  have hended : ((sampleRun sampleDirectory
      (.start (.called sampleBootstrap []) :: List.replicate 3 (.step 0))).any fun s =>
        s.running.all fun t => !t.inside) = true := by
    decide +kernel
  obtain ⟨s, hs, hall⟩ := (Option.any_eq_true _ _).mp hended
  have hreach := reachable_sampleRun hs
  have hhas : Entries.has sampleDirectory.entries (.secret .dbPassword) = true := rfl
  exact ⟨s, hreach, hall, (secrets_kept hhas hreach).1⟩

end Samples

end MediaBridge.Deploy
