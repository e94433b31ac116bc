import MediaBridge.Core.AssetRemoval
import MediaBridge.Foundation.Threads

/-!
# The life of an asset

An asset is returned once, to its tenant, before it expires and after its file is gone; and no
file is left without a record, whatever fails.
-/

namespace MediaBridge.Core

open Foundation

namespace AssetState

variable {settings : AssetStore} {s s' : AssetState} {event : AssetEvent}

/-- What a call has consumed: an asset that its tenant had put, before it expired. -/
structure Returns (registered : Entries Str (AssetRecord × Bytes)) (store : AssetStore.Shelf)
    (call : AssetCall) (asset : ConsumedAsset) (assetId : Str) (record : AssetRecord) : Prop where
  asked : call.request = .consume assetId record.tenantId
  known : Entries.get? registered assetId = some (record, asset.data)
  filename : asset.filename = record.filename
  declaredMime : asset.declaredMime = record.declaredMime
  alive : call.now < record.expiresAt
  gone : Entries.get? store.files assetId = none
  forgotten : Entries.get? store.records assetId = none

/-- Two calls have drawn one token. -/
def SameToken (call other : AssetCall) : Prop :=
  ∃ token, call.phase.pending? = some token ∧ other.phase.pending? = some token

/-- Two calls have consumed one asset. -/
def SameAsset (call other : AssetCall) : Prop :=
  ∃ assetId asset asset', call.request.assetId? = some assetId ∧
    other.request.assetId? = some assetId ∧ call.phase = .finished (.consumed asset) ∧
    other.phase = .finished (.consumed asset')

/-- The file of a call is written, and not registered. -/
def Wrote (s : AssetState) (call : AssetCall) (token : Str) : Prop :=
  ∃ tenantId data filename declaredMime,
    call.request = .put tenantId data filename declaredMime ∧
      Entries.get? s.store.files token = some data

/-- A call that has put an asset. -/
def Stored (s : AssetState) (assetId : Str) (record : AssetRecord) (data : Bytes) : Prop :=
  ∃ call ∈ s.calls, call.request = .put record.tenantId data record.filename record.declaredMime ∧
    call.phase = .finished (.stored assetId)

/-- What holds of a store and its calls in every run. -/
structure Sound (s : AssetState) : Prop where
  registered_drawn : ∀ assetId, Entries.get? s.registered assetId ≠ none → assetId ∈ s.drawn
  pending_drawn : ∀ call ∈ s.calls, ∀ token, call.phase.pending? = some token → token ∈ s.drawn
  pending_new : ∀ call ∈ s.calls, ∀ token, call.phase.pending? = some token →
    Entries.get? s.registered token = none
  pending_alone : Threads.Alone SameToken s.calls
  pending_unnamed : ∀ call ∈ s.calls, ∀ other ∈ s.calls, ∀ assetId,
    call.request.assetId? = some assetId → other.phase.pending? ≠ some assetId
  wrote : ∀ call ∈ s.calls, ∀ token, call.phase = .written token → s.Wrote call token
  recorded : ∀ assetId record, Entries.get? s.store.records assetId = some record →
    ∃ data, Entries.get? s.registered assetId = some (record, data) ∧
      ∀ bytes, Entries.get? s.store.files assetId = some bytes → bytes = data
  tracked : ∀ assetId, Entries.has s.store.files assetId = true →
    Entries.has s.store.records assetId = true ∨
      ∃ call ∈ s.calls, call.phase.pending? = some assetId
  alive : ∀ call ∈ s.calls, call.phase = .ready → ∀ assetId tenantId,
    call.request = .consume assetId tenantId → ∀ record,
      Entries.get? s.store.records assetId = some record → call.now < record.expiresAt
  stored : ∀ assetId record data, Entries.get? s.registered assetId = some (record, data) →
    s.Stored assetId record data
  returned : ∀ call ∈ s.calls, ∀ asset, call.phase = .finished (.consumed asset) →
    ∃ assetId record, Returns s.registered s.store call asset assetId record
  once : Threads.Alone SameAsset s.calls

theorem sound_initial : Sound {} where
  registered_drawn := fun _ h => absurd rfl h
  pending_drawn := nofun
  pending_new := nofun
  pending_alone := Threads.alone_nil
  pending_unnamed := nofun
  wrote := nofun
  recorded := nofun
  tracked := nofun
  alive := nofun
  stored := nofun
  returned := nofun
  once := Threads.alone_nil

/-- A file without a record is not one that has been registered. -/
theorem Sound.pending_unrecorded (h : Sound s) {call : AssetCall} (hcall : call ∈ s.calls)
    {token : Str} (hpending : call.phase.pending? = some token) :
    Entries.get? s.store.records token = none := by
  rw [Option.eq_none_iff_forall_ne_some]
  intro record hrecord
  obtain ⟨data, hregistered, -⟩ := h.recorded token record hrecord
  rw [h.pending_new call hcall token hpending] at hregistered
  cases hregistered

/-- Removals keep the store sound, whatever fails. -/
theorem Sound.lose (h : Sound s) {store : AssetStore.Shelf}
    (hloses : AssetStore.Loses s.store store) : Sound { s with store := store } where
  registered_drawn := h.registered_drawn
  pending_drawn := h.pending_drawn
  pending_new := h.pending_new
  pending_alone := h.pending_alone
  pending_unnamed := h.pending_unnamed
  wrote := by
    intro call hcall token hphase
    obtain ⟨tenantId, data, filename, declaredMime, hrequest, hfile⟩ :=
      h.wrote call hcall token hphase
    refine ⟨tenantId, data, filename, declaredMime, hrequest, ?_⟩
    refine (hloses.untouched token ?_).trans hfile
    have hpending : call.phase.pending? = some token := by
      rw [hphase]
      rfl
    rw [Entries.has, h.pending_unrecorded hcall hpending]
    exact Bool.false_ne_true
  recorded := by
    intro assetId record hrecord
    obtain ⟨data, hregistered, hfile⟩ := h.recorded assetId record (hloses.records _ _ hrecord)
    exact ⟨data, hregistered, fun bytes hbytes => hfile bytes (hloses.files _ _ hbytes)⟩
  tracked := by
    intro assetId hfile
    rcases h.tracked assetId (hloses.has_files hfile) with hrecord | hpending
    · obtain ⟨record, hrecord⟩ := Option.isSome_iff_exists.mp hrecord
      exact .inl (Option.isSome_iff_exists.mpr ⟨record, hloses.kept assetId record hrecord hfile⟩)
    · exact .inr hpending
  alive := fun call hcall hphase assetId tenantId hrequest record hrecord =>
    h.alive call hcall hphase assetId tenantId hrequest record (hloses.records _ _ hrecord)
  stored := h.stored
  returned := by
    intro call hcall asset hphase
    obtain ⟨assetId, record, hreturns⟩ := h.returned call hcall asset hphase
    refine ⟨assetId, record, { hreturns with gone := ?_, forgotten := ?_ }⟩
    · rw [Option.eq_none_iff_forall_ne_some]
      intro bytes hbytes
      exact Option.some_ne_none bytes ((hloses.files _ _ hbytes).symm.trans hreturns.gone)
    · rw [Option.eq_none_iff_forall_ne_some]
      intro record' hrecord
      exact Option.some_ne_none record'
        ((hloses.records _ _ hrecord).symm.trans hreturns.forgotten)
  once := h.once

/-- A call begins. -/
theorem Sound.open (h : Sound s) {request : AssetRequest} {now : ℚ} {phase : AssetPhase}
    (hnamed : ∀ assetId, request.assetId? = some assetId → s.pending assetId = false)
    (hphase : phase = .purging ∨ phase = .ready ∧ request = .clear) :
    Sound { s with calls := s.calls ++ [⟨request, now, phase⟩] } := by
  have hidle : phase.pending? = none := by
    rcases hphase with rfl | ⟨rfl, -⟩ <;> rfl
  have hrunning (answer : AssetAnswer) : phase ≠ .finished answer := by
    rcases hphase with rfl | ⟨rfl, -⟩ <;> nofun
  constructor
  case registered_drawn => exact h.registered_drawn
  case pending_drawn =>
    rw [List.forall_mem_append, List.forall_mem_singleton]
    exact ⟨h.pending_drawn, fun token htoken => absurd (htoken.symm.trans hidle) nofun⟩
  case pending_new =>
    rw [List.forall_mem_append, List.forall_mem_singleton]
    exact ⟨h.pending_new, fun token htoken => absurd (htoken.symm.trans hidle) nofun⟩
  case pending_alone =>
    refine h.pending_alone.append ?_ fun other _ => ⟨?_, ?_⟩
    · rintro ⟨token, htoken, -⟩
      exact absurd (htoken.symm.trans hidle) nofun
    · rintro ⟨token, htoken, -⟩
      exact absurd (htoken.symm.trans hidle) nofun
    · rintro ⟨token, -, htoken⟩
      exact absurd (htoken.symm.trans hidle) nofun
  case pending_unnamed =>
    intro call hcall other hother assetId hname htoken
    rcases List.mem_append.mp hother with hother | hother
    · rcases List.mem_append.mp hcall with hcall | hcall
      · exact h.pending_unnamed call hcall other hother assetId hname htoken
      · rw [List.mem_singleton.mp hcall] at hname
        refine List.any_eq_false.mp (hnamed assetId hname) other hother ?_
        exact decide_eq_true htoken
    · rw [List.mem_singleton.mp hother] at htoken
      exact absurd (htoken.symm.trans hidle) nofun
  case wrote =>
    rw [List.forall_mem_append, List.forall_mem_singleton]
    refine ⟨h.wrote, fun token htoken => ?_⟩
    rw [show phase = .written token from htoken] at hidle
    cases hidle
  case recorded => exact h.recorded
  case tracked =>
    intro assetId hfile
    rcases h.tracked assetId hfile with hrecord | ⟨call, hcall, hpending⟩
    · exact .inl hrecord
    · exact .inr ⟨call, List.mem_append_left _ hcall, hpending⟩
  case alive =>
    rw [List.forall_mem_append, List.forall_mem_singleton]
    refine ⟨h.alive, fun hready assetId tenantId hrequest => ?_⟩
    rcases hphase with rfl | ⟨-, rfl⟩
    · cases hready
    · cases hrequest
  case stored =>
    intro assetId record data hregistered
    obtain ⟨call, hcall, hstored⟩ := h.stored assetId record data hregistered
    exact ⟨call, List.mem_append_left _ hcall, hstored⟩
  case returned =>
    rw [List.forall_mem_append, List.forall_mem_singleton]
    exact ⟨h.returned, fun asset hfinished => absurd hfinished (hrunning _)⟩
  case once =>
    refine h.once.append ?_ fun other _ => ⟨?_, ?_⟩
    · rintro ⟨_, _, _, -, -, hfinished, -⟩
      exact hrunning _ hfinished
    · rintro ⟨_, _, _, -, -, hfinished, -⟩
      exact hrunning _ hfinished
    · rintro ⟨_, _, _, -, -, -, hfinished⟩
      exact hrunning _ hfinished

/-- A token that a call may draw. -/
structure Drawable (s : AssetState) (token : Str) : Prop where
  drawn : token ∈ s.drawn
  new : Entries.get? s.registered token = none
  unused : ∀ call ∈ s.calls, call.phase.pending? ≠ some token
  unnamed : ∀ call ∈ s.calls, call.request.assetId? ≠ some token

/-- What allows a call to go on to a phase. -/
structure MayEnter (s : AssetState) (call : AssetCall) (phase : AssetPhase) : Prop where
  running : ∀ answer, call.phase ≠ .finished answer
  keeps : ∀ token, call.phase.pending? = some token → phase.pending? = some token
  draws : ∀ token, phase.pending? = some token →
    call.phase.pending? = some token ∨ s.Drawable token
  wrote : ∀ token, phase = .written token → s.Wrote call token
  alive : phase = .ready → ∀ assetId tenantId, call.request = .consume assetId tenantId →
    ∀ record, Entries.get? s.store.records assetId = some record → call.now < record.expiresAt
  returned : ∀ asset, phase = .finished (.consumed asset) → ∃ assetId record,
    Returns s.registered s.store call asset assetId record ∧
      ∀ other ∈ s.calls, ∀ asset', other.phase = .finished (.consumed asset') →
        other.request.assetId? ≠ some assetId

/-- A call may end with any answer but an asset. -/
theorem mayEnter_finished {call : AssetCall} {answer : AssetAnswer}
    (hrunning : ∀ answer, call.phase ≠ .finished answer) (hidle : call.phase.pending? = none)
    (hanswer : ∀ asset, answer ≠ .consumed asset) : MayEnter s call (.finished answer) where
  running := hrunning
  keeps := fun _ htoken => absurd (htoken.symm.trans hidle) nofun
  draws := nofun
  wrote := nofun
  alive := nofun
  returned := by
    rintro asset hfinished
    cases hfinished
    exact absurd rfl (hanswer asset)

/-- A call goes on. -/
theorem Sound.setPhase (h : Sound s) {i : Nat} {call : AssetCall} {phase : AssetPhase}
    (hcall : s.calls[i]? = some call) (hmay : MayEnter s call phase) :
    Sound (s.setPhase i call phase) := by
  have hmem : call ∈ s.calls := List.mem_of_getElem? hcall
  have hfinished {other : AssetCall} (hother : other ∈ s.calls) {answer : AssetAnswer}
      (hanswer : other.phase = .finished answer) : other ∈ (s.setPhase i call phase).calls := by
    refine Threads.mem_set_of_ne hcall hother ?_
    rintro rfl
    exact hmay.running _ hanswer
  constructor
  case registered_drawn => exact h.registered_drawn
  case pending_drawn =>
    intro c hc token htoken
    rcases List.mem_or_eq_of_mem_set hc with hold | rfl
    · exact h.pending_drawn c hold token htoken
    · rcases hmay.draws token htoken with hsame | hdrawable
      · exact h.pending_drawn call hmem token hsame
      · exact hdrawable.drawn
  case pending_new =>
    intro c hc token htoken
    rcases List.mem_or_eq_of_mem_set hc with hold | rfl
    · exact h.pending_new c hold token htoken
    · rcases hmay.draws token htoken with hsame | hdrawable
      · exact h.pending_new call hmem token hsame
      · exact hdrawable.new
  case pending_alone =>
    have halone (j : Nat) (other : AssetCall) (hother : s.calls[j]? = some other) (hji : j ≠ i)
        (token : Str) (hnext : phase.pending? = some token) :
        other.phase.pending? ≠ some token := by
      intro htoken
      rcases hmay.draws token hnext with hsame | hdrawable
      · exact hji (h.pending_alone j i other call hother hcall ⟨token, htoken, hsame⟩)
      · exact hdrawable.unused other (List.mem_of_getElem? hother) htoken
    refine h.pending_alone.set fun j other hother hji => ⟨?_, ?_⟩
    · rintro ⟨token, hnext, htoken⟩
      exact halone j other hother hji token hnext htoken
    · rintro ⟨token, htoken, hnext⟩
      exact halone j other hother hji token hnext htoken
  case pending_unnamed =>
    intro c hc other hother assetId hname htoken
    obtain ⟨c', hc', hname'⟩ : ∃ c' ∈ s.calls, c'.request.assetId? = some assetId := by
      rcases List.mem_or_eq_of_mem_set hc with hold | rfl
      · exact ⟨c, hold, hname⟩
      · exact ⟨call, hmem, hname⟩
    rcases List.mem_or_eq_of_mem_set hother with hold | rfl
    · exact h.pending_unnamed c' hc' other hold assetId hname' htoken
    · rcases hmay.draws assetId htoken with hsame | hdrawable
      · exact h.pending_unnamed c' hc' call hmem assetId hname' hsame
      · exact hdrawable.unnamed c' hc' hname'
  case wrote =>
    intro c hc token hphase
    rcases List.mem_or_eq_of_mem_set hc with hold | rfl
    · exact h.wrote c hold token hphase
    · exact hmay.wrote token hphase
  case recorded => exact h.recorded
  case tracked =>
    intro assetId hfile
    rcases h.tracked assetId hfile with hrecord | ⟨c, hc, hpending⟩
    · exact .inl hrecord
    · by_cases hsame : c = call
      · rw [hsame] at hpending
        exact .inr ⟨_, Threads.mem_set_self hcall, hmay.keeps assetId hpending⟩
      · exact .inr ⟨c, Threads.mem_set_of_ne hcall hc hsame, hpending⟩
  case alive =>
    intro c hc hphase
    rcases List.mem_or_eq_of_mem_set hc with hold | rfl
    · exact h.alive c hold hphase
    · exact hmay.alive hphase
  case stored =>
    intro assetId record data hregistered
    obtain ⟨c, hc, hrequest, hstored⟩ := h.stored assetId record data hregistered
    exact ⟨c, hfinished hc hstored, hrequest, hstored⟩
  case returned =>
    intro c hc asset hphase
    rcases List.mem_or_eq_of_mem_set hc with hold | rfl
    · exact h.returned c hold asset hphase
    · obtain ⟨assetId, record, hreturns, -⟩ := hmay.returned asset hphase
      exact ⟨assetId, record, { hreturns with }⟩
  case once =>
    have halone (other : AssetCall) (hother : other ∈ s.calls) (assetId : Str)
        (asset asset' : ConsumedAsset) (hname : call.request.assetId? = some assetId)
        (hname' : other.request.assetId? = some assetId)
        (hphase : phase = .finished (.consumed asset))
        (hphase' : other.phase = .finished (.consumed asset')) : False := by
      obtain ⟨returned, record, hreturns, honce⟩ := hmay.returned asset hphase
      rw [hreturns.asked] at hname
      cases hname
      exact honce other hother asset' hphase' hname'
    refine h.once.set fun j other hother _ => ⟨?_, ?_⟩
    · rintro ⟨assetId, asset, asset', hname, hname', hphase, hphase'⟩
      exact halone other (List.mem_of_getElem? hother) assetId asset asset' hname hname' hphase
        hphase'
    · rintro ⟨assetId, asset', asset, hname', hname, hphase', hphase⟩
      exact halone other (List.mem_of_getElem? hother) assetId asset asset' hname hname' hphase
        hphase'

/-- A token is drawn. -/
theorem Sound.draw (h : Sound s) (token : Str) : Sound { s with drawn := token :: s.drawn } :=
  { h with
    registered_drawn := fun assetId hne => List.mem_cons_of_mem _ (h.registered_drawn assetId hne)
    pending_drawn := fun call hcall assetId hpending =>
      List.mem_cons_of_mem _ (h.pending_drawn call hcall assetId hpending) }

/-- A call writes its file. -/
theorem Sound.setFile (h : Sound s) {call : AssetCall} (hcall : call ∈ s.calls) {token : Str}
    (hphase : call.phase = .writing token) (data : Bytes) : Sound (s.setFile token data) := by
  have hpending : call.phase.pending? = some token := by
    rw [hphase]
    rfl
  have hother {assetId : Str} (hne : assetId ≠ token) :
      Entries.get? (s.setFile token data).store.files assetId =
        Entries.get? s.store.files assetId :=
    Entries.get?_set_of_ne _ _ hne
  constructor
  case registered_drawn => exact h.registered_drawn
  case pending_drawn => exact h.pending_drawn
  case pending_new => exact h.pending_new
  case pending_alone => exact h.pending_alone
  case pending_unnamed => exact h.pending_unnamed
  case wrote =>
    intro other hother' token' hwritten
    obtain ⟨tenantId, data', filename, declaredMime, hrequest, hfile⟩ :=
      h.wrote other hother' token' hwritten
    refine ⟨tenantId, data', filename, declaredMime, hrequest, (hother ?_).trans hfile⟩
    rintro rfl
    obtain ⟨i, hi⟩ := List.mem_iff_getElem?.mp hcall
    obtain ⟨j, hj⟩ := List.mem_iff_getElem?.mp hother'
    have htoken : other.phase.pending? = some token' := by
      rw [hwritten]
      rfl
    obtain rfl := h.pending_alone i j call other hi hj ⟨token', hpending, htoken⟩
    cases hi.symm.trans hj
    rw [hphase] at hwritten
    cases hwritten
  case recorded =>
    intro assetId record hrecord
    obtain ⟨data', hregistered, hfile⟩ := h.recorded assetId record hrecord
    refine ⟨data', hregistered, fun bytes hbytes => hfile bytes ?_⟩
    rw [← hbytes]
    refine (hother ?_).symm
    rintro rfl
    exact Option.some_ne_none record (hrecord.symm.trans (h.pending_unrecorded hcall hpending))
  case tracked =>
    intro assetId hfile
    by_cases hne : assetId = token
    · rw [hne]
      exact .inr ⟨call, hcall, hpending⟩
    · rw [Entries.has, hother hne] at hfile
      exact h.tracked assetId hfile
  case alive => exact h.alive
  case stored => exact h.stored
  case returned =>
    intro other hother' asset hreturned
    obtain ⟨assetId, record, hreturns⟩ := h.returned other hother' asset hreturned
    refine ⟨assetId, record, { hreturns with gone := (hother ?_).trans hreturns.gone }⟩
    rintro rfl
    exact Option.some_ne_none _ (hreturns.known.symm.trans (h.pending_new call hcall _ hpending))
  case once => exact h.once

/-- What is found after a registration: what was found, or what has been registered. -/
theorem get?_registered {token assetId : Str} {v : AssetRecord × Bytes}
    (hnew : Entries.get? s.registered token = none) {w : AssetRecord × Bytes} :
    Entries.get? (s.registered ++ [(token, v)]) assetId = some w ↔
      Entries.get? s.registered assetId = some w ∨ assetId = token ∧ w = v := by
  rw [Entries.get?_append]
  by_cases htoken : assetId = token
  · rw [htoken, hnew, Option.none_or, Entries.get?_cons_self]
    simp [eq_comm]
  · have hnone : Entries.get? [(token, v)] assetId = none := by
      rw [Entries.get?_eq_none_iff]
      simpa [Entries.keys] using htoken
    rw [hnone, Option.or_none]
    simp [htoken]

/-- A call registers its file. -/
theorem Sound.register (h : Sound s) {i : Nat} {call : AssetCall} {token tenantId : Str}
    {data : Bytes} {filename declaredMime : Option Str} (hcall : s.calls[i]? = some call)
    (hphase : call.phase = .written token)
    (hrequest : call.request = .put tenantId data filename declaredMime) (now : ℚ) :
    Sound (s.register settings i call token tenantId data filename declaredMime now) := by
  have hmem : call ∈ s.calls := List.mem_of_getElem? hcall
  have hpending : call.phase.pending? = some token := by
    rw [hphase]
    rfl
  have hnew : Entries.get? s.registered token = none := h.pending_new call hmem token hpending
  have hfile : Entries.get? s.store.files token = some data := by
    obtain ⟨tenantId', data', filename', declaredMime', hrequest', hfile⟩ :=
      h.wrote call hmem token hphase
    cases hrequest.symm.trans hrequest'
    exact hfile
  have hother {other : AssetCall} {j : Nat} (hj : s.calls[j]? = some other) (hji : j ≠ i) :
      other.phase.pending? ≠ some token :=
    fun htoken => hji (h.pending_alone j i other call hj hcall ⟨token, htoken, hpending⟩)
  have hrecords {assetId : Str} (hne : assetId ≠ token) (record : AssetRecord) :
      Entries.get? (Entries.set s.store.records token record) assetId =
        Entries.get? s.store.records assetId :=
    Entries.get?_set_of_ne _ _ hne
  constructor
  case registered_drawn =>
    intro assetId hne
    obtain ⟨w, hw⟩ := Option.ne_none_iff_exists'.mp hne
    rcases (get?_registered hnew).mp hw with hold | ⟨rfl, -⟩
    · exact h.registered_drawn assetId (by rw [hold]; exact Option.some_ne_none w)
    · exact h.pending_drawn call hmem _ hpending
  case pending_drawn =>
    intro c hc assetId htoken
    rcases List.mem_or_eq_of_mem_set hc with hold | rfl
    · exact h.pending_drawn c hold assetId htoken
    · cases htoken
  case pending_new =>
    intro c hc assetId htoken
    obtain ⟨j, hj⟩ := List.mem_iff_getElem?.mp hc
    rcases Threads.getElem?_set hj with ⟨hji, hold⟩ | ⟨-, rfl⟩
    · rw [Option.eq_none_iff_forall_ne_some]
      intro w hw
      rcases (get?_registered hnew).mp hw with hbefore | ⟨rfl, -⟩
      · rw [h.pending_new c (List.mem_of_getElem? hold) assetId htoken] at hbefore
        cases hbefore
      · exact hother hold hji htoken
    · cases htoken
  case pending_alone =>
    refine h.pending_alone.set fun j other _ _ => ⟨?_, ?_⟩
    · rintro ⟨assetId, htoken, -⟩
      cases htoken
    · rintro ⟨assetId, -, htoken⟩
      cases htoken
  case pending_unnamed =>
    intro c hc other hother assetId hname htoken
    rcases List.mem_or_eq_of_mem_set hother with hold | rfl
    · rcases List.mem_or_eq_of_mem_set hc with hold' | rfl
      · exact h.pending_unnamed c hold' other hold assetId hname htoken
      · exact h.pending_unnamed call hmem other hold assetId hname htoken
    · cases htoken
  case wrote =>
    intro c hc assetId hwritten
    rcases List.mem_or_eq_of_mem_set hc with hold | rfl
    · exact h.wrote c hold assetId hwritten
    · cases hwritten
  case recorded =>
    intro assetId record hrecord
    by_cases htoken : assetId = token
    · subst htoken
      have hset := (Entries.get?_set_self s.store.records assetId
        ⟨tenantId, filename, declaredMime, now + settings.ttlSeconds⟩).symm.trans hrecord
      cases hset
      refine ⟨data, (get?_registered hnew).mpr (.inr ⟨rfl, rfl⟩), fun bytes hbytes => ?_⟩
      exact Option.some.inj (hbytes.symm.trans hfile)
    · obtain ⟨data', hregistered, hbytes⟩ :=
        h.recorded assetId record ((hrecords htoken _).symm.trans hrecord)
      exact ⟨data', (get?_registered hnew).mpr (.inl hregistered), hbytes⟩
  case tracked =>
    intro assetId hstands
    by_cases htoken : assetId = token
    · subst htoken
      exact .inl (Option.isSome_iff_exists.mpr ⟨_, Entries.get?_set_self _ _ _⟩)
    · rcases h.tracked assetId hstands with hrecord | ⟨c, hc, hc'⟩
      · refine .inl ?_
        change (Entries.get? (Entries.set s.store.records token _) assetId).isSome = true
        rwa [hrecords htoken]
      · refine .inr ⟨c, Threads.mem_set_of_ne hcall hc ?_, hc'⟩
        rintro rfl
        exact htoken (Option.some.inj (hc'.symm.trans hpending))
  case alive =>
    intro c hc hready assetId tenantId' hasks record hrecord
    rcases List.mem_or_eq_of_mem_set hc with hold | rfl
    · have hne : assetId ≠ token := by
        rintro rfl
        refine h.pending_unnamed c hold call hmem assetId ?_ hpending
        rw [hasks]
        rfl
      exact h.alive c hold hready assetId tenantId' hasks record
        ((hrecords hne _).symm.trans hrecord)
    · cases hready
  case stored =>
    intro assetId record data' hregistered
    rcases (get?_registered hnew).mp hregistered with hold | ⟨rfl, hpair⟩
    · obtain ⟨c, hc, hput, hstored⟩ := h.stored assetId record data' hold
      refine ⟨c, Threads.mem_set_of_ne hcall hc ?_, hput, hstored⟩
      rintro rfl
      rw [hphase] at hstored
      cases hstored
    · cases hpair
      exact ⟨_, Threads.mem_set_self hcall, hrequest, rfl⟩
  case returned =>
    intro c hc asset hreturned
    rcases List.mem_or_eq_of_mem_set hc with hold | rfl
    · obtain ⟨assetId, record, hreturns⟩ := h.returned c hold asset hreturned
      have hne : assetId ≠ token := by
        rintro rfl
        exact Option.some_ne_none _ (hreturns.known.symm.trans hnew)
      exact ⟨assetId, record, { hreturns with
        known := (get?_registered hnew).mpr (.inl hreturns.known)
        forgotten := (hrecords hne _).trans hreturns.forgotten }⟩
    · cases hreturned
  case once =>
    refine h.once.set fun j other _ _ => ⟨?_, ?_⟩
    · rintro ⟨_, _, _, -, -, hconsumed, -⟩
      cases hconsumed
    · rintro ⟨_, _, _, -, -, -, hconsumed⟩
      cases hconsumed

/-- A purge goes on to a phase that it may enter. -/
theorem mayEnter_purgedPhase {call : AssetCall} {removals : Str → Removal}
    (hphase : call.phase = .purging) :
    MayEnter { s with store := (AssetStore.purgeExpired call.now removals s.store).1 } call
      (purgedPhase call.request (AssetStore.purgeExpired call.now removals s.store).2) := by
  have hrunning (answer : AssetAnswer) : call.phase ≠ .finished answer := by
    rw [hphase]
    nofun
  have hidle : call.phase.pending? = none := by
    rw [hphase]
    rfl
  cases hmessage : (AssetStore.purgeExpired call.now removals s.store).2 with
  | some message => exact mayEnter_finished hrunning hidle nofun
  | none =>
      cases hrequest : call.request with
      | purge => exact mayEnter_finished hrunning hidle nofun
      | _ =>
          refine ⟨hrunning, fun token htoken => ?_, nofun, nofun, fun _ => ?_, nofun⟩
          · exact absurd (htoken.symm.trans hidle) nofun
          · exact fun assetId tenantId _ record hrecord =>
              AssetStore.live_of_purgeExpired hmessage hrecord

/-- What a call may consume. -/
theorem Sound.mayEnter_consume (h : Sound s) {call : AssetCall} (hmem : call ∈ s.calls)
    (hphase : call.phase = .ready) {assetId tenantId : Str}
    (hrequest : call.request = .consume assetId tenantId) (reads : Bool) (removal : Removal) :
    MayEnter { s with store := (settings.consume assetId tenantId reads removal s.store).1 } call
      (.finished (settings.consume assetId tenantId reads removal s.store).2) := by
  have hrunning (answer : AssetAnswer) : call.phase ≠ .finished answer := by
    rw [hphase]
    nofun
  have hidle : call.phase.pending? = none := by
    rw [hphase]
    rfl
  refine ⟨hrunning, fun token htoken => ?_, nofun, nofun, nofun, fun asset hfinished => ?_⟩
  · exact absurd (htoken.symm.trans hidle) nofun
  · have hanswer := AssetPhase.finished.inj hfinished
    have hresult : settings.consume assetId tenantId reads removal s.store =
        ((settings.consume assetId tenantId reads removal s.store).1, .consumed asset) :=
      Prod.ext rfl hanswer
    obtain ⟨record, hconsumed⟩ := AssetStore.consumed_of_consume hresult
    obtain ⟨data, hknown, hdata⟩ := h.recorded assetId record hconsumed.recorded
    have halive := h.alive call hmem hphase assetId tenantId hrequest record hconsumed.recorded
    refine ⟨assetId, record, ?_, fun other hother asset' hother' hname => ?_⟩
    · constructor
      case asked => rw [hrequest, hconsumed.owned]
      case known => rw [hknown, hdata _ hconsumed.stood]
      case filename => exact hconsumed.filename
      case declaredMime => exact hconsumed.declaredMime
      case alive => exact halive
      case gone => exact hconsumed.gone
      case forgotten => exact hconsumed.forgotten
    · obtain ⟨assetId', record', hreturns⟩ := h.returned other hother asset' hother'
      rw [hreturns.asked] at hname
      cases hname
      exact Option.some_ne_none _ (hconsumed.recorded.symm.trans hreturns.forgotten)

/-- A step keeps the store sound. -/
theorem Sound.step (h : Sound s) (hmove : Moves settings s event s') : Sound s' := by
  cases hmove with
  | begins hnamed hphase => exact h.open hnamed hphase
  | purges hcall hphase =>
      exact (h.lose AssetStore.loses_purgeExpired).setPhase hcall (mayEnter_purgedPhase hphase)
  | refused hcall hphase =>
      refine h.setPhase hcall (mayEnter_finished (fun answer => ?_) ?_ nofun)
      · rw [hphase]
        nofun
      · rw [hphase]
        rfl
  | @opens i call token hcall hphase hfresh =>
      obtain ⟨hdrawn, hnamed⟩ := Bool.and_eq_true_iff.mp hfresh
      have hundrawn := of_decide_eq_true hdrawn
      have hdrawable : Drawable { s with drawn := token :: s.drawn } token := by
        constructor
        case drawn => exact List.mem_cons_self
        case new =>
          by_contra hne
          exact hundrawn (h.registered_drawn token hne)
        case unused =>
          exact fun other hother htoken => hundrawn (h.pending_drawn other hother token htoken)
        case unnamed =>
          intro other hother hname
          rw [Bool.not_eq_true', named, List.any_eq_false] at hnamed
          exact hnamed other hother (decide_eq_true hname)
      have hmay : MayEnter { s with drawn := token :: s.drawn } call (.writing token) := by
        refine ⟨fun answer => ?_, fun token' htoken => ?_, fun token' htoken => ?_, nofun, nofun,
          nofun⟩
        · rw [hphase]
          nofun
        · rw [hphase] at htoken
          cases htoken
        · cases htoken
          exact .inr hdrawable
      exact ((h.draw token).setPhase hcall hmay).setFile (Threads.mem_set_self hcall) rfl []
  | @writes i call token tenantId data filename declaredMime hcall hphase hrequest =>
      have hmem : call ∈ s.calls := List.mem_of_getElem? hcall
      have hmay : MayEnter (s.setFile token data) call (.written token) := by
        refine ⟨fun answer => ?_, fun token' htoken => ?_, fun token' htoken => .inl ?_,
          fun token' hwritten => ?_, nofun, nofun⟩
        · rw [hphase]
          nofun
        · rw [hphase] at htoken
          exact htoken
        · rw [hphase]
          exact htoken
        · cases hwritten
          exact ⟨tenantId, data, filename, declaredMime, hrequest, Entries.get?_set_self _ _ _⟩
      exact (h.setFile hmem hphase data).setPhase hcall hmay
  | registers hcall hphase hrequest => exact h.register hcall hphase hrequest _
  | @consumes i call assetId tenantId reads removal hcall hphase hrequest =>
      exact (h.lose AssetStore.loses_consume).setPhase hcall
        (h.mayEnter_consume (List.mem_of_getElem? hcall) hphase hrequest reads removal)
  | deletes hcall hphase hrequest =>
      refine (h.lose AssetStore.loses_delete).setPhase hcall (mayEnter_finished
        (fun answer => ?_) ?_ AssetStore.delete_ne_consumed)
      · rw [hphase]
        nofun
      · rw [hphase]
        rfl
  | clears hcall hphase hrequest =>
      refine (h.lose AssetStore.loses_clear).setPhase hcall (mayEnter_finished
        (fun answer => ?_) ?_ AssetStore.clear_ne_consumed)
      · rw [hphase]
        nofun
      · rw [hphase]
        rfl

/-- Every run is sound. -/
theorem sound_of_reachable (h : (machine settings).Reachable Machine.anyStep s) : Sound s := by
  refine h.invariant ?_ ?_
  · rintro s rfl
    exact sound_initial
  · intro s event s' hsound _ hstep
    exact hsound.step (moves_of_step hstep)

end AssetState

end MediaBridge.Core
