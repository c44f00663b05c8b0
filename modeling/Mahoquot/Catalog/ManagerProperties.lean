import Mathlib.Data.List.Induction
import Mahoquot.Catalog.Manager

/-! Updates are all or nothing within a process, and what survives of their
order across restarts. -/

set_option autoImplicit false

namespace Mahoquot.Catalog
open Compat Library Registry Mahoquot.Runtime CatalogManager LkgCache SignedCatalogPackage List

/-- The value nests at most this many levels. -/
def nestsWithin : Nat → Value → Bool
  | 0, .array _ | 0, .object _ => false
  | levels + 1, .array items => items.all (nestsWithin levels)
  | levels + 1, .object entries => entries.all fun entry => nestsWithin levels entry.2
  | _, _ => true

/-- Serde reads 127 levels; a package has its payload on the second. -/
def payloadLevels : Nat := 126

/-- Serde reads back the envelope and the raw text that it wrote, unless the package is
nested too deep for it. -/
def PackageCodec.Lawful (codec : PackageCodec) : Prop :=
  ∀ package, nestsWithin payloadLevels package.payload →
    ∃ read, codec.fromSlice (codec.toVecPretty package) = .ok read ∧
      read.envelope = package.envelope ∧ read.rawPayload = package.rawPayload

variable {prim : Primitives}

def Shallow (prim : Primitives) (payload : Bytes) : Prop :=
  ∀ value, prim.serde.fromSlice payload = .ok value → nestsWithin payloadLevels value

/-- The file is the package of this envelope and payload as serde writes it. -/
def LkgFile.Written (prim : Primitives) (codec : PackageCodec) (file : LkgFile)
    (envelope : CatalogEnvelope) (payload : Bytes) : Prop :=
  ∃ package, new prim envelope payload = .ok package ∧ file = some (codec.toVecPretty package)

/-- The file is read as this envelope over this payload. -/
def LkgFile.Holds (prim : Primitives) (codec : PackageCodec) (file : LkgFile)
    (envelope : CatalogEnvelope) (payload : Bytes) : Prop :=
  ∃ raw package, file = some raw ∧ codec.fromSlice raw = .ok package ∧
    package.envelope = envelope ∧ package.payloadBytes prim = .ok payload

/-- Replacing the file fails without a trace or writes all of it. -/
theorem writeTemp_cases (outcomes : WriteOutcomes) (serialized : Bytes) (file : LkgFile) (left : Nat) :
    (∃ error, writeTemp outcomes serialized file left = (.error error, file)) ∨
      writeTemp outcomes serialized file left = (.ok (), some serialized) := by
  induction left with
  | zero => exact .inl ⟨_, rfl⟩
  | succ left ih =>
    unfold writeTemp
    cases outcomes.openTemp left with
    | error error =>
      simp only
      split
      · exact ih
      · exact .inl ⟨_, rfl⟩
    | ok opened =>
      simp only
      split
      · exact .inl ⟨_, rfl⟩
      · exact .inr rfl

theorem writeAtomically_cases (prim : Primitives) (codec : PackageCodec) (outcomes : WriteOutcomes)
    (envelope : CatalogEnvelope) (payload : Bytes) (file : LkgFile) :
    (∃ error, writeAtomically prim codec outcomes envelope payload file = (.error error, file)) ∨
      ∃ package, new prim envelope payload = .ok package ∧ writeAtomically prim codec outcomes envelope payload file =
          (.ok (), some (codec.toVecPretty package)) := by
  unfold writeAtomically
  cases packed : new prim envelope payload with
  | error error => exact .inl ⟨_, rfl⟩
  | ok package =>
    cases outcomes.createDirAll with
    | error error => exact .inl ⟨_, rfl⟩
    | ok created =>
      obtain ⟨error, failed⟩ | written := writeTemp_cases outcomes (codec.toVecPretty package) file 128
      · exact .inl ⟨error, failed⟩
      · exact .inr ⟨package, rfl, written⟩

/-- A canonical payload is text, and comes back as it was. -/
theorem holds_written {codec : PackageCodec} (lawful : codec.Lawful) {envelope : CatalogEnvelope} {payload : Bytes}
    {file : LkgFile} (canonical : isCanonicalJson prim payload = .ok true) (shallow : Shallow prim payload)
    (packed : file.Written prim codec envelope payload) : file.Holds prim codec envelope payload := by
  obtain ⟨package, packed, rfl⟩ := packed
  obtain ⟨value, parsed, written⟩ := isCanonicalJson_eq_ok_true.mp canonical
  have text : payload = utf8 (prim.serde.toString value) := written
  have fits := shallow value parsed
  simp only [new, parsed] at packed
  rw [text, fromUtf8_utf8] at packed
  cases packed
  obtain ⟨read, decoded, sameEnvelope, sameText⟩ := lawful ⟨envelope, value, _⟩ fits
  refine ⟨_, read, rfl, decoded, sameEnvelope, ?_⟩
  unfold payloadBytes
  simp only [sameText, String.ofList_toList, ← text, canonical]
  rfl

namespace CatalogManager
variable {context : CatalogContext prim} {manager next : CatalogManager} {update : Update}

theorem commit_cases (context : CatalogContext prim) (update : Update) (snapshot : CatalogSnapshot)
    (world : LkgFile × CatalogSnapshot) : (∃ reason, commit context update snapshot world = (.error reason, world)) ∨
      ∃ package, new prim update.envelope update.canonicalPayload = .ok package ∧
        commit context update snapshot world = (.ok (), some (context.codec.toVecPretty package), snapshot) := by
  unfold commit
  obtain ⟨error, failed⟩ | ⟨package, packed, written⟩ :=
    writeAtomically_cases prim context.codec update.outcomes update.envelope
      update.canonicalPayload world.1
  · rw [failed]
    exact .inl ⟨_, rfl⟩
  · rw [written]
    exact .inr ⟨package, packed, rfl⟩

/-- What a rejected update leaves alone. -/
structure Untouched (manager next : CatalogManager) : Prop where
  active : next.activeSnapshot = manager.activeSnapshot
  file : next.file = manager.file
  published : next.runtime.map UnifiedRuntimeState.pool =
    manager.runtime.map UnifiedRuntimeState.pool
  base : next.runtime.map UnifiedRuntimeState.baseRegistry =
    manager.runtime.map UnifiedRuntimeState.baseRegistry
  lkgVersion : next.status.lkgVersion = manager.status.lkgVersion

theorem Untouched.refl (manager : CatalogManager) : manager.Untouched manager :=
  ⟨rfl, rfl, rfl, rfl, rfl⟩

theorem publish_cases (context : CatalogContext prim) (manager : CatalogManager) (update : Update)
    (snapshot : CatalogSnapshot) (composed : RegistrySnapshot) :
    (∃ error next, publish context manager update snapshot composed = (.error error, next) ∧ manager.Untouched next) ∨
      ∃ next package, publish context manager update snapshot composed = (.ok (), next) ∧
        new prim update.envelope update.canonicalPayload = .ok package ∧ next.activeSnapshot = snapshot ∧
        next.file = some (context.codec.toVecPretty package) := by
  have committed := commit_cases context update snapshot (manager.file, manager.activeSnapshot)
  unfold publish
  cases bound : manager.runtime with
  | none =>
    obtain ⟨reason, failed⟩ | ⟨package, packed, written⟩ := committed
    · simp only [failed]
      exact .inl ⟨_, _, rfl, rfl, rfl, by rw [bound], by rw [bound], rfl⟩
    · simp only [written]
      exact .inr ⟨_, package, rfl, packed, rfl, rfl⟩
  | some runtime =>
    simp only [UnifiedRuntimeState.updateRegistryWithCreatedAndCommit]
    cases runtime.candidate runtime.pool.members composed update.envelope.generatedAt with
    | error error => exact .inl ⟨_, _, rfl, rfl, rfl, by rw [bound]; rfl, by rw [bound]; rfl, rfl⟩
    | ok candidate =>
      obtain ⟨reason, failed⟩ | ⟨package, packed, written⟩ := committed
      · simp only [failed]
        exact .inl ⟨_, _, rfl, rfl, rfl, by rw [bound]; rfl, by rw [bound]; rfl, rfl⟩
      · simp only [written]
        exact .inr ⟨_, package, rfl, packed, rfl, rfl⟩

/-- What an accepted update does. -/
structure Applied (context : CatalogContext prim) (manager : CatalogManager) (update : Update)
    (snapshot : CatalogSnapshot) (next : CatalogManager) : Prop where
  accepts : ∃ verified, snapshot = verified.withSource .remoteSigned ∧
    Accepts update.envelope update.canonicalPayload context.config.keyring
      (some manager.activeSnapshot.version) manager.status.lkgVersion update.now
      context.config.allowedClockSkewSecs verified
  active : next.activeSnapshot = snapshot
  lkgVersion : next.status.lkgVersion = some snapshot.version
  file : next.file.Written prim context.codec update.envelope update.canonicalPayload

theorem applyUpdateInner_cases (context : CatalogContext prim) (manager : CatalogManager) (update : Update) :
    (∃ error next, applyUpdateInner context manager update = (.error error, next) ∧ manager.Untouched next) ∨
      ∃ snapshot next, applyUpdateInner context manager update = (.ok snapshot, next) ∧
        Applied context manager update snapshot next := by
  unfold applyUpdateInner
  cases verified : verifyCatalogEnvelope update.envelope update.canonicalPayload
      context.config.keyring (some manager.activeSnapshot.version) manager.status.lkgVersion
      update.now context.config.allowedClockSkewSecs with
  | error error => exact .inl ⟨_, _, rfl, .refl manager⟩
  | ok snapshot =>
    simp only
    cases (update.settings.getD .ok) (snapshot.withSource .remoteSigned).registry with
    | error reason => exact .inl ⟨_, _, rfl, .refl manager⟩
    | ok composed =>
      simp only
      obtain ⟨error, next, failed, untouched⟩ | ⟨next, package, done, packed, active, file⟩ :=
        publish_cases context manager update (snapshot.withSource .remoteSigned) composed
      · rw [failed]
        exact .inl ⟨_, _, rfl, untouched⟩
      · rw [done]
        exact .inr ⟨_, _, rfl, ⟨snapshot, rfl, verifyCatalogEnvelope_eq_ok.mp verified⟩, active, rfl, package, packed, file⟩

theorem applyVerifiedUpdate_cases (context : CatalogContext prim) (manager : CatalogManager) (update : Update) :
    (∃ error next, applyVerifiedUpdate context manager update = (.error error, next) ∧ manager.Untouched next) ∨
      ∃ snapshot next, applyVerifiedUpdate context manager update = (.ok snapshot, next) ∧
        Applied context manager update snapshot next := by
  unfold applyVerifiedUpdate
  obtain ⟨error, next, failed, untouched⟩ | ⟨snapshot, next, done, applied⟩ := applyUpdateInner_cases context manager update
  · rw [failed]
    exact .inl ⟨error, _, rfl, untouched.active, untouched.file, untouched.published, untouched.base, untouched.lkgVersion⟩
  · rw [done]
    exact .inr ⟨snapshot, next, rfl, applied⟩

namespace Applied
variable {snapshot : CatalogSnapshot}

theorem version (applied : Applied context manager update snapshot next) :
    snapshot.version = update.envelope.catalogVersion := by
  obtain ⟨verified, rfl, accepts⟩ := applied.accepts
  exact accepts.publishable.versioned

theorem newer (applied : Applied context manager update snapshot next) :
    manager.activeSnapshot.version < snapshot.version ∧
      ∀ version ∈ manager.status.lkgVersion, version < snapshot.version := by
  rw [applied.version]
  obtain ⟨verified, -, accepts⟩ := applied.accepts
  exact ⟨accepts.newer.1 _ rfl, accepts.newer.2⟩

theorem holds (applied : Applied context manager update snapshot next) (lawful : context.codec.Lawful)
    (shallow : Shallow prim update.canonicalPayload) :
    next.file.Holds prim context.codec update.envelope update.canonicalPayload := by
  obtain ⟨verified, -, accepts⟩ := applied.accepts
  exact holds_written lawful accepts.publishable.canonical shallow applied.file

end Applied

/-! ## Runs -/

theorem run_concat (context : CatalogContext prim) (manager : CatalogManager)
    (events : List ManagerEvent) (event : ManagerEvent) : run context manager (events ++ [event]) =
      ((step context (run context manager events).1 event).1,
        (run context manager events).2 ++ (step context (run context manager events).1 event).2) := by
  induction events generalizing manager with
  | nil => simp [run]
  | cons first events ih => simp [run, ih]

/-- The version the manager goes by is that of the envelope in the file. -/
def LkgAgrees (context : CatalogContext prim) (manager : CatalogManager) : Prop :=
  ∀ version ∈ manager.status.lkgVersion, ∃ envelope payload,
    (manager.file.Holds prim context.codec envelope payload ∨
      manager.file.Written prim context.codec envelope payload) ∧ envelope.catalogVersion = version

variable {now : Nat} {accepted : List CatalogVersion} {file : LkgFile} {snapshot : CatalogSnapshot}

theorem load_eq_ok {codec : PackageCodec} {keyring : Keyring prim} {read : Except IoError Unit}
    {skew : Nat} {generatedAt : Nat} (loaded : loadWithGeneratedAt codec keyring file read now skew =
      .ok (snapshot, generatedAt)) : ∃ envelope payload verified, LkgFile.Holds prim codec file envelope payload ∧
      snapshot = verified.withSource .lkgCache ∧ Accepts envelope payload keyring none none now skew verified := by
  cases file with
  | none => cases loaded
  | some raw =>
    obtain ⟨-, loaded⟩ := unit_bind_eq_ok.mp loaded
    obtain ⟨package, decoded, loaded⟩ := bind_eq_ok.mp loaded
    obtain ⟨verified, accepted, loaded⟩ := bind_eq_ok.mp loaded
    cases loaded
    obtain ⟨payload, read, accepted⟩ := bind_eq_ok.mp accepted
    rw [mapError_eq_ok] at decoded accepted
    exact ⟨package.envelope, payload, verified, ⟨raw, package, rfl, decoded, rfl, read⟩, rfl,
      verifyCatalogEnvelope_eq_ok.mp accepted⟩

/-- A file that holds an accepted envelope is read back while its time lasts. -/
theorem load_of_holds {codec : PackageCodec} {keyring : Keyring prim} {skew : Nat} {envelope : CatalogEnvelope}
    {payload : Bytes} {verified : CatalogSnapshot} (holds : LkgFile.Holds prim codec file envelope payload)
    (accepts : Accepts envelope payload keyring none none now skew verified) :
    loadWithGeneratedAt codec keyring file (.ok ()) now skew =
      .ok (verified.withSource .lkgCache, envelope.generatedAt) := by
  obtain ⟨raw, package, rfl, decoded, rfl, read⟩ := holds
  refine unit_bind_eq_ok.mpr ⟨rfl, bind_eq_ok.mpr ⟨package, mapError_eq_ok.mpr decoded, ?_⟩⟩
  refine bind_eq_ok.mpr ⟨verified, bind_eq_ok.mpr ⟨payload, read, ?_⟩, rfl⟩
  rw [mapError_eq_ok]
  exact verifyCatalogEnvelope_eq_ok.mpr accepts

theorem boot_of_loaded {read : Except IoError Unit} {generatedAt : Nat}
    (loaded : loadWithGeneratedAt context.codec context.config.keyring file read now
      context.config.allowedClockSkewSecs = .ok (snapshot, generatedAt)) :
    (boot context file read now).status.lkgVersion = some snapshot.version ∧
      snapshot.version ≤ (boot context file read now).activeSnapshot.version := by
  unfold boot
  rw [loaded]
  refine ⟨rfl, ?_⟩
  simp only [adopt]
  split
  · exact Nat.le_refl _
  · next older => exact Nat.le_of_lt (Nat.lt_of_not_le older)

theorem lkgAgrees_boot (context : CatalogContext prim) (file : LkgFile) (read : Except IoError Unit)
    (now : Nat) : LkgAgrees context (boot context file read now) := by
  intro version recorded
  cases loaded : loadWithGeneratedAt context.codec context.config.keyring file read now
      context.config.allowedClockSkewSecs with
  | error error =>
    unfold boot at recorded
    rw [loaded] at recorded
    cases error with
    | io error =>
      simp only [adopt] at recorded
      split at recorded <;> cases recorded
    | serialization | verification | invalidState => cases recorded
  | ok lkg =>
    obtain ⟨snapshot, generatedAt⟩ := lkg
    rw [(boot_of_loaded loaded).1] at recorded
    cases recorded
    obtain ⟨envelope, payload, verified, holds, rfl, accepts⟩ := load_eq_ok loaded
    exact ⟨envelope, payload, .inl holds, accepts.publishable.versioned.symm⟩

theorem LkgAgrees.untouched (agrees : LkgAgrees context manager)
    (untouched : manager.Untouched next) : LkgAgrees context next := by
  intro version recorded
  rw [untouched.lkgVersion] at recorded
  rw [untouched.file]
  exact agrees version recorded

theorem LkgAgrees.applied (applied : Applied context manager update snapshot next) : LkgAgrees context next := by
  intro version recorded
  rw [applied.lkgVersion] at recorded
  cases recorded
  exact ⟨update.envelope, update.canonicalPayload, .inr applied.file, applied.version.symm⟩

/-- An accepted update is newer than all before it and stands in the file; a
rejected one leaves everything as it was. -/
structure AllOrNothing (context : CatalogContext prim) (record : UpdateRecord) : Prop where
  lkg : LkgAgrees context record.before
  accepted : ∀ snapshot, record.result = .ok snapshot →
    record.before.activeSnapshot.version < snapshot.version ∧
    (∀ version ∈ record.before.status.lkgVersion, version < snapshot.version) ∧
    snapshot.version = record.update.envelope.catalogVersion ∧
    record.after.activeSnapshot = snapshot ∧
    record.after.file.Written prim context.codec record.update.envelope record.update.canonicalPayload ∧
    (Shallow prim record.update.canonicalPayload →
      record.after.file.Holds prim context.codec record.update.envelope record.update.canonicalPayload)
  rejected : ∀ error, record.result = .error error → record.before.Untouched record.after

theorem step_allOrNothing (lawful : context.codec.Lawful) (agrees : LkgAgrees context manager)
    (event : ManagerEvent) : LkgAgrees context (step context manager event).1 ∧
      ∀ record ∈ (step context manager event).2, AllOrNothing context record := by
  cases event with
  | runtime runtime => exact ⟨agrees, fun _ absent => absurd absent not_mem_nil⟩
  | restart now => exact ⟨lkgAgrees_boot _ _ _ _, fun _ absent => absurd absent not_mem_nil⟩
  | update update =>
    simp only [step, mem_singleton, forall_eq]
    obtain ⟨error, next, failed, untouched⟩ | ⟨snapshot, next, done, applied⟩ :=
      applyVerifiedUpdate_cases context manager update
    · rw [failed]
      refine ⟨agrees.untouched untouched, agrees, ?_, fun _ _ => untouched⟩
      rintro snapshot ⟨⟩
    · rw [done]
      refine ⟨.applied applied, agrees, ?_, ?_⟩
      · rintro _ ⟨⟩
        exact ⟨applied.newer.1, applied.newer.2, applied.version, applied.active, applied.file, applied.holds lawful⟩
      · rintro error ⟨⟩

theorem run_allOrNothing (lawful : context.codec.Lawful) (agrees : LkgAgrees context manager)
    (events : List ManagerEvent) : ∀ record ∈ (run context manager events).2, AllOrNothing context record := by
  induction events generalizing manager with
  | nil => exact fun _ absent => absurd absent not_mem_nil
  | cons event events ih =>
    obtain ⟨later, here⟩ := step_allOrNothing lawful agrees event
    exact forall_mem_append.mpr ⟨here, ih later⟩

theorem updates_all_or_nothing (lawful : context.codec.Lawful) (file : LkgFile)
    (read : Except IoError Unit) (now : Nat) (events : List ManagerEvent) :
    ∀ record ∈ (run context (boot context file read now) events).2, AllOrNothing context record :=
  run_allOrNothing lawful (lkgAgrees_boot context file read now) events

/-! ## Restarts -/

def acceptedVersions (records : List UpdateRecord) : List CatalogVersion :=
  records.filterMap fun record => record.result.toOption.map CatalogSnapshot.version

/-- The envelope in the file is neither from the future nor expired, and its payload not
nested too deep. -/
def InWindow (context : CatalogContext prim) (manager : CatalogManager) (now : Nat) : Prop :=
  ∀ envelope payload, manager.file.Written prim context.codec envelope payload → Shallow prim payload ∧
    envelope.generatedAt ≤ saturatingAddU64 now context.config.allowedClockSkewSecs ∧
      ∀ exp ∈ envelope.expiresAt, now ≤ exp

/-- Every restart finds the envelope in the file within its time and readable. -/
def RestartsInWindow (context : CatalogContext prim) (manager : CatalogManager) (events : List ManagerEvent) : Prop :=
  ∀ earlier later now, events = earlier ++ .restart now :: later →
    InWindow context (run context manager earlier).1 now

/-- The highest version so far is active and can be read back from the file. -/
structure Retains (context : CatalogContext prim) (manager : CatalogManager)
    (accepted : List CatalogVersion) : Prop where
  active : ∀ version ∈ accepted, version ≤ manager.activeSnapshot.version
  file : ∀ version ∈ accepted, ∃ envelope payload verified,
    manager.file.Written prim context.codec envelope payload ∧
      (∃ now, Accepts envelope payload context.config.keyring none none now
        context.config.allowedClockSkewSecs verified) ∧
      version ≤ envelope.catalogVersion
  increasing : accepted.Pairwise (· < ·)

theorem Retains.untouched (retains : Retains context manager accepted)
    (untouched : manager.Untouched next) : Retains context next accepted := by
  refine ⟨?_, ?_, retains.increasing⟩
  · rw [untouched.active]
    exact retains.active
  · rw [untouched.file]
    exact retains.file

theorem Retains.applied (retains : Retains context manager accepted) (applied : Applied context manager update snapshot next) :
    Retains context next (accepted ++ [snapshot.version]) := by
  have newest : ∀ version ∈ accepted, version < snapshot.version := by
    intro version older
    exact Nat.lt_of_le_of_lt (retains.active version older) applied.newer.1
  have covered : ∀ version ∈ accepted ++ [snapshot.version], version ≤ snapshot.version :=
    forall_mem_append.mpr ⟨fun version older => (newest version older).le, forall_mem_singleton.mpr le_rfl⟩
  refine ⟨?_, ?_, ?_⟩
  · rw [applied.active]
    exact covered
  · intro version present
    obtain ⟨verified, -, accepts⟩ := applied.accepts
    refine ⟨update.envelope, update.canonicalPayload, verified, applied.file, ?_, ?_⟩
    · exact ⟨update.now, accepts.schema, by simp, accepts.window, accepts.signed, accepts.publishable⟩
    · rw [← applied.version]
      exact covered version present
  · rw [pairwise_append]
    refine ⟨retains.increasing, pairwise_singleton _ _, ?_⟩
    intro older present newer same
    rw [mem_singleton.mp same]
    exact newest older present

/-- Where the envelope in the file is within its time, a restart goes on from it. -/
theorem Retains.restart (lawful : context.codec.Lawful) (retains : Retains context manager accepted)
    (inWindow : InWindow context manager now) : Retains context (boot context manager.file (.ok ()) now) accepted := by
  refine ⟨?_, retains.file, retains.increasing⟩
  intro version present
  obtain ⟨envelope, payload, verified, written, ⟨_, accepts⟩, covered⟩ := retains.file version present
  obtain ⟨shallow, window⟩ := inWindow envelope payload written
  have holds := holds_written lawful accepts.publishable.canonical shallow written
  have still : Accepts envelope payload context.config.keyring none none now
      context.config.allowedClockSkewSecs verified :=
    ⟨accepts.schema, accepts.newer, window, accepts.signed, accepts.publishable⟩
  calc version ≤ envelope.catalogVersion := covered
    _ = verified.version := accepts.publishable.versioned.symm
    _ ≤ _ := (boot_of_loaded (load_of_holds holds still)).2

theorem Retains.run (lawful : context.codec.Lawful) (start : Retains context manager [])
    {events : List ManagerEvent} (inWindow : RestartsInWindow context manager events) :
    Retains context (run context manager events).1 (acceptedVersions (run context manager events).2) := by
  induction events using reverseRecOn with
  | nil => exact start
  | append_singleton events event ih =>
    have retains := ih fun earlier later now shape =>
      inWindow earlier (later ++ [event]) now (by rw [shape, append_assoc, cons_append])
    rw [run_concat]
    cases event with
    | runtime runtime =>
      simp only [step, append_nil]
      exact ⟨retains.active, retains.file, retains.increasing⟩
    | restart now =>
      simp only [step, append_nil]
      exact retains.restart lawful (inWindow events [] now rfl)
    | update update =>
      simp only [step, acceptedVersions, filterMap_append]
      obtain ⟨error, next, failed, untouched⟩ | ⟨snapshot, next, done, applied⟩ :=
        applyVerifiedUpdate_cases context (CatalogManager.run context manager events).1 update
      · rw [failed, show filterMap _ [_] = [] from rfl, append_nil]
        exact retains.untouched untouched
      · rw [done]
        exact retains.applied applied

theorem restarts_keep_versions (lawful : context.codec.Lawful) (file : LkgFile)
    (read : Except IoError Unit) (now : Nat) (events : List ManagerEvent)
    (inWindow : RestartsInWindow context (boot context file read now) events) :
    (acceptedVersions (run context (boot context file read now) events).2).Pairwise (· < ·) ∧
      ∀ earlier later now', events = earlier ++ .restart now' :: later →
        ∀ version ∈ acceptedVersions (run context (boot context file read now) earlier).2,
          version ≤ (run context (boot context file read now)
            (earlier ++ [.restart now'])).1.activeSnapshot.version := by
  have start : Retains context (boot context file read now) [] :=
    ⟨fun _ absent => absurd absent not_mem_nil, fun _ absent => absurd absent not_mem_nil, Pairwise.nil⟩
  refine ⟨(start.run lawful inWindow).increasing, ?_⟩
  intro earlier later now' shape version accepted
  have beforehand : RestartsInWindow context (boot context file read now) earlier := by
    intro first second clock split
    exact inWindow first (second ++ .restart now' :: later) clock (by rw [shape, split, append_assoc, cons_append])
  rw [run_concat]
  exact ((start.run lawful beforehand).restart lawful (inWindow earlier later now' shape)).active version accepted

end CatalogManager

/-! ## A small deployment -/

namespace Sample

def writeNats (numbers : List Nat) : Bytes :=
  numbers.flatMap fun number => replicate number 1 ++ [0]

def readNats (current : Nat) : Bytes → List Nat
  | [] => []
  | byte :: rest => if byte = 0 then current :: readNats 0 rest else readNats (current + 1) rest

theorem readNats_replicate (number current : Nat) (rest : Bytes) :
    readNats current (replicate number 1 ++ 0 :: rest) = (current + number) :: readNats 0 rest := by
  induction number generalizing current with
  | zero => simp [readNats]
  | succ number ih =>
    rw [replicate_succ, cons_append, readNats, if_neg (by decide), ih]
    congr 1
    omega

theorem readNats_writeNats (numbers : List Nat) : readNats 0 (writeNats numbers) = numbers := by
  induction numbers with
  | nil => rfl
  | cons number numbers ih =>
    unfold writeNats at ih ⊢
    rw [flatMap_cons, append_assoc, singleton_append, readNats_replicate, ih, Nat.zero_add]

def textNats (text : String) : List Nat := text.toList.length :: text.toList.map Char.toNat

def optionNats : Option (List Nat) → List Nat
  | none => [0]
  | some numbers => 1 :: numbers

def readText : List Nat → Option (String × List Nat)
  | [] => none
  | length :: rest => some (String.ofList ((rest.take length).map Char.ofNat), rest.drop length)

theorem readText_textNats (text : String) (rest : List Nat) : readText (textNats text ++ rest) = some (text, rest) := by
  have split : text.toList.length = (text.toList.map Char.toNat).length := by simp
  rw [textNats, cons_append, readText, split, take_left, drop_left, map_map]
  have same : text.toList.map (Char.ofNat ∘ Char.toNat) = text.toList := by
    simp [Function.comp_def]
  rw [same, String.ofList_toList]

def packageNats (package : SignedCatalogPackage) : List Nat :=
  package.envelope.schemaVersion :: package.envelope.catalogVersion ::
    package.envelope.generatedAt ::
    (textNats package.envelope.keyId ++ (textNats package.envelope.signature ++
      (optionNats (package.envelope.expiresAt.map fun exp => [exp]) ++ optionNats (package.rawPayload.map textNats))))

def readExpiry : List Nat → Option (Option Nat × List Nat)
  | 0 :: rest => some (none, rest)
  | 1 :: exp :: rest => some (some exp, rest)
  | _ => none

def readRaw : List Nat → Option (Option String)
  | [0] => some none
  | 1 :: rest => (readText rest).map fun text => some text.1
  | _ => none

def readPackage : List Nat → Option SignedCatalogPackage
  | schemaVersion :: catalogVersion :: generatedAt :: rest => do
    let (keyId, rest) ← readText rest
    let (signature, rest) ← readText rest
    let (expiresAt, rest) ← readExpiry rest
    let rawPayload ← readRaw rest
    some ⟨⟨schemaVersion, catalogVersion, keyId, generatedAt, expiresAt, signature⟩, .null, rawPayload⟩
  | _ => none

def codec : PackageCodec where
  toVecPretty package := writeNats (packageNats package)
  fromSlice bytes :=
    match readPackage (readNats 0 bytes) with
    | some package => .ok package
    | none => .error "not a package"

theorem codec_reads (package : SignedCatalogPackage) : ∃ read, codec.fromSlice (codec.toVecPretty package) = .ok read ∧
    read.envelope = package.envelope ∧ read.rawPayload = package.rawPayload := by
  refine ⟨⟨package.envelope, .null, package.rawPayload⟩, ?_, rfl, rfl⟩
  have read : readPackage (packageNats package) =
      some ⟨package.envelope, .null, package.rawPayload⟩ := by
    obtain ⟨⟨schemaVersion, catalogVersion, keyId, generatedAt, expiresAt, signature⟩, payload, rawPayload⟩ := package
    have back (text : String) : readText (textNats text) = some (text, []) := by
      have back := readText_textNats text []
      rwa [append_nil] at back
    simp only [packageNats, readPackage, readText_textNats, Option.bind_eq_bind, Option.bind_some]
    cases expiresAt with
    | none | some =>
      cases rawPayload with
      | none => rfl
      | some text => simp [optionNats, readExpiry, readRaw, back]
  simp only [codec, readNats_writeNats, read]

theorem codec_lawful : codec.Lawful := fun package _ => codec_reads package

/-- Payloads are single digits, the version of the catalog they stand for. -/
def primitives : Primitives where
  SigningKey := String
  VerifyingKey := String
  Signature := String
  verifyingKey := id
  sign key _ := key
  verify key _ signature := signature == key
  signatureBytes := utf8
  signatureFromSlice bytes := .ok (String.ofList (fromUtf8Lossy bytes))
  base64Encode bytes := String.ofList (fromUtf8Lossy bytes)
  base64Decode text := .ok (utf8 text)
  serde := ⟨fun bytes => .ok (.number (.posInt (bytes.headD 0 - 48).toNat)), fun _ => "0.5"⟩
  snapshotFromSlice bytes := .ok ⟨(bytes.headD 0 - 48).toNat,
    .codexCatalog [RegistrySnapshot.boundModel "alpha" .codex] []⟩

def context : CatalogContext primitives where
  codec := codec
  messages := ⟨fun _ => "catalog", fun _ => "runtime"⟩
  config := ⟨(∅ : Keyring primitives).insert "ops" "key", 300⟩
  embedded := ⟨1, .codexCatalog [RegistrySnapshot.boundModel "alpha" .codex] []⟩

def signedUpdate (version : Nat) (expiresAt : Option Nat) (now : Nat) : Update where
  envelope := .new version "ops" 10 expiresAt "key"
  canonicalPayload := utf8 (toString version)
  now
  outcomes := ⟨.ok (), fun _ => .ok (), .ok (), .ok (), .ok (), .ok ()⟩
  settings := none

/-- An accepted update, a replay of it and a restart. -/
theorem accepted_and_replayed : (∀ record ∈ (run context (.boot context none (.ok ()) 0)
        [.update (signedUpdate 5 none 50), .update (signedUpdate 5 none 60), .restart 70]).2,
      AllOrNothing context record) ∧ acceptedVersions (run context (.boot context none (.ok ()) 0)
      [.update (signedUpdate 5 none 50), .update (signedUpdate 5 none 60), .restart 70]).2 = [5] :=
  ⟨updates_all_or_nothing codec_lawful none (.ok ()) 0 _, by decide +kernel⟩

def withFive : CatalogManager :=
  (run context (.boot context none (.ok ()) 0) [.update (signedUpdate 5 (some 100) 50)]).1

def packageFive : SignedCatalogPackage :=
  ⟨(signedUpdate 5 (some 100) 50).envelope, .null, some "5"⟩

theorem withFive_inWindow : InWindow context withFive 60 := by
  rintro envelope payload ⟨package, packed, file⟩
  refine ⟨?_, ?_⟩
  · rintro value ⟨⟩
    rfl
  have stored : withFive.file = some (codec.toVecPretty packageFive) := by decide +kernel
  have bytes : codec.toVecPretty package = codec.toVecPretty packageFive := Option.some.inj (file.symm.trans stored)
  obtain ⟨read, decoded, same, -⟩ := codec_reads package
  obtain ⟨read', decoded', same', -⟩ := codec_reads packageFive
  rw [bytes, decoded'] at decoded
  cases decoded
  simp only [SignedCatalogPackage.new, primitives] at packed
  split at packed
  · cases packed
  · cases packed
    rw [show envelope = packageFive.envelope from same.symm.trans same']
    decide

theorem restart_in_window_keeps_versions : (acceptedVersions (run context
      (.boot context none (.ok ()) 0) [.update (signedUpdate 5 (some 100) 50), .restart 60,
        .update (signedUpdate 6 none 60)]).2).Pairwise (· < ·) ∧
    acceptedVersions (run context (.boot context none (.ok ()) 0)
      [.update (signedUpdate 5 (some 100) 50), .restart 60, .update (signedUpdate 6 none 60)]).2 = [5, 6] := by
  refine ⟨(restarts_keep_versions codec_lawful none (.ok ()) 0 _ ?_).1, by decide +kernel⟩
  intro earlier later now shape
  -- The one restart of the list is its second event.
  match earlier with
  | [] => cases shape
  | [_] =>
    cases shape
    exact withFive_inWindow
  | [_, _] => cases shape
  | _ :: _ :: _ :: _ => simp at shape

/-- Once the envelope in the file has expired, a restart forgets its version. -/
theorem expired_file_forgets_version : acceptedVersions (run context (.boot context none (.ok ()) 0)
      [.update (signedUpdate 5 (some 100) 50), .restart 200, .update (signedUpdate 3 none 200)]).2 = [5, 3] ∧
    (run context (.boot context none (.ok ()) 0)
      [.update (signedUpdate 5 (some 100) 50), .restart 200]).1.activeSnapshot.version = 1 :=
  ⟨by decide +kernel, by decide +kernel⟩

end Sample
end Mahoquot.Catalog
