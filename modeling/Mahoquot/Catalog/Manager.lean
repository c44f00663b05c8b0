import Mahoquot.Catalog.Envelope
import Mahoquot.Compat.Utf8
import Mahoquot.Runtime.State

/-! The catalog manager: booting from the embedded catalog and the cache file of the last
one accepted, and applying signed updates. File operations have outcomes of their own; the
file changes by the final rename only. -/

set_option autoImplicit false

namespace Mahoquot.Catalog
open Compat Registry Mahoquot.Runtime

inductive IoErrorKind where
  | notFound
  | alreadyExists
  | other
deriving Repr, DecidableEq

structure IoError where
  kind : IoErrorKind
  message : String
deriving Repr, DecidableEq

inductive CatalogError where
  | io (error : IoError)
  | serialization (reason : String)
  | verification (error : CatalogVerificationError)
  | invalidState (reason : String)
deriving Repr, DecidableEq

structure SignedCatalogPackage where
  envelope : CatalogEnvelope
  payload : Value
  rawPayload : Option String

/-- How serde writes a package to the file and reads it. -/
structure PackageCodec where
  toVecPretty : SignedCatalogPackage → Bytes
  fromSlice : Bytes → Except String SignedCatalogPackage

variable {prim : Primitives}

namespace SignedCatalogPackage

def utf8ErrorText (error : Utf8Error) : String :=
  let index := (error.validUpTo.flatMap String.utf8EncodeChar).length
  match error.errorLen with
  | some len => s!"invalid utf-8 sequence of {len} bytes from index {index}"
  | none => s!"incomplete utf-8 byte sequence from index {index}"

def new (prim : Primitives) (envelope : CatalogEnvelope) (rawCanonicalPayload : Bytes) :
    Except CatalogError SignedCatalogPackage :=
  match prim.serde.fromSlice rawCanonicalPayload with
  | .error reason => .error (.serialization reason)
  | .ok payload =>
    match fromUtf8 rawCanonicalPayload with
    | .error error => .error (.invalidState ("canonical payload is not valid UTF-8: " ++ utf8ErrorText error))
    | .ok text => .ok ⟨envelope, payload, some (String.ofList text)⟩

/-- The raw text where it is canonical, else the parsed payload written anew. -/
def payloadBytes (prim : Primitives) (package : SignedCatalogPackage) : Except CatalogError Bytes :=
  let fallback := (canonicalizeJson prim (prim.serde.toVec package.payload)).mapError .verification
  match package.rawPayload with
  | none => fallback
  | some raw => if (isCanonicalJson prim (utf8 raw)).toOption.getD false then .ok (utf8 raw) else fallback

def verify (package : SignedCatalogPackage) (keyring : Keyring prim)
    (activeVersion lkgVersion : Option CatalogVersion) (now allowedSkew : Nat) :
    Except CatalogError CatalogSnapshot := do
  let bytes ← package.payloadBytes prim
  (verifyCatalogEnvelope package.envelope bytes keyring activeVersion lkgVersion now allowedSkew).mapError .verification

end SignedCatalogPackage

def CatalogSnapshot.withSource (snapshot : CatalogSnapshot) (source : CatalogSource) : CatalogSnapshot :=
  { snapshot with registry := { snapshot.registry with source } }

abbrev LkgFile := Option Bytes

/-- The outcomes of the operations of one attempt to replace the file. -/
structure WriteOutcomes where
  createDirAll : Except IoError Unit
  openTemp : Nat → Except IoError Unit
  setPermissions : Except IoError Unit
  writeAll : Except IoError Unit
  syncAll : Except IoError Unit
  rename : Except IoError Unit

namespace LkgCache

def loadWithGeneratedAt (codec : PackageCodec) (keyring : Keyring prim) (file : LkgFile)
    (read : Except IoError Unit) (now allowedSkew : Nat) : Except CatalogError (CatalogSnapshot × Nat) :=
  match file with
  | none => .error (.io ⟨.notFound, "LKG cache file does not exist"⟩)
  | some raw => do
    read.mapError .io
    let package ← (codec.fromSlice raw).mapError .serialization
    let snapshot ← package.verify keyring none none now allowedSkew
    .ok (snapshot.withSource .lkgCache, package.envelope.generatedAt)

/-- The loop over temporary names; `left` attempts remain. -/
def writeTemp (outcomes : WriteOutcomes) (serialized : Bytes) (file : LkgFile) :
    Nat → Except CatalogError Unit × LkgFile
  | 0 => (.error (.io ⟨.alreadyExists,
      "failed to create temporary file for atomic write after 128 attempts"⟩), file)
  | left + 1 =>
    match outcomes.openTemp left with
    | .error error =>
      if error.kind = .alreadyExists then writeTemp outcomes serialized file left
      else (.error (.io error), file)
    | .ok () =>
      let result : Except IoError Unit := do
        outcomes.setPermissions
        outcomes.writeAll
        outcomes.syncAll
        outcomes.rename
      match result with
      | .error error => (.error (.io error), file)
      | .ok () => (.ok (), some serialized)

def writeAtomically (prim : Primitives) (codec : PackageCodec) (outcomes : WriteOutcomes)
    (envelope : CatalogEnvelope) (canonicalPayload : Bytes) (file : LkgFile) : Except CatalogError Unit × LkgFile :=
  match SignedCatalogPackage.new prim envelope canonicalPayload with
  | .error error => (.error error, file)
  | .ok package =>
    match outcomes.createDirAll with
    | .error error => (.error (.io error), file)
    | .ok () => writeTemp outcomes (codec.toVecPretty package) file 128

end LkgCache

structure CatalogConfig (prim : Primitives) where
  keyring : Keyring prim
  allowedClockSkewSecs : Nat

structure CatalogStatus where
  activeVersion : CatalogVersion
  activeSource : CatalogSource
  lkgVersion : Option CatalogVersion
  generatedAt : Option Nat
  loadedAt : Nat
  stale : Bool
  lastRefreshAt : Option Nat
  lastRefreshSuccess : Bool
  lastRejectionReason : Option String
  lastError : Option String
  modelCount : Nat
  providerCount : Nat
deriving Repr, DecidableEq

def rejectionReason : CatalogError → String
  | .io _ => "io"
  | .serialization _ => "serialization"
  | .verification _ => "verification"
  | .invalidState _ => "invalid_state"

/-- The texts of errors that are kept as text. -/
structure Messages where
  catalog : CatalogError → String
  runtime : RuntimeError → String

/-- What the manager is built with: libraries, texts, its configuration and the
catalog that is compiled in. -/
structure CatalogContext (prim : Primitives) where
  codec : PackageCodec
  messages : Messages
  config : CatalogConfig prim
  embedded : CatalogSnapshot

/-- A manager with the world it acts on: the cache file, and the runtime that
is bound to it. -/
structure CatalogManager where
  activeSnapshot : CatalogSnapshot
  status : CatalogStatus
  file : LkgFile
  runtime : Option UnifiedRuntimeState

namespace CatalogManager
variable (context : CatalogContext prim)

/-- What boot takes from the cache file: the active snapshot, the version and
time of the file, and an error to report. -/
def adopt : Except CatalogError (CatalogSnapshot × Nat) →
      CatalogSnapshot × Option CatalogVersion × Option Nat × Option String
  | .ok (lkg, generatedAt) =>
    (if context.embedded.version ≤ lkg.version then lkg else context.embedded,
      some lkg.version, some generatedAt, none)
  | .error (.io error) =>
    if error.kind = .notFound then (context.embedded, none, none, none)
    else (context.embedded, none, none,
      some ("LKG cache corrupted: " ++ context.messages.catalog (.io error)))
  | .error error =>
    (context.embedded, none, none, some ("LKG cache corrupted: " ++ context.messages.catalog error))

def boot (file : LkgFile) (read : Except IoError Unit) (now : Nat) : CatalogManager :=
  let loaded := LkgCache.loadWithGeneratedAt context.codec context.config.keyring file read now
    context.config.allowedClockSkewSecs
  let (active, lkgVersion, generatedAt, lastError) := adopt context loaded
  { activeSnapshot := active
    status :=
      { activeVersion := active.version
        activeSource := active.registry.source
        lkgVersion
        generatedAt
        loadedAt := now
        stale := lastError.isSome
        lastRefreshAt := none
        lastRefreshSuccess := lastError.isNone
        lastRejectionReason := none
        lastError
        modelCount := active.registry.models.size
        providerCount := active.registry.providers.size }
    file
    runtime := none }

/-- A signed update as it is handed to the manager, with what its environment
does meanwhile: the clock, the file operations and the settings, if bound. -/
structure Update where
  envelope : CatalogEnvelope
  canonicalPayload : Bytes
  now : Nat
  outcomes : WriteOutcomes
  settings : Option (RegistrySnapshot → Except String RegistrySnapshot)

/-- Write the file, then store the snapshot. -/
def commit (update : Update) (snapshot : CatalogSnapshot)
    (world : LkgFile × CatalogSnapshot) : Except String Unit × LkgFile × CatalogSnapshot :=
  match LkgCache.writeAtomically prim context.codec update.outcomes update.envelope
      update.canonicalPayload world.1 with
  | (.error error, file) => (.error (context.messages.catalog error), file, world.2)
  | (.ok (), file) => (.ok (), file, snapshot)

def statusAfter (status : CatalogStatus) (update : Update) (snapshot : CatalogSnapshot) : CatalogStatus :=
  { status with
    activeVersion := snapshot.version
    activeSource := .remoteSigned
    lkgVersion := some snapshot.version
    generatedAt := some update.envelope.generatedAt
    loadedAt := update.now
    stale := false
    lastRefreshAt := some update.now
    lastRefreshSuccess := true
    lastRejectionReason := none
    lastError := none
    modelCount := snapshot.registry.models.size
    providerCount := snapshot.registry.providers.size }

/-- Publish to the runtime with the commit inside, or commit alone. -/
def publish (manager : CatalogManager) (update : Update)
    (snapshot : CatalogSnapshot) (composed : RegistrySnapshot) : Except CatalogError Unit × CatalogManager :=
  match manager.runtime with
  | some runtime =>
    let (result, runtime, file, active) := runtime.updateRegistryWithCreatedAndCommit composed
      update.envelope.generatedAt (commit context update snapshot)
      (manager.file, manager.activeSnapshot)
    let manager := { manager with runtime := some runtime, file, activeSnapshot := active }
    match result with
    | .error error => (.error (.invalidState (context.messages.runtime error)), manager)
    | .ok _ => (.ok (), manager)
  | none =>
    let (result, file, active) := commit context update snapshot
      (manager.file, manager.activeSnapshot)
    let manager := { manager with file, activeSnapshot := active }
    match result with
    | .error reason => (.error (.invalidState reason), manager)
    | .ok () => (.ok (), manager)

def applyUpdateInner (manager : CatalogManager)
    (update : Update) : Except CatalogError CatalogSnapshot × CatalogManager :=
  match verifyCatalogEnvelope update.envelope update.canonicalPayload context.config.keyring
      (some manager.activeSnapshot.version) manager.status.lkgVersion update.now
      context.config.allowedClockSkewSecs with
  | .error error => (.error (.verification error), manager)
  | .ok verified =>
    let snapshot := verified.withSource .remoteSigned
    match (update.settings.getD .ok) snapshot.registry with
    | .error reason => (.error (.invalidState reason), manager)
    | .ok composed =>
      match publish context manager update snapshot composed with
      | (.error error, manager) => (.error error, manager)
      | (.ok (), manager) =>
        (.ok snapshot, { manager with status := statusAfter manager.status update snapshot })

/-- A rejected update is noted in the status. -/
def applyVerifiedUpdate (manager : CatalogManager)
    (update : Update) : Except CatalogError CatalogSnapshot × CatalogManager :=
  match applyUpdateInner context manager update with
  | (.error error, manager) =>
    (.error error, { manager with status := { manager.status with
      stale := true
      lastRefreshAt := some update.now
      lastRefreshSuccess := false
      lastError := some (context.messages.catalog error)
      lastRejectionReason := some (rejectionReason error) } })
  | (.ok snapshot, manager) => (.ok snapshot, manager)

end CatalogManager

inductive ManagerEvent where
  | update (update : CatalogManager.Update)
  | runtime (runtime : Option UnifiedRuntimeState)
  | restart (now : Nat)

structure UpdateRecord where
  before : CatalogManager
  update : CatalogManager.Update
  result : Except CatalogError CatalogSnapshot
  after : CatalogManager

namespace CatalogManager

def step (context : CatalogContext prim) (manager : CatalogManager) :
    ManagerEvent → CatalogManager × List UpdateRecord
  | .update update =>
    let outcome := applyVerifiedUpdate context manager update
    (outcome.2, [⟨manager, update, outcome.1, outcome.2⟩])
  | .runtime runtime => ({ manager with runtime }, [])
  | .restart now => (boot context manager.file (.ok ()) now, [])

def run (context : CatalogContext prim) (manager : CatalogManager) :
    List ManagerEvent → CatalogManager × List UpdateRecord
  | [] => (manager, [])
  | event :: events =>
    let (next, records) := step context manager event
    let (last, more) := run context next events
    (last, records ++ more)

end CatalogManager

end Mahoquot.Catalog
