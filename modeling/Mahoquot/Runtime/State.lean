import Mahoquot.Gateway.Composition
import Mahoquot.Gateway.Rescan

/-! The runtime state: the published composition and the registry it is composed over. All
operations run under the coordinator's lock, so each is one step here. -/

set_option autoImplicit false

namespace Mahoquot.Runtime
open Library Registry Gateway

structure DevinCacheKey where
  identitySlug : String
  credentialRevision : String
  credentialToken : String
  baseUrl : String
deriving Repr, DecidableEq

/-- A discovered catalog with what its publications are ordered by. -/
structure DevinCatalog where
  key : DevinCacheKey
  sequence : Nat
  lastRefreshAt : Option Nat
  state : DevinAccountCatalogState
deriving Repr, DecidableEq

/-- An account of the pool with the catalog it was published with. Its
`devin_discovery_seq`, which numbers requests, is read by no operation here:
catalogs come with their number. -/
structure RuntimeMember where
  account : AccountMember
  catalog : Option DevinCatalog

namespace RuntimeMember

def id (member : RuntimeMember) : String := member.account.id

def view (member : RuntimeMember) : AccountMember :=
  { member.account with devinCatalog := member.catalog.map DevinCatalog.state }

def cloneForSnapshot (member : RuntimeMember) (catalog : Option DevinCatalog) : RuntimeMember :=
  { member with catalog }

end RuntimeMember

/-- What a process reads once: the model list of its environment and the
embedded catalogue. -/
structure RuntimeEnv where
  modelsEnv : Option String
  isAntigravityModel : String → Bool

structure RuntimeComposition where
  generation : Nat
  members : List RuntimeMember
  pool : PoolSnapshot
  modelsCreatedUnix : Int

def RuntimeComposition.findMember (composition : RuntimeComposition) (id : String) : Option RuntimeMember :=
  composition.members.find? fun member => member.id == id

def computeCandidateCompositionWithCreated (env : RuntimeEnv) (generation : Nat)
    (members : List RuntimeMember) (registry : RegistrySnapshot) (modelsCreatedUnix : Int) :
    Except RegistryError RuntimeComposition := do
  let pool ← computeCandidateComposition (members.map RuntimeMember.view) registry env.modelsEnv
    env.isAntigravityModel
  .ok ⟨generation, members, pool, modelsCreatedUnix⟩

structure UnifiedRuntimeState where
  env : RuntimeEnv
  pool : RuntimeComposition
  generationSeq : Nat
  baseRegistry : RegistrySnapshot

inductive RuntimeError where
  | registry (error : RegistryError)
  | commit (reason : String)
deriving Repr, DecidableEq

inductive DevinDiscoveryError where
  | stalePublication
  | internal (reason : String)
deriving Repr, DecidableEq

namespace UnifiedRuntimeState

/-- The base registry is the one of the initial composition. -/
def new (env : RuntimeEnv) (initial : RuntimeComposition) : UnifiedRuntimeState :=
  ⟨env, initial, initial.generation, initial.pool.registry⟩

/-- How a process starts from its catalog, as composed with the settings. -/
def boot (env : RuntimeEnv) (members : List RuntimeMember) (catalog : RegistrySnapshot)
    (modelsCreatedUnix : Int) : Except RegistryError UnifiedRuntimeState := do
  let candidate ← computeCandidateCompositionWithCreated env 1 members catalog modelsCreatedUnix
  .ok (new env candidate)

variable (state : UnifiedRuntimeState)

/-- A publication counts its generation before it can fail. -/
def countGeneration : UnifiedRuntimeState :=
  { state with generationSeq := state.generationSeq + 1 }

def candidate (members : List RuntimeMember) (registry : RegistrySnapshot) (modelsCreatedUnix : Int) :
    Except RegistryError RuntimeComposition :=
  computeCandidateCompositionWithCreated state.env (state.generationSeq + 1) members registry
    modelsCreatedUnix

/-- `commit` acts on what lies outside the runtime; it is reached only with a
candidate, and its failure keeps the candidate from being published. -/
def updateRegistryWithCreatedAndCommit {World : Type} (state : UnifiedRuntimeState)
    (nextRegistry : RegistrySnapshot) (modelsCreatedUnix : Int)
    (commit : World → Except String Unit × World) (world : World) :
    Except RuntimeError RuntimeComposition × UnifiedRuntimeState × World :=
  match state.candidate state.pool.members nextRegistry modelsCreatedUnix with
  | .error error => (.error (.registry error), state.countGeneration, world)
  | .ok candidate =>
    match commit world with
    | (.error reason, world) => (.error (.commit reason), state.countGeneration, world)
    | (.ok (), world) =>
      (.ok candidate, { state.countGeneration with baseRegistry := nextRegistry, pool := candidate }, world)

def updateRegistry (nextRegistry : RegistrySnapshot) : Except RuntimeError RuntimeComposition × UnifiedRuntimeState :=
  let outcome := state.updateRegistryWithCreatedAndCommit nextRegistry
    state.pool.modelsCreatedUnix (fun world : Unit => (.ok (), world)) ()
  (outcome.1, outcome.2.1)

def reloadAccounts (newMembers : List RuntimeMember) : Except RuntimeError RuntimeComposition × UnifiedRuntimeState :=
  match state.candidate newMembers state.baseRegistry state.pool.modelsCreatedUnix with
  | .error error => (.error (.registry error), state.countGeneration)
  | .ok candidate => (.ok candidate, { state.countGeneration with pool := candidate })

/-- What the coordinator runs for the calls it covers. -/
def triggerCoalescedRefresh : Except RuntimeError RuntimeComposition × UnifiedRuntimeState :=
  state.reloadAccounts state.pool.members

/-- A catalog that may stand in place of `existing`: request numbers decide
where both have one, else the time stamps where both have one. -/
def supersedes (newCatalog existing : DevinCatalog) : Bool :=
  if newCatalog.sequence > 0 && existing.sequence > 0 then
    decide (existing.sequence < newCatalog.sequence)
  else
    match existing.lastRefreshAt, newCatalog.lastRefreshAt with
    | some existingTs, some newTs => decide (existingTs ≤ newTs)
    | _, _ => true

variable (revision : String → String)

def catalogKey (member : RuntimeMember) : DevinCacheKey :=
  ⟨member.id, revision member.account.accessToken, member.account.accessToken, member.account.effectiveBaseUrl⟩

/-- Whether a catalog is still the newest for the credential of `member`;
`revision` is the hash of a token. -/
def acceptsCatalog (targetRevision : String) (newCatalog : DevinCatalog) (member : RuntimeMember) : Bool :=
  decide (member.account.kind = .devin) && !member.view.isManuallyDisabled &&
    revision member.account.accessToken == targetRevision &&
    newCatalog.key == catalogKey revision member &&
    member.catalog.all fun existing =>
      existing.key != catalogKey revision member || supersedes newCatalog existing

/-- The catalog is composed over the published registry. -/
def publishDevinMemberCatalog (state : UnifiedRuntimeState)
    (targetId targetRevision : String) (newCatalog : DevinCatalog) :
    Except DevinDiscoveryError RuntimeComposition × UnifiedRuntimeState :=
  match state.pool.findMember targetId with
  | none => (.error .stalePublication, state)
  | some member =>
    if !acceptsCatalog revision targetRevision newCatalog member then
      (.error .stalePublication, state)
    else
      let newMembers := state.pool.members.map fun member =>
        if member.id == targetId then member.cloneForSnapshot (some newCatalog) else member
      match state.candidate newMembers state.pool.pool.registry
          state.pool.modelsCreatedUnix with
      | .error _ => (.error (.internal "publication coordinator failed"), state.countGeneration)
      | .ok candidate => (.ok candidate, { state.countGeneration with pool := candidate })

end UnifiedRuntimeState
end Mahoquot.Runtime
