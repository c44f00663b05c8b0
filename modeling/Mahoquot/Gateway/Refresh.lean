import Mahoquot.Gateway.Account
import Mahoquot.Gateway.Credential
import Mahoquot.Library.Procedure

/-! Refreshing the credential of an account. Meta and native Kimi credentials have refreshers
of their own; every other provider goes through the shared path, which alone ends the bench
of a rejected credential. -/

set_option autoImplicit false

namespace Mahoquot.Gateway
open Library

/-- How the credential files of a provider kind are loaded, and what is read of
the credential in memory. -/
structure CredentialLoader (Credential : Type) where
  /-- Loads for an account id, which stands in for an absent identity. -/
  load : ProviderKind → String → Document → Except String Credential
  inner : Credential → ProviderAccount
  accessToken : Credential → String
  refreshToken : Credential → String
  isExpired : Credential → Int → Bool
  adapter : Credential → Option String
  clientId : Credential → String
  kind_load : ∀ {kind id document credential}, load kind id document = .ok credential →
    (inner credential).kind = kind

structure RefreshState (Credential : Type) where
  member : AccountMember
  credential : Credential
  disk : Disk

structure MetaAccount where
  needsMint : Bool
  hasDca : Bool

/-- How the world answers a refresh. -/
structure RefreshWorld (Credential : Type) where
  loader : CredentialLoader Credential
  calendar : Calendar
  nowUnix : Int
  /-- What others make of the file while the tokens are exchanged. -/
  edited : FileContent → FileContent
  firstCommit : CommitAnswers
  secondCommit : CommitAnswers
  metaAccount : Document → Except String MetaAccount
  metaMint : Except String Document
  kimiHost : Document → String
  kimiTokens : String → Except RefreshFailure KimiToken
  kimiModels : Option Field
  freshClientId : String
  vertexChanged : Credential → Document → Except String Bool
  exchange : Except RefreshFailure Tokens

variable {Credential : Type}

abbrev Refreshing (Credential : Type) := Procedure RefreshFailure (RefreshState Credential)

def Document.set (document : Document) (key : String) (field : Field) : Document :=
  match document with
  | .object fields => .object (fields.insert key field)
  | .other rendered => .other rendered

def Document.remove (document : Document) (key : String) : Document :=
  match document with
  | .object fields => .object (fields.erase key)
  | .other rendered => .other rendered

/-- End the bench of a rejected credential; an operator's decision stands. -/
def AccountMember.clearAuthFailure (member : AccountMember) : Bool × AccountMember :=
  if member.health = .authFailed then (true, member.setHealth .available) else (false, member)

def fromExcept {α : Type} (answer : Except RefreshFailure α) : Refreshing Credential α :=
  match answer with
  | .ok value => pure value
  | .error failure => throw failure

def parsed {α : Type} (answer : Except String α) : Except RefreshFailure α :=
  answer.mapError .parse

def readDocument : Refreshing Credential Document := do
  match (← get).disk.file with
  | .document document => pure document
  | .malformed message => throw (.parse message)
  | .missing | .unreadable => throw .io

def commitDocument (answers : CommitAnswers) (expected candidate : Document) : Refreshing Credential Document := do
  let committed := commitRefresh answers (some expected) candidate (← get).disk
  modify fun state => { state with disk := committed.2 }
  fromExcept committed.1

namespace RefreshWorld
variable (world : RefreshWorld Credential)

variable (state : RefreshState Credential)

def reloaded (credential : Credential) : RefreshState Credential :=
  { state with
    member := { state.member with
      inner := world.loader.inner credential
      accessToken := world.loader.accessToken credential }
    credential := credential }

def reloadFromFile : Refreshing Credential Unit := do
  let state ← get
  match state.disk.file with
  | .document document =>
    let credential ← fromExcept
      (parsed (world.loader.load state.member.kind state.member.id document))
    modify fun state => world.reloaded state credential
  | .malformed message => throw (.parse message)
  | .missing | .unreadable => throw (.parse "unreadable credential file")

def await : Refreshing Credential Unit :=
  modify fun state => { state with disk := { state.disk with file := world.edited state.disk.file } }

def refreshMeta (presented : Option String) : Refreshing Credential Bool := do
  let state ← get
  if presented.any fun token => world.loader.accessToken state.credential != token then
    return false
  let expected ← EStateM.adaptExcept RefreshFailure.asParse readDocument
  let account ← fromExcept (parsed (world.metaAccount expected))
  if presented.isNone && !account.needsMint then return false
  if !account.hasDca then return false
  let candidate ← fromExcept (parsed world.metaMint)
  world.await
  let _ ← EStateM.adaptExcept (fun failure => .parse failure.render)
    (commitDocument world.firstCommit expected candidate)
  world.reloadFromFile
  return true

/-- The refresher of Kimi credentials whose token endpoint is Kimi's own. A
failed catalog keeps the tokens that are already committed. -/
def refreshKimi : Refreshing Credential Bool := do
  let expected ← readDocument
  let grant ← fromExcept (match expected.text? "refresh_token" with
    | some grant => .ok grant
    | none => .error (.parse "missing refresh token"))
  let token ← fromExcept (world.kimiTokens grant)
  world.await
  let candidate ← fromExcept (token.apply world.calendar expected world.nowUnix)
  let committed ← commitDocument world.firstCommit expected candidate
  world.reloadFromFile
  match world.kimiModels with
  | some models =>
    let _ ← commitDocument world.secondCommit committed (committed.set "models" models)
    world.reloadFromFile
    return true
  | none => return true

/-- The anonymous id of a mimo account, minted and committed on first use. -/
def ensureMimoClientId : Refreshing Credential Unit := do
  if (world.loader.clientId (← get).credential).isEmpty then
    let expected ← readDocument
    match expected with
    | .object _ =>
      let _ ← commitDocument world.firstCommit expected
        (expected.set "client_id" (.text world.freshClientId))
      world.reloadFromFile
    | .other _ => throw (.parse "root is not a JSON object")

def expectedAccess (kind : ProviderKind) (expected : Document) : String :=
  let field := match kind with
    | .generic => expected.get? "api_key"
    | .vertex => (expected.get? "access_token").or (expected.get? "api_key")
    | _ => expected.get? "access_token"
  match field with
  | some (.text token) => token
  | _ => ""

/-- The file holds another grant than the credential in memory. -/
def grantChanged (expected : Document) : Bool :=
  (decide (state.member.kind ≠ .vertex) &&
      (expected.text? "refresh_token").getD "" != world.loader.refreshToken state.credential) ||
    expectedAccess state.member.kind expected != world.loader.accessToken state.credential

def exchangeTokens (expected : Document) : Except RefreshFailure Tokens :=
  if state.member.kind = .vertex then
    match world.vertexChanged state.credential expected with
    | .error message => .error (.parse message)
    | .ok true => .error (.parse "Vertex identity changed before refresh")
    | .ok false => world.exchange
  else if state.member.kind = .zcode then
    .error (.status 401 "the ZCode plan JWT cannot be refreshed; re-authenticate")
  else world.exchange

def prepareGrant : Refreshing Credential Unit := do
  if world.loader.adapter (← get).credential = some "mimo-free" then world.ensureMimoClientId
  else pure ()

def refreshShared : Refreshing Credential Bool := do
  world.prepareGrant
  let expected ← readDocument
  let state ← get
  if world.grantChanged state expected then
    throw (.parse "credential grant changed before refresh")
  else
    let tokens ← fromExcept (world.exchangeTokens state expected)
    world.await
    let refreshed ← fromExcept
      (applyRefreshToValue world.calendar expected tokens world.nowUnix)
    -- both names of a Vertex token in one file would not load again
    let candidate := if state.member.kind = .vertex then refreshed.remove "api_key" else refreshed
    let _ ← commitDocument world.secondCommit expected candidate
    world.reloadFromFile
    modify fun state => { state with member := state.member.clearAuthFailure.2 }
    return true

end RefreshWorld

def isKimiProvider (provider : String) : Bool :=
  ["kimi", "kimi-ai", "kimi.com", "kimi.ai"].contains (Text.toAsciiLowercase (Text.trim provider))

inductive RefreshPath where
  | metaMint
  | nativeKimi
  | shared
deriving Repr, DecidableEq

namespace RefreshWorld
variable (world : RefreshWorld Credential)

def kimiTokenUrl (document : Document) : String :=
  (document.text? "token_url").getD (world.kimiHost document ++ "/api/oauth/token")

def pathFor (provider : String) (document : Document) : RefreshPath :=
  if provider = "meta" then .metaMint
  else if isKimiProvider provider &&
      (Text.stripSuffix? "/api/oauth/token" (world.kimiTokenUrl document)).isSome then .nativeKimi
  else .shared

/-- Nothing is refreshed for a token that is no longer in use, or without one
before the expiry. -/
def refreshDue (presented : Option String) (credential : Credential) : Bool :=
  match presented with
  | some stale => world.loader.accessToken credential == stale
  | none => world.loader.isExpired credential world.nowUnix

def refreshWithStore (presented : Option String) : Refreshing Credential Bool := do
  let before ← get
  if before.member.relayApiKey.isSome || before.member.kind = .devin then return false
  world.reloadFromFile
  let state ← get
  if !world.refreshDue presented state.credential then return false
  let document ← readDocument
  match world.pathFor state.member.providerName document with
  | .metaMint => world.refreshMeta presented
  | .nativeKimi => world.refreshKimi
  | .shared => world.refreshShared

end RefreshWorld

variable (world : RefreshWorld Credential)

/-- The credential in memory is what the file on disk loads as. -/
def RefreshWorld.InMemory (state : RefreshState Credential) : Prop :=
  ∃ document, state.disk.file = .document document ∧
    world.loader.load state.member.kind state.member.id document = .ok state.credential

def HasHealth (health : Health) (state : RefreshState Credential) : Prop :=
  state.member.health = health

/-- The health a cleared auth failure leaves. -/
def cleared (health : Health) : Health :=
  if health = .authFailed then .available else health

section Steps
variable {pre : RefreshState Credential → Prop} {health : Health}

theorem readDocument_keeps : Triple pre (readDocument : Refreshing Credential Document) fun _ => pre := by
  refine .bind (.of_get fun state initial => initial) fun state => ?_
  split
  · exact .of_pure fun _ initial => initial
  · exact .of_throw
  · exact .of_throw
  · exact .of_throw

theorem fromExcept_keeps {α : Type} (answer : Except RefreshFailure α) :
    Triple pre (fromExcept answer : Refreshing Credential α) fun _ => pre := by
  cases answer with
  | ok value => exact .of_pure fun _ initial => initial
  | error failure => exact .of_throw

theorem commitDocument_keeps (answers : CommitAnswers) (expected candidate : Document) : Triple (HasHealth health)
      (commitDocument answers expected candidate : Refreshing Credential Document) fun _ => HasHealth health := by
  refine .bind (.of_get fun state initial => initial) fun state => ?_
  exact .bind (.of_modify fun _ initial => initial) fun _ => fromExcept_keeps _

theorem await_keeps : Triple (HasHealth health) world.await fun _ => HasHealth health :=
  .of_modify fun _ initial => initial

variable {before after : RefreshState Credential}

theorem runs_fromExcept {α : Type} {answer : Except RefreshFailure α} {value : α} :
    Runs (fromExcept answer : Refreshing Credential α) before value after ↔ answer = .ok value ∧ before = after := by
  cases answer with
  | ok found => simp [fromExcept]
  | error failure => simp [fromExcept]

theorem runs_readDocument {document : Document}
    (run : Runs (readDocument : Refreshing Credential Document) before document after) :
    before.disk.file = .document document ∧ before = after := by
  obtain ⟨state, middle, got, run⟩ := runs_bind.mp run
  obtain ⟨rfl, rfl⟩ := runs_get.mp got
  split at run
  next found =>
    obtain ⟨rfl, rfl⟩ := runs_pure.mp run
    exact ⟨found, rfl⟩
  next => exact absurd run runs_throw
  next => exact absurd run runs_throw
  next => exact absurd run runs_throw

theorem parsed_eq_ok {α : Type} {answer : Except String α} {value : α} :
    parsed answer = .ok value ↔ answer = .ok value := by
  cases answer <;> simp [parsed, Except.mapError]

theorem runs_reloadFromFile {result : Unit} (run : Runs world.reloadFromFile before result after) :
    ∃ document credential, before.disk.file = .document document ∧
      world.loader.load before.member.kind before.member.id document = .ok credential ∧
      after = world.reloaded before credential := by
  obtain ⟨state, middle, got, run⟩ := runs_bind.mp run
  obtain ⟨rfl, rfl⟩ := runs_get.mp got
  split at run
  next document found =>
    obtain ⟨credential, middle, loaded, run⟩ := runs_bind.mp run
    rw [runs_fromExcept, parsed_eq_ok] at loaded
    obtain ⟨loaded, rfl⟩ := loaded
    exact ⟨document, credential, found, loaded, (runs_modify.mp run).symm⟩
  next => exact absurd run runs_throw
  next => exact absurd run runs_throw
  next => exact absurd run runs_throw

theorem reloadFromFile_inMemory : Triple (HasHealth health) world.reloadFromFile fun _ state =>
      HasHealth health state ∧ world.InMemory state := by
  intro before result after initial run
  obtain ⟨document, credential, found, loaded, rfl⟩ := runs_reloadFromFile world run
  refine ⟨initial, document, found, ?_⟩
  have kind : (world.reloaded before credential).member.kind = before.member.kind := world.loader.kind_load loaded
  rw [kind]
  exact loaded

end Steps

section Paths
variable {health : Health}

/-- What a refresher is asked for: when it says so, the credential is renewed. -/
def Renewed (health : Health) (result : Bool) (state : RefreshState Credential) : Prop :=
  result = true → HasHealth health state ∧ world.InMemory state

theorem not_renewed {state : RefreshState Credential} : Renewed world health false state :=
  fun impossible => by cases impossible

theorem reload_renews : Triple (HasHealth health) (world.reloadFromFile >>= fun _ => pure true)
      (Renewed world health) :=
  .bind (reloadFromFile_inMemory world) fun _ => .of_pure fun _ renewed _ => renewed

theorem refreshMeta_renews (presented : Option String) :
    Triple (HasHealth health) (world.refreshMeta presented) (Renewed world health) := by
  refine .bind (.of_get fun state initial => initial) fun state => ?_
  split
  · exact .of_pure fun _ _ => not_renewed world
  refine .bind (.adaptExcept readDocument_keeps) fun expected => ?_
  refine .bind (fromExcept_keeps _) fun account => ?_
  split
  · exact .of_pure fun _ _ => not_renewed world
  split
  · exact .of_pure fun _ _ => not_renewed world
  refine .bind (fromExcept_keeps _) fun candidate => ?_
  refine .bind (await_keeps world) fun _ => ?_
  exact .bind (.adaptExcept (commitDocument_keeps _ _ _)) fun _ => reload_renews world

theorem refreshKimi_renews : Triple (HasHealth health) world.refreshKimi (Renewed world health) := by
  refine .bind readDocument_keeps fun expected => ?_
  refine .bind (fromExcept_keeps _) fun grant => ?_
  refine .bind (fromExcept_keeps _) fun token => ?_
  refine .bind (await_keeps world) fun _ => ?_
  refine .bind (fromExcept_keeps _) fun candidate => ?_
  refine .bind (commitDocument_keeps _ _ _) fun committed => ?_
  refine .bind (reloadFromFile_inMemory world) fun _ => ?_
  split
  · refine .bind ((commitDocument_keeps _ _ _).strengthen fun _ renewed => renewed.1) fun _ => ?_
    exact reload_renews world
  · exact .of_pure fun _ renewed _ => renewed

theorem ensureMimoClientId_keeps : Triple (HasHealth health) world.ensureMimoClientId fun _ => HasHealth health := by
  refine .bind (.of_get fun state initial => initial) fun state => ?_
  split
  · refine .bind readDocument_keeps fun expected => ?_
    split
    · refine .bind (commitDocument_keeps _ _ _) fun _ => ?_
      exact (reloadFromFile_inMemory world).mono fun _ _ renewed => renewed.1
    · exact .of_throw
  · exact .of_pure fun _ initial => initial

theorem prepareGrant_keeps : Triple (HasHealth health) world.prepareGrant fun _ => HasHealth health := by
  refine .bind (.of_get fun state initial => initial) fun state => ?_
  split
  · exact ensureMimoClientId_keeps world
  · exact .of_pure fun _ initial => initial

theorem clearAuthFailure_eq (member : AccountMember) :
    member.clearAuthFailure.2 = member.setHealth (cleared member.health) := by
  simp only [AccountMember.clearAuthFailure, cleared]
  split <;> rfl

theorem clear_renews : Triple (fun state => HasHealth health state ∧ world.InMemory state)
      (modify fun state => { state with member := state.member.clearAuthFailure.2 } : Refreshing Credential Unit)
      fun _ state => HasHealth (cleared health) state ∧ world.InMemory state := by
  refine .of_modify ?_
  rintro state ⟨kept, document, found, loaded⟩
  rw [clearAuthFailure_eq]
  exact ⟨congrArg cleared kept, document, found, loaded⟩

theorem refreshShared_renews : Triple (HasHealth health) world.refreshShared (Renewed world (cleared health)) := by
  refine .bind (prepareGrant_keeps world) fun _ => ?_
  refine .bind readDocument_keeps fun expected => ?_
  refine .bind (.of_get fun state initial => initial) fun state => ?_
  split
  · exact .of_throw
  refine .bind (fromExcept_keeps _) fun tokens => ?_
  refine .bind (await_keeps world) fun _ => ?_
  refine .bind (fromExcept_keeps _) fun refreshed => ?_
  refine .bind (commitDocument_keeps _ _ _) fun _ => ?_
  refine .bind (reloadFromFile_inMemory world) fun _ => ?_
  exact .bind (clear_renews world) fun _ => .of_pure fun _ renewed _ => renewed

end Paths

/-- The path a refresh of the account takes, by what its file loads as. -/
def RefreshWorld.pathOf (state : RefreshState Credential) : Option RefreshPath :=
  match state.disk.file with
  | .document document =>
    match world.loader.load state.member.kind state.member.id document with
    | .ok credential => some (world.pathFor
        { state.member with inner := world.loader.inner credential }.providerName document)
    | .error _ => none
  | _ => none

variable {world}

/-- A successful refresh clears the auth failure on the shared path and leaves
the health alone on the others. -/
theorem refreshWithStore_renews {presented : Option String} {before after : RefreshState Credential}
    (refreshed : Runs (world.refreshWithStore presented) before true after) :
    world.InMemory after ∧ ∃ path, world.pathOf before = some path ∧ after.member.health =
        if path = .shared then cleared before.member.health else before.member.health := by
  obtain ⟨start, middle, got, run⟩ := runs_bind.mp refreshed
  obtain ⟨rfl, rfl⟩ := runs_get.mp got
  split at run
  · cases (runs_pure.mp run).1
  obtain ⟨_, loadedState, reload, run⟩ := runs_bind.mp run
  obtain ⟨document, credential, found, loaded, rfl⟩ := runs_reloadFromFile world reload
  obtain ⟨state, middle, got, run⟩ := runs_bind.mp run
  obtain ⟨rfl, rfl⟩ := runs_get.mp got
  split at run
  · cases (runs_pure.mp run).1
  obtain ⟨read, middle, reads, run⟩ := runs_bind.mp run
  obtain ⟨same, rfl⟩ := runs_readDocument reads
  cases found.symm.trans same
  have taken : world.pathOf before = some (world.pathFor
      (world.reloaded before credential).member.providerName document) := by
    simp only [RefreshWorld.pathOf, found, loaded]
    rfl
  have initial : HasHealth before.member.health (world.reloaded before credential) := rfl
  rw [taken]
  split at run
  next path =>
    obtain ⟨kept, inMemory⟩ := refreshMeta_renews world presented _ _ _ initial run rfl
    exact ⟨inMemory, _, rfl, by simpa [path, HasHealth] using kept⟩
  next path =>
    obtain ⟨kept, inMemory⟩ := refreshKimi_renews world _ _ _ initial run rfl
    exact ⟨inMemory, _, rfl, by simpa [path, HasHealth] using kept⟩
  next path =>
    obtain ⟨kept, inMemory⟩ := refreshShared_renews world _ _ _ initial run rfl
    exact ⟨inMemory, _, rfl, by simpa [path, HasHealth] using kept⟩

/-- A refresh that succeeds leaves a routable health, keeps an operator's
decision and the file's credential in memory, exactly when the account was not
benched for its credential or the refresh went through the shared path. -/
theorem refresh_revives_iff {presented : Option String} {before after : RefreshState Credential}
    (refreshed : Runs (world.refreshWithStore presented) before true after) : (after.member.health ≠ .authFailed ∧
        (before.member.health = .disabled → after.member.health = .disabled) ∧ world.InMemory after) ↔
      (before.member.health = .authFailed → world.pathOf before = some .shared) := by
  obtain ⟨inMemory, path, taken, health⟩ := refreshWithStore_renews refreshed
  have disabled : before.member.health = .disabled → after.member.health = .disabled := by
    intro off
    rw [health, off]
    split <;> rfl
  rw [health, taken, Option.some.injEq]
  constructor
  · rintro ⟨revived, _⟩ benched
    by_contra other
    simp [other, benched] at revived
  · intro reaches
    refine ⟨?_, health ▸ disabled, inMemory⟩
    split
    · simp only [cleared]
      split
      · simp
      · assumption
    · exact fun benched => absurd (reaches benched) (by assumption)

def verdict (result : EStateM.Result RefreshFailure (RefreshState Credential) Bool) : Option (Bool × Health) :=
  match result with
  | .ok value state => some (value, state.member.health)
  | .error _ _ => none

theorem runs_of_verdict {procedure : Refreshing Credential Bool} {before : RefreshState Credential}
    {value : Bool} {health : Health} (returned : verdict (procedure before) = some (value, health)) :
    ∃ after, Runs procedure before value after ∧ after.member.health = health := by
  cases run : procedure before with
  | ok result after =>
    rw [run] at returned
    cases returned
    exact ⟨after, run, rfl⟩
  | error failure after =>
    rw [run] at returned
    cases returned

def documentLoader : CredentialLoader Document where
  load kind _ document := if kind = .generic then .ok document else .error "unsupported kind"
  inner document := .generic ((document.text? "provider").getD "") []
  accessToken document := (document.text? "api_key").getD ""
  refreshToken document := (document.text? "refresh_token").getD ""
  isExpired _ _ := true
  adapter _ := none
  clientId _ := ""
  kind_load := by
    intro kind id document credential loaded
    split at loaded
    next generic => exact generic.symm
    next => cases loaded

def grantDocument (provider apiKey : String) : Document :=
  .object (((((∅ : Std.ExtTreeMap String Field).insert "type" (.text "generic")).insert
    "provider" (.text provider)).insert "api_key" (.text apiKey)).insert
      "refresh_token" (.text "grant"))

def willingWorld : RefreshWorld Document where
  loader := documentLoader
  calendar := ⟨fun time => some (toString time), fun time => some (toString time)⟩
  nowUnix := 0
  edited := id
  firstCommit := ⟨none, true⟩
  secondCommit := ⟨none, true⟩
  metaAccount _ := .ok ⟨true, true⟩
  metaMint := .ok (grantDocument "meta" "new")
  kimiHost _ := "https://auth.kimi.com"
  kimiTokens _ := .ok ⟨"new", "", none⟩
  kimiModels := none
  freshClientId := ""
  vertexChanged _ _ := .ok false
  exchange := .ok ⟨"new", none, none, none⟩

def rejectedAccount (provider : String) : RefreshState Document :=
  { member := (AccountMember.new "account" (.generic provider [])).setHealth .authFailed
    credential := grantDocument provider "old"
    disk := ⟨.document (grantDocument provider "old"), none⟩ }

/-- A rejected account of the shared path is routable after its refresh. -/
theorem shared_refresh_revives :
    ∃ after, Runs (willingWorld.refreshWithStore none) (rejectedAccount "acme") true after ∧
      after.member.health ≠ .authFailed ∧ willingWorld.InMemory after := by
  have returned : verdict (willingWorld.refreshWithStore none (rejectedAccount "acme")) =
      some (true, .available) := by decide +kernel
  have shared : willingWorld.pathOf (rejectedAccount "acme") = some .shared := by decide +kernel
  obtain ⟨after, refreshed, _⟩ := runs_of_verdict returned
  obtain ⟨revived, _, inMemory⟩ := (refresh_revives_iff refreshed).mpr fun _ => shared
  exact ⟨after, refreshed, revived, inMemory⟩

/-- Meta and Kimi accounts stay benched although their refresh succeeded. -/
theorem meta_and_kimi_stay_rejected : verdict (willingWorld.refreshWithStore none (rejectedAccount "meta")) =
        some (true, .authFailed) ∧ verdict (willingWorld.refreshWithStore none (rejectedAccount "kimi")) =
        some (true, .authFailed) := by
  decide +kernel

end Mahoquot.Gateway
