import Mahoquot.Compat.Value
import Mahoquot.Registry.Composition

/-! The settings store. Every operation holds one lock from end to end, so each is one
step here. YAML, the v8 view of a document and what the checks do not read of it are
arguments. -/

set_option autoImplicit false

namespace Mahoquot.Management
open Library Registry Compat

inductive SettingsError where
  | read
  | parse
  | serialise
  | write (reason : String)
  | validation (error : RegistryError)
  | deserialization (message : String)
  | invalidCatalogConfig (message : String)
  | invalidWarmupPolicy (message : String)
  | invalidProxyUrl (message : String)
  | invalidClaudeEgress (account message : String)
  | edit (message : String)
deriving DecidableEq

def SettingsError.text : SettingsError → String
  | .invalidProxyUrl message => "invalid proxy url: " ++ message
  | .deserialization message => "registry validation error: deserialization error: " ++ message
  | _ => ""

structure ProviderProxyPolicy where
  enabled : Bool
  sticky : Bool
  ttlSecs : UInt64
  url : String
deriving DecidableEq

/-- A settings document; `rest` is what no check but that of the registry reads. -/
structure Settings (Rest : Type) where
  authDir : String
  payload : List (String × Value)
  strategy : String
  proxyUrl : String
  proxyProviders : List (String × ProviderProxyPolicy)
  claudeAccountEgress : List (String × String)
  rest : Rest

structure Url where
  scheme : String
  hasHost : Bool
  literalLoopback : Bool

/-- The libraries behind the checks, and how the rest of a document is read for the
registry: its warm-up policies, aliases, exclusions and custom models. -/
structure CheckEnv (Rest : Type) where
  serde : Serde
  parseUrl : String → Except String Url
  qaLoopbackOnly : Bool
  buildClient : Option String → Except String Unit
  buildDevinClient : Option String → Except String Unit
  localSettings : Rest → Except SettingsError LocalSettings

section Checks
variable {Rest : Type} (env : CheckEnv Rest)

/-- One rule of a kind; the errors name the rule by its place. -/
def checkRule (kind : String) (rule : Value) (index : Nat) : Except String Unit := do
  let place := "payload." ++ kind ++ "[" ++ toString index ++ "]"
  if rule.asObject.isNone then throw (place ++ " must be an object")
  match rule.get "params" with
  | none => pure ()
  | some (.array fragments) =>
    if kind ≠ "filter" then throw (place ++ ".params must be an object")
    if fragments.any (·.asStr.isNone) then throw (place ++ ".params entries must be strings")
  | some params =>
    if kind = "filter" || params.asObject.isNone then
      throw (place ++ ".params has invalid type")
  -- the type of the parameters is checked once more behind the fields, and then holds
  for field in ["models", "match", "not-match", "exist", "not-exist"] do
    if (rule.get field).any (·.asArray.isNone) then
      throw (place ++ "." ++ field ++ " must be an array")
  if Text.endsWith "-raw" kind then
    for (path, value) in ((rule.get "params").bind Value.asObject).getD [] do
      unless value.asStr.any (fun raw => (env.serde.fromSlice (utf8 raw)).toBool) do
        throw (place ++ ".params." ++ path ++ " must be a raw JSON string")
  for model in ((rule.get "models").bind Value.asArray).getD [] do
    if model.asObject.isNone || (model.get "name").any (·.asStr.isNone) then
      throw (place ++ ".models entries must be model-rule objects")

def validatePayload (payload : List (String × Value)) : Except String Unit :=
  ["default", "default-raw", "override", "override-raw", "filter"].forM fun kind =>
    match (Value.object payload).get kind with
    | none => .ok ()
    | some (.array rules) => rules.zipIdx.forM fun rule => checkRule env kind rule.1 rule.2
    | some _ => .error ("payload." ++ kind ++ " must be an array")

def normalizeRoutingStrategy (raw : String) : Option String :=
  let text := Text.toAsciiLowercase (Text.trim raw)
  if text ∈ ["", "round-robin", "roundrobin", "rr"] then some "round-robin"
  else if text ∈ ["weighted-round-robin", "weightedroundrobin", "wrr"] then
    some "weighted-round-robin"
  else if text ∈ ["fill-first", "fillfirst", "ff"] then some "fill-first"
  else none

def isDirectOrNone (url : String) : Bool :=
  Text.toAsciiLowercase (Text.trim url) ∈ ["direct", "none", "no_proxy"]

def proxySchemes : List String := ["http", "https", "socks5", "socks5h"]

def validateProxyUrlCandidate (url : String) : Except String Unit := do
  let trimmed := Text.trim url
  if trimmed.isEmpty || isDirectOrNone trimmed then return
  let parsed ← (env.parseUrl trimmed).mapError
    fun error => "invalid proxy URL '" ++ trimmed ++ "': " ++ error
  if parsed.scheme ∉ proxySchemes then
    throw ("unsupported proxy scheme '" ++ parsed.scheme ++ "' in '" ++ trimmed ++ "'")
  if !parsed.hasHost then throw ("proxy URL '" ++ trimmed ++ "' is missing host")
  if env.qaLoopbackOnly && !parsed.literalLoopback then
    throw ("MAHOQUOT_QA_LOOPBACK_ONLY: proxy URL '" ++ trimmed ++ "' is not literal loopback")

def buildHttpClient (proxyUrl : Option String) : Except String Unit := do
  proxyUrl.toList.forM (validateProxyUrlCandidate env)
  env.buildClient (proxyUrl.filter fun url => !(Text.trim url).isEmpty && !isDirectOrNone url)

namespace Settings
variable (settings : Settings Rest)

def validateProxySettings : Except SettingsError Unit := do
  if (normalizeRoutingStrategy settings.strategy).isNone then
    throw (.deserialization ("unsupported routing strategy " ++ settings.strategy.quote))
  if !(Text.trim settings.proxyUrl).isEmpty then
    (validateProxyUrlCandidate env settings.proxyUrl).mapError .invalidProxyUrl
  settings.proxyProviders.forM fun (provider, policy) =>
    if policy.enabled && !(Text.trim policy.url).isEmpty then
      (validateProxyUrlCandidate env policy.url).mapError
        fun error => .invalidProxyUrl (provider ++ ": " ++ error)
    else .ok ()

def validateClaudeEgress : Except SettingsError Unit :=
  settings.claudeAccountEgress.forM fun (account, url) => do
    if (env.parseUrl (Text.trim url)).toOption.all (·.scheme ∉ proxySchemes) then
      throw (.invalidClaudeEgress account "must be an http, https or socks5 URL")
    (buildHttpClient env (some url)).mapError
      fun _ => .invalidClaudeEgress account "proxy client could not be built"

def validateAgainstRegistry (snapshot : RegistrySnapshot) : Except SettingsError RegistrySnapshot := do
  let read ← env.localSettings settings.rest
  (snapshot.composeWithSettings read).mapError .validation

def baseProxyUrl : Option String :=
  let url := Text.trim settings.proxyUrl
  if settings.proxyProviders.any (·.2.enabled) || url.isEmpty || isDirectOrNone url then none
  else some url

end Settings

/-- What requests read of the proxy settings; the clients themselves are left out. -/
structure ProxySnapshot where
  globalProxyUrl : String
  providers : List (String × ProviderProxyPolicy)
deriving DecidableEq

def ProxySnapshot.fromSettings (settings : Settings Rest) : Except SettingsError ProxySnapshot := do
  let failed (client error : String) : SettingsError :=
    .invalidProxyUrl ("failed to build " ++ client ++ " client: " ++ error)
  (settings.validateProxySettings env).mapError
    fun error => .invalidProxyUrl ("invalid proxy settings: " ++ error.text)
  (buildHttpClient env settings.baseProxyUrl).mapError (failed "default")
  (buildHttpClient env none).mapError (failed "direct")
  (env.buildDevinClient settings.baseProxyUrl).mapError (failed "devin default")
  (env.buildDevinClient none).mapError (failed "devin direct")
  return ⟨Text.trim settings.proxyUrl, settings.proxyProviders⟩

end Checks

inductive Mutation where
  | put
  | patch
  | delete

/-- The documents as texts and as v8 values. -/
structure ConfigFormat (Rest : Type) where
  load : String → Except SettingsError (Settings Rest)
  toYaml : Settings Rest → Except SettingsError String
  parse : String → Except SettingsError Value
  normalize : Value → Except SettingsError Value
  preserveManagementSecret : Value → Value → Except SettingsError Value
  preserveTurn : Value → Value → Value
  runtime : Value → Except SettingsError (Settings Rest)
  edit : Value → String → Mutation → Option Value → Bool → Except SettingsError Value
  render : Value → String → Except SettingsError String

structure SettingsDocument (Rest : Type) where
  effective : Settings Rest
  configuredAuthDir : String

namespace SettingsDocument
variable {Rest : Type}

def new (settings : Settings Rest) (authDirFallback : String) : SettingsDocument Rest :=
  ⟨{ settings with
      authDir := if settings.authDir.isEmpty then authDirFallback else settings.authDir },
    settings.authDir⟩

def configured (document : SettingsDocument Rest) : Settings Rest :=
  { document.effective with authDir := document.configuredAuthDir }

end SettingsDocument

/-- The store, its file with the temporary one beside it, and the projections its
publishers keep. `storage` is set with a store manager, and tells whether the manager's
own copy is the file. -/
structure SettingsStore (Rest : Type) where
  document : SettingsDocument Rest
  authDirFallback : String
  hasPath : Bool
  storage : Option Bool
  file : Option String
  temp : Option String
  proxy : Option ProxySnapshot
  registry : Option RegistrySnapshot

/-- The registry in force at a call, how the steps of a write end, with what a failed
one leaves in the temporary file, and whether the pool takes the registry. A put may fail
when its own copy is already replaced. -/
structure Circumstances where
  active : RegistrySnapshot
  put : Except SettingsError Unit
  spooled : Bool
  writeTemp : Except SettingsError Unit
  leftover : Option String
  rename : Except SettingsError Unit
  poolAccepts : Bool

/-- A document that passed the checks, with what is published beside it. -/
structure Candidate (Rest : Type) where
  document : SettingsDocument Rest
  proxy : ProxySnapshot
  registry : RegistrySnapshot

namespace SettingsStore
variable {Rest : Type} (env : CheckEnv Rest) (format : ConfigFormat Rest)
  (now : Circumstances) (store : SettingsStore Rest)

/-- What is to be written: with the manager, if there is one, or by the settings alone. -/
inductive Writing where
  | nothing
  | bytes (text : String)
  | settings (text : String)

/-- Through a temporary file, which only the store itself removes when it was not
written whole. -/
def writeAtomically (removes : Bool) (text : String) : Except SettingsError Unit × SettingsStore Rest :=
  match now.writeTemp with
  | .error error => (.error error, { store with temp := if removes then none else now.leftover })
  | .ok () =>
    match now.rename with
    | .error error => (.error error, { store with temp := none })
    | .ok () => (.ok (), { store with file := some text, temp := none })

def persistBytes (text : String) : Except SettingsError Unit × SettingsStore Rest :=
  match store.storage with
  | none => store.writeAtomically now true text
  | some keepsFile =>
    match now.put with
    | .error error => (.error error, if keepsFile && now.spooled then { store with file := some text } else store)
    | .ok () =>
      if keepsFile then (.ok (), { store with file := some text })
      else store.writeAtomically now true text

def write : Writing → Except SettingsError Unit × SettingsStore Rest
  | .nothing => (.ok (), store)
  | .bytes text => store.persistBytes now text
  | .settings text => store.writeAtomically now false text

def publish (candidate : Candidate Rest) : SettingsStore Rest :=
  { store with
    document := candidate.document
    proxy := some candidate.proxy
    registry := if now.poolAccepts then some candidate.registry else store.registry }

def reloadCandidate : Except SettingsError (Candidate Rest) := do
  let some text := store.file | throw .read
  let settings ← format.load text
  settings.validateClaudeEgress env
  let document := SettingsDocument.new settings store.authDirFallback
  document.effective.validateProxySettings env
  let proxy ← ProxySnapshot.fromSettings env document.effective
  let registry ← document.effective.validateAgainstRegistry env now.active
  .ok ⟨document, proxy, registry⟩

def mutateCandidate (edit : Settings Rest → Except String (Settings Rest)) :
    Except SettingsError (Candidate Rest × Writing) := do
  let next ← (edit store.document.configured).mapError .edit
  let document := SettingsDocument.new next store.authDirFallback
  (validatePayload env document.effective.payload).mapError .deserialization
  document.effective.validateProxySettings env
  document.effective.validateClaudeEgress env
  let registry ← document.effective.validateAgainstRegistry env now.active
  let proxy ← ProxySnapshot.fromSettings env document.effective
  let text ← format.toYaml document.configured
  .ok (⟨document, proxy, registry⟩,
    if store.storage.isSome then .bytes text else .settings text)

/-- A change of the v8 document: by a text in its place, or at a path of it. -/
structure V8Request where
  path : String
  mutation : Mutation
  update : Option Value
  strict : Bool
  raw : Option String

def v8Updated (request : V8Request) : Except SettingsError (String × Value) := do
  let rawCurrent ← format.toYaml store.document.configured
  let root ← format.normalize (← format.parse rawCurrent)
  match request.raw.filter fun raw => !(Text.trim raw).isEmpty with
  | some raw =>
    let submitted ← format.normalize (← format.parse raw)
    let submitted ← format.preserveManagementSecret submitted root
    let submitted := format.preserveTurn submitted root
    discard (format.runtime submitted)
    return (rawCurrent, submitted)
  | none => return (rawCurrent, ← format.edit root request.path request.mutation request.update request.strict)

/-- The v8 document is rendered over the operator's text, so that its comments and its
order survive. -/
def v8Writing (rawCurrent : String) (updated : Value) (configured : Settings Rest) : Except SettingsError Writing := do
  let onDisk := if store.hasPath then store.file.filter fun text => !(Text.trim text).isEmpty
    else none
  let rendered ← format.render updated (onDisk.getD rawCurrent)
  discard (format.parse rendered >>= format.normalize)
  if !store.hasPath then return .nothing
  else if onDisk.isSome || store.storage.isSome then return .bytes rendered
  else return .settings (← format.toYaml configured)

def v8Candidate (request : V8Request) : Except SettingsError (Candidate Rest × Writing) := do
  let (rawCurrent, updated) ← store.v8Updated format request
  let next ← format.runtime updated
  (validatePayload env next.payload).mapError .deserialization
  (next.validateProxySettings env).mapError fun error => .deserialization error.text
  let document := SettingsDocument.new next store.authDirFallback
  document.effective.validateClaudeEgress env
  let registry ← document.effective.validateAgainstRegistry env now.active
  let proxy ← ProxySnapshot.fromSettings env document.effective
  let writing ← store.v8Writing format rawCurrent updated document.configured
  .ok (⟨document, proxy, registry⟩, writing)

def homeCandidate (next : Settings Rest) : Except SettingsError (Candidate Rest) := do
  let kept := if next.authDir.isEmpty then store.document.configured.authDir else next.authDir
  let document := SettingsDocument.new { next with authDir := kept } store.authDirFallback
  (validatePayload env document.effective.payload).mapError .deserialization
  document.effective.validateProxySettings env
  let registry ← document.effective.validateAgainstRegistry env now.active
  let proxy ← ProxySnapshot.fromSettings env document.effective
  .ok ⟨document, proxy, registry⟩

inductive Operation (Rest : Type) where
  | reload
  | tryMutate (edit : Settings Rest → Except String (Settings Rest))
  | mutateV8 (request : V8Request)
  | applyHome (next : Settings Rest)

/-- What an operation is to publish and to write. -/
def candidate : Operation Rest → Except SettingsError (Candidate Rest × Writing)
  | .reload => (·, .nothing) <$> store.reloadCandidate env format now
  | .tryMutate edit => store.mutateCandidate env format now edit
  | .mutateV8 request => store.v8Candidate env format now request
  | .applyHome next => (·, .nothing) <$> store.homeCandidate env now next

def perform (operation : Operation Rest) : Except SettingsError Unit × SettingsStore Rest :=
  match store.candidate env format now operation with
  | .error error => (.error error, store)
  | .ok (candidate, writing) =>
    match store.write now writing with
    | (.error error, after) => (.error error, after)
    | (.ok (), after) => (.ok (), after.publish now candidate)

structure Call (Rest : Type) where
  operation : Operation Rest
  now : Circumstances

def run (calls : List (Call Rest)) : SettingsStore Rest :=
  calls.foldl (fun store call => (store.perform env format call.now call.operation).2) store

end SettingsStore
end Mahoquot.Management
