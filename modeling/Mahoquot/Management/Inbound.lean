import Mathlib.Data.List.Forall2

/-! Who a relayed request is served as, and what becomes of a credential when its scoped
key is lost. Master keys come from the start of the gateway and from the settings document;
scoped keys only from the document, as the digest of the credential. -/

set_option autoImplicit false

namespace Mahoquot.Management
open List

/-- A delegated key as the settings document keeps it; times are milliseconds. -/
structure ScopedApiKey where
  id : String
  keyIdentifier : String
  tokenLimit : UInt64
  tokenUsed : UInt64
  isActive : Bool
  expiresAtMs : Option Int
deriving DecidableEq, Repr

def ScopedApiKey.isUsableAt (key : ScopedApiKey) (nowMs : Int) : Bool :=
  key.isActive && key.expiresAtMs.all (fun ends => decide (nowMs < ends))

inductive AuthIdentity where
  | unrestricted
  | master
  | scoped (key : ScopedApiKey)
deriving DecidableEq, Repr

/-- The part of the settings document that decides on a presented credential. -/
structure KeySettings where
  apiKeys : List String
  scopedApiKeys : List ScopedApiKey
deriving DecidableEq, Repr

structure ApiKeys where
  overrides : List String
  settings : Option KeySettings
deriving DecidableEq, Repr

namespace ApiKeys

def liveKeys (keys : ApiKeys) : List String :=
  (keys.settings.map KeySettings.apiKeys).getD []

def scopedKeys (keys : ApiKeys) : List ScopedApiKey :=
  (keys.settings.map KeySettings.scopedApiKeys).getD []

def isEmpty (keys : ApiKeys) : Bool :=
  keys.overrides.isEmpty && keys.liveKeys.isEmpty

def accepts (keys : ApiKeys) (presented : String) : Bool :=
  keys.overrides.any (· == presented) || keys.liveKeys.any (· == presented)

variable (identify : String → String)

/-- The first scoped key of the credential that may be used now; `identify` is the
hexadecimal digest of a credential. -/
def usableKey (keys : ApiKeys) (presented : String) (nowMs : Int) : Option ScopedApiKey :=
  keys.scopedKeys.find? fun key =>
    key.keyIdentifier == identify presented && key.isUsableAt nowMs

def authorizes (keys : ApiKeys) (presented : Option String) (nowMs : Int) : Option AuthIdentity :=
  if keys.isEmpty then
    -- Without a master key the gateway is open to every credential.
    match presented.bind (fun credential => usableKey identify keys credential nowMs) with
    | some key => some (.scoped key)
    | none => some .master
  else
    match presented with
    | none => none
    | some credential =>
      if keys.accepts credential then some .master
      else if keys.scopedKeys.isEmpty then none
      else (usableKey identify keys credential nowMs).map .scoped

/-- The same keys with every scoped key of the credential switched off. -/
def disable (keys : ApiKeys) (credential : String) : ApiKeys :=
  { keys with
    settings := keys.settings.map fun settings =>
      { settings with
        scopedApiKeys := settings.scopedApiKeys.map fun key =>
          if key.keyIdentifier = identify credential then { key with isActive := false }
          else key } }

/-- Some scoped keys of the credential are switched off; nothing else differs. -/
def Disables (credential : String) (before after : ApiKeys) : Prop :=
  before.overrides = after.overrides ∧
  before.liveKeys = after.liveKeys ∧
  Forall₂
    (fun old new => new = old ∨ (old.keyIdentifier = identify credential ∧ new = { old with isActive := false }))
    before.scopedKeys after.scopedKeys

/-- A credential is served as one of its own scoped keys that may be used at the time,
or not at all. -/
def ServedAsScoped (keys : ApiKeys) (credential : String) (nowMs : Int) : Prop :=
  (∃ key ∈ keys.scopedKeys, key.keyIdentifier = identify credential ∧ key.isUsableAt nowMs = true ∧
    authorizes identify keys (some credential) nowMs = some (.scoped key)) ∨
  (authorizes identify keys (some credential) nowMs = none ∧
    ∀ key ∈ keys.scopedKeys, key.keyIdentifier = identify credential →
      key.isUsableAt nowMs = false)

/-- Losing the scoped keys of a credential never gives it more than they did. -/
def NeverWidens (keys : ApiKeys) (credential : String) : Prop :=
  (∀ nowMs, ServedAsScoped identify keys credential nowMs) ∧
  ∀ after, Disables identify credential keys after →
    ∀ nowMs, authorizes identify after (some credential) nowMs ≠ some .master

variable {identify : String → String} {keys after : ApiKeys} {credential : String}

theorem isEmpty_of_disables (disabled : Disables identify credential keys after) : after.isEmpty = keys.isEmpty := by
  obtain ⟨overrides, live, -⟩ := disabled
  unfold isEmpty
  rw [overrides, live]

theorem accepts_of_disables (disabled : Disables identify credential keys after) :
    after.accepts credential = keys.accepts credential := by
  obtain ⟨overrides, live, -⟩ := disabled
  unfold accepts
  rw [overrides, live]

theorem usableKey_eq_some {nowMs : Int} {key : ScopedApiKey}
    (found : usableKey identify keys credential nowMs = some key) :
    key ∈ keys.scopedKeys ∧ key.keyIdentifier = identify credential ∧ key.isUsableAt nowMs = true := by
  have chosen := find?_some found
  rw [Bool.and_eq_true, beq_iff_eq] at chosen
  exact ⟨mem_of_find?_eq_some found, chosen⟩

theorem usableKey_eq_none {nowMs : Int} (missing : usableKey identify keys credential nowMs = none)
    (key : ScopedApiKey) (member : key ∈ keys.scopedKeys) (own : key.keyIdentifier = identify credential) :
    key.isUsableAt nowMs = false := by
  have passed := find?_eq_none.mp missing key member
  simpa [own] using passed

/-- With a master key configured, a credential that is none of them is looked up among
the scoped keys and nowhere else. -/
theorem authorizes_of_master_configured (configured : keys.isEmpty = false)
    (noMaster : keys.accepts credential = false) (nowMs : Int) : authorizes identify keys (some credential) nowMs =
      (usableKey identify keys credential nowMs).map .scoped := by
  unfold authorizes
  cases bare : keys.scopedKeys.isEmpty with
  | false => simp [configured, noMaster]
  | true =>
    have nil : keys.scopedKeys = [] := isEmpty_iff.mp bare
    simp [configured, noMaster, usableKey, nil]

theorem servedAsScoped_of_master_configured (configured : keys.isEmpty = false)
    (noMaster : keys.accepts credential = false) (nowMs : Int) : ServedAsScoped identify keys credential nowMs := by
  have lookup : authorizes identify keys (some credential) nowMs =
      (usableKey identify keys credential nowMs).map .scoped :=
    authorizes_of_master_configured configured noMaster nowMs
  cases found : usableKey identify keys credential nowMs with
  | some key =>
    obtain ⟨member, own, usable⟩ := usableKey_eq_some found
    rw [found] at lookup
    exact .inl ⟨key, member, own, usable, lookup⟩
  | none =>
    rw [found] at lookup
    exact .inr ⟨lookup, usableKey_eq_none found⟩

theorem disables_disable (identify : String → String) (keys : ApiKeys) (credential : String) :
    Disables identify credential keys (keys.disable identify credential) := by
  refine ⟨rfl, ?_, ?_⟩
  · cases settings : keys.settings with
    | none | some => simp [disable, liveKeys, settings]
  · cases settings : keys.settings with
    | none => simp [disable, scopedKeys, settings]
    | some document =>
      simp only [disable, scopedKeys, settings, Option.map_some, Option.getD_some]
      rw [forall₂_map_right_iff]
      apply forall₂_same.mpr
      intro key _
      by_cases own : key.keyIdentifier = identify credential
      · exact .inr ⟨own, if_pos own⟩
      · exact .inl (if_neg own)

/-- Once its keys are switched off no time makes one of them usable again. -/
theorem usableKey_disable (identify : String → String) (keys : ApiKeys) (credential : String) (nowMs : Int) :
    usableKey identify (keys.disable identify credential) credential nowMs = none := by
  apply find?_eq_none.mpr
  cases settings : keys.settings with
  | none => simp [disable, scopedKeys, settings]
  | some document =>
    intro key member
    simp only [disable, scopedKeys, settings, Option.map_some, Option.getD_some, mem_map] at member
    obtain ⟨old, -, rfl⟩ := member
    by_cases own : old.keyIdentifier = identify credential
    · simp [own, ScopedApiKey.isUsableAt]
    · simp [own]

theorem authorizes_disable_of_open (unconfigured : keys.isEmpty = true) (nowMs : Int) :
    authorizes identify (keys.disable identify credential) (some credential) nowMs = some .master := by
  have stillOpen : (keys.disable identify credential).isEmpty = true := by
    rw [isEmpty_of_disables (disables_disable identify keys credential)]
    exact unconfigured
  unfold authorizes
  rw [stillOpen]
  simp [usableKey_disable]

/-- A lost scoped key gives its credential no more authority exactly when some master key
is configured: without one the gateway is open, and serves the credential as master. -/
theorem lost_key_never_widens_iff (identify : String → String) (keys : ApiKeys)
    (credential : String) (noMaster : keys.accepts credential = false) :
    NeverWidens identify keys credential ↔ keys.isEmpty = false := by
  constructor
  · intro guarded
    by_contra unconfigured
    rw [Bool.not_eq_false] at unconfigured
    exact guarded.2 _ (disables_disable identify keys credential) 0 (authorizes_disable_of_open unconfigured 0)
  · intro master
    refine ⟨servedAsScoped_of_master_configured master noMaster, ?_⟩
    intro after disabled nowMs widened
    rw [authorizes_of_master_configured ((isEmpty_of_disables disabled).trans master)
      ((accepts_of_disables disabled).trans noMaster)] at widened
    cases found : usableKey identify after credential nowMs with
    | none => simp [found] at widened
    | some key => simp [found] at widened

namespace InboundSample

def delegated : ScopedApiKey := ⟨"k1", "id:guest", 1000, 0, true, some 500⟩

def masterKeys : ApiKeys := ⟨[], some ⟨["root"], [delegated]⟩⟩

def openKeys : ApiKeys := ⟨[], some ⟨[], [delegated]⟩⟩

def digest (credential : String) : String := "id:" ++ credential

theorem guest_beside_master_key : NeverWidens digest masterKeys "guest" ↔ masterKeys.isEmpty = false :=
  lost_key_never_widens_iff digest masterKeys "guest" (by decide)

/-- At 499 the guest is served within its limits, from 500 on as master. -/
theorem expired_guest_is_master : authorizes digest openKeys (some "guest") 499 = some (.scoped delegated) ∧
    authorizes digest openKeys (some "guest") 500 = some .master ∧ openKeys.accepts "guest" = false ∧
    ¬ NeverWidens digest openKeys "guest" := by
  refine ⟨by decide, by decide, by decide, ?_⟩
  intro guarded
  rcases guarded.1 500 with ⟨key, _, _, _, served⟩ | ⟨rejected, _⟩
  · cases served
  · cases rejected

end InboundSample
end ApiKeys

end Mahoquot.Management
