import Mahoquot.Gateway.AccretionProperties
import Mahoquot.Registry.CompositionProperties
import Mahoquot.Runtime.State

/-! What is published after a history of operations, against what a process
that starts afresh from the same catalog and accounts would publish. -/

set_option autoImplicit false

namespace Mahoquot.Runtime
open Library Registry Gateway

inductive Operation where
  | reloadAccounts (members : List RuntimeMember)
  | updateRegistry (next : RegistrySnapshot)
  | triggerCoalescedRefresh
  | publishDevinMemberCatalog (revision : String → String) (targetId targetRevision : String)
      (newCatalog : DevinCatalog)

namespace Operation
variable (state : UnifiedRuntimeState)

def run : Operation → Option RuntimeComposition × UnifiedRuntimeState
  | reloadAccounts members =>
    let outcome := state.reloadAccounts members
    (outcome.1.toOption, outcome.2)
  | updateRegistry next =>
    let outcome := state.updateRegistry next
    (outcome.1.toOption, outcome.2)
  | triggerCoalescedRefresh =>
    let outcome := state.triggerCoalescedRefresh
    (outcome.1.toOption, outcome.2)
  | publishDevinMemberCatalog revision targetId targetRevision newCatalog =>
    let outcome := state.publishDevinMemberCatalog revision targetId targetRevision newCatalog
    (outcome.1.toOption, outcome.2)

def base : Operation → RegistrySnapshot
  | reloadAccounts _ | triggerCoalescedRefresh => state.baseRegistry
  | updateRegistry next => next
  | publishDevinMemberCatalog _ _ _ _ => state.pool.pool.registry

def catalogAfter (catalog : RegistrySnapshot) : Operation → RegistrySnapshot
  | updateRegistry next => next
  | _ => catalog

/-- An operation leaves the published pool alone, or publishes a candidate over
its base. -/
theorem run_cases (operation : Operation) : (∃ seq, operation.run state = (none, { state with generationSeq := seq })) ∨
      ∃ published registry created generation members, operation.run state = (some published, { state with
            pool := published, generationSeq := generation, baseRegistry := registry }) ∧
        computeCandidateCompositionWithCreated state.env generation members
          (operation.base state) created = .ok published := by
  cases operation with
  | reloadAccounts | updateRegistry | triggerCoalescedRefresh =>
    simp only [run, UnifiedRuntimeState.reloadAccounts, UnifiedRuntimeState.updateRegistry,
      UnifiedRuntimeState.updateRegistryWithCreatedAndCommit, UnifiedRuntimeState.triggerCoalescedRefresh]
    split
    · exact .inl ⟨_, rfl⟩
    next candidate composed => exact .inr ⟨candidate, _, _, _, _, rfl, composed⟩
  | publishDevinMemberCatalog =>
    simp only [run, UnifiedRuntimeState.publishDevinMemberCatalog]
    split
    · exact .inl ⟨_, rfl⟩
    · split
      · exact .inl ⟨_, rfl⟩
      · split
        · exact .inl ⟨_, rfl⟩
        next candidate composed => exact .inr ⟨candidate, _, _, _, _, rfl, composed⟩

end Operation

/-- An operation after whatever the accounts went through in place: refreshed
tokens, cooldowns, the models that Antigravity lists. -/
structure HistoryStep where
  observed : RuntimeMember → RuntimeMember
  operation : Operation

/-- A runtime with the inputs of what it last published: the catalog in force
and the accounts as they were. -/
structure History where
  runtime : UnifiedRuntimeState
  catalog : RegistrySnapshot
  accounts : List RuntimeMember

namespace History
open UnifiedRuntimeState

def start (runtime : UnifiedRuntimeState) (catalog : RegistrySnapshot) : History :=
  ⟨runtime, catalog, runtime.pool.members⟩

variable (history : History)

def before (step : HistoryStep) : UnifiedRuntimeState :=
  { history.runtime with
    pool := { history.runtime.pool with
      members := history.runtime.pool.members.map step.observed } }

def next (step : HistoryStep) : History :=
  match step.operation.run (history.before step) with
  | (none, runtime) => { history with runtime }
  | (some published, runtime) => ⟨runtime, step.operation.catalogAfter history.catalog, published.members⟩

def run (steps : List HistoryStep) : History :=
  steps.foldl next history

/-- A process that starts from these inputs publishes the same pool. -/
def LikeFreshStart : Prop :=
  ∃ fresh, boot history.runtime.env history.accounts history.catalog
      history.runtime.pool.modelsCreatedUnix = .ok fresh ∧
    fresh.pool.pool = history.runtime.pool.pool

/-- The base holds the catalog and no more than a fresh start publishes, the
discovered Antigravity models apart. -/
structure Residueless (catalog base published : RegistrySnapshot) : Prop where
  kept : dropDiscoveredAntigravity catalog ≤ dropDiscoveredAntigravity base
  added : dropDiscoveredAntigravity base ≤ published
  unchained : ∀ (id : ModelId) (rule : ModelAliasRule), catalog.aliases[id]? = some rule →
    rule.target ∈ base.aliases → rule.target ∈ catalog.aliases

/-- If the step publishes, it composes over a base without residue. -/
def Clean (step : HistoryStep) : Prop :=
  ∀ published runtime, step.operation.run (history.before step) = (some published, runtime) →
    ∃ fresh, boot history.runtime.env published.members
        (step.operation.catalogAfter history.catalog) published.modelsCreatedUnix = .ok fresh ∧
      Residueless (step.operation.catalogAfter history.catalog)
        (step.operation.base (history.before step)) fresh.pool.pool.registry

def CleanAlong (history : History) : List HistoryStep → Prop
  | [] => True
  | step :: steps => history.Clean step ∧ (history.next step).CleanAlong steps

variable {env : RuntimeEnv} {members : List RuntimeMember} {created : Int} {history : History}

theorem candidate_eq_ok {generation : Nat} {registry : RegistrySnapshot} {composition : RuntimeComposition} :
    computeCandidateCompositionWithCreated env generation members registry created = .ok composition ↔
      computeCandidateComposition (members.map RuntimeMember.view) registry env.modelsEnv
          env.isAntigravityModel = .ok composition.pool ∧
        composition = ⟨generation, members, composition.pool, created⟩ := by
  unfold computeCandidateCompositionWithCreated
  rw [bind_eq_ok]
  constructor
  · rintro ⟨pool, composed, made⟩
    cases made
    exact ⟨composed, rfl⟩
  · rintro ⟨composed, made⟩
    exact ⟨composition.pool, composed, by rw [← made]⟩

theorem boot_eq_ok {catalog : RegistrySnapshot} {state : UnifiedRuntimeState} :
    boot env members catalog created = .ok state ↔
      ∃ pool, computeCandidateComposition (members.map RuntimeMember.view) catalog env.modelsEnv
          env.isAntigravityModel = .ok pool ∧ state = .new env ⟨1, members, pool, created⟩ := by
  unfold boot
  rw [bind_eq_ok]
  constructor
  · rintro ⟨candidate, composed, made⟩
    obtain ⟨composed, shape⟩ := candidate_eq_ok.mp composed
    cases made
    exact ⟨candidate.pool, composed, by rw [← shape]⟩
  · rintro ⟨pool, composed, rfl⟩
    exact ⟨_, candidate_eq_ok.mpr ⟨composed, rfl⟩, rfl⟩

theorem likeFreshStart_start {catalog : RegistrySnapshot} {state : UnifiedRuntimeState}
    (booted : boot env members catalog created = .ok state) :
    (start state catalog).LikeFreshStart := by
  obtain ⟨pool, composed, rfl⟩ := boot_eq_ok.mp booted
  exact ⟨_, booted, rfl⟩

theorem LikeFreshStart.next {step : HistoryStep} (like : history.LikeFreshStart)
    (clean : history.Clean step) : (history.next step).LikeFreshStart := by
  obtain ⟨seq, kept⟩ | ⟨published, registry, created, generation, members, ran, composed⟩ :=
    step.operation.run_cases (history.before step)
  · unfold History.next
    rw [kept]
    exact like
  · obtain ⟨fresh, booted, residueless⟩ := clean published _ ran
    obtain ⟨composed, shape⟩ := candidate_eq_ok.mp composed
    have held : published.members = members := by rw [shape]
    unfold History.next
    rw [ran]
    refine ⟨fresh, booted, ?_⟩
    obtain ⟨pool, freshly, rfl⟩ := boot_eq_ok.mp booted
    rw [← held] at composed
    exact (candidate_eq_of_between freshly composed residueless.kept residueless.added residueless.unchained).symm

theorem LikeFreshStart.run {steps : List HistoryStep} (like : history.LikeFreshStart)
    (clean : history.CleanAlong steps) : (history.run steps).LikeFreshStart := by
  induction steps generalizing history with
  | nil => exact like
  | cons step steps ih =>
    obtain ⟨here, later⟩ := clean
    exact ih (like.next here) later

theorem clean_of_base_eq {step : HistoryStep} (same : step.operation.base (history.before step) =
      step.operation.catalogAfter history.catalog) : history.Clean step := by
  intro published runtime publishes
  obtain ⟨seq, kept⟩ | ⟨_, registry, created, generation, members, ran, composed⟩ :=
    step.operation.run_cases (history.before step)
  · rw [kept] at publishes
    cases publishes
  · cases ran.symm.trans publishes
    obtain ⟨composed, shape⟩ := candidate_eq_ok.mp composed
    have held : published.members = members := by rw [shape]
    rw [same, ← held] at composed
    refine ⟨_, boot_eq_ok.mpr ⟨published.pool, composed, rfl⟩, ?_⟩
    rw [same]
    exact ⟨le_refl _, dropped_le_published composed, fun _ _ _ known => known⟩

/-- As long as nothing of an earlier publication is left in the base of the
next one, the history does not show in what is published. -/
theorem published_like_fresh_start {env : RuntimeEnv} {members : List RuntimeMember}
    {catalog : RegistrySnapshot} {created : Int} {state : UnifiedRuntimeState} {steps : List HistoryStep}
    (booted : boot env members catalog created = .ok state)
    (clean : (start state catalog).CleanAlong steps) : ((start state catalog).run steps).LikeFreshStart :=
  (likeFreshStart_start booted).run clean

def plainEnv : RuntimeEnv := ⟨none, fun _ => false⟩

def alphaCatalog : RegistrySnapshot :=
  .codexCatalog [RegistrySnapshot.boundModel "alpha" .codex] []

def acmeMember : RuntimeMember := ⟨.new "acme" (.generic "acme" ["beta"]), none⟩

def listsBeta (state : UnifiedRuntimeState) : Bool :=
  state.pool.pool.registry.models.contains "beta"

/-- After an update to the catalog, an account can leave without a trace. -/
theorem updated_then_removed_like_fresh_start : ∃ state, boot plainEnv [acmeMember] alphaCatalog 0 = .ok state ∧
      ((start state alphaCatalog).run [⟨id, .updateRegistry alphaCatalog⟩,
        ⟨id, .reloadAccounts []⟩]).LikeFreshStart := by
  obtain ⟨state, booted, -⟩ : ∃ state,
      boot plainEnv [acmeMember] alphaCatalog 0 = .ok state ∧
        listsBeta state := toOption_any (by decide +kernel)
  refine ⟨state, booted, published_like_fresh_start booted ⟨clean_of_base_eq rfl, ?_, trivial⟩⟩
  obtain ⟨pool, composed, rfl⟩ := boot_eq_ok.mp booted
  -- The update composes as the boot did, so it publishes and the base is the catalog.
  have again : computeCandidateCompositionWithCreated plainEnv (1 + 1) [acmeMember] alphaCatalog
      0 = .ok ⟨1 + 1, [acmeMember], pool, 0⟩ := candidate_eq_ok.mpr ⟨composed, rfl⟩
  apply clean_of_base_eq
  simp only [next, start, before, Operation.run, updateRegistry, updateRegistryWithCreatedAndCommit,
    candidate, new, List.map_id, again]
  rfl

theorem catalog_run_reload (state : UnifiedRuntimeState) (catalog : RegistrySnapshot) (members : List RuntimeMember) :
    ((start state catalog).run [⟨id, .reloadAccounts members⟩]).catalog = catalog ∧
      ((start state catalog).run [⟨id, .reloadAccounts members⟩]).runtime.env = state.env := by
  simp only [run, List.foldl_cons, next, Operation.run, reloadAccounts]
  cases (candidate _ members _ _) with
  | error error => exact ⟨rfl, rfl⟩
  | ok candidate => exact ⟨rfl, rfl⟩

/-- The base of a booted process holds what its accounts contributed, so it is
still published when they are gone. -/
theorem removed_account_stays_published : ∃ state, boot plainEnv [acmeMember] alphaCatalog 0 = .ok state ∧
      ((start state alphaCatalog).run [⟨id, .reloadAccounts []⟩]).accounts = [] ∧
      listsBeta ((start state alphaCatalog).run [⟨id, .reloadAccounts []⟩]).runtime ∧
      ¬ ((start state alphaCatalog).run [⟨id, .reloadAccounts []⟩]).LikeFreshStart := by
  obtain ⟨state, booted, left⟩ : ∃ state,
      boot plainEnv [acmeMember] alphaCatalog 0 = .ok state ∧
        (((start state alphaCatalog).run [⟨id, .reloadAccounts []⟩]).accounts.isEmpty &&
          listsBeta ((start state alphaCatalog).run [⟨id, .reloadAccounts []⟩]).runtime) :=
    toOption_any (by decide +kernel)
  rw [Bool.and_eq_true, List.isEmpty_iff] at left
  obtain ⟨gone, listed⟩ := left
  refine ⟨state, booted, gone, listed, ?_⟩
  rintro ⟨fresh, freshly, same⟩
  have environment : state.env = plainEnv := by
    obtain ⟨pool, -, rfl⟩ := boot_eq_ok.mp booted
    rfl
  obtain ⟨catalog, env⟩ := catalog_run_reload state alphaCatalog []
  rw [gone, catalog, env, environment] at freshly
  obtain ⟨pool, composed, rfl⟩ := boot_eq_ok.mp freshly
  have unlisted : (computeCandidateComposition [] alphaCatalog none fun _ => false).toOption.all
      fun pool => !pool.registry.models.contains "beta" := by decide +kernel
  have unlisted : (!pool.registry.models.contains "beta") = true := by
    have same : computeCandidateComposition [] alphaCatalog none (fun _ => false) = .ok pool := composed
    rw [same] at unlisted
    exact unlisted
  unfold listsBeta at listed
  rw [← same] at listed
  rw [show pool.registry.models.contains "beta" = true from listed] at unlisted
  cases unlisted

end History
end Mahoquot.Runtime
