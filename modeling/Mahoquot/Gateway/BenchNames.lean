import Mahoquot.Gateway.HealthProperties
import Mahoquot.Gateway.SuccessionProperties

/-! A bench against the names of a model, and against later outcomes. Routing reads benches
by the canonical name, a 429 is filed under the requested or the billed one. Deadlines filed
under a key only grow, the one of the account is overwritten. -/

set_option autoImplicit false

namespace Mahoquot.Gateway
open Library Registry AccountMember

/-- The write can end a withholding: its deadline has passed, or it ends a cooldown. -/
def Write.Frees (member : AccountMember) (nowMs : Int) : Write → Prop
  | .bench untilUnixMs => untilUnixMs ≤ nowMs
  | .expire clock => member.health.isAvailable clock = true
  | .lift => ∃ time, member.health.isAvailable time = true
  | .reject | .extend _ | .raise .. | .unsupported _ => False

/-- No key read for the model is held at the time, and a write of the outcome can free it. -/
def Outcome.Reopens (outcome : Outcome) (member : AccountMember) (model : String) (nowMs : Int) : Prop :=
  (∀ key ∈ member.cooldownKeys model, ¬ member.Held key nowMs) ∧
    ∃ write ∈ outcome.writes member, write.Frees member nowMs

namespace AccountMember
variable {member : AccountMember} {model : String} {nowMs deadline : Int}

theorem offers_iff : member.offers model nowMs = true ↔
    member.health.isAvailable nowMs = true ∧ ∀ key ∈ member.cooldownKeys model, ¬ member.Held key nowMs := by
  rw [offers, Bool.and_eq_true, groupAvailable_iff]

/-- What is offered stays on offer if nothing is written. -/
theorem offers_mono {time : Int} (later : nowMs ≤ time) (offered : member.offers model nowMs = true) :
    member.offers model time = true := by
  rw [offers_iff] at offered ⊢
  refine ⟨?_, fun key read ⟨deadline, filed, early⟩ => offered.2 key read ⟨deadline, filed, by omega⟩⟩
  have admitted := offered.1
  unfold Health.isAvailable at admitted ⊢
  grind

/-- Before its deadline a bench withholds exactly what its scope covers. -/
theorem offers_bench (scope : BenchScope) (early : nowMs < deadline) :
    (member.bench scope deadline).offers model nowMs = true ↔
      ¬ scope.Covers member model ∧ member.offers model nowMs = true := by
  simp only [offers, Bool.and_eq_true]
  cases scope with
  | account =>
    have unavailable : (Health.cooldown deadline).isAvailable nowMs = false := by
      simpa [Health.isAvailable] using early
    simp [bench, setHealth, unavailable, BenchScope.Covers]
  | keys filed =>
    simp only [bench, groupAvailable_raiseCooldowns early]
    rw [member.raiseCooldowns_eq filed deadline]
    tauto

theorem offers_write {write : Write} (withheld : ¬ member.offers model nowMs = true) :
    (member.write write).offers model nowMs = true ↔
      (∀ key ∈ member.cooldownKeys model, ¬ member.Held key nowMs) ∧ write.Frees member nowMs := by
  have read : (member.write write).cooldownKeys model = member.cooldownKeys model := by
    simp only [cooldownKeys, quotaGroupFor_write]
  rw [offers_iff] at withheld
  rw [offers_iff, isAvailable_write, read]
  simp only [held_write, not_or]
  cases write with
  | reject => simp [admitsAfter, Write.Frees]
  | bench | expire | lift =>
    simp only [admitsAfter, Write.Frees, reduceCtorEq, false_and, exists_false, not_false_eq_true, true_and]
    tauto
  | extend | raise | unsupported =>
    simp only [admitsAfter, Write.Frees]
    grind

theorem offers_writes {writes : List Write} (idle : ∀ write ∈ writes, ∀ member nowMs, ¬ write.Frees member nowMs)
    (withheld : ¬ member.offers model nowMs = true) : ¬ (writes.foldl write member).offers model nowMs = true :=
  List.foldlRecOn (motive := fun member : AccountMember => ¬ member.offers model nowMs = true) writes write withheld
    fun _ before write listed offered => idle write listed _ _ ((offers_write before).mp offered).2

end AccountMember

theorem BenchScope.writes_shape (scope : BenchScope) (deadline : Int) : (∃ write, scope.writes deadline = [write]) ∨
    ∀ write ∈ scope.writes deadline, ∀ member nowMs, ¬ write.Frees member nowMs := by
  cases scope with
  | account => exact .inl ⟨_, rfl⟩
  | keys filed => exact .inr (by simp [BenchScope.writes, Write.Frees])

/-- An outcome is a single write, or none of its writes can end a withholding. -/
theorem Outcome.writes_shape (outcome : Outcome) (member : AccountMember) :
    (∃ write, outcome.writes member = [write]) ∨
      ∀ write ∈ outcome.writes member, ∀ member nowMs, ¬ write.Frees member nowMs := by
  cases outcome with
  | served | unsupported | authFailed => exact .inl ⟨_, rfl⟩
  | limited | exhausted => exact BenchScope.writes_shape _ _
  | unpaid body model nowMs =>
    simp only [writes]
    split
    · exact .inr (by simp [creditWrites, BenchScope.writes, Write.Frees])
    · exact .inr (by simp)
  | warmupLimited response model nowUnix =>
    right
    simp only [writes, warmupWrites, List.mem_append]
    rintro write (first | second)
    · split at first <;> simp_all [Write.Frees]
    · split at second <;> simp_all [BenchScope.writes, Write.Frees]
      grind [Write.Frees]
  | released nowUnix =>
    simp only [writes]
    split
    · exact .inl ⟨_, rfl⟩
    · exact .inr (by simp)

namespace AccountMember
variable {member : AccountMember} {model : String} {nowMs : Int}

theorem offers_after (outcome : Outcome) (withheld : ¬ member.offers model nowMs = true) :
    (member.after outcome).offers model nowMs = true ↔ outcome.Reopens member model nowMs := by
  have view : (member.after outcome).offers model nowMs = (member.after outcome).unlabelled.offers model nowMs := rfl
  have blocked : ¬ member.unlabelled.offers model nowMs = true := withheld
  rw [view, unlabelled_after, Outcome.Reopens]
  obtain ⟨write, single⟩ | idle := outcome.writes_shape member
  · rw [single, List.foldl_cons, List.foldl_nil, offers_write blocked]
    simp only [List.mem_singleton, exists_eq_left]
    rfl
  · exact iff_of_false (offers_writes idle blocked) fun ⟨_, write, listed, frees⟩ => idle write listed _ _ frees

/-- Through a run of outcomes the account stays withheld exactly if it was and none reopens it. -/
theorem withheld_run_iff (start : AccountMember) (later : List Outcome) (model : String) (nowMs : Int) :
    (∀ position, ¬ (start.beforeOutcome later position).offers model nowMs = true) ↔
      ¬ start.offers model nowMs = true ∧ ∀ (position : Nat) (outcome : Outcome), later[position]? = some outcome →
        ¬ outcome.Reopens (start.beforeOutcome later position) model nowMs := by
  constructor
  · intro withheld
    refine ⟨withheld 0, fun position outcome found => ?_⟩
    have next := withheld (position + 1)
    rwa [beforeOutcome, stateAt_succ found, ← beforeOutcome, offers_after outcome (withheld position)] at next
  · rintro ⟨initial, closed⟩ position
    refine stateAt_stretch (fun member : AccountMember => ¬ member.offers model nowMs = true) (Nat.zero_le position)
      initial fun position outcome _ _ found withheld => ?_
    rw [offers_after outcome withheld]
    exact closed position outcome found

/-- The account after a 429 and the outcomes before `position` of a run. -/
def sinceLimit (member : AccountMember) (response : Response) (model : String) (nowMs : Int) (later : List Outcome)
    (position : Nat) : AccountMember :=
  (member.after (.limited response (some model) nowMs)).beforeOutcome later position

end AccountMember

namespace PoolSnapshot

/-- The pool after a 429 to the member at `index` and the outcomes before `position` of a run. -/
def afterLimit (pool : PoolSnapshot) (index : Nat) (response : Response) (model : String) (nowMs : Int)
    (later : List Outcome) (position : Nat) : PoolSnapshot :=
  pool.updateMember index fun member => member.sinceLimit response model nowMs later position

/-- No request under a name of the canonical model finds the member eligible
from `start` on, before `deadline`. -/
def WithheldDuring (pool : PoolSnapshot) (index : Nat) (canonical : ModelId) (start deadline : Int) : Prop :=
  ∀ name capability route, pool.resolveRoute (some name) capability = .ok (some route) →
    route.canonicalModel = canonical → ∀ time, start ≤ time → time < deadline →
      ∀ apiKeyBinding scopedKey state,
        index ∉ pool.eligibleIndices (some route) (some name) time apiKeyBinding scopedKey state

/-- Who is eligible is on offer. -/
theorem offers_of_eligible {pool : PoolSnapshot} {index : Nat} {member : AccountMember} {route : ResolvedRoute}
    {name : Option String} {nowMs : Int} {apiKeyBinding : Option ApiKeyBinding} {scopedKey : Option ScopedApiKey}
    {state : AppState} (found : pool.members[index]? = some member)
    (eligible : index ∈ pool.eligibleIndices (some route) name nowMs apiKeyBinding scopedKey state) :
    member.offers route.canonicalModel nowMs = true := by
  obtain ⟨other, same, serves⟩ := mem_eligibleIndices_some.mp eligible
  cases found.symm.trans same
  obtain ⟨⟨admitted, -, available⟩, -⟩ := servingPriority_isSome.mp serves
  simp only [AppState.admitsAccount, Bool.and_eq_true] at admitted
  simp only [offers, Bool.and_eq_true]
  exact ⟨admitted.1.1.1.1.1.1, available⟩

end PoolSnapshot

section Bench
variable (member : AccountMember) (response : Response) (model : String) (nowMs : Int) (later : List Outcome)
  (canonical : ModelId)

/-- The 429 was filed on the account or under a key read for the canonical model, unless the
account is withheld so long anyway, and no later outcome reopens the account. -/
structure Outlasts : Prop where
  covers : (benchScope response member (some model)).Covers member canonical ∨
    ¬ member.offers canonical (benchDeadline response member (some model) nowMs - 1) = true
  closed : ∀ (position : Nat) (outcome : Outcome), later[position]? = some outcome →
    ¬ outcome.Reopens (member.sinceLimit response model nowMs later position) canonical
      (benchDeadline response member (some model) nowMs - 1)

theorem outlasts_iff : Outlasts member response model nowMs later canonical ↔ ∀ position,
    ¬ (member.sinceLimit response model nowMs later position).offers canonical
      (benchDeadline response member (some model) nowMs - 1) = true := by
  have view (time : Int) : (member.after (.limited response (some model) nowMs)).offers canonical time =
      (member.unlabelled.bench (benchScope response member (some model))
        (benchDeadline response member (some model) nowMs)).offers canonical time := by
    rw [← unlabelled_recordCooldown]
    rfl
  have covered := @offers_bench member.unlabelled canonical _ _ (benchScope response member (some model))
    (Int.sub_one_lt_of_le (le_refl (benchDeadline response member (some model) nowMs)))
  unfold sinceLimit
  rw [withheld_run_iff, view, covered, not_and_or, not_not]
  exact ⟨fun outlasts => ⟨outlasts.covers, outlasts.closed⟩, fun ⟨covers, closed⟩ => ⟨covers, closed⟩⟩

end Bench

def subscriptionPool : PoolSnapshot :=
  .new [.new "subscription" (.claude none)] [] claudeCatalog fun _ => false

def subscriptionRoute : ResolvedRoute :=
  ⟨"claude-opus", [], [⟨.new .claude .closed .embeddedFallback, "claude-opus"⟩]⟩

def opusModel : ResolvedModel :=
  ⟨"claude-opus", [.new .claude .closed .embeddedFallback], [], .embeddedFallback⟩

def overageRejection : Response :=
  { status := 429
    headers := [("retry-after", "3600"), ("anthropic-ratelimit-unified-status", "rejected"),
      ("anthropic-ratelimit-unified-representative-claim", "overage"),
      ("anthropic-ratelimit-unified-5h-status", "allowed"),
      ("anthropic-ratelimit-unified-7d-status", "allowed")]
    body := .ok ⟨"", none⟩ }

def rateLimit (retryAfter : String) : Response :=
  { status := 429, headers := [("retry-after", retryAfter)], body := .ok ⟨"", none⟩ }

end Mahoquot.Gateway
