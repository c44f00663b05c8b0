import Mahoquot.Management.SettingsStore

/-! What the settings store publishes and writes, over every sequence of operations. -/

set_option autoImplicit false

namespace Mahoquot.Management.SettingsStore
open Library Registry Compat
variable {writing : Writing}

variable {Rest : Type} (env : CheckEnv Rest) (format : ConfigFormat Rest)

section Checks

/-- The checks of a document that every operation makes. -/
def Served (active : RegistrySnapshot) (settings : Settings Rest) : Prop :=
  settings.validateProxySettings env = .ok () ∧
    (∃ proxy, ProxySnapshot.fromSettings env settings = .ok proxy) ∧
    ∃ registry, settings.validateAgainstRegistry env active = .ok registry

def Checked (active : RegistrySnapshot) (settings : Settings Rest) : Prop :=
  validatePayload env settings.payload = .ok () ∧
    settings.validateClaudeEgress env = .ok () ∧
    settings.validateProxySettings env = .ok () ∧
    ∃ registry, settings.validateAgainstRegistry env active = .ok registry

variable {env format} {now : Circumstances} {store : SettingsStore Rest}

variable {candidate : Candidate Rest}

theorem reloadCandidate_eq_ok : store.reloadCandidate env format now = .ok candidate ↔
      ∃ text settings, store.file = some text ∧ format.load text = .ok settings ∧
        settings.validateClaudeEgress env = .ok () ∧ settings.validateProxySettings env = .ok () ∧
        ∃ proxy, ProxySnapshot.fromSettings env settings = .ok proxy ∧
        ∃ registry, settings.validateAgainstRegistry env now.active = .ok registry ∧
          ⟨.new settings store.authDirFallback, proxy, registry⟩ = candidate := by
  unfold reloadCandidate
  cases store.file with
  | none => exact iff_of_false nofun (by simp)
  | some text =>
    simp only [bind_eq_ok]
    constructor
    · rintro ⟨settings, loaded, ⟨⟩, egress, ⟨⟩, sound, proxy, built, registry, composed, same⟩
      exact ⟨text, settings, rfl, loaded, egress, sound, proxy, built, registry, composed, Except.ok.inj same⟩
    · rintro ⟨_, settings, ⟨⟩, loaded, egress, sound, proxy, built, registry, composed, rfl⟩
      exact ⟨settings, loaded, (), egress, (), sound, proxy, built, registry, composed, rfl⟩

theorem homeCandidate_eq_ok {next : Settings Rest} : store.homeCandidate env now next = .ok candidate ↔
      validatePayload env next.payload = .ok () ∧ next.validateProxySettings env = .ok () ∧
        ∃ registry, next.validateAgainstRegistry env now.active = .ok registry ∧
        ∃ proxy, ProxySnapshot.fromSettings env next = .ok proxy ∧
          ⟨.new { next with authDir := if next.authDir.isEmpty then
            store.document.configured.authDir else next.authDir } store.authDirFallback,
            proxy, registry⟩ = candidate := by
  simp only [homeCandidate, bind_eq_ok, mapError_eq_ok]
  constructor
  · rintro ⟨⟨⟩, payload, ⟨⟩, sound, registry, composed, proxy, built, same⟩
    exact ⟨payload, sound, registry, composed, proxy, built, Except.ok.inj same⟩
  · rintro ⟨payload, sound, registry, composed, proxy, built, rfl⟩
    exact ⟨(), payload, (), sound, registry, composed, proxy, built, rfl⟩

theorem checked_of_mutateCandidate {edit : Settings Rest → Except String (Settings Rest)}
    (made : store.mutateCandidate env format now edit = .ok (candidate, writing)) :
    Checked env now.active candidate.document.effective := by
  simp only [mutateCandidate, bind_eq_ok, mapError_eq_ok] at made
  obtain ⟨next, -, _, payload, _, sound, _, egress, registry, composed, proxy, -, text, -, same⟩ := made
  cases same
  exact ⟨payload, egress, sound, registry, composed⟩

theorem checked_of_v8Candidate {request : V8Request}
    (made : store.v8Candidate env format now request = .ok (candidate, writing)) :
    Checked env now.active candidate.document.effective := by
  simp only [v8Candidate, bind_eq_ok, mapError_eq_ok] at made
  obtain ⟨_, -, next, -, _, payload, _, sound, _, egress, registry, composed, proxy, -, _, -, same⟩ := made
  cases same
  exact ⟨payload, egress, sound, registry, composed⟩

end Checks

section Failures
variable {env format} {now : Circumstances} {store : SettingsStore Rest}

def Unchanged (before after : SettingsStore Rest) : Prop :=
  after.document = before.document ∧ after.file = before.file ∧ after.proxy = before.proxy ∧
    after.registry = before.registry

variable {error : SettingsError} {operation : Operation Rest}

theorem writeAtomically_failed {removes : Bool} {text : String} {after : SettingsStore Rest}
    (failed : store.writeAtomically now removes text = (.error error, after)) : Unchanged store after := by
  unfold writeAtomically at failed
  split at failed
  · cases failed
    exact ⟨rfl, rfl, rfl, rfl⟩
  · split at failed
    · cases failed
      exact ⟨rfl, rfl, rfl, rfl⟩
    · cases failed

/-- The put of a text into the file fails behind the writing of the file. -/
def FailsLate (store : SettingsStore Rest) (now : Circumstances) (writing : Writing) (text : String) : Prop :=
  writing = .bytes text ∧ store.storage = some true ∧ now.spooled = true ∧ ∃ error, now.put = .error error

theorem write_failed {after : SettingsStore Rest} (failed : store.write now writing = (.error error, after)) :
    Unchanged store after ∨ ∃ text, FailsLate store now writing text ∧ after = { store with file := some text } := by
  cases writing with
  | nothing => cases failed
  | settings text => exact .inl (writeAtomically_failed failed)
  | bytes text =>
    simp only [write, persistBytes] at failed
    split at failed
    · exact .inl (writeAtomically_failed failed)
    next keepsFile kept =>
      split at failed
      next put =>
        cases failed
        split
        next late =>
          rw [Bool.and_eq_true] at late
          exact .inr ⟨text, ⟨rfl, late.1 ▸ kept, late.2, _, put⟩, rfl⟩
        next => exact .inl ⟨rfl, rfl, rfl, rfl⟩
      · split at failed
        · cases failed
        · exact .inl (writeAtomically_failed failed)

theorem write_late {text : String} (late : FailsLate store now writing text) :
    ∃ error, store.write now writing = (.error error, { store with file := some text }) := by
  obtain ⟨rfl, kept, spooled, error, failed⟩ := late
  exact ⟨error, by simp [write, persistBytes, kept, spooled, failed]⟩

/-- An operation fails and changes nothing, or fails late in its put, or publishes a
candidate once its writing is done. -/
theorem perform_cases (env : CheckEnv Rest) (format : ConfigFormat Rest) (now : Circumstances)
    (store : SettingsStore Rest) (operation : Operation Rest) :
    (∃ error after, store.perform env format now operation = (.error error, after) ∧ Unchanged store after) ∨
    (∃ candidate writing text error, store.candidate env format now operation = .ok (candidate, writing) ∧
      FailsLate store now writing text ∧
      store.perform env format now operation = (.error error, { store with file := some text })) ∨
    ∃ candidate writing after, store.candidate env format now operation = .ok (candidate, writing) ∧
      store.write now writing = (.ok (), after) ∧
      store.perform env format now operation = (.ok (), after.publish now candidate) := by
  unfold perform
  cases made : store.candidate env format now operation with
  | error error => exact .inl ⟨error, store, rfl, rfl, rfl, rfl, rfl⟩
  | ok found =>
    obtain ⟨candidate, writing⟩ := found
    dsimp only
    split
    next error after failed =>
      obtain unchanged | ⟨text, late, rfl⟩ := write_failed failed
      · exact .inl ⟨error, after, rfl, unchanged⟩
      · exact .inr (.inl ⟨candidate, writing, text, error, rfl, late, rfl⟩)
    next after written => exact .inr (.inr ⟨candidate, writing, after, rfl, written, rfl⟩)

theorem perform_succeeded (passed : (store.perform env format now operation).1 = .ok ()) :
    ∃ candidate writing, store.candidate env format now operation = .ok (candidate, writing) ∧
      (store.perform env format now operation).2.document = candidate.document := by
  obtain ⟨_, _, same, _⟩ | ⟨_, _, _, _, _, _, same⟩ | ⟨candidate, writing, after, made, _, same⟩ :=
    perform_cases env format now store operation
  · rw [same] at passed
    cases passed
  · rw [same] at passed
    cases passed
  · rw [same]
    exact ⟨candidate, writing, made, rfl⟩

theorem perform_unwritten {candidate : Candidate Rest}
    (made : store.candidate env format now operation = .ok (candidate, .nothing)) :
    store.perform env format now operation = (.ok (), store.publish now candidate) := by
  rw [perform, made]
  rfl

end Failures

/-- Where an operation leaves a check out, the document passes it: a reload does not check
the payload rules, and a Home snapshot is not checked for the egress of accounts. -/
def Covered (store : SettingsStore Rest) (call : Call Rest) : Prop :=
  match call.operation with
  | .reload => ∀ text settings, store.file = some text → format.load text = .ok settings →
    settings.validateClaudeEgress env = .ok () → Served env call.now.active settings →
    validatePayload env settings.payload = .ok ()
  | .applyHome next => validatePayload env next.payload = .ok () →
    Served env call.now.active next → next.validateClaudeEgress env = .ok ()
  | _ => True

/-- The call publishes nothing, or a document that passes every check. -/
def PublishesChecked (store : SettingsStore Rest) (call : Call Rest) : Prop :=
  (store.perform env format call.now call.operation).1 = .ok () →
    Checked env call.now.active
      (store.perform env format call.now call.operation).2.document.effective

theorem publishesChecked_iff (store : SettingsStore Rest) (call : Call Rest) :
    PublishesChecked env format store call ↔ Covered env format store call := by
  obtain ⟨operation, now⟩ := call
  cases operation with
  | reload =>
    constructor
    · intro checked text settings here loaded egress served
      obtain ⟨sound, ⟨proxy, built⟩, registry, composed⟩ := served
      have made : store.candidate env format now .reload = .ok (_, .nothing) :=
        map_eq_ok.mpr ⟨_, reloadCandidate_eq_ok.mpr ⟨text, settings, here, loaded, egress, sound,
          proxy, built, registry, composed, rfl⟩, rfl⟩
      rw [PublishesChecked, perform_unwritten made] at checked
      exact (checked rfl).1
    · intro covered passed
      obtain ⟨candidate, writing, made, same⟩ := perform_succeeded passed
      obtain ⟨_, reloaded, ⟨⟩⟩ := map_eq_ok.mp made
      obtain ⟨text, settings, here, loaded, egress, sound, proxy, built, registry, composed, rfl⟩ :=
        reloadCandidate_eq_ok.mp reloaded
      rw [same]
      have payload := covered text settings here loaded egress ⟨sound, ⟨proxy, built⟩, registry, composed⟩
      exact ⟨payload, egress, sound, registry, composed⟩
  | tryMutate edit =>
    refine iff_of_true (fun passed => ?_) trivial
    obtain ⟨candidate, writing, made, same⟩ := perform_succeeded passed
    rw [same]
    exact checked_of_mutateCandidate made
  | mutateV8 request =>
    refine iff_of_true (fun passed => ?_) trivial
    obtain ⟨candidate, writing, made, same⟩ := perform_succeeded passed
    rw [same]
    exact checked_of_v8Candidate made
  | applyHome next =>
    constructor
    · intro checked payload served
      obtain ⟨sound, ⟨proxy, built⟩, registry, composed⟩ := served
      have made : store.candidate env format now (.applyHome next) = .ok (_, .nothing) :=
        map_eq_ok.mpr ⟨_, homeCandidate_eq_ok.mpr ⟨payload, sound, registry, composed, proxy, built, rfl⟩, rfl⟩
      rw [PublishesChecked, perform_unwritten made] at checked
      exact (checked rfl).2.1
    · intro covered passed
      obtain ⟨candidate, writing, made, same⟩ := perform_succeeded passed
      obtain ⟨_, given, ⟨⟩⟩ := map_eq_ok.mp made
      obtain ⟨payload, sound, registry, composed, proxy, built, rfl⟩ := homeCandidate_eq_ok.mp given
      rw [same]
      have egress := covered payload ⟨sound, ⟨proxy, built⟩, registry, composed⟩
      exact ⟨payload, egress, sound, registry, composed⟩

/-- A call that returns an error leaves the document, the file and the projections. -/
def FailsClean (store : SettingsStore Rest) (call : Call Rest) : Prop :=
  ∀ error, (store.perform env format call.now call.operation).1 = .error error →
    Unchanged store (store.perform env format call.now call.operation).2

/-- No put fails behind the writing of another text into the file. -/
def PutsWhole (store : SettingsStore Rest) (call : Call Rest) : Prop :=
  ∀ candidate writing text, store.candidate env format call.now call.operation = .ok (candidate, writing) →
    FailsLate store call.now writing text → store.file = some text

theorem failsClean_iff (store : SettingsStore Rest) (call : Call Rest) :
    FailsClean env format store call ↔ PutsWhole env format store call := by
  constructor
  · intro clean candidate writing text made late
    obtain ⟨error, written⟩ := write_late late
    have same : store.perform env format call.now call.operation = (.error error, { store with file := some text }) := by
      simp only [perform, made, written]
    rw [FailsClean, same] at clean
    exact (clean error rfl).2.1.symm
  · intro whole error failed
    obtain ⟨_, after, same, unchanged⟩ | ⟨candidate, writing, text, _, made, late, same⟩ | ⟨_, _, _, _, _, same⟩ :=
      perform_cases env format call.now store call.operation
    · rw [same]
      exact unchanged
    · rw [same]
      exact ⟨rfl, (whole candidate writing text made late).symm, rfl, rfl⟩
    · rw [same] at failed
      cases failed

/-- Along a run only documents that pass every check are published, and failed calls change
nothing, exactly when the reloads and the Home snapshots of the run pass the check that is
not made there, and no put fails behind the writing of the file. -/
theorem only_checked_published_iff (start : SettingsStore Rest) (calls : List (Call Rest)) :
    (∀ past call later, calls = past ++ call :: later → PublishesChecked env format (start.run env format past) call ∧
        FailsClean env format (start.run env format past) call) ↔
      ∀ past call later, calls = past ++ call :: later → Covered env format (start.run env format past) call ∧
        PutsWhole env format (start.run env format past) call :=
  forall_congr' fun past => forall_congr' fun call => forall_congr' fun _ => imp_congr_right fun _ =>
    and_congr (publishesChecked_iff env format (start.run env format past) call)
      (failsClean_iff env format (start.run env format past) call)

section Written

def Operation.isLocal : Operation Rest → Bool
  | .tryMutate _ | .mutateV8 _ => true
  | .reload | .applyHome _ => false

/-- A Home snapshot passes the checks that are made of it. -/
def AcceptsHome (active : RegistrySnapshot) (next : Settings Rest) : Prop :=
  validatePayload env next.payload = .ok () ∧ Served env active next

variable {env format}

theorem file_perform_applyHome (store : SettingsStore Rest) (now : Circumstances) (next : Settings Rest) :
    (store.perform env format now (.applyHome next)).2.file = store.file := by
  obtain ⟨_, after, same, unchanged⟩ | ⟨_, _, _, _, made, late, _⟩ | ⟨candidate, writing, after, made, written, same⟩ :=
    perform_cases env format now store (.applyHome next)
  · rw [same]
    exact unchanged.2.1
  · obtain ⟨_, _, ⟨⟩⟩ := map_eq_ok.mp made
    cases late.1
  · obtain ⟨_, _, ⟨⟩⟩ := map_eq_ok.mp made
    cases written
    rw [same]
    rfl

theorem perform_refusedHome {store : SettingsStore Rest} {now : Circumstances}
    {next : Settings Rest} (refused : ¬ AcceptsHome env now.active next) :
    (store.perform env format now (.applyHome next)).2 = store := by
  unfold perform
  cases made : store.candidate env format now (.applyHome next) with
  | error error => rfl
  | ok found =>
    obtain ⟨candidate, given, _⟩ := map_eq_ok.mp made
    obtain ⟨payload, sound, registry, composed, proxy, built, _⟩ := homeCandidate_eq_ok.mp given
    exact absurd ⟨payload, sound, ⟨proxy, built⟩, registry, composed⟩ refused

theorem run_cons (start : SettingsStore Rest) (call : Call Rest) (calls : List (Call Rest)) :
    start.run env format (call :: calls) =
      (start.perform env format call.now call.operation).2.run env format calls := rfl

theorem file_run_of_homes {start : SettingsStore Rest} {calls : List (Call Rest)}
    (homes : ∀ call ∈ calls, ∃ next, call.operation = .applyHome next) :
    (start.run env format calls).file = start.file := by
  induction calls generalizing start with
  | nil => rfl
  | cons call calls ih =>
    obtain ⟨⟨next, home⟩, others⟩ := List.forall_mem_cons.mp homes
    rw [run_cons, ih others, home]
    exact file_perform_applyHome start call.now next

variable (env format)

/-- The file is the operator's document with the local edits of a run, if every Home
snapshot that a local edit follows is refused. -/
theorem file_without_home (start : SettingsStore Rest) (calls : List (Call Rest))
    (offline : ∀ call ∈ calls, call.operation ≠ .reload)
    (refused : ∀ past call later next, calls = past ++ call :: later →
      call.operation = .applyHome next → later.any (·.operation.isLocal) = true →
      ¬ AcceptsHome env call.now.active next) : (start.run env format calls).file =
      (start.run env format (calls.filter (·.operation.isLocal))).file := by
  induction calls generalizing start with
  | nil => rfl
  | cons call calls ih =>
    obtain ⟨here, others⟩ := List.forall_mem_cons.mp offline
    have later := ih (start.perform env format call.now call.operation).2 others
      fun past other behind next same => refused (call :: past) other behind next (by rw [same]; rfl)
    cases kind : call.operation with
    | reload => exact absurd kind here
    | tryMutate | mutateV8 =>
      rw [List.filter_cons_of_pos (by rw [kind]; rfl)]
      exact later
    | applyHome next =>
      rw [List.filter_cons_of_neg (by rw [kind]; exact Bool.false_ne_true)]
      by_cases edits : calls.any (·.operation.isLocal) = true
      · have unchanged : (start.perform env format call.now call.operation).2 = start := by
          rw [kind]
          exact perform_refusedHome (refused [] call calls next rfl kind edits)
        rw [unchanged] at later
        rw [run_cons, unchanged]
        exact later
      · rw [List.any_eq_true] at edits
        have none : calls.filter (·.operation.isLocal) = [] :=
          List.filter_eq_nil_iff.mpr fun other member isLocal => edits ⟨other, member, isLocal⟩
        rw [none]
        refine file_run_of_homes fun other member => ?_
        obtain rfl | member := List.mem_cons.mp member
        · exact ⟨next, kind⟩
        · cases operation : other.operation with
          | reload => exact absurd operation (others other member)
          | applyHome next => exact ⟨next, rfl⟩
          | tryMutate | mutateV8 => exact absurd ⟨other, member, by rw [operation]; rfl⟩ edits

end Written

namespace StoreSample

def plainEnv : CheckEnv (Bool × Nat) where
  serde := ⟨fun _ => .error "", fun _ => ""⟩
  parseUrl := fun _ => .ok ⟨"ftp", true, false⟩
  qaLoopbackOnly := false
  buildClient := fun _ => .ok ()
  buildDevinClient := fun _ => .ok ()
  localSettings := fun _ => .ok ⟨[], [], [], []⟩

def plainYaml (settings : Settings (Bool × Nat)) : String :=
  "debug: " ++ toString settings.rest.1 ++ "\nport: " ++ toString settings.rest.2

def plainFormat : ConfigFormat (Bool × Nat) where
  load := fun _ => .ok ⟨"", [("default", .null)], "", "", [], [], (false, 8317)⟩
  toYaml := fun settings => .ok (plainYaml settings)
  parse := fun _ => .error .parse
  normalize := .ok
  preserveManagementSecret := fun root _ => .ok root
  preserveTurn := fun root _ => root
  runtime := fun _ => .error .parse
  edit := fun root _ _ _ _ => .ok root
  render := fun _ _ => .ok ""

def plain (debug : Bool) (port : Nat) : Settings (Bool × Nat) :=
  ⟨"", [], "", "", [], [], (debug, port)⟩

def calm : Circumstances :=
  ⟨⟨.embeddedFallback, ∅, ∅, ∅, []⟩, .ok (), false, .ok (), none, .ok (), true⟩

def plainStore : SettingsStore (Bool × Nat) :=
  ⟨⟨plain false 8317, ""⟩, "", true, none, some (plainYaml (plain false 8317)), none, none, none⟩

def strayHome : Settings (Bool × Nat) :=
  { plain false 8317 with claudeAccountEgress := [("a", "ftp://proxy")] }

/-- A snapshot and a reload that miss a check, and a port written though the put fails. -/
theorem unchecked_documents_published :
    (plainStore.perform plainEnv plainFormat calm (.applyHome strayHome)).1 = .ok () ∧
      (plainStore.perform plainEnv plainFormat calm
        (.applyHome strayHome)).2.document.effective.validateClaudeEgress plainEnv =
        .error (.invalidClaudeEgress "a" "must be an http, https or socks5 URL") ∧
      (plainStore.perform plainEnv plainFormat calm .reload).1 = .ok () ∧ validatePayload plainEnv
        (plainStore.perform plainEnv plainFormat calm .reload).2.document.effective.payload =
        .error "payload.default must be an array" ∧
      (let stored := { plainStore with storage := some true }
        let failed := stored.perform plainEnv plainFormat { calm with put := .error .read, spooled := true }
          (.tryMutate fun settings => .ok { settings with rest := (false, 9000) })
        failed.1 = .error .read ∧ failed.2.file = some "debug: false\nport: 9000" ∧ failed.2.file ≠ stored.file) := by
  decide +kernel

def homeThenPort : List (Call (Bool × Nat)) :=
  [⟨.applyHome (plain true 8317), calm⟩,
    ⟨.tryMutate fun settings => .ok { settings with rest := (settings.rest.1, 9000) }, calm⟩]

theorem home_written_over_yaml :
    (plainStore.run plainEnv plainFormat homeThenPort).file = some "debug: true\nport: 9000" ∧
      (plainStore.run plainEnv plainFormat
        (homeThenPort.filter (·.operation.isLocal))).file = some "debug: false\nport: 9000" := by
  decide +kernel

/-- The operator moves the port before Home takes over. -/
theorem port_kept_under_home : (plainStore.run plainEnv plainFormat homeThenPort.reverse).file =
      (plainStore.run plainEnv plainFormat (homeThenPort.reverse.filter (·.operation.isLocal))).file := by
  refine file_without_home plainEnv plainFormat plainStore homeThenPort.reverse (by simp [homeThenPort]) ?_
  intro past call later next same home edits
  rcases past with _ | ⟨first, _ | ⟨second, past⟩⟩
  · cases same
    cases home
  · cases same
    cases edits
  · simp [homeThenPort] at same

end StoreSample
end Mahoquot.Management.SettingsStore
