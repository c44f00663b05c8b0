import Mahoquot.Library.Tables
import Mahoquot.Types

/-! Credential documents and how a refresh is committed to them: a three-way merge of its
fields into what the file holds by then, unless that stands for another identity or grant. -/

set_option autoImplicit false

namespace Mahoquot.Gateway
open Library

/-- A field of a credential document. Values that no refresh looks into are
compared by their rendering. -/
inductive Field where
  | text (value : String)
  | number (literal : String)
  | other (rendered : String)
deriving Repr, DecidableEq

inductive Document where
  | object (fields : Std.ExtTreeMap String Field)
  | other (rendered : String)

namespace Document

def get? (document : Document) (key : String) : Option Field :=
  match document with
  | .object fields => fields[key]?
  | .other _ => none

def text? (document : Document) (key : String) : Option String :=
  match document.get? key with
  | some (.text value) => some value
  | _ => none

end Document

variable {candidate expected : Document}

inductive RefreshFailure where
  | http
  | status (code : Nat) (body : String)
  | parse (message : String)
  | io
deriving Repr, DecidableEq

def RefreshFailure.render : RefreshFailure → String
  | .http => "http: "
  | .status code body => "status " ++ toString code ++ ": " ++ body
  | .parse message => "parse: " ++ message
  | .io => "io: "

def RefreshFailure.asParse : RefreshFailure → RefreshFailure
  | .parse message => .parse message
  | failure => .parse failure.render

/-- Fields whose change makes the answer to a refresh belong to another credential. -/
def guardKeys : List String :=
  ["type", "provider", "identity_slug", "email", "account_id", "refresh_token", "dca_token",
    "access_token", "api_key", "client_id", "token_url", "base_url", "upstream_override",
    "auth_kind", "adapter", "private_key", "private_key_id", "client_email", "service_account",
    "token_uri", "auth_mode", "client_secret", "region"]

/-- Fields a refresh may change. -/
def refreshKeys : List String :=
  ["access_token", "api_key", "refresh_token", "id_token", "expired", "last_refresh",
    "timestamp", "client_id", "models", "dca_token", "token_type", "expires_in",
    "dca_expires_at", "dca_expired", "auth_kind", "base_url", "email", "name",
    "subs_tier_name", "subs_tier_id", "is_subs_active", "has_payment_method",
    "require_payment", "can_subscribe"]

def refreshConflict : RefreshFailure := .parse "credential changed or deleted during refresh"

def mergeRefresh (expected candidate current : Document) : Except RefreshFailure Document :=
  if guardKeys.any fun key => decide (current.get? key ≠ expected.get? key) then
    .error refreshConflict
  else
    match current with
    | .object fields => .ok (.object (threeWay refreshKeys expected.get? candidate.get? fields))
    | .other _ => .error refreshConflict

inductive FileContent where
  | missing
  | unreadable
  | malformed (message : String)
  | document (document : Document)

structure Disk where
  file : FileContent
  spool : Option Document

structure StoreAnswer where
  named : Bool
  put : Except String Unit
  spoolsFile : Bool

/-- How the world answers a commit. -/
structure CommitAnswers where
  store : Option StoreAnswer
  write : Bool

variable (answers : CommitAnswers)

def writeCredentialAtomically (document : Document) (disk : Disk) : Except RefreshFailure Document × Disk :=
  if answers.write then (.ok document, { disk with file := .document document })
  else (.error .io, disk)

def persist (document : Document) (disk : Disk) : Except RefreshFailure Document × Disk :=
  match answers.store with
  | none => writeCredentialAtomically answers document disk
  | some store =>
    if !store.named then (.error (.parse "invalid credential filename"), disk)
    else
      match store.put with
      | .error message => (.error (.parse message), disk)
      | .ok () =>
        if store.spoolsFile then (.ok document, { disk with file := .document document })
        else writeCredentialAtomically answers document { disk with spool := some document }

/-- Commit a refresh; an absent expectation is reserved for onboarding a file
that was seen to be absent. -/
def commitRefresh (expected : Option Document) (candidate : Document)
    (disk : Disk) : Except RefreshFailure Document × Disk :=
  match disk.file, expected with
  | .unreadable, _ => (.error .io, disk)
  | .malformed message, _ => (.error (.parse message), disk)
  | .missing, none => persist answers candidate disk
  | .document current, some expected =>
    match mergeRefresh expected candidate current with
    | .ok merged => persist answers merged disk
    | .error failure => (.error failure, disk)
  | .missing, some _ | .document _, none => (.error refreshConflict, disk)

/-- Calendar times as the credential files write them, where they exist. -/
structure Calendar where
  zulu : Int → Option String
  offset : Int → Option String

structure Tokens where
  accessToken : String
  refreshToken : Option String
  idToken : Option String
  expiresIn : Option Int
deriving Repr, DecidableEq

def insertText (key : String) (value : Option String) (fields : Std.ExtTreeMap String Field) :
    Std.ExtTreeMap String Field :=
  match value with
  | some value => fields.insert key (.text value)
  | none => fields

/-- The time stamp keeps the type it has; an absent one stays absent. -/
def restamp (nowUnix : Int) (lastRefresh : String) (fields : Std.ExtTreeMap String Field) :
    Std.ExtTreeMap String Field :=
  match fields["timestamp"]? with
  | some (.number _) => fields.insert "timestamp" (.number (toString (nowUnix * 1000)))
  | some _ => fields.insert "timestamp" (.text lastRefresh)
  | none => fields

def applyRefreshToValue (calendar : Calendar) (root : Document) (tokens : Tokens)
    (nowUnix : Int) : Except RefreshFailure Document :=
  match root with
  | .other _ => .error (.parse "root is not a JSON object")
  | .object fields =>
    let accessTokenField := if fields["type"]? = some (.text "generic") then "api_key" else "access_token"
    let granted := insertText "id_token" tokens.idToken
      (insertText "refresh_token" tokens.refreshToken (fields.insert accessTokenField (.text tokens.accessToken)))
    match calendar.zulu (nowUnix + tokens.expiresIn.getD 3600), calendar.zulu nowUnix with
    | none, _ => .error (.parse "invalid timestamp for expired")
    | some _, none => .error (.parse "invalid timestamp for last_refresh")
    | some expired, some lastRefresh =>
      .ok (.object (restamp nowUnix lastRefresh ((granted.insert "expired" (.text expired)).insert "last_refresh"
          (.text lastRefresh))))

structure KimiToken where
  accessToken : String
  refreshToken : String
  /-- Whole seconds of a lifetime that is finite, positive and representable. -/
  lifetime : Option Int
deriving Repr, DecidableEq

def KimiToken.apply (calendar : Calendar) (token : KimiToken) (credential : Document)
    (nowUnix : Int) : Except RefreshFailure Document :=
  match credential with
  | .other _ => .error (.parse "invalid Kimi credential")
  | .object fields =>
    let keyed := fields.insert "api_key" (.text token.accessToken)
    let aliased := if keyed.contains "access_token" then
        keyed.insert "access_token" (.text token.accessToken) else keyed
    let granted := if token.refreshToken.isEmpty then aliased
      else aliased.insert "refresh_token" (.text token.refreshToken)
    let expired := ((token.lifetime.map (nowUnix + ·)).filter fun expiry =>
      decide (expiry ≤ i64Max)).bind calendar.offset
    .ok (.object (granted.insert "expired" (.text (expired.getD ""))))

theorem persist_ok {answers : CommitAnswers} {document written : Document} {disk after : Disk}
    (persisted : persist answers document disk = (.ok written, after)) :
    written = document ∧ after.file = .document document := by
  have atomic {before : Disk}
      (wrote : writeCredentialAtomically answers document before = (.ok written, after)) :
      written = document ∧ after.file = .document document := by
    simp only [writeCredentialAtomically] at wrote
    split at wrote <;> cases wrote
    exact ⟨rfl, rfl⟩
  simp only [persist] at persisted
  split at persisted
  · exact atomic persisted
  · split at persisted
    · cases persisted
    · split at persisted
      · cases persisted
      · split at persisted
        · cases persisted
          exact ⟨rfl, rfl⟩
        · exact atomic persisted

theorem mergeRefresh_ok {current merged : Document}
    (accepted : mergeRefresh expected candidate current = .ok merged) :
    (∀ key ∈ guardKeys, current.get? key = expected.get? key) ∧ ∃ fields, current = .object fields ∧
        merged = .object (threeWay refreshKeys expected.get? candidate.get? fields) := by
  simp only [mergeRefresh] at accepted
  split at accepted
  · cases accepted
  next guarded =>
    have same : ∀ key ∈ guardKeys, current.get? key = expected.get? key := by
      simpa using guarded
    split at accepted
    next fields =>
      cases accepted
      exact ⟨same, fields, rfl, rfl⟩
    next => cases accepted

theorem commitRefresh_ok {answers : CommitAnswers} {current written : Document}
    {disk after : Disk} (found : disk.file = .document current)
    (committed : commitRefresh answers (some expected) candidate disk = (.ok written, after)) :
    mergeRefresh expected candidate current = .ok written ∧ after.file = .document written := by
  simp only [commitRefresh, found] at committed
  split at committed
  next merged accepted =>
    obtain ⟨rfl, filed⟩ := persist_ok committed
    exact ⟨accepted, filed⟩
  next => cases committed

theorem get?_merged (expected candidate : Document) (fields : Std.ExtTreeMap String Field) (key : String) :
    (Document.object (threeWay refreshKeys expected.get? candidate.get? fields)).get? key =
      if key ∈ refreshKeys ∧ candidate.get? key ≠ expected.get? key then candidate.get? key
      else (Document.object fields).get? key :=
  getElem?_threeWay refreshKeys expected.get? candidate.get? fields key

/-- A document made from another by changing refreshed fields only. -/
def Refreshed (expected candidate : Document) : Prop :=
  ∃ before after, expected = .object before ∧ candidate = .object after ∧
    SameOutside refreshKeys after before

theorem insertText_sameOutside {key : String} {value : Option String}
    {fields base : Std.ExtTreeMap String Field} (listed : key ∈ refreshKeys)
    (same : SameOutside refreshKeys fields base) : SameOutside refreshKeys (insertText key value fields) base := by
  cases value with
  | none => exact same
  | some value => exact same.insert listed (.text value)

variable {nowUnix : Int}

theorem restamp_sameOutside {lastRefresh : String} {fields base : Std.ExtTreeMap String Field}
    (same : SameOutside refreshKeys fields base) :
    SameOutside refreshKeys (restamp nowUnix lastRefresh fields) base := by
  simp only [restamp]
  split
  · exact same.insert (by decide) _
  · exact same.insert (by decide) _
  · exact same

theorem applyRefreshToValue_refreshed {calendar : Calendar} {root : Document}
    {tokens : Tokens} (applied : applyRefreshToValue calendar root tokens nowUnix = .ok candidate) :
    Refreshed root candidate := by
  simp only [applyRefreshToValue] at applied
  split at applied
  · cases applied
  next fields =>
    split at applied
    · cases applied
    · cases applied
    · cases applied
      refine ⟨fields, _, rfl, rfl, restamp_sameOutside ?_⟩
      refine SameOutside.insert (by decide) (SameOutside.insert (by decide) ?_ _) _
      refine insertText_sameOutside (by decide) (insertText_sameOutside (by decide) ?_)
      refine SameOutside.insert ?_ (SameOutside.refl refreshKeys fields) _
      split <;> decide

theorem kimiToken_apply_refreshed {calendar : Calendar} {token : KimiToken} {credential : Document}
    (applied : token.apply calendar credential nowUnix = .ok candidate) : Refreshed credential candidate := by
  simp only [KimiToken.apply] at applied
  split at applied
  · cases applied
  next fields =>
    cases applied
    refine ⟨fields, _, rfl, rfl, SameOutside.insert (by decide) ?_ _⟩
    have keyed : SameOutside refreshKeys (fields.insert "api_key" (.text token.accessToken))
        fields :=
      (SameOutside.refl refreshKeys fields).insert (by decide) _
    split <;> split
    · exact keyed.insert (by decide) _
    · exact keyed
    · exact (keyed.insert (by decide) _).insert (by decide) _
    · exact keyed.insert (by decide) _

theorem mergeRefresh_unedited (refreshed : Refreshed expected candidate) :
    mergeRefresh expected candidate expected = .ok candidate := by
  obtain ⟨before, after, rfl, rfl, same⟩ := refreshed
  have merged : threeWay refreshKeys (Document.object before).get? (Document.object after).get?
      before = after := threeWay_unedited same
  simp [mergeRefresh, merged]

/-- An accepted commit writes the current document with the refreshed fields that the
candidate changed; a foreign identity or grant is refused with nothing written. -/
theorem commitRefresh_merges (answers : CommitAnswers) {disk : Disk} {current : Document}
    (found : disk.file = .document current) (expected candidate : Document) : (∀ written after,
        commitRefresh answers (some expected) candidate disk = (.ok written, after) →
        after.file = .document written ∧ (∃ fields, written = .object fields) ∧ ∀ key, written.get? key =
            if key ∈ refreshKeys ∧ candidate.get? key ≠ expected.get? key
            then candidate.get? key else current.get? key) ∧
      ((∃ key ∈ guardKeys, current.get? key ≠ expected.get? key) →
        ∃ failure, commitRefresh answers (some expected) candidate disk = (.error failure, disk)) ∧
      (current = expected → (∃ calendar nowUnix, (∃ tokens,
            applyRefreshToValue calendar expected tokens nowUnix = .ok candidate) ∨
          ∃ token : KimiToken, token.apply calendar expected nowUnix = .ok candidate) →
        commitRefresh answers (some expected) candidate disk = persist answers candidate disk ∧ ∀ written after,
            commitRefresh answers (some expected) candidate disk = (.ok written, after) →
            written = candidate ∧ after.file = .document candidate) := by
  refine ⟨fun written after committed => ?_, fun ⟨key, guarded, differs⟩ => ?_,
    fun unedited ⟨calendar, nowUnix, applied⟩ => ?_⟩
  · obtain ⟨accepted, filed⟩ := commitRefresh_ok found committed
    obtain ⟨_, fields, rfl, rfl⟩ := mergeRefresh_ok accepted
    exact ⟨filed, ⟨_, rfl⟩, get?_merged expected candidate fields⟩
  · cases merged : mergeRefresh expected candidate current with
    | ok document => exact absurd ((mergeRefresh_ok merged).1 key guarded) differs
    | error failure => exact ⟨failure, by simp only [commitRefresh, found, merged]⟩
  · subst unedited
    have refreshed : Refreshed current candidate := by
      rcases applied with ⟨tokens, applied⟩ | ⟨token, applied⟩
      · exact applyRefreshToValue_refreshed applied
      · exact kimiToken_apply_refreshed applied
    have persists : commitRefresh answers (some current) candidate disk =
        persist answers candidate disk := by
      simp only [commitRefresh, found, mergeRefresh_unedited refreshed]
    refine ⟨persists, fun written after committed => ?_⟩
    rw [persists] at committed
    exact persist_ok committed

def notedCredential (accessToken note : String) : Document :=
  .object ((((∅ : Std.ExtTreeMap String Field).insert "type" (.text "codex")).insert
    "access_token" (.text accessToken)).insert "note" (.text note))

def renamedDisk : Disk := ⟨.document (notedCredential "old" "renamed"), none⟩

/-- The owner renames the note while the access token is refreshed. -/
theorem note_survives_refresh : ∃ written after, commitRefresh ⟨none, true⟩ (some (notedCredential "old" "mine"))
        (notedCredential "new" "mine") renamedDisk = (.ok written, after) ∧
      written.get? "access_token" = some (.text "new") ∧ written.get? "note" = some (.text "renamed") := by
  have found : renamedDisk.file = .document (notedCredential "old" "renamed") := rfl
  obtain ⟨merges, _⟩ := commitRefresh_merges ⟨none, true⟩ found (notedCredential "old" "mine") (notedCredential "new" "mine")
  have accepted : (commitRefresh ⟨none, true⟩ (some (notedCredential "old" "mine"))
      (notedCredential "new" "mine") renamedDisk).1.isOk = true := by
    decide +kernel
  rcases committed : commitRefresh ⟨none, true⟩ (some (notedCredential "old" "mine"))
      (notedCredential "new" "mine") renamedDisk with ⟨failure | written, after⟩
  · rw [committed] at accepted
    cases accepted
  · obtain ⟨_, _, fields⟩ := merges written after committed
    refine ⟨written, after, rfl, ?_, ?_⟩
    · rw [fields]
      decide +kernel
    · rw [fields]
      decide +kernel

structure RefreshCommit where
  answers : CommitAnswers
  expected : Option Document
  candidate : Document

def RefreshCommit.run (disk : Disk) (commit : RefreshCommit) : Disk :=
  (commitRefresh commit.answers commit.expected commit.candidate disk).2

theorem RefreshCommit.moved_run {commit : RefreshCommit} {disk : Disk} {current : Document} {key : String}
    {old : Option Field} (found : disk.file = .document current) (moved : current.get? key ≠ old)
    (fresh : commit.candidate.get? key ≠ old) :
    ∃ later, (commit.run disk).file = .document later ∧ later.get? key ≠ old := by
  obtain ⟨answers, _ | expected, candidate⟩ := commit
  all_goals simp only [run, commitRefresh, found]
  · exact ⟨current, rfl, moved⟩
  · cases accepted : mergeRefresh expected candidate current with
    | error failure => exact ⟨current, found, moved⟩
    | ok merged =>
      obtain ⟨-, fields, rfl, rfl⟩ := mergeRefresh_ok accepted
      simp only [persist, writeCredentialAtomically]
      repeat' split
      all_goals first
        | exact ⟨_, found, moved⟩
        | exact ⟨_, rfl, by rw [get?_merged]; split <;> assumption⟩

/-- Once a guarded field has moved on, no refresh that began before is committed, whatever
commits succeed or fail between, unless one brings the old value back. -/
theorem stale_refresh_refused {disk : Disk} {current : Document} {key : String} {commits : List RefreshCommit}
    (guarded : key ∈ guardKeys) (found : disk.file = .document current)
    (moved : current.get? key ≠ expected.get? key)
    (fresh : ∀ commit ∈ commits, commit.candidate.get? key ≠ expected.get? key) (answers : CommitAnswers) :
    let last := commits.foldl RefreshCommit.run disk
    commitRefresh answers (some expected) candidate last = (.error refreshConflict, last) := by
  induction commits generalizing disk current with
  | nil =>
    have differs : (guardKeys.any fun key => decide (current.get? key ≠ expected.get? key)) = true :=
      List.any_eq_true.2 ⟨key, guarded, decide_eq_true moved⟩
    simp only [List.foldl_nil, commitRefresh, found, mergeRefresh, if_pos differs]
  | cons commit commits ih =>
    obtain ⟨own, fresh⟩ := List.forall_mem_cons.1 fresh
    obtain ⟨later, written, differs⟩ := commit.moved_run found moved own
    exact ih written differs fresh

/-- The refresh in between is committed, over the owner's edit. -/
theorem second_refresh_refused :
    let between : RefreshCommit := ⟨⟨none, true⟩, some (notedCredential "old" "mine"), notedCredential "newer" "mine"⟩
    let last := [between].foldl RefreshCommit.run renamedDisk
    (commitRefresh between.answers between.expected between.candidate renamedDisk).1.isOk = true ∧
      commitRefresh ⟨none, true⟩ (some (notedCredential "stale" "mine")) (notedCredential "late" "mine") last =
        (.error refreshConflict, last) :=
  ⟨by decide +kernel,
    @stale_refresh_refused _ _ _ _ "access_token" _ (by decide) rfl (by decide +kernel) (by decide +kernel) _⟩

end Mahoquot.Gateway
