import Mathlib.Logic.Function.Basic

/-! A flat directory of files. A name stands for a file, but an open file is reached
through its number, also when it was renamed or replaced. -/

set_option autoImplicit false

namespace Mahoquot.Library
open Function

structure Files (Path : Type) where
  entries : Path → Option Nat
  contents : Nat → List UInt8
  next : Nat
  known : ∀ path file, entries path = some file → file < next
  single : ∀ path other file, entries path = some file → entries other = some file →
    path = other

namespace Files
variable {Path : Type} [DecidableEq Path]

def empty : Files Path where
  entries := fun _ => none
  contents := fun _ => []
  next := 0
  known := by simp
  single := by simp

variable (files : Files Path)

def read (path : Path) : Option (List UInt8) :=
  (files.entries path).map files.contents

theorem known_update (files : Files Path) {path : Path} {new : Option Nat} {bound : Nat}
    (older : files.next ≤ bound) (made : ∀ file, new = some file → file < bound) :
    ∀ other file, update files.entries path new other = some file → file < bound := by
  intro other file named
  by_cases same : other = path
  · subst same
    exact made file (update_self other new files.entries ▸ named)
  · rw [update_of_ne same] at named
    exact Nat.lt_of_lt_of_le (files.known other file named) older

theorem single_update (files : Files Path) {path : Path} {new : Option Nat}
    (free : ∀ file other, new = some file → files.entries other ≠ some file) :
    ∀ left right file, update files.entries path new left = some file →
      update files.entries path new right = some file → left = right := by
  intro left right file here there
  rw [update_apply] at here there
  split at here <;> split at there
  next atLeft atRight => rw [atLeft, atRight]
  · exact absurd there (free file right here)
  · exact absurd here (free file left there)
  · exact files.single left right file here there

/-- A new empty file under the name; its number is the next one. -/
def create (path : Path) : Files Path where
  entries := update files.entries path (some files.next)
  contents := update files.contents files.next []
  next := files.next + 1
  known := files.known_update (Nat.le_succ _) fun _ new => Option.some.inj new ▸ Nat.lt_succ_self _
  single := files.single_update fun _ other new named =>
    Nat.lt_irrefl _ (Option.some.inj new ▸ files.known other _ named)

def overwrite (file : Nat) (bytes : List UInt8) : Files Path :=
  { files with contents := update files.contents file bytes }

def truncate (file : Nat) : Files Path :=
  files.overwrite file []

/-- Writing from the start of the file; what lies behind the data stays. -/
def write (file : Nat) (data : List UInt8) : Files Path :=
  files.overwrite file (data ++ (files.contents file).drop data.length)

def remove (path : Path) : Files Path :=
  { files with
    entries := update files.entries path none
    known := files.known_update (Nat.le_refl _) nofun
    single := files.single_update nofun }

/-- The name `target`, free or not, comes to stand for the file. -/
def link (target : Path) (file : Nat) (made : file < files.next)
    (free : ∀ path, files.entries path ≠ some file) : Files Path :=
  { files with
    entries := update files.entries target (some file)
    known := files.known_update (Nat.le_refl _) fun _ new => Option.some.inj new ▸ made
    single := files.single_update fun _ other new => Option.some.inj new ▸ free other }

variable {files renamed : Files Path} {path source : Path} {file : Nat}

theorem entries_remove_ne (named : files.entries path = some file) (other : Path) :
    (files.remove path).entries other ≠ some file := by
  intro still
  by_cases same : other = path
  · subst same
    simp [remove] at still
  · simp only [remove, update_of_ne same] at still
    exact same (files.single other path file still named)

/-- Renaming takes the place of what the new name stood for. -/
def rename (source target : Path) : Option (Files Path) :=
  if source = target then (files.entries source).map fun _ => files
  else
    match named : files.entries source with
    | none => none
    | some file =>
      some ((files.remove source).link target file (files.known source file named) (entries_remove_ne named))

/-- Every name that is not kept is removed. -/
def retain (keep : Path → Bool) : Files Path :=
  { files with
    entries := fun path => if keep path then files.entries path else none
    known := by
      intro path file named
      by_cases kept : keep path = true
      · exact files.known path file (by simpa [kept] using named)
      · simp [kept] at named
    single := by
      intro left right file here there
      by_cases keptLeft : keep left = true
      · by_cases keptRight : keep right = true
        · exact files.single left right file (by simpa [keptLeft] using here) (by simpa [keptRight] using there)
        · simp [keptRight] at there
      · simp [keptLeft] at here }

omit [DecidableEq Path] in
theorem read_eq_none : files.read path = none ↔ files.entries path = none := by
  simp [read]

theorem entries_create (files : Files Path) (path other : Path) : (files.create path).entries other =
      if other = path then some files.next else files.entries other := by
  simp [create, update_apply]

theorem contents_create (files : Files Path) (path : Path) : (files.create path).contents files.next = [] := by
  simp [create]

theorem read_create_of_ne (files : Files Path) {other : Path} (different : other ≠ path) :
    (files.create path).read other = files.read other := by
  unfold read
  rw [entries_create, if_neg different]
  cases named : files.entries other with
  | none => rfl
  | some file =>
    have older : file ≠ files.next := Nat.ne_of_lt (files.known other file named)
    simp [create, update_of_ne older]

omit [DecidableEq Path] in
@[simp] theorem entries_overwrite (files : Files Path) (file : Nat) (bytes : List UInt8) :
    (files.overwrite file bytes).entries = files.entries := rfl

omit [DecidableEq Path] in
theorem read_overwrite_self (named : files.entries path = some file)
    (bytes : List UInt8) : (files.overwrite file bytes).read path = some bytes := by
  simp [read, overwrite, named]

omit [DecidableEq Path] in
theorem read_overwrite_of_ne {other : Path} (named : files.entries path = some file)
    (different : other ≠ path) (bytes : List UInt8) : (files.overwrite file bytes).read other = files.read other := by
  unfold read
  rw [entries_overwrite]
  cases there : files.entries other with
  | none => rfl
  | some file' =>
    have apart : file' ≠ file := by
      intro same
      subst same
      exact different (files.single other path file' there named)
    simp [overwrite, update_of_ne apart]

theorem entries_remove (files : Files Path) (path other : Path) :
    (files.remove path).entries other = if other = path then none else files.entries other := by
  simp [remove, update_apply]

theorem read_remove (files : Files Path) (path other : Path) :
    (files.remove path).read other = if other = path then none else files.read other := by
  unfold read
  rw [entries_remove]
  by_cases same : other = path
  · simp [same]
  · simp [same, remove]

variable {target : Path}

theorem entries_rename (different : source ≠ target)
    (done : files.rename source target = some renamed) (path : Path) : renamed.entries path =
      if path = target then files.entries source else if path = source then none else files.entries path := by
  unfold rename at done
  rw [if_neg different] at done
  split at done
  · cases done
  next file named =>
    cases done
    by_cases atTarget : path = target
    · simp [link, atTarget, named]
    · simp [link, remove, atTarget, update_apply]

theorem contents_rename (done : files.rename source target = some renamed) : renamed.contents = files.contents := by
  unfold rename at done
  split at done
  · obtain ⟨_, _, same⟩ := Option.map_eq_some_iff.mp done
    rw [same]
  · split at done
    · cases done
    · cases done
      rfl

theorem read_rename (different : source ≠ target) (done : files.rename source target = some renamed)
    (path : Path) : renamed.read path = if path = target then files.read source
      else if path = source then none else files.read path := by
  unfold read
  rw [entries_rename different done, contents_rename done]
  split
  · rfl
  · split <;> rfl

theorem exists_rename (named : files.entries source = some file) (target : Path) :
    ∃ renamed, files.rename source target = some renamed := by
  unfold rename
  split
  · exact ⟨files, by rw [named]; rfl⟩
  · split
    · next missing => rw [named] at missing; cases missing
    · exact ⟨_, rfl⟩

end Files
end Mahoquot.Library
