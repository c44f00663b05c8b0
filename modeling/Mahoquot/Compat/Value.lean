import Mahoquot.Library.Text

/-! JSON values as the decoders read them, the compact text they are written back as, which
stands on one line, and how they are built and compared. Reading bytes and printing floats
is left to the JSON library. -/

set_option autoImplicit false

namespace Mahoquot.Compat
open Library

abbrev Bytes := List UInt8

def utf8 (text : String) : Bytes := text.toList.flatMap String.utf8EncodeChar

inductive Number where
  | posInt (value : Nat)
  | negInt (value : Int)
  | float (bits : UInt64)
deriving Repr, DecidableEq

inductive Value where
  | null
  | bool (value : Bool)
  | number (value : Number)
  | string (value : String)
  | array (items : List Value)
  /-- Entries in key order, each key once. -/
  | object (entries : List (String × Value))
deriving Repr, Inhabited

/-- The JSON library: parsing, with its error text, and the shortest float text. -/
structure Serde where
  fromSlice : Bytes → Except String Value
  formatFloat : UInt64 → String

namespace Value

def get (value : Value) (key : String) : Option Value :=
  match value with
  | object entries => (entries.find? fun entry => entry.1 == key).map Prod.snd
  | _ => none

/-- Indexing by a key: `null` where there is none. -/
def index (value : Value) (key : String) : Value := (value.get key).getD null

/-- A pointer of object keys. -/
def pointer (value : Value) (path : List String) : Option Value :=
  path.foldlM get value

def asStr : Value → Option String
  | string value => some value
  | _ => none

@[simp] theorem asStr_string (text : String) : (string text).asStr = some text := rfl

def asU64 : Value → Option Nat
  | number (.posInt value) => some value
  | _ => none

def asBool : Value → Option Bool
  | bool value => some value
  | _ => none

def asArray : Value → Option (List Value)
  | array items => some items
  | _ => none

def asObject : Value → Option (List (String × Value))
  | object entries => some entries
  | _ => none

def isNull : Value → Bool
  | null => true
  | _ => false

def isStr (value : Value) (text : String) : Bool := value.asStr == some text

end Value

def hexDigit (digit : Nat) : Char :=
  if digit < 10 then Char.ofNat (48 + digit) else Char.ofNat (87 + digit)

/-- Quotes, backslashes and control characters are escaped, nothing else. -/
def escapeChar (char : Char) : List Char :=
  if char = '"' then ['\\', '"']
  else if char = '\\' then ['\\', '\\']
  else if char = '\n' then ['\\', 'n']
  else if char = '\r' then ['\\', 'r']
  else if char = '\t' then ['\\', 't']
  else if char = '\x08' then ['\\', 'b']
  else if char = '\x0c' then ['\\', 'f']
  else if char.toNat < 32 then
    ['\\', 'u', '0', '0', hexDigit (char.toNat / 16), hexDigit (char.toNat % 16)]
  else [char]

def renderStr (text : String) : List Char :=
  '"' :: text.toList.flatMap escapeChar ++ ['"']

def Number.render (formatFloat : UInt64 → String) : Number → List Char
  | .posInt value => (toString value).toList
  | .negInt value => (toString value).toList
  | .float bits => (formatFloat bits).toList

mutual

def Value.render (formatFloat : UInt64 → String) : Value → List Char
  | .null => "null".toList
  | .bool true => "true".toList
  | .bool false => "false".toList
  | .number value => value.render formatFloat
  | .string text => renderStr text
  | .array items => '[' :: renderItems formatFloat items ++ [']']
  | .object entries => '\x7b' :: renderEntries formatFloat entries ++ ['\x7d']

def renderItems (formatFloat : UInt64 → String) : List Value → List Char
  | [] => []
  | [item] => item.render formatFloat
  | item :: next :: rest => item.render formatFloat ++ ',' :: renderItems formatFloat (next :: rest)

def renderEntries (formatFloat : UInt64 → String) : List (String × Value) → List Char
  | [] => []
  | [(key, value)] => renderStr key ++ ':' :: value.render formatFloat
  | (key, value) :: next :: rest =>
    renderStr key ++ ':' :: value.render formatFloat ++
      ',' :: renderEntries formatFloat (next :: rest)

end

def Serde.toString (serde : Serde) (value : Value) : String :=
  String.ofList (value.render serde.formatFloat)

def Serde.toVec (serde : Serde) (value : Value) : Bytes := utf8 (serde.toString value)

@[simp]
theorem utf8_append (first second : String) : utf8 (first ++ second) = utf8 first ++ utf8 second := by
  simp [utf8]

theorem utf8_injective {first second : String} (same : utf8 first = utf8 second) : first = second := by
  apply String.toByteArray_inj.mp
  rw [← String.ofList_toList (s := first), ← String.ofList_toList (s := second), String.toByteArray_ofList]
  exact congrArg List.toByteArray same

theorem isDigit_of_mem_toString {value : Nat} {char : Char}
    (member : char ∈ (toString value).toList) : char.isDigit = true := by
  rw [Nat.toString_eq_repr, Nat.toList_repr] at member
  exact Nat.isDigit_of_mem_toDigits (b := 10) (by decide) (by decide) member

theorem toString_nat_injective {first second : Nat}
    (same : (toString first).toList = (toString second).toList) : first = second := by
  simp only [Nat.toString_eq_repr, Nat.toList_repr] at same
  rw [← Nat.ofDigitChars_toDigits (n := first) (b := 10) (by decide) (by decide), same,
    Nat.ofDigitChars_toDigits (by decide) (by decide)]

theorem newline_notMem_toString_nat (value : Nat) : '\n' ∉ (toString value).toList := by
  intro member
  exact absurd (isDigit_of_mem_toString member) (by decide)

theorem newline_notMem_toString_int (value : Int) : '\n' ∉ (toString value).toList := by
  cases value with
  | ofNat value => exact newline_notMem_toString_nat value
  | negSucc value =>
    have digits := newline_notMem_toString_nat (value + 1)
    simpa [Int.repr] using digits

theorem hexDigit_ne_newline : ∀ digit < 16, hexDigit digit ≠ '\n' := by decide

theorem newline_notMem_escapeChar (char : Char) : '\n' ∉ escapeChar char := by
  by_cases newline : char = '\n'
  · subst newline
    decide
  · unfold escapeChar
    iterate 6 (split; · decide)
    split
    next control =>
      have high := hexDigit_ne_newline (char.toNat / 16) (by omega)
      have low := hexDigit_ne_newline (char.toNat % 16) (by omega)
      simp [high.symm, low.symm]
    · simp [Ne.symm newline]

theorem newline_notMem_renderStr (text : String) : '\n' ∉ renderStr text := by
  simp [renderStr, newline_notMem_escapeChar]

section Render
variable {formatFloat : UInt64 → String}

theorem Number.newline_notMem_render (oneLine : ∀ bits, '\n' ∉ (formatFloat bits).toList)
    (number : Number) : '\n' ∉ number.render formatFloat := by
  cases number with
  | posInt value => exact newline_notMem_toString_nat value
  | negInt value => exact newline_notMem_toString_int value
  | float bits => exact oneLine bits

mutual

theorem Value.newline_notMem_render (oneLine : ∀ bits, '\n' ∉ (formatFloat bits).toList) :
    ∀ value : Value, '\n' ∉ value.render formatFloat
  | .null => by simp [Value.render]
  | .bool true => by simp [Value.render]
  | .bool false => by simp [Value.render]
  | .number number => by
    rw [Value.render]
    exact number.newline_notMem_render oneLine
  | .string text => by
    rw [Value.render]
    exact newline_notMem_renderStr text
  | .array items => by
    simp [Value.render, newline_notMem_renderItems oneLine items]
  | .object entries => by
    simp [Value.render, newline_notMem_renderEntries oneLine entries]

theorem newline_notMem_renderItems (oneLine : ∀ bits, '\n' ∉ (formatFloat bits).toList) :
    ∀ items : List Value, '\n' ∉ renderItems formatFloat items
  | [] => by simp [renderItems]
  | [item] => by
    rw [renderItems]
    exact item.newline_notMem_render oneLine
  | item :: next :: rest => by
    simp [renderItems, item.newline_notMem_render oneLine, newline_notMem_renderItems oneLine (next :: rest)]

theorem newline_notMem_renderEntries (oneLine : ∀ bits, '\n' ∉ (formatFloat bits).toList) :
    ∀ entries : List (String × Value), '\n' ∉ renderEntries formatFloat entries
  | [] => by simp [renderEntries]
  | [(key, value)] => by
    simp [renderEntries, newline_notMem_renderStr, value.newline_notMem_render oneLine]
  | (key, value) :: next :: rest => by
    simp [renderEntries, newline_notMem_renderStr, value.newline_notMem_render oneLine,
      newline_notMem_renderEntries oneLine (next :: rest)]

end
end Render

open Value
namespace Value

/-- `Map::insert`: the new value replaces one of the same key. -/
def insertEntry (key : String) (value : Value) : List (String × Value) → List (String × Value)
  | [] => [(key, value)]
  | entry :: rest =>
    if key < entry.1 then (key, value) :: entry :: rest
    else if key = entry.1 then (key, value) :: rest
    else entry :: insertEntry key value rest

def obj (entries : List (String × Value)) : Value :=
  .object (entries.foldl (fun map entry => insertEntry entry.1 entry.2 map) [])

/-- `value[key] = new` on an object, or on `null`, which becomes one. -/
def set (value : Value) (key : String) (new : Value) : Value :=
  match value with
  | .object entries => .object (insertEntry key new entries)
  | other => if other.isNull then .object [(key, new)] else other

def ofNat (value : Nat) : Value := .number (.posInt value)

def ofInt : Int → Value
  | .ofNat value => .number (.posInt value)
  | .negSucc value => .number (.negInt (.negSucc value))

theorem get_cons (entry : String × Value) (rest : List (String × Value)) (name : String) :
    (object (entry :: rest)).get name = if entry.1 = name then some entry.2 else (object rest).get name := by
  by_cases here : entry.1 = name <;> simp [get, here]

@[simp] theorem get_insertEntry (key name : String) (value : Value) (entries : List (String × Value)) :
    (object (insertEntry key value entries)).get name =
      if name = key then some value else (object entries).get name := by
  induction entries with
  | nil =>
    rw [insertEntry, get_cons]
    exact if_congr eq_comm rfl rfl
  | cons entry rest ih =>
    rw [insertEntry]
    split
    · rw [get_cons]
      exact if_congr eq_comm rfl rfl
    · split
      next same =>
        rw [get_cons, get_cons]
        by_cases here : name = key
        · rw [if_pos here, if_pos here.symm]
        · rw [if_neg here, if_neg (Ne.symm here), if_neg (same ▸ Ne.symm here)]
      next other =>
        rw [get_cons, get_cons, ih]
        by_cases here : entry.1 = name
        · rw [if_pos here, if_pos here, if_neg (here ▸ Ne.symm other)]
        · rw [if_neg here, if_neg here]

@[simp] theorem get_object_nil (name : String) : (object []).get name = none := rfl

@[simp] theorem get_set (entries : List (String × Value)) (key name : String) (new : Value) :
    ((object entries).set key new).get name = if name = key then some new else (object entries).get name :=
  get_insertEntry key name new entries

/-- A map as it is kept: each key once, in order. -/
def KeyOrdered : Value → Prop
  | .object entries => entries.Pairwise fun first second => first.1 < second.1
  | _ => True

theorem insertEntry_self {key : String} {value : Value} {entries : List (String × Value)}
    (ordered : entries.Pairwise fun first second => first.1 < second.1)
    (found : (object entries).get key = some value) : insertEntry key value entries = entries := by
  induction entries with
  | nil => cases found
  | cons entry rest ih =>
    obtain ⟨below, ordered⟩ := List.pairwise_cons.1 ordered
    rw [get_cons] at found
    by_cases here : entry.1 = key
    · rw [if_pos here] at found
      cases found
      rw [insertEntry, ← here, if_neg (String.lt_irrefl _), if_pos rfl]
    · rw [if_neg here] at found
      obtain ⟨other, member, named⟩ : ∃ other ∈ rest, other.1 = key := by
        obtain ⟨other, looked, -⟩ := Option.map_eq_some_iff.1 found
        exact ⟨other, List.mem_of_find?_eq_some looked, by simpa using List.find?_some looked⟩
      have above : entry.1 < key := named ▸ below other member
      rw [insertEntry, if_neg (String.lt_asymm above), if_neg (Ne.symm here), ih ordered found]

theorem set_self {value new : Value} {key : String} (ordered : value.KeyOrdered)
    (found : value.get key = some new) : value.set key new = value := by
  cases value with
  | object entries => exact congrArg object (insertEntry_self ordered found)
  | _ => cases found

end Value

mutual

/-- Equality of values, by their structure. -/
def Value.same : Value → Value → Bool
  | .null, .null => true
  | .bool first, .bool second => first == second
  | .number first, .number second => decide (first = second)
  | .string first, .string second => first == second
  | .array first, .array second => sameItems first second
  | .object first, .object second => sameEntries first second
  | _, _ => false

def sameItems : List Value → List Value → Bool
  | [], [] => true
  | first :: firsts, second :: seconds => first.same second && sameItems firsts seconds
  | _, _ => false

def sameEntries : List (String × Value) → List (String × Value) → Bool
  | [], [] => true
  | (key, first) :: firsts, (name, second) :: seconds =>
    key == name && first.same second && sameEntries firsts seconds
  | _, _ => false

end

mutual

theorem Value.same_iff : ∀ first second : Value, first.same second = true ↔ first = second
  | .null, second => by cases second <;> simp [same]
  | .bool _, second => by cases second <;> simp [same]
  | .number _, second => by cases second <;> simp [same]
  | .string _, second => by cases second <;> simp [same]
  | .array items, second => by
    cases second <;> simp [same]
    exact sameItems_iff items _
  | .object entries, second => by
    cases second <;> simp [same]
    exact sameEntries_iff entries _

theorem sameItems_iff : ∀ firsts seconds : List Value, sameItems firsts seconds = true ↔ firsts = seconds
  | [], seconds => by cases seconds <;> simp [sameItems]
  | first :: firsts, [] => by simp [sameItems]
  | first :: firsts, second :: seconds => by
    simp [sameItems, first.same_iff second, sameItems_iff firsts seconds]

theorem sameEntries_iff : ∀ firsts seconds : List (String × Value),
    sameEntries firsts seconds = true ↔ firsts = seconds
  | [], seconds => by cases seconds <;> simp [sameEntries]
  | (key, first) :: firsts, [] => by simp [sameEntries]
  | (key, first) :: firsts, (name, second) :: seconds => by
    simp [sameEntries, first.same_iff second, sameEntries_iff firsts seconds]

end

instance : DecidableEq Value := fun first second =>
  decidable_of_iff _ (first.same_iff second)

end Mahoquot.Compat
