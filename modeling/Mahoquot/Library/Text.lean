import Mathlib.Algebra.Ring.Int.Defs
import Mathlib.Algebra.Ring.Nat
import Mathlib.Data.List.Basic

/-! Text operations of a systems language's standard library, over the characters of a
string: affixes, occurrences, splitting, trimming and decimal parsing. -/

set_option autoImplicit false

namespace Mahoquot.Library.Text
open List

def stripChars? : List Char → List Char → Option (List Char)
  | [], text => some text
  | _ :: _, [] => none
  | expected :: rest, char :: text => if expected = char then stripChars? rest text else none

def stripPrefix? (affix text : String) : Option String :=
  (stripChars? affix.toList text.toList).map String.ofList

def startsWith (affix text : String) : Bool := (stripPrefix? affix text).isSome

def endsWith (affix text : String) : Bool :=
  (stripChars? affix.toList.reverse text.toList.reverse).isSome

def stripSuffix? (affix text : String) : Option String :=
  (stripChars? affix.toList.reverse text.toList.reverse).map fun rest =>
    String.ofList rest.reverse

def findChars? (needle : List Char) : List Char → Option (List Char × List Char)
  | [] => (stripChars? needle []).map fun rest => ([], rest)
  | char :: text =>
    match stripChars? needle (char :: text) with
    | some rest => some ([], rest)
    | none => (findChars? needle text).map fun found => (char :: found.1, found.2)

def splitAt? (needle text : String) : Option (String × String) :=
  (findChars? needle.toList text.toList).map fun found =>
    (String.ofList found.1, String.ofList found.2)

def contains (needle text : String) : Bool := (splitAt? needle text).isSome

def splitOnce? (separator : Char) (text : String) : Option (String × String) :=
  splitAt? (String.ofList [separator]) text

def rsplitOnce? (separator : Char) (text : String) : Option (String × String) :=
  (findChars? [separator] text.toList.reverse).map fun found =>
    (String.ofList found.2.reverse, String.ofList found.1.reverse)

def splitChars (separator : Char → Bool) : List Char → List (List Char)
  | [] => [[]]
  | char :: text =>
    match splitChars separator text with
    | [] => [[char]]
    | first :: rest => if separator char then [] :: first :: rest
        else (char :: first) :: rest

def split (separator : Char) (text : String) : List String :=
  (splitChars (· == separator) text.toList).map String.ofList

/-- `char::is_whitespace`: the Unicode property `White_Space`. -/
def isWhitespace (char : Char) : Bool :=
  let code := char.toNat
  (9 ≤ code && code ≤ 13) || code == 32 || code == 0x85 || code == 0xA0 ||
    code == 0x1680 || (0x2000 ≤ code && code ≤ 0x200A) || code == 0x2028 ||
    code == 0x2029 || code == 0x202F || code == 0x205F || code == 0x3000

/-- `char::is_control`: the general category `Cc`. -/
def isControl (char : Char) : Bool :=
  let code := char.toNat
  code < 32 || (127 ≤ code && code < 160)

def splitWhitespace (text : String) : List String :=
  ((splitChars isWhitespace text.toList).filter fun part => !part.isEmpty).map String.ofList

def trim (text : String) : String :=
  String.ofList (((text.toList.dropWhile isWhitespace).reverse.dropWhile isWhitespace).reverse)

def toAsciiLowercase (text : String) : String :=
  String.ofList (text.toList.map fun char =>
    if 'A' ≤ char ∧ char ≤ 'Z' then Char.ofNat (char.toNat + 32) else char)

def isAsciiDigit (char : Char) : Bool := '0' ≤ char && char ≤ '9'

def decimal (digits : List Char) : Nat :=
  digits.foldl (fun value digit => value * 10 + (digit.toNat - 48)) 0

/-- `str::parse::<i64>`: an optional sign, then ASCII digits, within range. -/
def parseI64? (text : String) : Option Int :=
  let signed : Int × List Char := match text.toList with
    | '-' :: digits => (-1, digits)
    | '+' :: digits => (1, digits)
    | digits => (1, digits)
  if signed.2.isEmpty || !signed.2.all isAsciiDigit then none
  else
    let value := signed.1 * (decimal signed.2 : Int)
    if -(2 ^ 63) ≤ value ∧ value < 2 ^ 63 then some value else none

theorem trim_eq_self {text : String} (solid : ∀ char ∈ text.toList, isWhitespace char = false) : trim text = text := by
  have untouched (chars : List Char) (solid : ∀ char ∈ chars, isWhitespace char = false) :
      chars.dropWhile isWhitespace = chars := by
    cases chars with
    | nil => rfl
    | cons char chars => simp [solid char]
  have reversed : ∀ char ∈ text.toList.reverse, isWhitespace char = false := by
    simpa using solid
  simp [trim, untouched _ solid, untouched _ reversed]

theorem stripChars?_eq_some {affix text rest : List Char} :
    stripChars? affix text = some rest ↔ text = affix ++ rest := by
  induction affix generalizing text with
  | nil => simp [stripChars?]
  | cons expected affix ih =>
    cases text with
    | nil => simp [stripChars?]
    | cons char text =>
      rw [stripChars?]
      split
      · rename_i same
        simp [ih, same]
      · rename_i other
        simp [Ne.symm other]

theorem startsWith_iff {affix text : String} : startsWith affix text = true ↔ affix.toList <+: text.toList := by
  rw [startsWith, stripPrefix?, Option.isSome_map, Option.isSome_iff_exists]
  constructor
  · rintro ⟨rest, stripped⟩
    exact ⟨rest, (stripChars?_eq_some.mp stripped).symm⟩
  · rintro ⟨rest, whole⟩
    exact ⟨rest, stripChars?_eq_some.mpr whole.symm⟩

theorem findChars?_cons (separator char : Char) (text : List Char) : findChars? [separator] (char :: text) =
      if separator = char then some ([], text)
      else (findChars? [separator] text).map fun found => (char :: found.1, found.2) := by
  by_cases same : separator = char
  · simp [findChars?, stripChars?, same]
  · simp [findChars?, stripChars?, same]

variable {separator : Char}

theorem findChars?_eq_none {text : List Char} : findChars? [separator] text = none ↔ separator ∉ text := by
  induction text with
  | nil => simp [findChars?, stripChars?]
  | cons char text ih =>
    rw [findChars?_cons]
    by_cases same : separator = char
    · simp [same]
    · simp [same, ih]

theorem findChars?_eq_some {text first rest : List Char} (found : findChars? [separator] text = some (first, rest)) :
    separator ∉ first ∧ text = first ++ separator :: rest := by
  induction text generalizing first with
  | nil => simp [findChars?, stripChars?] at found
  | cons char text ih =>
    rw [findChars?_cons] at found
    split at found
    · rename_i same
      cases found
      simp [same]
    · rename_i other
      obtain ⟨⟨later, _⟩, further, split⟩ := Option.map_eq_some_iff.mp found
      cases split
      obtain ⟨clean, whole⟩ := ih further
      simp [other, clean, whole]

/-- A needle is found at once behind text that does not have its first character. -/
theorem findChars?_first {first : Char} {before : List Char} (clear : first ∉ before) (needle behind : List Char) :
    findChars? (first :: needle) (before ++ (first :: needle ++ behind)) = some (before, behind) := by
  induction before with
  | nil =>
    have here : stripChars? (first :: needle) (first :: (needle ++ behind)) = some behind := stripChars?_eq_some.mpr rfl
    simp only [nil_append, cons_append, findChars?, here]
  | cons char before ih =>
    have other : first ≠ char := fun same => clear (same ▸ mem_cons_self)
    have skipped : stripChars? (first :: needle) (char :: (before ++ (first :: needle ++ behind))) = none := if_neg other
    rw [cons_append, findChars?, skipped, ih fun member => clear (mem_cons_of_mem _ member)]
    rfl

theorem splitOnce?_eq_none {text : String} : splitOnce? separator text = none ↔ separator ∉ text.toList := by
  simp [splitOnce?, splitAt?, findChars?_eq_none]

theorem splitOnce?_eq_some {text first rest : String} (found : splitOnce? separator text = some (first, rest)) :
    separator ∉ first.toList ∧ first.toList ++ [separator] <+: text.toList := by
  rw [splitOnce?, splitAt?, String.toList_ofList, Option.map_eq_some_iff] at found
  obtain ⟨⟨before, after⟩, found, split⟩ := found
  cases split
  obtain ⟨clean, whole⟩ := findChars?_eq_some found
  rw [String.toList_ofList]
  exact ⟨clean, after, by simp [whole]⟩

/-- Of two names that are followed by the separator in one text, the one
without a separator of its own is the other's first segment. -/
theorem first_segment {first other text : List Char} (clean : separator ∉ first)
    (starts : first ++ [separator] <+: text) (again : other ++ [separator] <+: text) :
    other = first ∨ first ++ [separator] <+: other := by
  rcases prefix_or_prefix_of_prefix starts again with shorter | longer
  · rcases prefix_concat_iff.mp shorter with same | within
    · left
      exact (append_cancel_right same).symm
    · exact .inr within
  · rcases prefix_concat_iff.mp longer with same | within
    · left
      exact append_cancel_right same
    · exact absurd (within.subset (by simp)) clean

theorem eq_of_first_separator {left left' right right' : List Char} (clean : separator ∉ left)
    (clean' : separator ∉ left') (same : left ++ separator :: right = left' ++ separator :: right') :
    left = left' ∧ right = right' := by
  have cut {left right : List Char} (clean : separator ∉ left) :
      (left ++ separator :: right).takeWhile (· != separator) = left := by
    rw [takeWhile_append_of_pos]
    · simp
    · intro item member
      simpa using ne_of_mem_of_not_mem member clean
  obtain rfl : left = left' := by rw [← cut clean, same, cut clean']
  exact ⟨rfl, (cons.inj (append_cancel_left same)).2⟩

theorem eq_of_last_separator {left left' right right' : List Char} (clean : separator ∉ right)
    (clean' : separator ∉ right') (same : left ++ separator :: right = left' ++ separator :: right') :
    left = left' ∧ right = right' := by
  have mirrored := congrArg reverse same
  simp only [reverse_append, reverse_cons, append_assoc] at mirrored
  obtain ⟨rights, lefts⟩ := eq_of_first_separator (by simpa) (by simpa) mirrored
  exact ⟨reverse_injective lefts, reverse_injective rights⟩

example : splitAt? ". Try" "glm-5. Try again" = some ("glm-5", " again") := by decide +kernel

example : parseI64? "-042" = some (-42) := by decide +kernel

example : rsplitOnce? '-' "a-b-0731" = some ("a-b", "0731") := by decide +kernel

end Mahoquot.Library.Text
