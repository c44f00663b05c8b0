import Mahoquot.Compat.Value

/-! Reading UTF-8 the way the standard library does: valid text, the length of an invalid
sequence, and lossy decoding with one replacement for each. The encoding of a character is
read back as that character, and each proper part of it as an unfinished one. -/

set_option autoImplicit false

namespace Mahoquot.Compat

inductive Utf8Step where
  | char (char : Char) (rest : Bytes)
  /-- A sequence of `len` bytes that begins no character. -/
  | invalid (len : Nat)
  /-- The input ends inside a character. -/
  | incomplete
deriving Repr, DecidableEq

def isContinuation (byte : UInt8) : Bool := 0x80 ≤ byte && byte ≤ 0xBF

/-- Which second bytes a three- or four-byte character may have: no overlong
form, no surrogate, nothing above the last code point. -/
def isSecond (first second : UInt8) : Bool :=
  if first = 0xE0 then 0xA0 ≤ second && second ≤ 0xBF
  else if first = 0xED then 0x80 ≤ second && second ≤ 0x9F
  else if first = 0xF0 then 0x90 ≤ second && second ≤ 0xBF
  else if first = 0xF4 then 0x80 ≤ second && second ≤ 0x8F
  else isContinuation second

def codePoint (lead : Nat) (tail : List UInt8) : Char :=
  Char.ofNat (tail.foldl (fun value byte => value * 64 + byte.toNat % 64) lead)

def utf8Step (first : UInt8) (rest : Bytes) : Utf8Step :=
  if first < 0x80 then .char (Char.ofNat first.toNat) rest
  else if 0xC2 ≤ first && first ≤ 0xDF then
    match rest with
    | [] => .incomplete
    | second :: rest =>
      if isContinuation second then .char (codePoint (first.toNat % 32) [second]) rest
      else .invalid 1
  else if 0xE0 ≤ first && first ≤ 0xEF then
    match rest with
    | [] => .incomplete
    | second :: rest =>
      if !isSecond first second then .invalid 1
      else
        match rest with
        | [] => .incomplete
        | third :: rest =>
          if isContinuation third then
            .char (codePoint (first.toNat % 16) [second, third]) rest
          else .invalid 2
  else if 0xF0 ≤ first && first ≤ 0xF4 then
    match rest with
    | [] => .incomplete
    | second :: rest =>
      if !isSecond first second then .invalid 1
      else
        match rest with
        | [] => .incomplete
        | third :: rest =>
          if !isContinuation third then .invalid 2
          else
            match rest with
            | [] => .incomplete
            | fourth :: rest =>
              if isContinuation fourth then
                .char (codePoint (first.toNat % 8) [second, third, fourth]) rest
              else .invalid 3
  else .invalid 1

structure Utf8Error where
  validUpTo : List Char
  remaining : Bytes
  errorLen : Option Nat
deriving Repr, DecidableEq

/-- The loop of `from_utf8`; every round takes a byte. -/
def fromUtf8Loop : Nat → List Char → Bytes → Except Utf8Error (List Char)
  | 0, text, remaining => .error ⟨text, remaining, none⟩
  | _ + 1, text, [] => .ok text
  | fuel + 1, text, first :: rest =>
    match utf8Step first rest with
    | .char char rest => fromUtf8Loop fuel (text ++ [char]) rest
    | .invalid len => .error ⟨text, first :: rest, some len⟩
    | .incomplete => .error ⟨text, first :: rest, none⟩

def fromUtf8 (bytes : Bytes) : Except Utf8Error (List Char) :=
  fromUtf8Loop (bytes.length + 1) [] bytes

def replacement : Char := '�'

def fromUtf8LossyLoop : Nat → Bytes → List Char
  | 0, _ => []
  | _ + 1, [] => []
  | fuel + 1, first :: rest =>
    match utf8Step first rest with
    | .char char rest => char :: fromUtf8LossyLoop fuel rest
    | .invalid len => replacement :: fromUtf8LossyLoop fuel ((first :: rest).drop len)
    | .incomplete => [replacement]

def fromUtf8Lossy (bytes : Bytes) : List Char := fromUtf8LossyLoop (bytes.length + 1) bytes

open List UInt8

def following (value : Nat) : UInt8 := ofNat (value + 0x80)

theorem following_bits : ∀ value < 64, isContinuation (following value) = true ∧
    (following value).toNat % 64 = value := by decide

theorem isSecond_three : ∀ lead < 16, ∀ second < 64, (lead = 0 → 32 ≤ second) → (lead = 13 → second < 32) →
      isSecond (ofNat (lead + 0xE0)) (following second) = true := by decide

theorem isSecond_four : ∀ lead < 5, ∀ second < 64, (lead = 0 → 16 ≤ second) → (lead = 4 → second < 16) →
      isSecond (ofNat (lead + 0xF0)) (following second) = true := by decide

theorem utf8Step_ascii {value : Nat} (small : value < 0x80) (rest : Bytes) :
    utf8Step (ofNat value) rest = .char (Char.ofNat value) rest := by
  have range : ∀ value < 0x80, ofNat value < 0x80 ∧ (ofNat value).toNat = value := by decide
  obtain ⟨ascii, bits⟩ := range value small
  unfold utf8Step
  rw [if_pos ascii, bits]

theorem lead_two : ∀ lead < 32, 2 ≤ lead → ¬ ofNat (lead + 0xC0) < 0x80 ∧
    (0xC2 ≤ ofNat (lead + 0xC0) && ofNat (lead + 0xC0) ≤ 0xDF) = true ∧
    (ofNat (lead + 0xC0)).toNat % 32 = lead := by decide

theorem lead_three : ∀ lead < 16, ¬ ofNat (lead + 0xE0) < 0x80 ∧
    ¬ (0xC2 ≤ ofNat (lead + 0xE0) && ofNat (lead + 0xE0) ≤ 0xDF) = true ∧
    (0xE0 ≤ ofNat (lead + 0xE0) && ofNat (lead + 0xE0) ≤ 0xEF) = true ∧
    (ofNat (lead + 0xE0)).toNat % 16 = lead := by decide

theorem lead_four : ∀ lead < 5, ¬ ofNat (lead + 0xF0) < 0x80 ∧
    ¬ (0xC2 ≤ ofNat (lead + 0xF0) && ofNat (lead + 0xF0) ≤ 0xDF) = true ∧
    ¬ (0xE0 ≤ ofNat (lead + 0xF0) && ofNat (lead + 0xF0) ≤ 0xEF) = true ∧
    (0xF0 ≤ ofNat (lead + 0xF0) && ofNat (lead + 0xF0) ≤ 0xF4) = true ∧
    (ofNat (lead + 0xF0)).toNat % 8 = lead := by decide

structure Encodes (bytes : Bytes) (char : Char) : Prop where
  read : ∃ first tail, bytes = first :: tail ∧
    ∀ rest, utf8Step first (tail ++ rest) = .char char rest
  unfinished : ∀ {first : UInt8} {part rest : Bytes}, bytes = first :: part ++ rest → rest ≠ [] →
    utf8Step first part = .incomplete

/-- A part of the bytes is the first of them and some of the others. -/
theorem encodes_of_take {first : UInt8} {tail : Bytes} {char : Char}
    (read : ∀ rest, utf8Step first (tail ++ rest) = .char char rest)
    (cut : ∀ count < tail.length, utf8Step first (tail.take count) = .incomplete) : Encodes (first :: tail) char := by
  refine ⟨⟨first, tail, rfl, read⟩, fun {_ part rest} shape more => ?_⟩
  rw [cons_append] at shape
  obtain ⟨rfl, rfl⟩ := shape
  have shorter := cut part.length
  rw [take_left, length_append] at shorter
  exact shorter (Nat.lt_add_of_pos_right (length_pos_of_ne_nil more))

theorem encodes_ascii {value : Nat} (small : value < 0x80) : Encodes [ofNat value] (Char.ofNat value) :=
  encodes_of_take (utf8Step_ascii small) fun _ below => absurd below (Nat.not_lt_zero _)

theorem encodes_two (lead second : Nat) (low : 2 ≤ lead) (high : lead < 32) (small : second < 64) :
    Encodes [ofNat (lead + 0xC0), following second] (Char.ofNat (lead * 64 + second)) := by
  obtain ⟨multi, two, leadBits⟩ := lead_two lead high low
  obtain ⟨continues, bits⟩ := following_bits second small
  refine encodes_of_take (fun rest => ?_) (fun count below => ?_)
  · unfold utf8Step
    rw [if_neg multi, if_pos two, leadBits]
    simp [continues, codePoint, bits]
  · unfold utf8Step
    rw [if_neg multi, if_pos two]
    match count, below with
    | 0, _ => rfl

theorem encodes_three (lead second third : Nat) (high : lead < 16) (small : second < 64)
    (last : third < 64) (overlong : lead = 0 → 32 ≤ second) (surrogate : lead = 13 → second < 32) :
    Encodes [ofNat (lead + 0xE0), following second, following third]
      (Char.ofNat ((lead * 64 + second) * 64 + third)) := by
  have fits := isSecond_three lead high second small overlong surrogate
  obtain ⟨multi, two, three, leadBits⟩ := lead_three lead high
  obtain ⟨continues, bits⟩ := following_bits third last
  refine encodes_of_take (fun rest => ?_) (fun count below => ?_)
  · unfold utf8Step
    rw [if_neg multi, if_neg two, if_pos three, leadBits]
    simp [-ofNat_add, fits, continues, codePoint, (following_bits second small).2, bits]
  · unfold utf8Step
    rw [if_neg multi, if_neg two, if_pos three]
    match count, below with
    | 0, _ => rfl
    | 1, _ => simp [-ofNat_add, fits]

theorem encodes_four (lead second third fourth : Nat) (high : lead < 5) (small : second < 64) (middle : third < 64)
    (last : fourth < 64) (overlong : lead = 0 → 16 ≤ second) (above : lead = 4 → second < 16) :
    Encodes [ofNat (lead + 0xF0), following second, following third, following fourth]
      (Char.ofNat (((lead * 64 + second) * 64 + third) * 64 + fourth)) := by
  have fits := isSecond_four lead high second small overlong above
  obtain ⟨multi, two, three, four, leadBits⟩ := lead_four lead high
  obtain ⟨continues, bits⟩ := following_bits third middle
  obtain ⟨ends, lastBits⟩ := following_bits fourth last
  refine encodes_of_take (fun rest => ?_) (fun count below => ?_)
  · unfold utf8Step
    rw [if_neg multi, if_neg two, if_neg three, if_pos four, leadBits]
    simp [-ofNat_add, fits, continues, ends, codePoint, (following_bits second small).2, bits, lastBits]
  · unfold utf8Step
    rw [if_neg multi, if_neg two, if_neg three, if_pos four]
    match count, below with
    | 0, _ => rfl
    | 1, _ => simp [-ofNat_add, fits]
    | 2, _ => simp [-ofNat_add, fits, continues]

theorem encodes_utf8EncodeChar (char : Char) : Encodes (String.utf8EncodeChar char) char := by
  have valid : char.val.toNat < 0xD800 ∨ 0xDFFF < char.val.toNat ∧ char.val.toNat < 0x110000 := char.valid
  have same : Char.ofNat char.val.toNat = char := Char.ofNat_toNat char
  generalize number : char.val.toNat = value at same valid
  unfold String.utf8EncodeChar
  simp only [number]
  split
  · rw [← same]
    exact encodes_ascii (by omega)
  · split
    · have encodes := encodes_two (value / 64 % 0x20) (value % 64) (by omega) (by omega) (by omega)
      rwa [show value / 64 % 0x20 * 64 + value % 64 = value by omega, same] at encodes
    · split
      · have encodes := encodes_three (value / 4096 % 0x10) (value / 64 % 64) (value % 64)
          (by omega) (by omega) (by omega) (by omega) (by omega)
        rwa [show (value / 4096 % 0x10 * 64 + value / 64 % 64) * 64 + value % 64 = value by omega, same] at encodes
      · have encodes := encodes_four (value / 262144 % 0x08) (value / 4096 % 64)
          (value / 64 % 64) (value % 64) (by omega) (by omega) (by omega) (by omega) (by omega) (by omega)
        rwa [show ((value / 262144 % 0x08 * 64 + value / 4096 % 64) * 64 + value / 64 % 64) * 64 +
          value % 64 = value by omega, same] at encodes

def encodeChars (chars : List Char) : Bytes := chars.flatMap String.utf8EncodeChar

variable (chars : List Char)

theorem length_le_encodeChars : chars.length ≤ (encodeChars chars).length := by
  induction chars with
  | nil => exact Nat.zero_le _
  | cons char chars ih =>
    obtain ⟨first, tail, shape, -⟩ := (encodes_utf8EncodeChar char).read
    unfold encodeChars at ih ⊢
    rw [flatMap_cons, shape, length_append, length_cons, length_cons]
    omega

theorem fromUtf8Loop_encodeChars (fuel : Nat) (text : List Char) (rest : Bytes) :
    fromUtf8Loop (fuel + chars.length) text (encodeChars chars ++ rest) = fromUtf8Loop fuel (text ++ chars) rest := by
  induction chars generalizing text with
  | nil => simp [encodeChars]
  | cons char chars ih =>
    obtain ⟨first, tail, shape, step⟩ := (encodes_utf8EncodeChar char).read
    have bytes : encodeChars (char :: chars) ++ rest =
        first :: (tail ++ (encodeChars chars ++ rest)) := by
      simp only [encodeChars, flatMap_cons, shape, cons_append, append_assoc]
    rw [bytes, length_cons, ← Nat.add_assoc, fromUtf8Loop, step]
    simp only
    rw [ih, append_assoc, singleton_append]

/-- After whole characters, reading goes on where they end. -/
theorem fromUtf8_encodeChars (rest : Bytes) : ∃ fuel, rest.length < fuel ∧
      fromUtf8 (encodeChars chars ++ rest) = fromUtf8Loop fuel chars rest := by
  have enough := length_le_encodeChars chars
  refine ⟨(encodeChars chars ++ rest).length + 1 - chars.length, ?_, ?_⟩
  · rw [length_append]
    omega
  · have read := fromUtf8Loop_encodeChars chars ((encodeChars chars ++ rest).length + 1 - chars.length) [] rest
    rw [Nat.sub_add_cancel (by rw [length_append]; omega)] at read
    exact read

theorem fromUtf8_complete : fromUtf8 (encodeChars chars) = .ok chars := by
  obtain ⟨fuel, positive, read⟩ := fromUtf8_encodeChars chars []
  rw [append_nil] at read
  rw [read]
  cases fuel with
  | zero => cases positive
  | succ fuel => rfl

theorem fromUtf8_utf8 (text : String) : fromUtf8 (utf8 text) = .ok text.toList :=
  fromUtf8_complete text.toList

theorem fromUtf8LossyLoop_encodeChars (fuel : Nat) :
    fromUtf8LossyLoop (fuel + chars.length + 1) (encodeChars chars) = chars := by
  induction chars with
  | nil => rfl
  | cons char chars ih =>
    obtain ⟨first, tail, shape, step⟩ := (encodes_utf8EncodeChar char).read
    have bytes : encodeChars (char :: chars) = first :: (tail ++ encodeChars chars) := by
      simp only [encodeChars, flatMap_cons, shape, cons_append]
    rw [bytes, fromUtf8LossyLoop, step]
    exact congrArg (char :: ·) ih

theorem fromUtf8Lossy_encodeChars : fromUtf8Lossy (encodeChars chars) = chars := by
  have enough := length_le_encodeChars chars
  have read := fromUtf8LossyLoop_encodeChars chars ((encodeChars chars).length - chars.length)
  rw [Nat.sub_add_cancel enough] at read
  exact read

/-- Text that stops inside a character is read up to it. -/
theorem fromUtf8_unfinished {char : Char} {part rest : Bytes}
    (shape : String.utf8EncodeChar char = part ++ rest) (some : part ≠ []) (more : rest ≠ []) :
    fromUtf8 (encodeChars chars ++ part) = .error ⟨chars, part, none⟩ := by
  obtain ⟨fuel, positive, read⟩ := fromUtf8_encodeChars chars part
  rw [read]
  cases part with
  | nil => exact absurd rfl some
  | cons first part =>
    cases fuel with
    | zero => cases positive
    | succ fuel => rw [fromUtf8Loop, (encodes_utf8EncodeChar char).unfinished shape more]

/-- No byte, or the first bytes of a character but not all of them. -/
def Unfinished (part : Bytes) : Prop :=
  part = [] ∨ ∃ char rest, String.utf8EncodeChar char = part ++ rest ∧ part ≠ [] ∧ rest ≠ []

theorem encodeChars_append (front back : List Char) :
    encodeChars (front ++ back) = encodeChars front ++ encodeChars back :=
  flatMap_append

/-- Where a cut through encoded text falls: behind whole characters, and perhaps
inside the next one. -/
theorem encodeChars_cut {bytes : Bytes} {chars : List Char} (within : bytes <+: encodeChars chars) :
    ∃ taken left part, chars = taken ++ left ∧ bytes = encodeChars taken ++ part ∧ Unfinished part := by
  induction chars generalizing bytes with
  | nil => exact ⟨[], [], [], rfl, prefix_nil.mp within, .inl rfl⟩
  | cons char chars ih =>
    have head := prefix_append (String.utf8EncodeChar char) (encodeChars chars)
    rcases Nat.lt_or_ge bytes.length (String.utf8EncodeChar char).length with inside | behind
    · obtain ⟨rest, split⟩ := prefix_of_prefix_length_le within head (Nat.le_of_lt inside)
      refine ⟨[], char :: chars, bytes, rfl, rfl, ?_⟩
      by_cases none : bytes = []
      · exact .inl none
      · refine .inr ⟨char, rest, split.symm, none, ?_⟩
        rintro rfl
        rw [append_nil] at split
        rw [split] at inside
        exact Nat.lt_irrefl _ inside
    · obtain ⟨more, rfl⟩ := prefix_of_prefix_length_le head within behind
      obtain ⟨taken, left, part, rfl, rfl, unfinished⟩ := ih ((prefix_append_right_inj _).mp within)
      refine ⟨char :: taken, left, part, rfl, ?_, unfinished⟩
      rw [← append_assoc]
      rfl

end Mahoquot.Compat
