import Mahoquot.Compat.DecoderProperties
import Mahoquot.Library.Chunking

/-! A Kiro stream means the same however it is cut, and its reads stay in bounds. -/

set_option autoImplicit false

namespace Mahoquot.Compat
open Library List Option Nat

section Reads
variable {frame : Bytes} {headerEnd : Nat}

theorem slice?_within {start stop : Nat} (order : start ≤ stop) (within : stop ≤ headerEnd)
    (held : headerEnd ≤ frame.length) :
    slice? frame start stop = some (((frame.take headerEnd).drop start).take (stop - start)) := by
  rw [slice?, if_pos ⟨order, Nat.le_trans within held⟩, take_drop, Nat.add_sub_cancel' order, take_take, min_eq_left within]

theorem drop_headers {cursor : Nat} {byte : UInt8} {rest : Bytes}
    (read : (frame.take headerEnd).drop cursor = byte :: rest) :
    frame[cursor]? = some byte ∧ rest = (frame.take headerEnd).drop (cursor + 1) := by
  have head : (frame.take headerEnd)[cursor]? = some byte := by
    rw [← head?_drop, read, head?_cons]
  refine ⟨?_, ?_⟩
  · obtain ⟨bound, at_⟩ := List.getElem?_eq_some_iff.mp head
    rw [getElem_take] at at_
    exact List.getElem?_eq_some_iff.mpr ⟨_, at_⟩
  rw [← drop_drop, read, drop_succ_cons, drop_zero]

theorem scanHeadersAt_eq (held : headerEnd ≤ frame.length) (fuel : Nat) {cursor : Nat}
    (errorType : Option String) : scanHeadersAt frame headerEnd fuel cursor errorType =
      some (scanHeaders fuel errorType ((frame.take headerEnd).drop cursor)) := by
  induction fuel generalizing cursor errorType with
  | zero => rfl
  | succ fuel ih =>
    have size : (frame.take headerEnd).length = headerEnd := length_take_of_le held
    cases read : (frame.take headerEnd).drop cursor with
    | nil =>
      have past : ¬ cursor < headerEnd := by
        have := drop_eq_nil_iff.mp read
        omega
      rw [scanHeadersAt, if_neg past]
      rfl
    | cons nameLen rest =>
      have inside : cursor < headerEnd := by
        have := congrArg length read
        rw [length_drop, length_cons] at this
        omega
      obtain ⟨first, behind⟩ := drop_headers read
      have left : rest.length = headerEnd - (cursor + 1) := by
        rw [behind, length_drop, size]
      rw [scanHeadersAt, if_pos inside, first, bind_eq_bind]
      simp only [scanHeaders]
      by_cases short : cursor + 1 + nameLen.toNat + 3 > headerEnd
      · have few : rest.length < nameLen.toNat + 3 := by omega
        simp [short, few]
      have many : ¬ rest.length < nameLen.toNat + 3 := by omega
      cases kindRead : rest.drop nameLen.toNat with
      | nil =>
        have := drop_eq_nil_iff.mp kindRead
        omega
      | cons kind body =>
        rw [behind, drop_drop] at kindRead
        obtain ⟨second, bodyRead⟩ := drop_headers kindRead
        have name := slice?_within (le_add_right (cursor + 1) nameLen.toNat)
          (show cursor + 1 + nameLen.toNat ≤ headerEnd by omega) held
        have width := slice?_within (le_add_right (cursor + 1 + nameLen.toNat + 1) 2)
          (show cursor + 1 + nameLen.toNat + 1 + 2 ≤ headerEnd by omega) held
        rw [Nat.add_sub_cancel_left, ← behind] at name
        rw [Nat.add_sub_cancel_left, ← bodyRead] at width
        simp only [short, many, second, name, width, ↓reduceIte, bind_some,
          bind_eq_bind, decide_false, Bool.false_or, headD_cons,
          drop_succ_cons, drop_zero, bne_iff_ne]
        by_cases text : kind ≠ 7
        · rw [if_pos text, if_pos text]
          rfl
        rw [if_neg text, if_neg text]
        have value : body.drop 2 =
            (frame.take headerEnd).drop (cursor + 1 + nameLen.toNat + 1 + 2) := by
          rw [bodyRead, drop_drop]
        have room : (body.drop 2).length =
            headerEnd - (cursor + 1 + nameLen.toNat + 1 + 2) := by
          rw [value, length_drop, size]
        generalize u32FromBeBytes (body.take 2) = len
        by_cases beyond : cursor + 1 + nameLen.toNat + 1 + 2 + len > headerEnd
        · rw [if_pos beyond, if_pos (by omega)]
          rfl
        rw [if_neg beyond, if_neg (by omega), slice?_within (le_add_right _ len) (le_of_not_gt beyond) held,
          Nat.add_sub_cancel_left, bind_some, ih]
        rw [value, drop_drop]

namespace KiroDecoder
variable (serde : Serde)

theorem decodeFrameAt_eq (decoder : KiroDecoder) {headers : Nat}
    (fits : headers + 16 ≤ frame.length) : decodeFrameAt serde decoder frame frame.length headers =
      some (decoder.decodeFrame serde frame headers) := by
  have header : (frame.drop 12).take headers = (frame.take (12 + headers)).drop 12 := take_drop
  have size : ((frame.take (12 + headers)).drop 12).length = headers := by
    rw [length_drop, length_take]
    omega
  have payload : slice? frame (12 + headers) (frame.length - 4) =
      some ((frame.take (frame.length - 4)).drop (12 + headers)) :=
    if_pos ⟨by omega, sub_le ..⟩
  rw [decodeFrameAt, decodeFrame, scanHeadersAt_eq (by omega), header, size]
  cases scanHeaders (headers + 1) none ((frame.take (12 + headers)).drop 12) with
  | invalid => rfl
  | done errorType => cases errorType <;> simp only [payload] <;> rfl

theorem decodeFramesAt_eq (fuel : Nat) (decoder : KiroDecoder) :
    decodeFramesAt serde fuel decoder = some (decodeFrames serde fuel decoder) := by
  induction fuel generalizing decoder with
  | zero => rfl
  | succ fuel ih =>
    rw [decodeFramesAt, decodeFrames]
    by_cases idle : (decoder.wire.length < 12 || decoder.completed) = true
    · rw [if_pos idle, if_pos idle]
    rw [if_neg idle]
    have held : 12 ≤ decoder.wire.length := by
      rw [Bool.or_eq_true, decide_eq_true_eq] at idle
      omega
    have first : slice? decoder.wire 0 4 = some (decoder.wire.take 4) := if_pos ⟨by omega, by omega⟩
    have second : slice? decoder.wire 4 8 = some ((decoder.wire.drop 4).take 4) := by
      rw [slice?, if_pos ⟨by omega, by omega⟩, take_drop]
    rw [first, second]
    simp only [bind_eq_bind, bind_some]
    generalize u32FromBeBytes (decoder.wire.take 4) = total
    generalize u32FromBeBytes ((decoder.wire.drop 4).take 4) = headers
    split
    · rfl
    · split
      · rfl
      next framing =>
        split
        · rfl
        next whole =>
          have size : (decoder.wire.take total).length = total := length_take_of_le (by omega)
          have drained : slice? decoder.wire 0 total = some (decoder.wire.take total) := if_pos ⟨zero_le _, by omega⟩
          have fits : headers + 16 ≤ (decoder.wire.take total).length := by
            simp only [Bool.or_eq_true, decide_eq_true_eq] at framing
            omega
          have decoded := decodeFrameAt_eq serde { decoder with wire := decoder.wire.drop total } fits
          rw [size] at decoded
          rw [drained, bind_some, decoded, bind_some, ih]
          rfl

/-- Every read of the framed decoder is inside the bytes it holds. -/
theorem decodeAt_eq (decoder : KiroDecoder) (bytes : Bytes) :
    decodeAt serde decoder bytes = some (decoder.decode serde bytes) := by
  have framedAt (decoder : KiroDecoder) (framed : Bool) :
      decodeFramedAt serde decoder framed = some (decoder.decodeFramed serde framed) := by
    cases framed with
    | true => exact decodeFramesAt_eq serde _ _
    | false => rfl
  simp only [decodeAt, decode, framedAt]
  split
  · rfl
  cases decoder.framed with
  | some framed => rfl
  | none =>
    generalize decoder.wire ++ bytes = wire
    cases found : wire.findIdx? fun byte => !isAsciiWhitespace byte with
    | none =>
      have absent : wire.find? (fun byte => !isAsciiWhitespace byte) = none := by
        rw [find?_eq_none]
        intro byte member
        rw [findIdx?_eq_none_iff.mp found byte member]
        exact Bool.false_ne_true
      rw [absent]
      dsimp only
      split <;> rfl
    | some index =>
      obtain ⟨held, here, before⟩ := findIdx?_eq_some_iff_getElem.mp found
      have first : wire.find? (fun byte => !isAsciiWhitespace byte) = some wire[index] :=
        find?_eq_some_iff_getElem.mpr ⟨here, index, held, rfl, fun position earlier =>
          by simpa using before position earlier⟩
      rw [first]
      dsimp only
      rw [getElem?_eq_getElem held]
      rfl

end KiroDecoder
end Reads

section Objects
variable {input found rest : List Char}

/-- One character either closes the object or is kept in front of what the scan of the
rest finds. -/
theorem closeObject_cons (depth : Nat) (inString escaped : Bool) (char : Char) :
    (∀ input, closeObject depth inString escaped (char :: input) = some ([char], input)) ∨
      ∃ depth' inString' escaped', ∀ input, closeObject depth inString escaped (char :: input) =
        (closeObject depth' inString' escaped' input).map fun split => (char :: split.1, split.2) := by
  simp only [closeObject]
  repeat' split
  all_goals first
    | exact .inr ⟨_, _, _, fun _ => rfl⟩
    | exact .inl fun _ => rfl

/-- What a scan finds is a front part of the input, and closes whatever comes behind it. -/
theorem closeObject_splits {depth : Nat} {inString escaped : Bool}
    (closes : closeObject depth inString escaped input = some (found, rest)) :
    found ≠ [] ∧ found ++ rest = input ∧ ∀ more,
      closeObject depth inString escaped (input ++ more) = some (found, rest ++ more) := by
  induction input generalizing depth inString escaped found with
  | nil => cases closes
  | cons char input ih =>
    obtain ends | ⟨_, _, _, goes⟩ := closeObject_cons depth inString escaped char
    · cases (ends input).symm.trans closes
      exact ⟨cons_ne_nil _ _, rfl, fun more => ends _⟩
    · obtain ⟨split, inner, same⟩ := map_eq_some_iff.mp ((goes input).symm.trans closes)
      cases same
      obtain ⟨_, joined, longer⟩ := ih inner
      refine ⟨cons_ne_nil _ _, by rw [cons_append, joined], fun more => ?_⟩
      rw [cons_append, goes, longer]
      rfl

theorem nextJsonObject_rest (next : nextJsonObject input = some (found, rest)) : rest.length < input.length := by
  obtain ⟨some, joined, _⟩ := closeObject_splits next
  have within := (dropWhile_suffix (· != '\x7b') (l := input)).length_le
  have nonempty := length_pos_of_ne_nil some
  rw [← joined, length_append] at within
  omega

theorem nextJsonObject_append (more : List Char) (next : nextJsonObject input = some (found, rest)) :
    nextJsonObject (input ++ more) = some (found, rest ++ more) := by
  unfold nextJsonObject at next ⊢
  rw [dropWhile_append]
  split
  next none =>
    rw [isEmpty_iff.mp none] at next
    cases next
  · exact (closeObject_splits next).2.2 more

theorem nextJsonObject_splits (next : nextJsonObject input = some (found, rest)) :
    input.takeWhile (· != '\x7b') ++ found ++ rest = input := by
  rw [append_assoc, (closeObject_splits next).2.1, takeWhile_append_dropWhile]

/-- The inside of a JSON string. -/
inductive StringText : List Char → Prop where
  | nil : StringText []
  | plain {char : Char} {rest : List Char} (quote : char ≠ '"') (slash : char ≠ '\\') (below : StringText rest) :
      StringText (char :: rest)
  | escaped {char : Char} {rest : List Char} (below : StringText rest) : StringText ('\\' :: char :: rest)

/-- What stands between the braces of a JSON object, as far as braces and strings go, with
at most so many levels of objects within it. -/
inductive ObjectText : Nat → List Char → Prop where
  | nil {levels : Nat} : ObjectText levels []
  | plain {levels : Nat} {char : Char} {rest : List Char} (other : char ∉ ['"', '\x7b', '\x7d'])
      (later : ObjectText levels rest) : ObjectText levels (char :: rest)
  | string {levels : Nat} {text rest : List Char} (inside : StringText text) (later : ObjectText levels rest) :
      ObjectText levels ('"' :: (text ++ '"' :: rest))
  | object {levels : Nat} {inner rest : List Char} (inside : ObjectText levels inner)
      (later : ObjectText (levels + 1) rest) : ObjectText (levels + 1) ('\x7b' :: (inner ++ '\x7d' :: rest))

/-- An object whose open braces a `u32` can count. -/
def IsObject (text : List Char) : Prop :=
  ∃ levels inner, levels + 1 < UInt32.size ∧ ObjectText levels inner ∧ text = '\x7b' :: (inner ++ ['\x7d'])

/-- The drain loop without its decoding. -/
def takeObjects (input : List Char) : List (List Char) :=
  match _next : nextJsonObject input with
  | none => []
  | some (found, rest) => found :: takeObjects rest
termination_by input.length
decreasing_by exact nextJsonObject_rest _next

def joined (pieces : List (List Char × List Char)) : List Char := pieces.flatMap fun piece => piece.1 ++ piece.2

/-- The objects that end within the first `room` characters. -/
def completeWithin : Nat → List (List Char × List Char) → List (List Char)
  | _, [] => []
  | room, (gap, object) :: pieces =>
    if (gap ++ object).length ≤ room then object :: completeWithin (room - (gap ++ object).length) pieces else []

theorem closeObject_string {text : List Char} (inside : StringText text) (depth : Nat) (rest : List Char) :
    closeObject depth true false (text ++ '"' :: rest) =
      (closeObject depth false false rest).map fun split => (text ++ '"' :: split.1, split.2) := by
  induction inside with
  | nil => simp [closeObject]
  | plain quote slash _ ih => simp [closeObject, bne_iff_ne.mpr quote, slash, ih, Function.comp_def]
  | escaped _ ih => simp [closeObject, ih, Function.comp_def]

theorem closeObject_inside {levels depth : Nat} {inner : List Char} (inside : ObjectText levels inner)
    (counts : depth + 1 + levels < UInt32.size) (rest : List Char) :
    closeObject (depth + 1) false false (inner ++ rest) =
      (closeObject (depth + 1) false false rest).map fun split => (inner ++ split.1, split.2) := by
  induction inside generalizing depth rest with
  | nil => simp
  | plain other _ ih =>
    simp only [mem_cons, not_mem_nil, or_false, not_or] at other
    simp [closeObject, other, ih counts, Function.comp_def]
  | string text _ ih => simp [closeObject, closeObject_string text, ih counts, Function.comp_def]
  | @object levels _ _ _ _ inner later =>
    have opened : (depth + 1 + 1) % UInt32.size = depth + 1 + 1 := Nat.mod_eq_of_lt (by omega)
    have closed : (depth + 1 + 1 + UInt32.size - 1) % UInt32.size = depth + 1 := by
      rw [show depth + 1 + 1 + UInt32.size - 1 = depth + 1 + UInt32.size by omega, Nat.add_mod_right]
      exact Nat.mod_eq_of_lt (by omega)
    have within := @inner (depth + 1) (by omega)
    have closes (rest : List Char) : closeObject (depth + 1 + 1) false false ('\x7d' :: rest) =
        (closeObject (depth + 1) false false rest).map fun split => ('\x7d' :: split.1, split.2) := by
      rw [closeObject, closed]
      rfl
    rw [cons_append, closeObject, opened]
    simp [within, closes, later counts, Function.comp_def]

theorem skip_gap {gap : List Char} (bare : '\x7b' ∉ gap) (rest : List Char) :
    (gap ++ rest).dropWhile (· != '\x7b') = rest.dropWhile (· != '\x7b') :=
  dropWhile_append_of_pos fun _ member => bne_iff_ne.mpr fun same => bare (same ▸ member)

theorem nextJsonObject_piece {gap object : List Char} (bare : '\x7b' ∉ gap) (shaped : IsObject object)
    (rest : List Char) : nextJsonObject (gap ++ object ++ rest) = some (object, rest) := by
  obtain ⟨levels, inner, counts, inside, rfl⟩ := shaped
  rw [nextJsonObject, append_assoc, skip_gap bare]
  simp [closeObject, closeObject_inside inside (by omega : 0 + 1 + levels < UInt32.size)]

theorem takeObjects_eq (input : List Char) : takeObjects input =
    ((nextJsonObject input).map fun next => next.1 :: takeObjects next.2).getD [] := by
  rw [takeObjects]
  split <;> simp [*]

variable {pieces : List (List Char × List Char)} {tail : List Char}

/-- Of a stream of objects with text between them that opens none, the loop takes the
objects that have come to their end, and no part of another. -/
theorem objects_split_exactly (shaped : ∀ piece ∈ pieces, '\x7b' ∉ piece.1 ∧ IsObject piece.2) (bare : '\x7b' ∉ tail) :
    takeObjects (joined pieces ++ tail) = pieces.map Prod.snd ∧
      ∀ room, takeObjects ((joined pieces ++ tail).take room) = completeWithin room pieces := by
  have ends {text : List Char} (bare : '\x7b' ∉ text) : takeObjects text = [] := by
    rw [takeObjects_eq, nextJsonObject, ← append_nil text, skip_gap bare]
    rfl
  induction pieces with
  | nil => exact ⟨ends bare, fun room => ends fun member => bare (mem_of_mem_take member)⟩
  | cons piece pieces ih =>
    obtain ⟨⟨gap, object⟩, later⟩ := forall_mem_cons.mp shaped
    obtain ⟨whole, cut⟩ := ih later
    have next := nextJsonObject_piece gap object
    have here : joined (piece :: pieces) ++ tail = piece.1 ++ piece.2 ++ (joined pieces ++ tail) := by simp [joined]
    rw [here]
    refine ⟨?_, fun room => ?_⟩
    · rw [takeObjects_eq, next, map_cons, ← whole]
      rfl
    · rw [completeWithin]
      split
      next full =>
        rw [take_append, take_of_length_le full, takeObjects_eq, next, ← cut]
        rfl
      next short =>
        -- what the loop found in a front part it would find with all of the object there
        have parted := take_append_drop room (piece.1 ++ piece.2)
        rw [take_append_of_le_length (by omega), takeObjects_eq]
        cases early : nextJsonObject ((piece.1 ++ piece.2).take room) with
        | none => rfl
        | some split =>
          have both := nextJsonObject_append ((piece.1 ++ piece.2).drop room) early
          rw [parted, ← append_nil (piece.1 ++ piece.2), next] at both
          have rest := congrArg length (congrArg Prod.snd (Option.some.inj both))
          simp at rest short
          omega

/-- The brace in the string closes nothing. -/
theorem objects_split_string : takeObjects [',', '\x7b', '"', '\x7d', '"', '\x7d'] = [['\x7b', '"', '\x7d', '"', '\x7d']] ∧
    takeObjects [',', '\x7b', '"', '\x7d', '"'] = [] := by
  have inner : ObjectText 0 ['"', '\x7d', '"'] := @ObjectText.string 0 ['\x7d'] [] (.plain (by decide) (by decide) .nil) .nil
  have split := @objects_split_exactly [([','], ['\x7b', '"', '\x7d', '"', '\x7d'])] []
    (forall_mem_singleton.mpr ⟨by decide, 0, _, by decide, inner, rfl⟩) nofun
  exact ⟨split.1, split.2 5⟩

namespace KiroDecoder
variable {decoder : KiroDecoder}

theorem fail_turns (running : decoder.completed = false) (message : String) :
    Turning completed decoder (decoder.fail message) := turning_terminal running rfl rfl

theorem takeText_completed (decoder : KiroDecoder) (bytes : Bytes) :
    (decoder.takeText bytes).completed = decoder.completed := by
  simp only [takeText]
  repeat' split
  all_goals rfl

variable (serde : Serde)

theorem decodeObject_over (decoder : KiroDecoder) (value : Value) (wire : Bytes)
    (framed : Option Bool) (buffer : List Char) (pending : Bytes) : decodeObject serde
        { decoder with wire := wire, framed := framed, buffer := buffer, pending := pending } value =
      ({ (decoder.decodeObject serde value).1 with
          wire := wire, framed := framed, buffer := buffer, pending := pending },
        (decoder.decodeObject serde value).2) := by
  simp only [decodeObject]
  repeat' split
  all_goals rfl

theorem decodeObject_keeps (decoder : KiroDecoder) (value : Value) :
    (decoder.decodeObject serde value).1.buffer = decoder.buffer ∧
      (decoder.decodeObject serde value).1.wire = decoder.wire ∧
      (decoder.decodeObject serde value).1.framed = decoder.framed ∧
      (decoder.decodeObject serde value).1.pending = decoder.pending := by
  simp only [decodeObject]
  repeat' split
  all_goals exact ⟨rfl, rfl, rfl, rfl⟩

theorem drainObjects_over (fuel : Nat) (decoder : KiroDecoder) (wire : Bytes) (framed : Option Bool)
    (pending : Bytes) : drainObjects serde fuel { decoder with wire := wire, framed := framed, pending := pending } =
      ({ (drainObjects serde fuel decoder).1 with wire := wire, framed := framed, pending := pending },
        (drainObjects serde fuel decoder).2) := by
  induction fuel generalizing decoder with
  | zero => rfl
  | succ fuel ih =>
    simp only [drainObjects]
    cases nextJsonObject decoder.buffer with
    | none =>
      dsimp only
      split <;> rfl
    | some next =>
      dsimp only
      cases serde.fromSlice (utf8 (String.ofList next.1)) with
      | error _ => rfl
      | ok value =>
        dsimp only
        rw [decodeObject_over serde { decoder with buffer := next.2 } value wire framed next.2 pending]
        have kept := (decodeObject_keeps serde { decoder with buffer := next.2 } value).1
        generalize decodeObject serde { decoder with buffer := next.2 } value = decoded at kept ⊢
        obtain ⟨after, events⟩ := decoded
        dsimp only at kept ⊢
        rw [← kept]
        by_cases done : after.completed = true
        · simp only [if_pos done]
        · simp only [if_neg done, ih after]

theorem drainObjects_keeps (fuel : Nat) (decoder : KiroDecoder) :
    (drainObjects serde fuel decoder).1.wire = decoder.wire ∧
      (drainObjects serde fuel decoder).1.framed = decoder.framed ∧
      (drainObjects serde fuel decoder).1.pending = decoder.pending := by
  have same := drainObjects_over serde fuel decoder decoder.wire decoder.framed decoder.pending
  exact ⟨congrArg (·.1.wire) same, congrArg (·.1.framed) same, congrArg (·.1.pending) same⟩

def objectRound (decoder : KiroDecoder) : Round KiroDecoder CodexEvent :=
  match nextJsonObject decoder.buffer with
  | none =>
    .stop (if (utf8 (String.ofList decoder.buffer)).length > maxKiroJsonBufferBytes then
      decoder.fail "Kiro JSON buffer exceeds the size limit" else (decoder, []))
  | some (candidate, rest) =>
    match serde.fromSlice (utf8 (String.ofList candidate)) with
    | .error _ => .stop (fail { decoder with buffer := rest } "Invalid Kiro JSON payload")
    | .ok value =>
      let decoded := decodeObject serde { decoder with buffer := rest } value
      if decoded.1.completed then .stop decoded else .go decoded.1 decoded.2

theorem drains_objects : Drains (objectRound serde) (·.buffer.length) (drainObjects serde) where
  succ fuel decoder := by
    simp only [drainObjects, objectRound]
    cases nextJsonObject decoder.buffer with
    | none => rfl
    | some next =>
      dsimp only
      cases serde.fromSlice (utf8 (String.ofList next.1)) with
      | error _ => rfl
      | ok value =>
        dsimp only
        split <;> rfl
  shrinks {decoder _ _} goes := by
    simp only [objectRound] at goes
    split at goes
    · cases goes
    next rest found =>
      split at goes
      · cases goes
      next value _ =>
        split at goes <;> cases goes
        rw [(decodeObject_keeps serde { decoder with buffer := rest } value).1]
        exact nextJsonObject_rest found

theorem takeText_over (decoder : KiroDecoder) (bytes wire : Bytes) (framed : Option Bool) :
    takeText { decoder with wire := wire, framed := framed } bytes =
      { decoder.takeText bytes with wire := wire, framed := framed } := by
  simp only [takeText]
  repeat' split
  all_goals rfl

theorem decodeJson_over (decoder : KiroDecoder) (bytes wire : Bytes) (framed : Option Bool) :
    decodeJson serde { decoder with wire := wire, framed := framed } bytes =
      ({ (decoder.decodeJson serde bytes).1 with wire := wire, framed := framed },
        (decoder.decodeJson serde bytes).2) := by
  have kept := (drainObjects_keeps serde ((decoder.takeText bytes).buffer.length + 1) (decoder.takeText bytes)).2.2
  simp only [decodeJson, takeText_over]
  rw [drainObjects_over serde _ (decoder.takeText bytes), ← kept]

theorem decodeFrame_over (decoder : KiroDecoder) (frame : Bytes) (headers : Nat) (wire : Bytes)
    (framed : Option Bool) : decodeFrame serde { decoder with wire := wire, framed := framed } frame headers =
      ({ (decoder.decodeFrame serde frame headers).1 with wire := wire, framed := framed },
        (decoder.decodeFrame serde frame headers).2) := by
  simp only [decodeFrame]
  split
  · rfl
  · rfl
  · exact decodeJson_over serde decoder _ wire framed

theorem decodeFrame_wire (decoder : KiroDecoder) (frame : Bytes) (headers : Nat) :
    (decoder.decodeFrame serde frame headers).1.wire = decoder.wire :=
  congrArg (·.1.wire) (decodeFrame_over serde decoder frame headers decoder.wire decoder.framed)

theorem decodeObject_turns (running : decoder.completed = false) (value : Value) :
    Turning completed decoder (decoder.decodeObject serde value) := by
  simp only [decodeObject]
  split
  · exact fail_turns running _
  · split
    · exact turning_plain rfl (by simp [CodexEvent.isTerminal]) running
    · refine turning_plain rfl ?_ running
      exact plain_cons.mpr ⟨rfl, plain_toList _ fun _ => rfl⟩
    · exact turning_plain rfl (plain_toList _ fun _ => rfl) running
    · exact turning_plain rfl (by simp [CodexEvent.isTerminal]) running
    · exact turning_plain rfl (by simp [CodexEvent.isTerminal]) running
    · split
      · exact turning_terminal running rfl rfl
      · exact .refl _

theorem drainObjects_turns (fuel : Nat) (running : decoder.completed = false) :
    Turning completed decoder (drainObjects serde fuel decoder) := by
  induction fuel generalizing decoder with
  | zero => exact .refl _
  | succ fuel ih =>
    simp only [drainObjects]
    split
    · split
      · exact fail_turns running _
      · exact .refl _
    next candidate rest _ =>
      split
      · exact turning_terminal running rfl rfl
      next value _ =>
        have drained : ({ decoder with buffer := rest } : KiroDecoder).completed = false := running
        have first := decodeObject_turns serde drained value
        split
        · exact first
        next open' =>
          rw [Bool.not_eq_true] at open'
          exact first.append (ih open')

theorem decodeJson_turns (running : decoder.completed = false) (bytes : Bytes) :
    Turning completed decoder (decoder.decodeJson serde bytes) := by
  have kept := takeText_completed decoder bytes
  rw [Turning, ← kept]
  exact drainObjects_turns serde _ (kept.trans running)

theorem decodeFrame_turns (running : decoder.completed = false) (frame : Bytes) (headers : Nat) :
    Turning completed decoder (decoder.decodeFrame serde frame headers) := by
  simp only [decodeFrame]
  split
  · exact fail_turns running _
  · exact fail_turns running _
  · exact decodeJson_turns serde running _

def drain (decoder : KiroDecoder) : KiroDecoder × List CodexEvent :=
  drainObjects serde (decoder.buffer.length + 1) decoder

/-- An object that is there is taken whatever comes behind it. -/
theorem objectRound_append {found : List Char × List Char} (more : List Char) (part : Bytes)
    (next : nextJsonObject decoder.buffer = some found) :
    objectRound serde { decoder with buffer := decoder.buffer ++ more, pending := part } =
      (objectRound serde decoder).map fun after => { after with buffer := after.buffer ++ more, pending := part } := by
  obtain ⟨candidate, rest⟩ := found
  have later := nextJsonObject_append more next
  simp only [objectRound, next, later]
  cases serde.fromSlice (utf8 (String.ofList candidate)) with
  | error _ => rfl
  | ok value =>
    dsimp only
    have alone := decodeObject_over serde { decoder with buffer := rest } value decoder.wire decoder.framed (rest ++ more) part
    have kept := decodeObject_keeps serde { decoder with buffer := rest } value
    generalize decodeObject serde { decoder with buffer := rest } value = decoded at alone kept ⊢
    obtain ⟨after, events⟩ := decoded
    dsimp only at kept alone ⊢
    rw [alone, ← kept.1, ← kept.2.1, ← kept.2.2.1]
    dsimp only
    split <;> rfl

end KiroDecoder
end Objects

namespace KiroDecoder
variable (serde : Serde)

variable {decoder : KiroDecoder} {front : Bytes}

theorem takeText_split {bytes part : Bytes} {chars : List Char}
    (split : decoder.pending ++ bytes = encodeChars chars ++ part) (unfinished : Unfinished part) :
    decoder.takeText bytes = { decoder with pending := part, buffer := decoder.buffer ++ chars } := by
  rcases unfinished with rfl | ⟨char, rest, shape, some, more⟩
  · rw [append_nil] at split
    rw [takeText, split, fromUtf8_complete]
  · rw [takeText, split, fromUtf8_unfinished chars shape some more]
    rfl

theorem decode_completed (done : decoder.completed = true) (bytes : Bytes) :
    decoder.decode serde bytes = (decoder, []) := by
  rw [decode, if_pos done]

theorem decode_raw (running : decoder.completed = false) (raw : decoder.framed = some false)
    (empty : decoder.wire = []) (bytes : Bytes) : decoder.decode serde bytes = decoder.decodeJson serde bytes := by
  obtain ⟨wire, framed, buffer, pending, completed, currentTool⟩ := decoder
  cases running
  cases raw
  cases empty
  rfl

/-- Text that comes later is drained as if it had been there. -/
theorem drain_cut (decoder : KiroDecoder) {chunk part : Bytes} {chars : List Char}
    (split : decoder.pending ++ chunk = encodeChars chars ++ part) (unfinished : Unfinished part)
    (running : decoder.completed = false) (raw : decoder.framed = some false) (empty : decoder.wire = [])
    (small : (encodeChars (decoder.buffer ++ chars)).length ≤ maxKiroJsonBufferBytes) :
    Agree completed (drain serde { decoder with buffer := decoder.buffer ++ chars, pending := part })
      (followed (drain serde decoder) (decode serde · chunk)) := by
  refine (drains_objects serde).cut (fun done => decode_completed serde done chunk)
    (fun after => { after with buffer := after.buffer ++ chars, pending := part }) (fun _ => rfl)
    (fun after => after.pending = decoder.pending ∧ after.completed = false ∧ after.framed = some false ∧
      after.wire = [] ∧ (encodeChars (after.buffer ++ chars)).length ≤ maxKiroJsonBufferBytes)
    ?_ decoder ⟨rfl, running, raw, empty, small⟩
  intro after fits
  obtain ⟨held, running, raw, empty, small⟩ := fits
  cases next : nextJsonObject after.buffer with
  | none =>
    refine .inl ((drains_objects serde).waits ?_ ?_)
    · rw [encodeChars_append, length_append] at small
      have size : (utf8 (String.ofList after.buffer)).length ≤ maxKiroJsonBufferBytes := by
        rw [utf8, String.toList_ofList]
        exact Nat.le_trans (le_add_right _ _) small
      rw [objectRound, next]
      exact congrArg _ (if_neg (Nat.not_lt_of_le size))
    · rw [decode_raw serde running raw empty, decodeJson, takeText_split (held ▸ split) unfinished]
  | some found =>
    refine .inr ⟨objectRound_append serde chars part next, ?_⟩
    simp only [objectRound, next]
    split
    · rfl
    next value _ =>
      split
      next done => exact done
      next open' =>
        obtain ⟨rest, onWire, onFramed, onPending⟩ := decodeObject_keeps serde { after with buffer := found.2 } value
        refine ⟨onPending.trans held, Bool.eq_false_iff.mpr open', onFramed.trans raw, onWire.trans empty, ?_⟩
        rw [rest, encodeChars_append, length_append]
        rw [← nextJsonObject_splits next, encodeChars_append, encodeChars_append, length_append, length_append] at small
        dsimp only
        omega

/-- Bare JSON cut in two, at any byte. -/
theorem decodeJson_cut (decoder : KiroDecoder) {chunk : Bytes} (chars : List Char)
    (running : decoder.completed = false) (raw : decoder.framed = some false)
    (empty : decoder.wire = []) (text : decoder.pending ++ (front ++ chunk) <+: encodeChars chars)
    (small : (encodeChars (decoder.buffer ++ chars)).length ≤ maxKiroJsonBufferBytes) :
    Agree completed (decoder.decodeJson serde (front ++ chunk)) (feedTwice (decode serde) decoder front chunk) := by
  rw [← append_assoc] at text
  obtain ⟨taken, left, part, rfl, split, unfinished⟩ := encodeChars_cut ((prefix_append _ chunk).trans text)
  rw [split, append_assoc, encodeChars_append, prefix_append_right_inj] at text
  obtain ⟨later, rest, open', rfl, behind, unfinished'⟩ := encodeChars_cut text
  have whole : decoder.pending ++ (front ++ chunk) = encodeChars (taken ++ later) ++ open' := by
    rw [← append_assoc, split, append_assoc, behind, encodeChars_append, append_assoc]
  have first : decoder.decode serde front = drain serde { decoder with pending := part, buffer := decoder.buffer ++ taken } := by
    rw [decode_raw serde running raw empty, decodeJson, takeText_split split unfinished, drain]
  have fits : (encodeChars (decoder.buffer ++ taken ++ later)).length ≤
      maxKiroJsonBufferBytes := by
    simp only [encodeChars_append, length_append] at small ⊢
    omega
  rw [feedTwice, first, decodeJson, takeText_split whole unfinished', ← append_assoc]
  exact drain_cut serde { decoder with pending := part, buffer := decoder.buffer ++ taken } behind unfinished' running raw empty fits

def frames (decoder : KiroDecoder) : KiroDecoder × List CodexEvent :=
  decodeFrames serde (decoder.wire.length + 1) decoder

/-- What the loop sees at the head of the wire. -/
inductive WireHead where
  | waiting
  | broken (message : String)
  | frame (total headers : Nat)

def wireHead (wire : Bytes) : WireHead :=
  if wire.length < 12 then .waiting
  else
    let total := u32FromBeBytes (wire.take 4)
    let headers := u32FromBeBytes ((wire.drop 4).take 4)
    if total > maxKiroFrameBytes then .broken "Kiro frame exceeds the size limit"
    else if total < 16 || headers > total - 16 then .broken "Invalid Kiro event-stream framing"
    else if wire.length < total then .waiting
    else .frame total headers

theorem wireHead_frame {wire : Bytes} {total headers : Nat}
    (head : wireHead wire = .frame total headers) : 16 ≤ total ∧ total ≤ wire.length := by
  unfold wireHead at head
  split at head
  · cases head
  · dsimp only at head
    split at head
    · cases head
    · split at head
      · cases head
      next framing =>
        split at head
        · cases head
        · cases head
          simp only [Bool.or_eq_true, decide_eq_true_eq] at framing
          omega

theorem wireHead_append {wire : Bytes} (more : Bytes) (settled : wireHead wire ≠ .waiting) :
    wireHead (wire ++ more) = wireHead wire := by
  have long : ¬ wire.length < 12 := by
    intro short
    exact settled (if_pos short)
  have longer : ¬ (wire ++ more).length < 12 := by
    rw [length_append]
    omega
  have total : (wire ++ more).take 4 = wire.take 4 := take_append_of_le_length (by omega)
  have headers : ((wire ++ more).drop 4).take 4 = (wire.drop 4).take 4 := take_drop_append (by omega) more
  unfold wireHead at settled ⊢
  rw [if_neg long] at settled
  rw [if_neg longer, total, headers]
  dsimp only at settled ⊢
  split
  · rfl
  · split
    · rfl
    next large framing =>
      rw [if_neg large, if_neg framing] at settled
      have whole : ¬ wire.length < u32FromBeBytes (wire.take 4) := fun less => settled (if_pos less)
      rw [if_neg whole, if_neg (by rw [length_append]; omega)]

def frameRound (decoder : KiroDecoder) : Round KiroDecoder CodexEvent :=
  if decoder.completed then .stop (decoder, [])
  else
    match wireHead decoder.wire with
    | .waiting => .stop (decoder, [])
    | .broken message => .stop (decoder.fail message)
    | .frame total headers =>
      let decoded := decodeFrame serde { decoder with wire := decoder.wire.drop total } (decoder.wire.take total) headers
      .go decoded.1 decoded.2

theorem drains_frames : Drains (frameRound serde) (·.wire.length) (decodeFrames serde) where
  succ fuel decoder := by
    rw [decodeFrames, frameRound]
    by_cases done : decoder.completed = true
    · simp only [done, Bool.or_true, ↓reduceIte]
    rw [Bool.eq_false_iff.mpr done, Bool.or_false, if_neg Bool.false_ne_true]
    unfold wireHead
    by_cases short : decoder.wire.length < 12
    · simp only [short, decide_true, ↓reduceIte]
    simp only [short, decide_false, Bool.false_eq_true, ↓reduceIte]
    by_cases large : u32FromBeBytes (decoder.wire.take 4) > maxKiroFrameBytes
    · rw [if_pos large, if_pos large]
    rw [if_neg large]
    split
    · rfl
    · split <;> rfl
  shrinks {decoder _ _} goes := by
    unfold frameRound at goes
    split at goes
    · cases goes
    cases head : wireHead decoder.wire with
    | waiting | broken =>
      rw [head] at goes
      cases goes
    | frame total headers =>
      have bounds := wireHead_frame head
      rw [head] at goes
      cases goes
      rw [decodeFrame_wire, length_drop]
      omega

theorem decodeFrames_turns (fuel : Nat) (decoder : KiroDecoder) :
    Turning completed decoder (decodeFrames serde fuel decoder) := by
  induction fuel generalizing decoder with
  | zero => exact .refl _
  | succ fuel ih =>
    rw [(drains_frames serde).succ, frameRound]
    by_cases done : decoder.completed = true
    · rw [if_pos done]
      exact .refl _
    have running := Bool.eq_false_iff.mpr done
    rw [if_neg done]
    cases wireHead decoder.wire with
    | waiting => exact .refl _
    | broken message => exact fail_turns running message
    | frame total headers =>
      have drained : ({ decoder with wire := decoder.wire.drop total } : KiroDecoder).completed = false := running
      exact (decodeFrame_turns serde drained _ _).append (ih _)

theorem decode_turns (decoder : KiroDecoder) (bytes : Bytes) :
    Turning completed decoder (decoder.decode serde bytes) := by
  have framed (decoder : KiroDecoder) (running : decoder.completed = false) (framed : Bool) :
      Turning completed decoder (decoder.decodeFramed serde framed) := by
    simp only [decodeFramed]
    split
    · exact decodeFrames_turns serde _ { decoder with framed := some framed }
    · have settled : ({ decoder with framed := some framed, wire := [] } : KiroDecoder).completed = false := running
      exact decodeJson_turns serde settled decoder.wire
  simp only [decode]
  split
  · exact .refl _
  next open' =>
    rw [Bool.not_eq_true] at open'
    have grown : ({ decoder with wire := decoder.wire ++ bytes } : KiroDecoder).completed = false := open'
    split
    · exact framed { decoder with wire := decoder.wire ++ bytes } grown _
    · split
      · exact framed { decoder with wire := decoder.wire ++ bytes } grown _
      · split
        · exact fail_turns grown _
        · exact .refl _

theorem finish_turns (decoder : KiroDecoder) : Turns decoder.completed decoder.finish.2 true := by
  simp only [finish]
  cases decoder.completed with
  | true => exact .silent
  | false =>
    rw [if_neg Bool.false_ne_true]
    split <;> exact .of_terminal rfl

theorem decode_framed (running : decoder.completed = false) (framed' : decoder.framed = some true) (bytes : Bytes) :
    decoder.decode serde bytes = frames serde { decoder with wire := decoder.wire ++ bytes } := by
  obtain ⟨wire, framed, buffer, pending, completed, currentTool⟩ := decoder
  cases running
  cases framed'
  rfl

/-- Bytes that come later change nothing about a round that does not wait for them. -/
theorem frameRound_append (chunk : Bytes) (settled : decoder.completed = false → wireHead decoder.wire ≠ .waiting)
    (framed' : decoder.framed = some true) : frameRound serde { decoder with wire := decoder.wire ++ chunk } =
        (frameRound serde decoder).map (fun after => { after with wire := after.wire ++ chunk }) ∧
      (frameRound serde decoder).Leads completed (·.framed = some true) := by
  unfold frameRound
  by_cases done : decoder.completed = true
  · simp only [if_pos done]
    exact ⟨rfl, done⟩
  have head := settled (Bool.eq_false_iff.mpr done)
  simp only [if_neg done, wireHead_append chunk head]
  cases read : wireHead decoder.wire with
  | waiting => exact absurd read head
  | broken message => exact ⟨rfl, rfl⟩
  | frame total headers =>
    have held := (wireHead_frame read).2
    have moves (wire : Bytes) := decodeFrame_over serde { decoder with wire := decoder.wire.drop total }
      (decoder.wire.take total) headers wire decoder.framed
    have kept := congrArg Prod.fst (moves (decoder.wire.drop total))
    dsimp only [Round.map]
    rw [drop_append_of_le_length held, take_append_of_le_length held, moves]
    generalize decodeFrame serde { decoder with wire := decoder.wire.drop total } (decoder.wire.take total) headers =
      decoded at kept ⊢
    rw [kept]
    exact ⟨rfl, framed'⟩

theorem frames_cut (decoder : KiroDecoder) (chunk : Bytes) (framed' : decoder.framed = some true) :
    Agree completed (frames serde { decoder with wire := decoder.wire ++ chunk })
      (followed (frames serde decoder) (decode serde · chunk)) := by
  refine (drains_frames serde).cut (fun done => decode_completed serde done chunk)
    (fun after => { after with wire := after.wire ++ chunk }) (fun _ => rfl) (·.framed = some true) ?_ decoder framed'
  intro after framed'
  by_cases settled : after.completed = false → wireHead after.wire ≠ .waiting
  · exact .inr (frameRound_append serde chunk settled framed')
  · obtain ⟨running, waits⟩ := Classical.not_imp.mp settled
    refine .inl ((drains_frames serde).waits ?_ (decode_framed serde running framed' chunk))
    rw [frameRound, running, not_not.mp waits]
    rfl

def firstByte (stream : Bytes) : Option UInt8 := stream.find? fun byte => !isAsciiWhitespace byte

theorem decode_new (stream : Bytes) : decode serde new stream = match firstByte stream with
      | some first => decodeFramed serde { new with wire := stream } (first != 123)
      | none =>
        if stream.length > maxKiroFrameBytes then
          fail { new with wire := stream } "Kiro stream exceeds the frame limit"
        else ({ new with wire := stream }, []) :=
  rfl

theorem firstByte_append {first : UInt8} (found : firstByte front = some first) (chunk : Bytes) :
    firstByte (front ++ chunk) = some first := by
  rw [firstByte, find?_append, ← firstByte, found, some_or]

/-- A stream cut in two, whichever framing it has and wherever the cut falls. -/
theorem decode_cut {stream : Bytes} (bounded : stream.length ≤ maxKiroJsonBufferBytes)
    (raw : firstByte stream = some 123 → ∃ text, stream = utf8 text) {chunk : Bytes}
    (within : front ++ chunk <+: stream) : Agree completed (decode serde new (front ++ chunk))
      (feedTwice (decode serde) new front chunk) := by
  cases first : firstByte front with
  | none =>
    have short : ¬ front.length > maxKiroFrameBytes := by
      have := within.length_le
      rw [length_append] at this
      simp only [maxKiroFrameBytes, maxKiroJsonBufferBytes] at *
      omega
    rw [feedTwice, decode_new serde front, first]
    rw [if_neg short]
    exact .refl _
  | some byte =>
    have both := firstByte_append first chunk
    rw [decode_new, both, feedTwice, decode_new, first]
    dsimp only
    by_cases bare : byte = 123
    · subst bare
      obtain ⟨text, valid⟩ := raw (by
        obtain ⟨rest, whole⟩ := within
        rw [← whole]
        exact firstByte_append both rest)
      have cut := decodeJson_cut serde { new with framed := some false } text.toList rfl rfl rfl
        (show front ++ chunk <+: utf8 text from valid ▸ within)
        (show (utf8 text).length ≤ maxKiroJsonBufferBytes from valid ▸ bounded)
      exact cut
    · have framed' : (byte != 123) = true := bne_iff_ne.mpr bare
      rw [framed']
      exact frames_cut serde { new with wire := front, framed := some true } chunk rfl

def transcript (chunks : List Bytes) : List CodexEvent :=
  let read := emitAll (decode serde) new chunks
  read.2 ++ read.1.finish.2

theorem transcript_flatten {stream : Bytes} (bounded : stream.length ≤ maxKiroJsonBufferBytes)
    (raw : firstByte stream = some 123 → ∃ text, stream = utf8 text) {chunks : List Bytes}
    (cut : chunks.flatten = stream) : transcript serde chunks = transcript serde [stream] := by
  have agree := emitAll_chunks (fun _ bytes done => decode_completed serde done bytes) rfl
      (fun _ _ within => decode_cut serde bounded raw within)
      (cut ▸ prefix_rfl : chunks.flatten <+: stream)
  have single : emitAll (decode serde) new [stream] = decode serde new stream := by
    rw [emitAll_cons, emitAll_nil, append_nil]
  rw [cut] at agree
  unfold transcript
  rw [single]
  dsimp only
  rcases agree.2 with same | ⟨done, done'⟩
  · rw [agree.1, same]
  · rw [agree.1, finish, if_pos done', finish, if_pos done]

end KiroDecoder

namespace KiroDecoder

/-- However a stream is cut, its events are the same; and no length that a frame or a
header declares makes the decoder read outside the bytes it holds. -/
theorem chunking_independent (serde : Serde) : (∀ stream : Bytes, stream.length ≤ maxKiroJsonBufferBytes →
      (firstByte stream = some 123 → ∃ text, stream = utf8 text) →
        ∀ first second : List Bytes, first.flatten = stream → second.flatten = stream →
          transcript serde first = transcript serde second) ∧ ∀ (decoder : KiroDecoder) (bytes : Bytes),
        decodeAt serde decoder bytes = some (decoder.decode serde bytes) := by
  refine ⟨?_, decodeAt_eq serde⟩
  intro stream bounded raw first second cutFirst cutSecond
  rw [transcript_flatten serde bounded raw cutFirst, transcript_flatten serde bounded raw cutSecond]

namespace Sample

def accented : String := "\x7b\"content\":\"é\"\x7d"

def serde : Serde where
  fromSlice bytes :=
    if bytes = utf8 accented then .ok (.object [("content", .string "é")]) else .error "unread"
  formatFloat _ := ""

/-- The last cut falls inside the accented letter. -/
def pieces : List Bytes :=
  [(utf8 accented).take 3, ((utf8 accented).drop 3).take 10, (utf8 accented).drop 13]

theorem accented_letter_cut : transcript serde pieces = transcript serde [utf8 accented] ∧
      transcript serde [utf8 accented] = [.textDelta "é", .completed none] :=
  ⟨(chunking_independent serde).1 (utf8 accented) (by decide) (fun _ => ⟨accented, rfl⟩) pieces
    [utf8 accented] (by decide) (by decide), by decide +kernel⟩

end Sample
end KiroDecoder
end Mahoquot.Compat
