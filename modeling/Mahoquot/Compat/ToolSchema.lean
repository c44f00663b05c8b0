import Mahoquot.Compat.Value
import Mahoquot.Library.Framing

/-! Tool schemas for Claude: references are inlined, unions are reduced to one schema and
object schemas get their explicit shape. -/

set_option autoImplicit false

namespace Mahoquot.Compat
open Library Value
namespace Value

/-- `*map.get_mut(key) = new`: the entry stays where it is. -/
def updateEntry (key : String) (new : Value) : List (String × Value) → List (String × Value)
  | [] => []
  | entry :: rest => if entry.1 = key then (key, new) :: rest else entry :: updateEntry key new rest

/-- `map.entry(key).or_insert(new)`. -/
def insertAbsent (key : String) (new : Value) (entries : List (String × Value)) : List (String × Value) :=
  if ((object entries).get key).isSome then entries else insertEntry key new entries

def removeEntry (key : String) (entries : List (String × Value)) : List (String × Value) :=
  entries.filter fun entry => entry.1 != key

def isArray : Value → Bool
  | .array _ => true
  | _ => false

/-- An index of a JSON pointer: digits, without a sign or leading zeros. -/
def parseIndex (token : String) : Option Nat :=
  let digits := token.toList
  if digits = [] ∨ digits.all Char.isDigit = false ∨ (digits.head? = some '0' ∧ digits.length ≠ 1)
  then none
  else some (Text.decimal digits)

/-- `Value::pointer`. -/
def pointerTo (value : Value) (pointer : String) : Option Value :=
  let unescape (token : String) : String :=
    String.ofList (Framing.replacePairs '~' '0' '~' (Framing.replacePairs '~' '1' '/' token.toList))
  if pointer.isEmpty then some value
  else if Text.startsWith "/" pointer then
    (((Text.split '/' pointer).drop 1).map unescape).foldlM (fun target token =>
      match target with
      | .object entries => (object entries).get token
      | .array items => (parseIndex token).bind fun index => items[index]?
      | _ => none) value
  else none

end Value

section Places

/-- What stands at a keyword that holds schemas. -/
inductive Shape where
  | map
  | schema
  | list
  /-- Schemas by name among arrays of names. -/
  | mixed
deriving DecidableEq

structure Place where
  key : String
  shape : Shape
deriving DecidableEq

/-- The keywords that hold schemas, in the order they are visited. -/
def places : List Place :=
  ["properties", "patternProperties", "$defs", "definitions", "dependentSchemas"].map (⟨·, .map⟩) ++
    ["items", "additionalProperties", "additionalItems", "contains", "not", "if", "then", "else",
      "propertyNames", "unevaluatedProperties", "unevaluatedItems", "contentSchema"].map
        (⟨·, .schema⟩) ++
    ["allOf", "anyOf", "oneOf", "prefixItems"].map (⟨·, .list⟩) ++ [⟨"dependencies", .mixed⟩]

/-- A visit changes a schema in place, and may count. -/
abbrev Visitor (σ : Type) := Value → σ → Except String (Value × σ)

variable {σ : Type} (visit : Visitor σ)

def visitItems : List Value → σ → Except String (List Value × σ)
  | [], state => .ok ([], state)
  | item :: rest, state => do
    let (item, state) ← visit item state
    let (rest, state) ← visitItems rest state
    .ok (item :: rest, state)

def visitEntries (enters : Value → Bool) : List (String × Value) → σ → Except String (List (String × Value) × σ)
  | [], state => .ok ([], state)
  | (name, child) :: rest, state =>
    if enters child then do
      let (child, state) ← visit child state
      let (rest, state) ← visitEntries enters rest state
      .ok ((name, child) :: rest, state)
    else do
      let (rest, state) ← visitEntries enters rest state
      .ok ((name, child) :: rest, state)

def visitPlace (place : Place) (value : Value) (state : σ) : Except String (Value × σ) :=
  match place.shape, value with
  | .map, .object children =>
    (visitEntries visit (fun _ => true) children state).map fun (children, state) =>
      (.object children, state)
  | .map, _ => .error (place.key ++ " must be a map of schemas")
  | .schema, child => visit child state
  | .list, .array children =>
    (visitItems visit children state).map fun (children, state) => (.array children, state)
  | .list, _ => .error (place.key ++ " must be an array of schemas")
  | .mixed, .object children =>
    (visitEntries visit (fun child => !child.isArray) children state).map
      fun (children, state) => (.object children, state)
  | .mixed, other => .ok (other, state)

def visitPlaces : List Place → List (String × Value) → σ → Except String (List (String × Value) × σ)
  | [], map, state => .ok (map, state)
  | place :: rest, map, state =>
    match (object map).get place.key with
    | none => visitPlaces rest map state
    | some value => do
      let (value, state) ← visitPlace visit place value state
      visitPlaces rest (updateEntry place.key value map) state

def visitSchemaChildren (map : List (String × Value)) (state : σ) : Except String (List (String × Value) × σ) :=
  visitPlaces visit places map state

def stateless (visit : Value → Except String Value) : Visitor Unit := fun child _ =>
  (visit child).map fun child => (child, ())

end Places

section Unions

def maxSchemaDepth : Nat := 64

def maxExpandedNodes : Nat := 8192

def unionKeys : List String := ["anyOf", "oneOf"]

def nestingLimit : String := "tool input_schema exceeds the schema nesting limit"

def isNullBranch (branch : Value) : Bool := branch.get "type" == some (.string "null")

/-- An `anyOf` or `oneOf` with a branch for null: an optional field. -/
def unionHasNullBranch (schema : Value) : Bool :=
  unionKeys.any fun key => ((schema.get key).bind asArray).any fun branches =>
    branches.any isNullBranch

def annotationKeys : List String := ["title", "description", "default", "examples", "$comment"]

def overlayAnnotations (reduced unionNode : List (String × Value)) : List (String × Value) :=
  annotationKeys.foldl (fun reduced key =>
    match (object unionNode).get key with
    | some value => insertAbsent key value reduced
    | none => reduced) reduced

def isObjectSchema : Value → Bool
  | .object map => ((object map).get "properties").isSome ||
      (object map).get "type" == some (.string "object")
  | _ => false

/-- The first branch that names a property has it. -/
def addProperties (properties : List (String × Value)) (branch : Value) : List (String × Value) :=
  match branch.get "properties" with
  | some (.object props) =>
    props.foldl (fun properties prop => insertAbsent prop.1 prop.2 properties) properties
  | _ => properties

variable (branches : List Value)

def mergedProperties : List (String × Value) :=
  branches.foldl addProperties []

def requiredNames (branch : Value) : List String :=
  (((branch.get "required").bind asArray).getD []).filterMap asStr

def mergedRequired : List Value → List String
  | [] => []
  | first :: rest =>
    rest.foldl (fun kept branch => kept.filter fun name => (requiredNames branch).contains name)
      (requiredNames first)

def mergeObjects : Value :=
  let rest :=
    match branches with
    | .object first :: _ => first.filter fun entry =>
      !(["properties", "required"] ++ unionKeys).contains entry.1
    | _ => []
  .object (insertEntry "required" (.array ((mergedRequired branches).map .string))
    (insertEntry "properties" (.object (mergedProperties branches)) (insertEntry "type" (.string "object") rest)))

def chosenBranch : Value :=
  match branches.filter fun branch => !isNullBranch branch with
  | [] => .object []
  | [only] => only
  | first :: others => if (first :: others).all isObjectSchema then mergeObjects (first :: others) else first

def reduceUnion (unionNode : List (String × Value)) : Value :=
  match chosenBranch branches with
  | .object reduced => .object (overlayAnnotations reduced unionNode)
  | other => other

variable (map : List (String × Value))

def unionBranches : Option (List Value) :=
  unionKeys.findSome? fun key => ((object map).get key).bind asArray

def reduceNode : List (String × Value) :=
  match unionBranches map with
  | some branches =>
    match reduceUnion branches map with
    | .object reduced => reduced
    | _ => []
  | none => map

/-- The properties that may be null, before the unions are gone. -/
def nullableNames : List String :=
  match (object map).get "properties" with
  | some (.object props) => (props.filter fun prop => unionHasNullBranch prop.2).map Prod.fst
  | _ => []

def dropRequired (names : List String) (map : List (String × Value)) : List (String × Value) :=
  if names.isEmpty then map
  else
    match (object map).get "required" with
    | some (.array required) => updateEntry "required"
        (.array (required.filter fun name => !names.any fun nullable => name == .string nullable)) map
    | _ => map

/-- Replace every union by one schema. The levels are those that may still be entered:
`maxSchemaDepth + 1` at the root, and none at a schema nested too deep. -/
def flattenUnions : Nat → Value → Except String Value
  | 0, _ => .error nestingLimit
  | levels + 1, .object map => do
    let (visited, _) ← visitSchemaChildren (stateless (flattenUnions levels)) map ()
    .ok (.object (reduceNode (dropRequired (nullableNames map) visited)))
  | _ + 1, other => .ok other

end Unions

section Normal

/-- Keep the first of each. -/
def dropRepeats : List Value → List Value
  | [] => []
  | name :: rest => name :: (dropRepeats rest).filter fun other => other != name

def isAbsent : Option Value → Bool
  | none => true
  | some value => value.isNull

def namesObject : Value → Bool
  | .string kind => kind == "object"
  | .array kinds => kinds.any fun kind => kind == .string "object"
  | _ => false

variable (map : List (String × Value))

def addType : List (String × Value) :=
  if ((object map).get "properties").isSome && isAbsent ((object map).get "type") then
    insertEntry "type" (.string "object") map
  else map

/-- An object schema says its properties and what it requires. -/
def addShape : List (String × Value) :=
  if ((object map).get "type").any namesObject ||
      ((object map).get "properties").isSome then
    let map := insertAbsent "properties" (.object []) map
    if isAbsent ((object map).get "required") then
      insertEntry "required" (.array []) map
    else map
  else map

def checkRequired : Except String (List (String × Value)) :=
  match (object map).get "required" with
  | none => .ok map
  | some (.array names) =>
    if names.any fun name => name.asStr.isNone then .error "required must contain only strings"
    else .ok (updateEntry "required" (.array (dropRepeats names)) map)
  | some _ => .error "required must be an array of strings"

def normalizeNode : Nat → Value → Except String Value
  | 0, _ => .error nestingLimit
  | _ + 1, .bool value => .ok (.bool value)
  | levels + 1, .object map => do
    let checked ← checkRequired (addShape (addType map))
    let (visited, _) ← visitSchemaChildren (stateless (normalizeNode levels)) checked ()
    .ok (.object visited)
  | _ + 1, _ => .error "schema nodes must be objects or booleans"

/-- The root is an object schema, or says nothing of its type. -/
def typedRoot : Except String (List (String × Value)) :=
  match (object map).get "type" with
  | none => .ok (insertEntry "type" (.string "object") map)
  | some .null => .ok (insertEntry "type" (.string "object") map)
  | some (.string kind) => if kind = "object" then .ok map else .error "tool input_schema type must be object"
  | some _ => .error "tool input_schema type must be object"

def normalizeRoot (schema : Value) : Except String Value :=
  match if schema.isNull || schema == .bool true then .object [] else schema with
  | .object map => do
    let map ← typedRoot map
    normalizeNode (maxSchemaDepth + 1) (.object map)
  | _ => .error "tool input_schema must be an object schema"

end Normal

section References
variable (root : Value)

/-- Siblings of a reference that may override what it names. -/
def siblingAnnotations : List String :=
  ["title", "description", "default", "examples", "$comment", "$schema", "$id"]

def mergeSiblings (reference : String) :
    List (String × Value) → List (String × Value) → Except String (List (String × Value))
  | [], target => .ok target
  | (key, value) :: rest, target =>
    if key = "$ref" then mergeSiblings reference rest target
    else if !siblingAnnotations.contains key &&
        ((object target).get key).any fun old => old != value then
      .error ("cannot inline $ref " ++ reference ++ " with conflicting " ++ key)
    else mergeSiblings reference rest (insertEntry key value target)

def localPointer (reference : String) : Except String String :=
  match (Text.stripPrefix? "#" reference).filter fun pointer =>
    pointer.isEmpty || Text.startsWith "/" pointer with
  | some pointer => .ok pointer
  | none => .error ("Antigravity requires a local JSON Pointer $ref: " ++ reference)

def resolveRef (stack : List String) (reference : Value) : Except String (String × Value) :=
  match reference.asStr with
  | none => .error "$ref must be a string"
  | some reference => do
    let pointer ← localPointer reference
    if stack.contains reference then
      .error ("Antigravity cannot inline recursive $ref: " ++ reference)
    else
      match root.pointerTo pointer with
      | none => .error ("unresolved tool schema $ref: " ++ reference)
      | some target => .ok (reference, target)

def overlaySiblings (reference : String) (schema target : Value) : Except String Value :=
  let target := if target = .bool true then .object [] else target
  match target with
  | .object map =>
    match schema with
    | .object siblings => (mergeSiblings reference siblings map).map .object
    | _ => .ok (.object map)
  | _ => .error ("Antigravity cannot inline non-object schema at " ++ reference)

def expansionLimit : String := "Antigravity tool schema reference expansion limit exceeded"

def expandRef (inline : List String → Visitor Nat) (stack : List String) : Visitor Nat :=
  fun schema remaining =>
    match schema.get "$ref" with
    | none => .ok (schema, remaining)
    | some reference => do
      let (reference, target) ← resolveRef root stack reference
      let (target, remaining) ← inline (reference :: stack) target remaining
      let schema ← overlaySiblings reference schema target
      .ok (schema, remaining)

/-- The definitions of a node go: the root still has all that references need. -/
def inlineChildren (inline : Visitor Nat) : Visitor Nat := fun schema remaining =>
  match schema with
  | .object map =>
    if ((object map).get "$dynamicRef").isSome ||
        ((object map).get "$recursiveRef").isSome then
      .error "Antigravity cannot inline dynamic or recursive schema references"
    else
      (visitSchemaChildren inline (removeEntry "definitions" (removeEntry "$defs" map))
        remaining).map fun (map, remaining) => (.object map, remaining)
  | other => .ok (other, remaining)

/-- Replace references by what they name. The levels are those that may still be
entered; every schema entered is counted. -/
def inlineRefs : (levels : Nat) → (stack : List String) → (nested : Bool) → Visitor Nat
  | 0, _, _, _, _ => .error expansionLimit
  | levels + 1, stack, nested, schema, remaining =>
    if remaining = 0 then .error expansionLimit
    else if nested && (schema.get "$id").isSome then
      .error "Antigravity cannot inline schemas with nested $id resources"
    else do
      let (schema, remaining) ←
        expandRef root (fun stack => inlineRefs levels stack true) stack schema (remaining - 1)
      inlineChildren (inlineRefs levels stack true) schema remaining

end References

def anthropicSchema (parameters : Option Value) : Except String Value := do
  let schema ← flattenUnions (maxSchemaDepth + 1) (parameters.getD (.object []))
  normalizeRoot schema

def antigravityClaudeSchema (parameters : Option Value) : Except String Value := do
  let root := parameters.getD (.object [])
  let (schema, _) ← inlineRefs root (maxSchemaDepth + 1) [] false root maxExpandedNodes
  let schema ← flattenUnions (maxSchemaDepth + 1) schema
  normalizeRoot schema

end Mahoquot.Compat
