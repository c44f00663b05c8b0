import Mahoquot.Compat.ToolSchema
import Mahoquot.Library.Checks

/-! What the schemas that are sent to Claude lack, and that sending them again changes
nothing. -/

set_option autoImplicit false

namespace Mahoquot.Compat
open Library Value List Prod
variable {place : Place} {key : String} {entries : List (String × Value)} {value : Value}
namespace Value
variable {entries : List (String × Value)} {key name : String}

theorem get_updateEntry (new : Value) : (object (updateEntry key new entries)).get name =
      if name = key then ((object entries).get key).map fun _ => new else (object entries).get name := by
  induction entries with
  | nil => split <;> rfl
  | cons entry rest ih =>
    rw [updateEntry]
    by_cases here : entry.1 = key
    · rw [if_pos here, get_cons, get_cons, get_cons, if_pos here, here]
      by_cases same : name = key
      · rw [if_pos same, if_pos same.symm]
        rfl
      · rw [if_neg same, if_neg (Ne.symm same), if_neg (Ne.symm same)]
    · rw [if_neg here, get_cons, ih, get_cons, get_cons, if_neg here]
      by_cases same : name = key
      · rw [if_pos same, if_pos same, if_neg (same ▸ here)]
      · rw [if_neg same, if_neg same]

theorem updateEntry_self (found : (object entries).get key = some value) :
    updateEntry key value entries = entries := by
  induction entries with
  | nil => rfl
  | cons entry rest ih =>
    rw [get_cons] at found
    rw [updateEntry]
    by_cases here : entry.1 = key
    · rw [if_pos here] at found
      rw [if_pos here, ← here, ← Option.some.inj found]
    · rw [if_neg here] at found
      rw [if_neg here, ih found]

theorem get_insertAbsent (new : Value) : (object (insertAbsent key new entries)).get name =
      if name = key then some (((object entries).get key).getD new) else (object entries).get name := by
  unfold insertAbsent
  cases found : (object entries).get key with
  | none => exact get_insertEntry key name new entries
  | some value =>
    by_cases same : name = key
    · rw [if_pos same, same]
      exact found
    · rw [if_neg same]
      rfl

theorem get_filter (keeps : String → Bool) : (object (entries.filter fun entry => keeps entry.1)).get name =
      if keeps name then (object entries).get name else none := by
  have named (entry : String × Value) : decide (keeps entry.1 = true ∧ (entry.1 == name) = true) =
      (keeps name && entry.1 == name) := by
    by_cases here : entry.1 = name
    · simp [← here]
    · simp [here]
  unfold Value.get
  dsimp only
  rw [find?_filter, funext named]
  cases keeps name <;> simp

theorem get_removeEntry : (object (removeEntry key entries)).get name =
    if name = key then none else (object entries).get name := by
  rw [removeEntry, get_filter fun other => other != key]
  by_cases same : name = key <;> simp [same]

end Value

variable {keys : List String} {map : List (String × Value)} {schema : Value}

/-- The schemas that stand at a keyword. -/
def childrenOf : Shape → Value → List Value
  | .map, .object children => children.map snd
  | .schema, child => [child]
  | .list, .array children => children
  | .mixed, .object children => (children.map snd).filter fun child => !child.isArray
  | _, _ => []

theorem childrenOf_mixed_eq_nil
    (unmapped : ∀ children, value = .object children → False) : childrenOf .mixed value = [] := by
  cases value with
  | object children => exact (unmapped children rfl).elim
  | _ => rfl

def schemaChildren (schema : Value) : List Value :=
  places.flatMap fun place => (schema.get place.key).toList.flatMap (childrenOf place.shape)

/-- The schema positions of a schema. -/
inductive AtPosition : Value → Value → Prop where
  | root {schema : Value} : AtPosition schema schema
  | child {schema child node : Value} (member : child ∈ schemaChildren schema)
      (below : AtPosition child node) : AtPosition schema node

/-- No schema position has one of the keys. -/
def Lacks (keys : List String) (schema : Value) : Prop :=
  ∀ node, AtPosition schema node → ∀ key ∈ keys, node.get key = none

theorem lacks_iff : Lacks keys schema ↔
    (∀ key ∈ keys, schema.get key = none) ∧ ∀ child ∈ schemaChildren schema, Lacks keys child := by
  constructor
  · intro lacks
    exact ⟨lacks schema .root, fun child member node below => lacks node (.child member below)⟩
  · rintro ⟨here, below⟩ node position
    cases position with
    | root => exact here
    | child member further => exact below _ member node further

theorem mem_schemaChildren {child : Value} : child ∈ schemaChildren schema ↔
    ∃ place ∈ places, ∃ value, schema.get place.key = some value ∧ child ∈ childrenOf place.shape value := by
  simp only [schemaChildren, mem_flatMap, Option.mem_toList]

/-- What is no object has no keys and no positions below it. -/
theorem lacks_of_get_eq_none (bare : ∀ key, schema.get key = none) : Lacks keys schema := by
  refine lacks_iff.2 ⟨fun key _ => bare key, fun child member => ?_⟩
  obtain ⟨place, -, value, found, -⟩ := mem_schemaChildren.1 member
  rw [bare] at found
  cases found

section Visits
variable {σ : Type} {visit : Visitor σ}

def Visited (visit : Visitor σ) (given child : Value) : Prop :=
  ∃ first last, visit given first = .ok (child, last)

variable {before after : σ}

theorem visitItems_mem {items visited : List Value} (passed : visitItems visit items before = .ok (visited, after)) :
    ∀ child ∈ visited, ∃ given ∈ items, Visited visit given child := by
  induction items generalizing visited before with
  | nil =>
    cases passed
    nofun
  | cons item items ih =>
    obtain ⟨⟨made, between⟩, first, rest⟩ := bind_eq_ok.1 passed
    obtain ⟨⟨others, last⟩, later, same⟩ := bind_eq_ok.1 rest
    cases same
    intro child member
    obtain rfl | member := mem_cons.1 member
    · exact ⟨item, mem_cons_self, before, between, first⟩
    · obtain ⟨given, found, visited⟩ := ih later child member
      exact ⟨given, mem_cons_of_mem item found, visited⟩

variable {visited : List (String × Value)}

theorem visitEntries_mem {enters : Value → Bool}
    (passed : visitEntries visit enters entries before = .ok (visited, after)) :
    ∀ child ∈ visited.map snd, ∃ given ∈ entries.map snd,
      if enters given then Visited visit given child else given = child := by
  induction entries generalizing visited before with
  | nil =>
    cases passed
    nofun
  | cons entry entries ih =>
    obtain ⟨name, given⟩ := entry
    rw [visitEntries] at passed
    split at passed
    next entered =>
      obtain ⟨⟨made, between⟩, first, rest⟩ := bind_eq_ok.1 passed
      obtain ⟨⟨others, last⟩, later, same⟩ := bind_eq_ok.1 rest
      cases same
      rw [map_cons, forall_mem_cons]
      refine ⟨⟨given, mem_cons_self, ?_⟩, fun child member => ?_⟩
      · rw [if_pos entered]
        exact ⟨before, between, first⟩
      · exact (ih later child member).imp fun _ => And.imp_left (mem_cons_of_mem _)
    next skipped =>
      obtain ⟨⟨others, last⟩, later, same⟩ := bind_eq_ok.1 passed
      cases same
      rw [map_cons, forall_mem_cons]
      refine ⟨⟨given, mem_cons_self, if_neg skipped ▸ rfl⟩, fun child member => ?_⟩
      exact (ih later child member).imp fun _ => And.imp_left (mem_cons_of_mem _)

/-- A keyword holds what the visit expects there. -/
def wellShaped : Shape → Value → Bool
  | .map, .object _ => true
  | .map, _ => false
  | .list, .array _ => true
  | .list, _ => false
  | _, _ => true

theorem visitPlace_mem {visited : Value}
    (passed : visitPlace visit place value before = .ok (visited, after)) :
    wellShaped place.shape visited = true ∧ ∀ child ∈ childrenOf place.shape visited,
      ∃ given ∈ childrenOf place.shape value, Visited visit given child := by
  unfold visitPlace at passed
  split at passed
  next children shape =>
    obtain ⟨⟨made, last⟩, visits, same⟩ := map_eq_ok.1 passed
    cases same
    rw [shape]
    exact ⟨rfl, visitEntries_mem visits⟩
  next => cases passed
  next shape =>
    rw [shape]
    refine ⟨rfl, fun child member => ?_⟩
    obtain rfl := mem_singleton.1 member
    exact ⟨_, mem_singleton_self _, before, after, passed⟩
  next children shape =>
    obtain ⟨⟨made, last⟩, visits, same⟩ := map_eq_ok.1 passed
    cases same
    rw [shape]
    exact ⟨rfl, visitItems_mem visits⟩
  next => cases passed
  next children shape =>
    obtain ⟨⟨made, last⟩, visits, same⟩ := map_eq_ok.1 passed
    cases same
    rw [shape]
    refine ⟨rfl, fun child member => ?_⟩
    obtain ⟨member, schema⟩ := mem_filter.1 member
    obtain ⟨given, found, visited⟩ := visitEntries_mem visits child member
    split at visited
    next entered => exact ⟨given, mem_filter.2 ⟨found, entered⟩, visited⟩
    next skipped => exact absurd (visited ▸ schema) skipped
  next _ shape unmapped =>
    obtain ⟨same, -⟩ := mk.inj (Except.ok.inj passed)
    rw [shape, ← same, childrenOf_mixed_eq_nil unmapped]
    exact ⟨rfl, nofun⟩

/-- The entries after a visit: other keys as they were, each keyword visited. -/
theorem visitPlaces_get {visits : List Place} (distinct : (visits.map Place.key).Nodup)
    (passed : visitPlaces visit visits map before = .ok (visited, after)) : (∀ key, key ∉ visits.map Place.key →
        (object visited).get key = (object map).get key) ∧ ∀ place ∈ visits, ((object map).get place.key = none ∧
          (object visited).get place.key = none) ∨ ∃ value made first last, (object map).get place.key = some value ∧
          (object visited).get place.key = some made ∧ visitPlace visit place value first = .ok (made, last) := by
  induction visits generalizing map before with
  | nil =>
    cases passed
    exact ⟨fun _ _ => rfl, nofun⟩
  | cons place visits ih =>
    obtain ⟨fresh, distinct⟩ := nodup_cons.1 distinct
    rw [visitPlaces] at passed
    split at passed
    next missing =>
      obtain ⟨others, visits_get⟩ := ih distinct passed
      refine ⟨fun key outside => others key fun inside => outside (mem_cons_of_mem _ inside), ?_⟩
      refine forall_mem_cons.2 ⟨.inl ⟨missing, ?_⟩, visits_get⟩
      rw [others place.key fresh, missing]
    next value found =>
      obtain ⟨⟨made, between⟩, first, rest⟩ := bind_eq_ok.1 passed
      obtain ⟨others, visits_get⟩ := ih distinct rest
      refine ⟨?_, forall_mem_cons.2 ⟨.inr ⟨value, made, before, between, found, ?_, first⟩, ?_⟩⟩
      · intro key outside
        obtain ⟨other, outside⟩ := not_or.1 fun either => outside (mem_cons.2 either)
        rw [others key outside, get_updateEntry, if_neg other]
      · rw [others place.key fresh, get_updateEntry, if_pos rfl, found]
        rfl
      · intro later member
        have other : later.key ≠ place.key := fun same =>
          fresh (same ▸ mem_map_of_mem member)
        have same := visits_get later member
        rwa [get_updateEntry, if_neg other] at same

theorem places_distinct : (places.map Place.key).Nodup := by decide

variable (passed : visitSchemaChildren visit map before = .ok (visited, after))
include passed

theorem visitSchemaChildren_get (outside : key ∉ places.map Place.key) :
    (object visited).get key = (object map).get key :=
  (visitPlaces_get places_distinct passed).1 key outside

theorem visitSchemaChildren_eq_none :
    (object visited).get key = none ↔ (object map).get key = none := by
  obtain ⟨others, inside⟩ := visitPlaces_get places_distinct passed
  by_cases outside : key ∈ places.map Place.key
  · obtain ⟨place, member, rfl⟩ := mem_map.1 outside
    obtain ⟨missing, still⟩ | ⟨value, made, _, _, found, now, -⟩ := inside place member
    · rw [missing, still]
    · rw [found, now]
      exact iff_of_false nofun nofun
  · rw [others key outside]

/-- Every keyword of a node holds what the visit expects there. -/
def Shaped (map : List (String × Value)) : Prop :=
  ∀ place ∈ places, ∀ value, (object map).get place.key = some value →
    wellShaped place.shape value = true

theorem visitSchemaChildren_place (member : place ∈ places)
    (found : (object visited).get place.key = some value) :
    ∃ old first last, (object map).get place.key = some old ∧ visitPlace visit place old first = .ok (value, last) := by
  obtain ⟨-, missing⟩ | ⟨old, made, first, last, before, now, visits⟩ :=
    (visitPlaces_get places_distinct passed).2 place member
  · rw [missing] at found
    cases found
  · rw [now] at found
    exact ⟨old, first, last, before, Option.some.inj found ▸ visits⟩

theorem shaped_visitSchemaChildren : Shaped visited := by
  intro place member value found
  obtain ⟨old, first, last, -, visits⟩ := visitSchemaChildren_place passed member found
  exact (visitPlace_mem visits).1

/-- Every schema below a visited node is a visited one. -/
theorem visitSchemaChildren_mem :
    ∀ child ∈ schemaChildren (.object visited), ∃ given ∈ schemaChildren (.object map), Visited visit given child := by
  intro child member
  obtain ⟨place, given, value, found, below⟩ := mem_schemaChildren.1 member
  obtain ⟨old, first, last, held, visits⟩ := visitSchemaChildren_place passed given found
  obtain ⟨source, inside, visited⟩ := (visitPlace_mem visits).2 child below
  exact ⟨source, mem_schemaChildren.2 ⟨place, given, old, held, inside⟩, visited⟩

end Visits

section Nodes
variable {other : List (String × Value)}

def Below (keys : List String) (map : List (String × Value)) : Prop :=
  ∀ child ∈ schemaChildren (.object map), Lacks keys child

theorem below_of_agree (below : Below keys map)
    (agree : ∀ place ∈ places, (object other).get place.key = (object map).get place.key) : Below keys other := by
  intro child member
  obtain ⟨place, given, value, found, inside⟩ := mem_schemaChildren.1 member
  rw [agree place given] at found
  exact below child (mem_schemaChildren.2 ⟨place, given, value, found, inside⟩)

theorem ne_of_mem_places (member : place ∈ places)
    (outside : key ∉ places.map Place.key) : place.key ≠ key :=
  fun same => outside (same ▸ mem_map_of_mem member)

theorem below_insertEntry (below : Below keys map)
    (outside : key ∉ places.map Place.key) (new : Value) : Below keys (insertEntry key new map) :=
  below_of_agree below fun place member => by
    rw [get_insertEntry, if_neg (ne_of_mem_places member outside)]

end Nodes

section Reduction

/-- The keys that the reduction of a union may write. -/
def writtenKeys : List String := ["type", "properties", "required"] ++ annotationKeys

variable {branches : List Value} {reduced node : List (String × Value)} {key : String}

theorem get_overlayAnnotations (other : key ∉ annotationKeys) :
    (object (overlayAnnotations reduced node)).get key = (object reduced).get key := by
  refine foldlRecOn annotationKeys _
    (motive := fun made => (object made).get key = (object reduced).get key) rfl
    fun made same annotation member => ?_
  have different : key ≠ annotation := fun same => other (same ▸ member)
  split
  · rw [get_insertAbsent, if_neg different, same]
  · exact same

theorem lacks_overlayAnnotations (foreign : ∀ key ∈ keys, key ∉ annotationKeys)
    (lacks : Lacks keys (.object reduced)) : Lacks keys (.object (overlayAnnotations reduced node)) := by
  obtain ⟨here, below⟩ := lacks_iff.1 lacks
  refine lacks_iff.2 ⟨fun key member => ?_, below_of_agree below fun place member => ?_⟩
  · rw [get_overlayAnnotations (foreign key member), here key member]
  · have outside : ∀ key ∈ places.map Place.key, key ∉ annotationKeys := by decide
    exact get_overlayAnnotations (outside place.key (mem_map_of_mem member))

theorem mem_insertEntry {new : Value}
    (member : value ∈ (insertEntry key new entries).map snd) : value = new ∨ value ∈ entries.map snd := by
  induction entries with
  | nil => exact .inl (mem_singleton.1 member)
  | cons entry rest ih =>
    rw [insertEntry] at member
    split at member
    · exact mem_cons.1 member
    · split at member
      · exact (mem_cons.1 member).imp_right (mem_cons_of_mem _)
      · obtain same | member := mem_cons.1 member
        · exact .inr (same ▸ mem_cons_self)
        · exact (ih member).imp_right (mem_cons_of_mem _)

theorem mem_insertAbsent {new : Value}
    (member : value ∈ (insertAbsent key new entries).map snd) : value = new ∨ value ∈ entries.map snd := by
  unfold insertAbsent at member
  split at member
  · exact .inr member
  · exact mem_insertEntry member

/-- Every property is a property of some branch. -/
def Drawn (branches : List Value) (made : List (String × Value)) : Prop :=
  ∀ value ∈ made.map snd, ∃ branch ∈ branches, value ∈ schemaChildren branch

theorem drawn_mergedProperties : Drawn branches (mergedProperties branches) := by
  refine foldlRecOn branches addProperties (motive := Drawn branches)
    (fun _ member => by cases member) fun made before branch given => ?_
  unfold addProperties
  split
  next props found =>
    refine foldlRecOn props _ (motive := Drawn branches) before fun made before prop member value inside => ?_
    obtain rfl | inside := mem_insertAbsent inside
    · exact ⟨branch, given, mem_schemaChildren.2 ⟨⟨"properties", .map⟩, by decide, _, found, mem_map_of_mem member⟩⟩
    · exact before value inside
  next => exact before

theorem get_mergeRest (found : (object (match branches with
      | .object first :: _ => first.filter fun entry =>
        !(["properties", "required"] ++ unionKeys).contains entry.1
      | _ => [])).get key = some value) :
    ∃ branch ∈ branches, branch.get key = some value := by
  split at found
  next first rest =>
    rw [get_filter fun name => !(["properties", "required"] ++ unionKeys).contains name] at found
    split at found
    next => exact ⟨_, mem_cons_self, found⟩
    next => cases found
  next => cases found

theorem lacks_empty : Lacks keys (.object []) := lacks_of_get_eq_none fun _ => rfl

section
variable (foreign : ∀ key ∈ keys, key ∉ writtenKeys) (lacks : ∀ branch ∈ branches, Lacks keys branch)
include foreign lacks

theorem lacks_mergeObjects : Lacks keys (mergeObjects branches) := by
  refine lacks_iff.2 ⟨fun key member => ?_, fun child member => ?_⟩
  · have outside := foreign key member
    simp only [writtenKeys, mem_append, mem_cons, not_or] at outside
    obtain ⟨⟨type, properties, required, -⟩, -⟩ := outside
    unfold mergeObjects
    rw [get_insertEntry, if_neg required, get_insertEntry, if_neg properties,
      get_insertEntry, if_neg type, Option.eq_none_iff_forall_ne_some]
    intro value found
    obtain ⟨branch, given, held⟩ := get_mergeRest found
    rw [(lacks_iff.1 (lacks branch given)).1 key member] at held
    cases held
  · obtain ⟨place, given, value, found, inside⟩ := mem_schemaChildren.1 member
    have type : place.key ≠ "type" := ne_of_mem_places given (by decide)
    have required : place.key ≠ "required" := ne_of_mem_places given (by decide)
    unfold mergeObjects at found
    rw [get_insertEntry, if_neg required, get_insertEntry] at found
    by_cases properties : place.key = "properties"
    · rw [if_pos properties] at found
      cases found
      have shape : ∀ place ∈ places, place.key = "properties" → place.shape = .map := by decide
      rw [shape place given properties] at inside
      obtain ⟨branch, found, below⟩ := drawn_mergedProperties child inside
      exact (lacks_iff.1 (lacks branch found)).2 child below
    · rw [if_neg properties, get_insertEntry, if_neg type] at found
      obtain ⟨branch, held, kept⟩ := get_mergeRest found
      exact (lacks_iff.1 (lacks branch held)).2 child (mem_schemaChildren.2 ⟨place, given, value, kept, inside⟩)

theorem lacks_chosenBranch : Lacks keys (chosenBranch branches) := by
  have kept : ∀ branch ∈ branches.filter fun branch => !isNullBranch branch, Lacks keys branch :=
    fun branch member => lacks branch (mem_of_mem_filter member)
  unfold chosenBranch
  split
  next => exact lacks_empty
  next only single => exact kept only (single ▸ mem_cons_self)
  next first others _ several =>
    rw [several] at kept
    split
    · exact lacks_mergeObjects foreign kept
    · exact kept first mem_cons_self

theorem lacks_reduceUnion (result : reduceUnion branches node = .object reduced) : Lacks keys (.object reduced) := by
  have chosen := lacks_chosenBranch foreign lacks
  unfold reduceUnion at result
  split at result
  next map given =>
    cases result
    rw [given] at chosen
    exact lacks_overlayAnnotations (fun key member annotation => foreign key member (mem_append_right _ annotation)) chosen
  next bare =>
    rw [result] at chosen
    exact chosen

end

theorem unionBranches_mem (found : unionBranches map = some branches) :
    ∀ branch ∈ branches, branch ∈ schemaChildren (.object map) := by
  obtain ⟨key, union, given⟩ := exists_of_findSome?_eq_some found
  obtain ⟨value, held, array⟩ := Option.bind_eq_some_iff.1 given
  have place : ∀ key ∈ unionKeys, ⟨key, .list⟩ ∈ places := by decide
  intro branch member
  refine mem_schemaChildren.2 ⟨⟨key, .list⟩, place key union, value, held, ?_⟩
  cases value with
  | array items => exact Option.some.inj array ▸ member
  | _ => cases array

end Reduction

theorem stateless_eq_ok {visit : Value → Except String Value} {given child : Value} {first last : Unit} :
    stateless visit given first = .ok (child, last) ↔ visit given = .ok child := by
  unfold stateless
  rw [map_eq_ok]
  constructor
  · rintro ⟨made, visited, same⟩
    cases same
    exact visited
  · exact fun visited => ⟨child, visited, rfl⟩

theorem get_dropRequired {names : List String} (other : key ≠ "required") :
    (object (dropRequired names map)).get key = (object map).get key := by
  unfold dropRequired
  split
  · rfl
  · split
    · rw [get_updateEntry, if_neg other]
    · rfl

theorem get_union_eq_none (unbranched : unionBranches map = none)
    (arrays : ∀ key ∈ unionKeys, ∀ value, (object map).get key = some value →
      ∃ items, value = .array items) : ∀ key ∈ unionKeys, (object map).get key = none := by
  intro key union
  have single := findSome?_eq_none_iff.1 unbranched key union
  cases found : (object map).get key with
  | none => rfl
  | some value =>
    obtain ⟨items, rfl⟩ := arrays key union value found
    rw [found] at single
    cases single

theorem lacks_reduceNode (foreign : ∀ key ∈ keys, key ∉ writtenKeys) (here : ∀ key ∈ keys, (object map).get key = none)
    (arrays : ∀ key ∈ unionKeys, ∀ value, (object map).get key = some value → ∃ items, value = .array items)
    (below : Below (keys ++ unionKeys) map) : Lacks (keys ++ unionKeys) (.object (reduceNode map)) := by
  have foreignAll : ∀ key ∈ keys ++ unionKeys, key ∉ writtenKeys := by
    have unions : ∀ key ∈ unionKeys, key ∉ writtenKeys := by decide
    exact forall_mem_append.2 ⟨foreign, unions⟩
  unfold reduceNode
  cases found : unionBranches map with
  | none => exact lacks_iff.2 ⟨forall_mem_append.2 ⟨here, get_union_eq_none found arrays⟩, below⟩
  | some branches =>
    dsimp only
    split
    next reduced result =>
      exact lacks_reduceUnion foreignAll (fun branch member => below branch (unionBranches_mem found branch member)) result
    next => exact lacks_empty

/-- Flattened schemas have no unions, and no keys that are foreign to the reduction. -/
theorem lacks_flattenUnions {levels : Nat} {flat : Value}
    (foreign : ∀ key ∈ keys, key ∉ writtenKeys) (lacks : Lacks keys schema)
    (flattened : flattenUnions levels schema = .ok flat) : Lacks (keys ++ unionKeys) flat := by
  induction levels generalizing schema flat with
  | zero => cases flattened
  | succ levels ih =>
    cases schema with
    | object map =>
      obtain ⟨⟨visited, _⟩, passed, same⟩ := bind_eq_ok.1 flattened
      cases same
      obtain ⟨here, children⟩ := lacks_iff.1 lacks
      refine lacks_reduceNode foreign (fun key member => ?_) (fun key union value found => ?_) ?_
      · have other : key ≠ "required" := fun same => foreign key member (same ▸ by decide)
        rw [get_dropRequired other, visitSchemaChildren_eq_none passed]
        exact here key member
      · have place : ∀ key ∈ unionKeys, ⟨key, .list⟩ ∈ places ∧ key ≠ "required" := by decide
        rw [get_dropRequired (place key union).2] at found
        have shaped := shaped_visitSchemaChildren passed _ (place key union).1 value found
        cases value with
        | array items => exact ⟨items, rfl⟩
        | _ => cases shaped
      · have below : Below (keys ++ unionKeys) visited := by
          intro child member
          obtain ⟨given, found, first, last, visits⟩ := visitSchemaChildren_mem passed child member
          exact ih (children given found) (stateless_eq_ok.1 visits)
        exact below_of_agree below fun place member =>
          get_dropRequired (ne_of_mem_places member (by decide))
    | _ =>
      cases flattened
      exact lacks_of_get_eq_none fun _ => rfl

section Normalizing

variable {normal : Value} {key : String}

theorem get_addType (other : key ≠ "type") : (object (addType map)).get key = (object map).get key := by
  unfold addType
  split
  · rw [get_insertEntry, if_neg other]
  · rfl

abbrev objectLike (map : List (String × Value)) : Bool :=
  ((object map).get "type").any namesObject || ((object map).get "properties").isSome

theorem addShape_unsaid (other : objectLike map = false) : addShape map = map := by
  unfold addShape
  rw [if_neg (Bool.eq_false_iff.1 other)]

theorem get_addShape_said (object : objectLike map = true) (key : String) : (Value.object (addShape map)).get key =
      if key = "required" ∧ isAbsent ((Value.object map).get "required") = true then some (.array [])
      else if key = "properties" then some (((Value.object map).get "properties").getD (.object []))
      else (Value.object map).get key := by
  have required : (Value.object (Value.insertAbsent "properties" (.object []) map)).get "required" =
      (Value.object map).get "required" := by rw [Value.get_insertAbsent, if_neg (by decide)]
  unfold addShape
  dsimp only
  rw [if_pos object, required]
  split
  next absent =>
    rw [get_insertEntry, get_insertAbsent]
    simp only [absent, and_true]
  next present =>
    rw [if_neg fun both => present both.2, get_insertAbsent]

theorem get_addShape (properties : key ≠ "properties") (required : key ≠ "required") :
    (Value.object (addShape map)).get key = (Value.object map).get key := by
  cases object : objectLike map with
  | true => rw [get_addShape_said object, if_neg fun both => required both.1, if_neg properties]
  | false => rw [addShape_unsaid object]

theorem get_addShape_properties : (object (addShape map)).get "properties" = (object map).get "properties" ∨
      (Value.object (addShape map)).get "properties" = some (.object []) := by
  cases object : objectLike map with
  | true =>
    rw [get_addShape_said object, if_pos rfl]
    cases (Value.object map).get "properties" with
    | none => exact .inr rfl
    | some value => exact .inl rfl
  | false => exact .inl (by rw [addShape_unsaid object])

variable {checked : List (String × Value)}

theorem checkRequired_eq_ok (passed : checkRequired map = .ok checked) :
    ((object map).get "required" = none ∧ checked = map) ∨ ∃ names, (object map).get "required" = some (.array names) ∧
        (names.any fun name => name.asStr.isNone) = false ∧
        checked = updateEntry "required" (.array (dropRepeats names)) map := by
  unfold checkRequired at passed
  split at passed
  next missing => exact .inl ⟨missing, (Except.ok.inj passed).symm⟩
  next names given =>
    split at passed
    · cases passed
    next strings =>
      exact .inr ⟨names, given, Bool.eq_false_iff.2 strings, (Except.ok.inj passed).symm⟩
  next => cases passed

theorem get_checkRequired (passed : checkRequired map = .ok checked) (other : key ≠ "required") :
    (object checked).get key = (object map).get key := by
  obtain ⟨-, rfl⟩ | ⟨names, -, -, rfl⟩ := checkRequired_eq_ok passed
  · rfl
  · rw [get_updateEntry, if_neg other]

def shapeKeys : List String := ["type", "properties", "required"]

theorem get_shaped (passed : checkRequired (addShape (addType map)) = .ok checked)
    (other : key ∉ shapeKeys) : (object checked).get key = (object map).get key := by
  simp only [shapeKeys, mem_cons, not_or] at other
  rw [get_checkRequired passed other.2.2.1, get_addShape other.2.1 other.2.2.1, get_addType other.1]

theorem below_shaped (passed : checkRequired (addShape (addType map)) = .ok checked) (below : Below keys map) :
    Below keys checked := by
  intro child member
  obtain ⟨place, given, value, found, inside⟩ := mem_schemaChildren.1 member
  by_cases properties : place.key = "properties"
  · have shape : ∀ place ∈ places, place.key = "properties" → place.shape = .map := by decide
    rw [shape place given properties] at inside
    rw [properties, get_checkRequired passed (by decide)] at found
    obtain same | empty := @get_addShape_properties (addType map)
    · rw [same, get_addType (by decide)] at found
      exact below child (mem_schemaChildren.2 ⟨⟨"properties", .map⟩, by decide, value, found, inside⟩)
    · rw [empty] at found
      cases found
      cases inside
  · have outside : ∀ place ∈ places, place.key ≠ "properties" → place.key ∉ shapeKeys := by decide
    rw [get_shaped passed (outside place given properties)] at found
    exact below child (mem_schemaChildren.2 ⟨place, given, value, found, inside⟩)

theorem lacks_normalizeNode {levels : Nat} (foreign : ∀ key ∈ keys, key ∉ shapeKeys)
    (lacks : Lacks keys schema) (normalized : normalizeNode levels schema = .ok normal) : Lacks keys normal := by
  induction levels generalizing schema normal with
  | zero => cases normalized
  | succ levels ih =>
    cases schema with
    | bool value =>
      cases normalized
      exact lacks
    | object map =>
      obtain ⟨checked, required, rest⟩ := bind_eq_ok.1 normalized
      obtain ⟨⟨visited, _⟩, passed, same⟩ := bind_eq_ok.1 rest
      cases same
      obtain ⟨here, children⟩ := lacks_iff.1 lacks
      refine lacks_iff.2 ⟨fun key member => ?_, fun child member => ?_⟩
      · rw [visitSchemaChildren_eq_none passed, get_shaped required (foreign key member)]
        exact here key member
      · obtain ⟨given, found, first, last, visits⟩ := visitSchemaChildren_mem passed child member
        exact ih (below_shaped required children given found) (stateless_eq_ok.1 visits)
    | _ => cases normalized

theorem typedRoot_eq_ok {typed : List (String × Value)} (passed : typedRoot map = .ok typed) :
    (typed = map ∨ typed = insertEntry "type" (.string "object") map) ∧
      (object typed).get "type" = some (.string "object") := by
  unfold typedRoot at passed
  split at passed
  next =>
    cases passed
    exact ⟨.inr rfl, by rw [get_insertEntry, if_pos rfl]⟩
  next =>
    cases passed
    exact ⟨.inr rfl, by rw [get_insertEntry, if_pos rfl]⟩
  next kind found =>
    split at passed
    next object =>
      cases passed
      exact ⟨.inl rfl, object ▸ found⟩
    next => cases passed
  next => cases passed

/-- A root that is accepted is normalized as an object of that type. -/
theorem normalizeRoot_eq_ok (normalized : normalizeRoot schema = .ok normal) :
    ∃ map typed, (object map = schema ∨ map = []) ∧ typedRoot map = .ok typed ∧
      normalizeNode (maxSchemaDepth + 1) (.object typed) = .ok normal := by
  unfold normalizeRoot at normalized
  split at normalized
  next map given =>
    obtain ⟨typed, passed, rest⟩ := bind_eq_ok.1 normalized
    refine ⟨map, typed, ?_, passed, rest⟩
    split at given
    · exact .inr (object.inj given).symm
    · exact .inl given.symm
  next => cases normalized

theorem lacks_normalizeRoot (foreign : ∀ key ∈ keys, key ∉ shapeKeys) (lacks : Lacks keys schema)
    (normalized : normalizeRoot schema = .ok normal) : Lacks keys normal := by
  obtain ⟨map, typed, given, passed, rest⟩ := normalizeRoot_eq_ok normalized
  have lacksMap : Lacks keys (.object map) := by
    obtain rfl | rfl := given
    · exact lacks
    · exact lacks_empty
  refine lacks_normalizeNode foreign ?_ rest
  obtain rfl | rfl := (typedRoot_eq_ok passed).1
  · exact lacksMap
  · obtain ⟨here, below⟩ := lacks_iff.1 lacksMap
    refine lacks_iff.2 ⟨fun key member => ?_, below_insertEntry below (by decide) _⟩
    have other : key ≠ "type" := fun same => foreign key member (same ▸ by decide)
    rw [get_insertEntry, if_neg other, here key member]

end Normalizing

section Inlining

/-- What is left of references once they are inlined: nothing. -/
def referenceKeys : List String := ["$ref", "$defs", "definitions"]

theorem get_mergeSiblings {reference : String} {siblings target merged : List (String × Value)}
    (passed : mergeSiblings reference siblings target = .ok merged)
    (bare : (object target).get "$ref" = none) : (object merged).get "$ref" = none := by
  induction siblings generalizing target with
  | nil =>
    cases passed
    exact bare
  | cons sibling siblings ih =>
    rw [mergeSiblings] at passed
    split at passed
    next => exact ih passed bare
    next other =>
      split at passed
      · cases passed
      · refine ih passed ?_
        rw [get_insertEntry, if_neg (Ne.symm other), bare]

theorem get_overlaySiblings {reference : String} {target node : Value}
    (passed : overlaySiblings reference schema target = .ok node)
    (bare : target.get "$ref" = none) : node.get "$ref" = none := by
  unfold overlaySiblings at passed
  dsimp only at passed
  split at passed
  next map given =>
    have unreferring : (object map).get "$ref" = none := by
      split at given
      · rw [← object.inj given]
        rfl
      · rw [← given, bare]
    split at passed
    · obtain ⟨merged, siblings, rfl⟩ := map_eq_ok.1 passed
      exact get_mergeSiblings siblings unreferring
    · rw [← Except.ok.inj passed, unreferring]
  next => cases passed

variable {root : Value} {before after : Nat}

theorem get_expandRef {inline : List String → Visitor Nat} {stack : List String} {node : Value}
    (inlines : ∀ stack schema inlined before after,
      inline stack schema before = .ok (inlined, after) → inlined.get "$ref" = none)
    (passed : expandRef root inline stack schema before = .ok (node, after)) : node.get "$ref" = none := by
  unfold expandRef at passed
  split at passed
  next missing =>
    cases passed
    exact missing
  next reference _ =>
    obtain ⟨⟨name, target⟩, -, passed⟩ := bind_eq_ok.1 passed
    obtain ⟨⟨expanded, left⟩, inner, passed⟩ := bind_eq_ok.1 passed
    obtain ⟨made, overlaid, same⟩ := bind_eq_ok.1 passed
    cases same
    exact get_overlaySiblings overlaid (inlines _ _ _ _ _ inner)

theorem lacks_inlineChildren {inline : Visitor Nat} {inlined : Value} (inlines : ∀ schema inlined before after,
      inline schema before = .ok (inlined, after) → Lacks referenceKeys inlined) (bare : schema.get "$ref" = none)
    (passed : inlineChildren inline schema before = .ok (inlined, after)) : Lacks referenceKeys inlined := by
  unfold inlineChildren at passed
  split at passed
  next map =>
    split at passed
    · cases passed
    · obtain ⟨⟨visited, last⟩, visits, same⟩ := map_eq_ok.1 passed
      cases same
      refine lacks_iff.2 ⟨fun key member => ?_, fun child member => ?_⟩
      · rw [visitSchemaChildren_eq_none visits, get_removeEntry, get_removeEntry]
        simp only [referenceKeys, mem_cons, not_mem_nil, or_false] at member
        obtain rfl | rfl | rfl := member
        · exact bare
        · rfl
        · rfl
      · obtain ⟨given, -, first, last, visited⟩ := visitSchemaChildren_mem visits child member
        exact inlines _ _ _ _ visited
  next unmapped =>
    cases passed
    refine lacks_of_get_eq_none fun key => ?_
    cases schema with
    | object map => exact (unmapped map rfl).elim
    | _ => rfl

theorem lacks_inlineRefs {levels : Nat} {stack : List String} {nested : Bool} {inlined : Value}
    (passed : inlineRefs root levels stack nested schema before = .ok (inlined, after)) :
    Lacks referenceKeys inlined := by
  induction levels generalizing stack nested schema inlined before after with
  | zero => cases passed
  | succ levels ih =>
    rw [inlineRefs] at passed
    split at passed
    · cases passed
    split at passed
    · cases passed
    obtain ⟨⟨node, remaining⟩, expanded, rest⟩ := bind_eq_ok.1 passed
    have bare : node.get "$ref" = none := get_expandRef
      (fun _ _ _ _ _ inner => (lacks_iff.1 (ih inner)).1 "$ref" (by decide)) expanded
    exact lacks_inlineChildren (fun _ _ _ _ inner => ih inner) bare rest

end Inlining

section Fixed
variable {σ : Type} {visit : Visitor σ}

theorem visitItems_fixed {items : List Value}
    (fixed : ∀ child ∈ items, ∀ state, visit child state = .ok (child, state)) (state : σ) :
    visitItems visit items state = .ok (items, state) := by
  induction items with
  | nil => rfl
  | cons item items ih =>
    obtain ⟨first, rest⟩ := forall_mem_cons.1 fixed
    exact bind_eq_ok.2 ⟨(item, state), first state, bind_eq_ok.2 ⟨(items, state), ih rest, rfl⟩⟩

theorem visitEntries_fixed {enters : Value → Bool}
    (fixed : ∀ child ∈ (entries.map snd).filter enters, ∀ state, visit child state = .ok (child, state))
    (state : σ) : visitEntries visit enters entries state = .ok (entries, state) := by
  induction entries with
  | nil => rfl
  | cons entry entries ih =>
    obtain ⟨name, child⟩ := entry
    rw [map_cons, filter_cons] at fixed
    rw [visitEntries]
    split
    next entered =>
      rw [if_pos entered] at fixed
      obtain ⟨first, rest⟩ := forall_mem_cons.1 fixed
      exact bind_eq_ok.2 ⟨(child, state), first state, bind_eq_ok.2 ⟨(entries, state), ih rest, rfl⟩⟩
    next skipped =>
      rw [if_neg skipped] at fixed
      exact bind_eq_ok.2 ⟨(entries, state), ih fixed, rfl⟩

theorem visitPlace_fixed (shaped : wellShaped place.shape value = true)
    (fixed : ∀ child ∈ childrenOf place.shape value, ∀ state, visit child state = .ok (child, state))
    (state : σ) : visitPlace visit place value state = .ok (value, state) := by
  unfold visitPlace
  cases shape : place.shape with
  | map =>
    rw [shape] at shaped fixed
    cases value with
    | object children =>
      refine map_eq_ok.2 ⟨_, visitEntries_fixed (fun child member => ?_) state, rfl⟩
      exact fixed child (mem_of_mem_filter member)
    | _ => cases shaped
  | schema =>
    rw [shape] at fixed
    exact fixed value mem_cons_self state
  | list =>
    rw [shape] at shaped fixed
    cases value with
    | array children => exact map_eq_ok.2 ⟨_, visitItems_fixed fixed state, rfl⟩
    | _ => cases shaped
  | mixed =>
    rw [shape] at fixed
    cases value with
    | object children => exact map_eq_ok.2 ⟨_, visitEntries_fixed fixed state, rfl⟩
    | _ => rfl

theorem visitPlaces_fixed {visits : List Place} (known : ∀ place ∈ visits, place ∈ places) (shaped : Shaped map)
    (fixed : ∀ child ∈ schemaChildren (.object map), ∀ state, visit child state = .ok (child, state))
    (state : σ) : visitPlaces visit visits map state = .ok (map, state) := by
  induction visits with
  | nil => rfl
  | cons place visits ih =>
    obtain ⟨here, rest⟩ := forall_mem_cons.1 known
    rw [visitPlaces]
    split
    next => exact ih rest
    next value found =>
      have same := visitPlace_fixed (shaped place here value found) (fun child member =>
          fixed child (mem_schemaChildren.2 ⟨place, here, value, found, member⟩)) state
      rw [same]
      refine bind_eq_ok.2 ⟨(value, state), rfl, ?_⟩
      dsimp only
      rw [updateEntry_self found]
      exact ih rest

end Fixed

theorem mem_dropRepeats {names : List Value} {name : Value} (member : name ∈ dropRepeats names) : name ∈ names := by
  induction names with
  | nil => exact member
  | cons first names ih =>
    obtain rfl | member := mem_cons.1 member
    · exact mem_cons_self
    · exact mem_cons_of_mem _ (ih (mem_of_mem_filter member))

theorem dropRepeats_eq_self {names : List Value} (distinct : names.Nodup) : dropRepeats names = names := by
  induction names with
  | nil => rfl
  | cons first names ih =>
    obtain ⟨fresh, distinct⟩ := nodup_cons.1 distinct
    rw [dropRepeats, ih distinct, filter_eq_self.2]
    intro other member
    exact bne_iff_ne.2 fun same => fresh (same ▸ member)

theorem nodup_dropRepeats (names : List Value) : (dropRepeats names).Nodup := by
  induction names with
  | nil => exact nodup_nil
  | cons first names ih =>
    refine nodup_cons.2 ⟨fun member => ?_, ih.filter _⟩
    simpa using (mem_filter.1 member).2

/-- A node as normalizing leaves it. -/
structure Formed (map : List (String × Value)) : Prop where
  type : ((object map).get "properties").isSome = true →
    isAbsent ((object map).get "type") = false
  shape : ((object map).get "type").any namesObject = true →
    ((object map).get "properties").isSome = true
  listed : ((object map).get "properties").isSome = true →
    isAbsent ((object map).get "required") = false
  required : ∀ value, (object map).get "required" = some value →
    ∃ names, value = .array names ∧ (names.any fun name => name.asStr.isNone) = false ∧
      dropRepeats names = names

theorem formed_congr {other : List (String × Value)} (formed : Formed map)
    (type : (object other).get "type" = (object map).get "type")
    (required : (object other).get "required" = (object map).get "required")
    (properties : ((object other).get "properties").isSome =
    ((object map).get "properties").isSome) : Formed other where
  type := by rw [type, properties]; exact formed.type
  shape := by rw [type, properties]; exact formed.shape
  listed := by rw [required, properties]; exact formed.listed
  required := by rw [required]; exact formed.required

/-- Normalizing a node that is formed leaves it as it is. -/
theorem formed_fixed (formed : Formed map) : checkRequired (addShape (addType map)) = .ok map := by
  have typed : addType map = map := by
    unfold addType
    cases listed : ((object map).get "properties").isSome with
    | false => rfl
    | true => rw [formed.type listed]; rfl
  have shaped : addShape map = map := by
    unfold addShape
    cases listed : ((object map).get "properties").isSome with
    | true =>
      have same : insertAbsent "properties" (.object []) map = map := by
        rw [insertAbsent, if_pos listed]
      rw [Bool.or_true, if_pos rfl, same, if_neg (by rw [formed.listed listed]; decide)]
    | false =>
      have unnamed : ((object map).get "type").any namesObject = false :=
        Bool.eq_false_iff.2 fun named => by rw [formed.shape named] at listed; cases listed
      rw [unnamed]
      rfl
  rw [typed, shaped]
  unfold checkRequired
  cases found : (object map).get "required" with
  | none => rfl
  | some value =>
    obtain ⟨names, rfl, strings, distinct⟩ := formed.required value found
    dsimp only
    rw [strings, distinct, updateEntry_self found]
    rfl

theorem isAbsent_of_namesObject {type : Option Value} (named : type.any namesObject = true) :
    isAbsent type = false := by
  cases type with
  | none => cases named
  | some value =>
    cases value with
    | null => cases named
    | _ => rfl

theorem typed_addType (map : List (String × Value)) (listed : ((object (addType map)).get "properties").isSome = true) :
    isAbsent ((object (addType map)).get "type") = false := by
  rw [get_addType (by decide)] at listed
  unfold addType
  rw [listed]
  split
  · rw [get_insertEntry]
    rfl
  next present => exact Bool.eq_false_iff.2 present

theorem formed_checked {checked : List (String × Value)}
    (passed : checkRequired (addShape (addType map)) = .ok checked) : Formed checked := by
  have properties : (object checked).get "properties" =
      (object (addShape (addType map))).get "properties" := get_checkRequired passed (by decide)
  have type : (object checked).get "type" = (object (addType map)).get "type" := by
    rw [get_checkRequired passed (by decide), get_addShape (by decide) (by decide)]
  -- the list of required names was there, and is a list of names now
  have required : ∀ value, (object checked).get "required" = some value →
      ∃ names, value = .array names ∧ (names.any fun name => name.asStr.isNone) = false ∧
        dropRepeats names = names := by
    intro value found
    obtain ⟨missing, rfl⟩ | ⟨names, given, strings, rfl⟩ := checkRequired_eq_ok passed
    · rw [missing] at found
      cases found
    · rw [get_updateEntry, given] at found
      cases found
      refine ⟨dropRepeats names, rfl, ?_, dropRepeats_eq_self (nodup_dropRepeats names)⟩
      rw [any_eq_false] at strings ⊢
      exact fun name member => strings name (mem_dropRepeats member)
  have listed : isAbsent ((object (addShape (addType map))).get "required") = false →
      isAbsent ((object checked).get "required") = false := by
    intro present
    obtain ⟨missing, rfl⟩ | ⟨names, given, -, rfl⟩ := checkRequired_eq_ok passed
    · exact present
    · rw [get_updateEntry, given]
      rfl
  cases object : objectLike (addType map) with
  | true =>
    have present : isAbsent ((Value.object (addShape (addType map))).get "required") = false := by
      rw [get_addShape_said object]
      split
      · rfl
      next said => exact Bool.eq_false_iff.2 fun absent => said ⟨rfl, absent⟩
    refine ⟨fun _ => ?_, fun _ => ?_, fun _ => listed present, required⟩
    rotate_left
    · rw [properties, get_addShape_said object, if_pos rfl]
      rfl
    rw [type]
    obtain named | held := (Bool.or_eq_true _ _).mp object
    · exact isAbsent_of_namesObject named
    · exact typed_addType map held
  | false =>
    obtain ⟨unnamed, missing⟩ := Bool.or_eq_false_iff.1 object
    have absent : ((Value.object checked).get "properties").isSome = false := by
      rw [properties, addShape_unsaid object, missing]
    refine ⟨fun held => ?_, fun named => ?_, fun held => ?_, required⟩
    · rw [absent] at held
      cases held
    · rw [type, unnamed] at named
      cases named
    · rw [absent] at held
      cases held

theorem nullableNames_eq_nil (below : Below unionKeys map) : nullableNames map = [] := by
  unfold nullableNames
  split
  next props found =>
    rw [map_eq_nil_iff, filter_eq_nil_iff]
    intro prop member nullable
    have child : prop.2 ∈ schemaChildren (.object map) := mem_schemaChildren.2
      ⟨⟨"properties", .map⟩, by decide, _, found, mem_map_of_mem member⟩
    have bare := (lacks_iff.1 (below prop.2 child)).1
    obtain ⟨key, union, branches⟩ := any_eq_true.1 nullable
    rw [bare key union] at branches
    cases branches
  next => rfl

/-- A schema without unions, as normalizing leaves it, is normalized and flattened to itself. -/
theorem normalizeNode_fixed {levels : Nat} {normal : Value}
    (normalized : normalizeNode levels schema = .ok normal) : normalizeNode levels normal = .ok normal ∧
      (Lacks unionKeys normal → flattenUnions levels normal = .ok normal) := by
  induction levels generalizing schema normal with
  | zero => cases normalized
  | succ levels ih =>
    cases schema with
    | bool value =>
      cases normalized
      exact ⟨rfl, fun _ => rfl⟩
    | object map =>
      obtain ⟨checked, required, rest⟩ := bind_eq_ok.1 normalized
      obtain ⟨⟨visited, _⟩, passed, same⟩ := bind_eq_ok.1 rest
      cases same
      have formed : Formed visited := by
        refine formed_congr (formed_checked required)
          (visitSchemaChildren_get passed (by decide)) (visitSchemaChildren_get passed (by decide)) ?_
        rw [Bool.eq_iff_iff, ← Option.ne_none_iff_isSome, ← Option.ne_none_iff_isSome, Ne, visitSchemaChildren_eq_none passed]
      have shaped := shaped_visitSchemaChildren passed
      have fixed : ∀ child ∈ schemaChildren (.object visited),
          normalizeNode levels child = .ok child ∧
            (Lacks unionKeys child → flattenUnions levels child = .ok child) := by
        intro child member
        obtain ⟨given, -, first, last, visits⟩ := visitSchemaChildren_mem passed child member
        exact ih (stateless_eq_ok.1 visits)
      constructor
      · refine bind_eq_ok.2 ⟨visited, formed_fixed formed, bind_eq_ok.2 ⟨(visited, ()), ?_, rfl⟩⟩
        exact visitPlaces_fixed (fun _ => id) shaped (fun child member state => stateless_eq_ok.2 (fixed child member).1) ()
      · intro lacks
        obtain ⟨here, below⟩ := lacks_iff.1 lacks
        refine bind_eq_ok.2 ⟨(visited, ()), ?_, ?_⟩
        · exact visitPlaces_fixed (fun _ => id) shaped (fun child member state =>
            stateless_eq_ok.2 ((fixed child member).2 (below child member))) ()
        · have unbranched : unionBranches visited = none :=
            findSome?_eq_none_iff.2 fun key union => by rw [here key union]; rfl
          have kept : dropRequired [] visited = visited := rfl
          dsimp only
          rw [nullableNames_eq_nil below, kept, reduceNode, unbranched]
    | _ => cases normalized

theorem normalizeRoot_fixed {normal : Value} (normalized : normalizeRoot schema = .ok normal) :
    normalizeRoot normal = .ok normal := by
  obtain ⟨map, typed, -, passed, rest⟩ := normalizeRoot_eq_ok normalized
  have fixed := (normalizeNode_fixed rest).1
  obtain ⟨checked, required, visits⟩ := bind_eq_ok.1 rest
  obtain ⟨⟨visited, _⟩, visited_eq, same⟩ := bind_eq_ok.1 visits
  cases same
  have kept : addType typed = typed := by
    have present : isAbsent (some (.string "object")) = false := rfl
    rw [addType, (typedRoot_eq_ok passed).2, present, Bool.and_false]
    rfl
  have type : (object visited).get "type" = some (.string "object") := by
    rw [visitSchemaChildren_get visited_eq (by decide), get_checkRequired required (by decide),
      get_addShape (by decide) (by decide), kept, (typedRoot_eq_ok passed).2]
  have again : typedRoot visited = .ok visited := by
    unfold typedRoot
    rw [type]
    exact if_pos rfl
  exact bind_eq_ok.2 ⟨visited, again, fixed⟩

/-- What is sent to Claude has no union at any schema position and is sent unchanged
again; inlined schemas have no reference and no definitions either. -/
theorem tool_schemas_are_flat (parameters : Option Value) : (∀ schema, anthropicSchema parameters = .ok schema →
        Lacks ["anyOf", "oneOf"] schema ∧ anthropicSchema (some schema) = .ok schema) ∧
      ∀ schema, antigravityClaudeSchema parameters = .ok schema →
        Lacks ["anyOf", "oneOf", "$ref", "$defs", "definitions"] schema := by
  constructor
  · intro schema made
    obtain ⟨flat, flattened, normalized⟩ := bind_eq_ok.1 made
    have unions : Lacks unionKeys flat := @lacks_flattenUnions [] _ _ _ nofun (fun _ _ => nofun) flattened
    have lacks : Lacks unionKeys schema := lacks_normalizeRoot (by decide) unions normalized
    obtain ⟨map, typed, -, -, rest⟩ := normalizeRoot_eq_ok normalized
    exact ⟨lacks, bind_eq_ok.2 ⟨schema, (normalizeNode_fixed rest).2 lacks, normalizeRoot_fixed normalized⟩⟩
  · intro schema made
    obtain ⟨⟨inlined, _⟩, inlines, rest⟩ := bind_eq_ok.1 made
    obtain ⟨flat, flattened, normalized⟩ := bind_eq_ok.1 rest
    have lacks := lacks_normalizeRoot (by decide)
      (lacks_flattenUnions (by decide) (lacks_inlineRefs inlines) flattened) normalized
    intro node position key member
    refine lacks node position key ?_
    revert key
    decide

namespace SchemaSample

def optional : Value :=
  .obj [("$defs", .obj [("n", .obj [("type", .string "string")])]), ("properties", .obj [("a", .obj [
      ("anyOf", .array [.obj [("type", .string "null")], .obj [("$ref", .string "#/$defs/n")]]),
      ("oneOf", .array [])])]),
    ("required", .array [.string "a"])]

def sent (field : List (String × Value)) (others : List (String × Value)) : Value :=
  .obj (others ++ [("properties", .obj [("a", .obj field)]), ("required", .array []), ("type", .string "object")])

theorem optional_field_flat :
    (∃ schema, anthropicSchema (some optional) = .ok schema ∧ Lacks ["anyOf", "oneOf"] schema ∧
        anthropicSchema (some schema) = .ok schema) ∧ ∃ schema, antigravityClaudeSchema (some optional) = .ok schema ∧
        Lacks ["anyOf", "oneOf", "$ref", "$defs", "definitions"] schema := by
  have kept : anthropicSchema (some optional) = .ok (sent [("$ref", .string "#/$defs/n")]
      [("$defs", .obj [("n", .obj [("type", .string "string")])])]) := by decide +kernel
  have inlined : antigravityClaudeSchema (some optional) = .ok (sent [("type", .string "string")] []) := by decide +kernel
  exact ⟨⟨_, kept, (tool_schemas_are_flat _).1 _ kept⟩, _, inlined, (tool_schemas_are_flat _).2 _ inlined⟩

end SchemaSample
end Mahoquot.Compat
