import XoLang.Proofs.Dumps
import XoLang.Proofs.LineFeeds
import XoLang.Proofs.ReadBack

/-!
# Trees, recovered from JSON

The JSON of a tree tells the kinds, texts and names of its nodes, what stands below them, and their
lines and columns, but no files. A reader that looks fields up by their names gives the tree back,
in whatever order the fields stand. So trees have the same JSON if they are equal and nodes in the
same position of both have the same line and column, and only then.
-/

namespace XoLang

namespace Json

/-- One value, the order of the fields of objects apart. -/
inductive Same : Json → Json → Prop
  | refl (value : Json) : Same value value
  | cons {item item' : Json} {items items' : List Json} (first : Same item item')
      (rest : Same (.list items) (.list items')) :
      Same (.list (item :: items)) (.list (item' :: items'))
  | object {fields fields' : List (String × Json)}
      (names : ∀ name, (fields.lookup name).isSome = (fields'.lookup name).isSome)
      (values : ∀ name value value', fields.lookup name = some value →
        fields'.lookup name = some value' → Same value value') :
      Same (.object fields) (.object fields')

/-- The text that a value is. -/
def text? : Json → Option String
  | .text value => some value
  | _ => none

/-- The whole number that a value is. -/
def int? : Json → Option Int
  | .int value => some value
  | _ => none

section Same

variable {α : Type} {value value' : Json}

theorem Same.text?_eq (h : value.Same value') : value.text? = value'.text? := by
  cases h <;> rfl

theorem Same.int?_eq (h : value.Same value') : value.int? = value'.int? := by
  cases h <;> rfl

/-- Fields with two names may change places. -/
theorem same_of_exchanged {first second : String} (apart : first ≠ second) (v w : Json)
    (fields : List (String × Json)) :
    Same (.object ((first, v) :: (second, w) :: fields))
      (.object ((second, w) :: (first, v) :: fields)) := by
  have lookup : ∀ name, ((first, v) :: (second, w) :: fields).lookup name =
      ((second, w) :: (first, v) :: fields).lookup name := by
    intro name
    simp only [List.lookup_cons]
    by_cases isFirst : name = first
    · rw [beq_iff_eq.mpr isFirst, beq_eq_false_iff_ne.mpr (isFirst ▸ apart)]
    · rw [beq_eq_false_iff_ne.mpr isFirst]
  refine .object (fun name => congrArg _ (lookup name)) fun name value value' found found' => ?_
  rw [lookup name, found'] at found
  rw [Option.some.inj found]
  exact .refl _

theorem bind_lookup_eq {fields fields' : List (String × Json)} {f : Json → Option α} {name : String}
    (both : (fields.lookup name).isSome = (fields'.lookup name).isSome)
    (respects : ∀ v w, fields.lookup name = some v → fields'.lookup name = some w → f v = f w) :
    (fields.lookup name).bind f = (fields'.lookup name).bind f := by
  cases found : fields.lookup name with
  | none =>
    rw [found, Option.isSome_none, eq_comm, Option.isSome_eq_false_iff,
      Option.isNone_iff_eq_none] at both
    rw [both]
  | some v =>
    rw [found, Option.isSome_some, eq_comm, Option.isSome_iff_exists] at both
    obtain ⟨w, found'⟩ := both
    rw [found', Option.bind_some, Option.bind_some]
    exact respects v w found found'

/-- A field of one value is read like that of the other. -/
theorem Same.bind_field?_eq (h : value.Same value') {f : Json → Option α}
    (respects : ∀ v w, Same v w → f v = f w) (name : String) :
    (value.field? name).bind f = (value'.field? name).bind f := by
  cases h with
  | refl => rfl
  | cons => rfl
  | object names values =>
    exact bind_lookup_eq (names name) fun v w found found' =>
      respects v w (values name v w found found')

end Same

end Json

namespace Location

/-- The place with that line and column in a source that is not a file. -/
def unfiled (l : Location) : Location := { l with file := unnamed }

/-- The place that an object tells. -/
def ofJson? (value : Json) : Option Location :=
  ((value.field? "line").bind Json.int?).bind fun line =>
    ((value.field? "column").bind Json.int?).map fun column => ⟨line, column, unnamed⟩

theorem ofJson?_eq_of_same {value value' : Json} (h : value.Same value') :
    ofJson? value = ofJson? value' := by
  have number := fun name => h.bind_field?_eq (fun _ _ => Json.Same.int?_eq) name
  rw [ofJson?, ofJson?, number, number]

end Location

/-- The kind with that label. -/
def LeafKind.ofLabel? (label : String) : Option LeafKind :=
  [number, string, boolean, comment, commentBlock].find? fun kind => kind.label = label

namespace Tree

/-- The node that an object tells; `below?` gives the trees that stand in a field. -/
def rebuilt? (value : Json) (below? : String → Option (List Tree)) : Option Tree :=
  let text? := fun name => (value.field? name).bind Json.text?
  let location := (value.field? "location").bind Location.ofJson?
  (text? "kind").bind fun kind =>
    if kind = "NewLine" then some (.newline location)
    else if kind = "VariableAssignment" then
      (text? "name").bind fun name => (below? "body").map (.assignment name · location)
    else if kind = "FunctionCall" then
      (text? "name").bind fun name => (below? "params").map (.call name · location)
    else if kind = "Program" then (below? "body").map (.program · location)
    else (LeafKind.ofLabel? kind).bind fun leaf => (text? "text").map (.leaf leaf · location)

mutual

/-- The tree that an object tells. -/
def ofJson? : Json → Option Tree
  | .object fields => rebuilt? (.object fields) fun name => below? name fields
  | _ => none
termination_by structural value => value

/-- The trees that a list tells. -/
def listOfJson? : Json → Option (List Tree)
  | .list items => allOfJson? items
  | _ => none
termination_by structural value => value

/-- The trees in the first field of that name. -/
def below? (name : String) : List (String × Json) → Option (List Tree)
  | [] => none
  | (other, value) :: fields => if name = other then listOfJson? value else below? name fields
termination_by structural fields => fields

/-- The trees that values tell. -/
def allOfJson? : List Json → Option (List Tree)
  | [] => some []
  | item :: items =>
    (ofJson? item).bind fun tree => (allOfJson? items).map fun trees => tree :: trees
termination_by structural items => items

end

theorem below?_eq_lookup (name : String) (fields : List (String × Json)) :
    below? name fields = (fields.lookup name).bind listOfJson? := by
  induction fields with
  | nil => rfl
  | cons field fields ih =>
    obtain ⟨other, value⟩ := field
    rw [below?, List.lookup_cons, ih]
    by_cases same : name = other
    · rw [if_pos same, beq_iff_eq.mpr same]
      rfl
    · rw [if_neg same, beq_eq_false_iff_ne.mpr same]

/-- Trees are read from fields, whatever the value. -/
theorem ofJson?_eq (value : Json) :
    ofJson? value = rebuilt? value fun name => (value.field? name).bind listOfJson? := by
  cases value with
  | object fields =>
    rw [ofJson?]
    exact congrArg _ (funext fun name => below?_eq_lookup name fields)
  | null | bool | int | float | text | list => rfl

theorem rebuilt?_congr {value value' : Json} (h : value.Same value')
    (below? : String → Option (List Tree)) : rebuilt? value below? = rebuilt? value' below? := by
  have text := fun name => h.bind_field?_eq (fun _ _ => Json.Same.text?_eq) name
  have location := h.bind_field?_eq (fun _ _ => Location.ofJson?_eq_of_same) "location"
  simp only [rebuilt?, text, location]

/-- The order of fields makes no difference to the tree that is read. -/
theorem ofJson?_eq_of_same {value value' : Json} (h : value.Same value') :
    ofJson? value = ofJson? value' ∧ listOfJson? value = listOfJson? value' := by
  -- trees stand in objects and lists of trees in lists, so the two go together
  induction h with
  | refl => exact ⟨rfl, rfl⟩
  | cons _ _ first rest =>
    refine ⟨rfl, ?_⟩
    have rest := rest.2
    simp only [listOfJson?] at rest
    rw [listOfJson?, listOfJson?, allOfJson?, allOfJson?, first.1, rest]
  | @object fields fields' names values each =>
    refine ⟨?_, rfl⟩
    have below : (fun name => ((Json.object fields).field? name).bind listOfJson?) =
        fun name => ((Json.object fields').field? name).bind listOfJson? :=
      funext fun name => Json.bind_lookup_eq (names name) fun v w found found' =>
        (each name v w found found').2
    rw [ofJson?_eq, ofJson?_eq, below]
    exact rebuilt?_congr (.object names values) _

/-! What is told of a tree. -/

theorem allOfJson?_listJson {trees : List Tree}
    (each : ∀ tree ∈ trees, ofJson? tree.toJson = some (tree.relocate Location.unfiled)) :
    allOfJson? (listJson trees) = some (trees.map (·.relocate Location.unfiled)) := by
  induction trees with
  | nil => rfl
  | cons tree trees ih =>
    obtain ⟨first, rest⟩ := List.forall_mem_cons.mp each
    rw [listJson, allOfJson?, first, ih rest]
    rfl

/-- The JSON of a tree tells the tree without its files. -/
theorem ofJson?_toJson {a : Tree} (known : a.OfLanguage) :
    ofJson? a.toJson = some (a.relocate Location.unfiled) := by
  induction known with
  | leaf kind text location => cases kind <;> cases location <;> rfl
  | newline location => cases location <;> rfl
  | @assignment name body location each ih =>
    have told : ofJson? (assignment name body location).toJson =
        (allOfJson? (listJson body)).map (.assignment name · (location.map Location.unfiled)) := by
      cases location <;> rfl
    rw [told, allOfJson?_listJson ih, relocate, relocateAll_eq_map]
    rfl
  | @call name params location each ih =>
    have told : ofJson? (call name params location).toJson =
        (allOfJson? (listJson params)).map (.call name · (location.map Location.unfiled)) := by
      cases location <;> rfl
    rw [told, allOfJson?_listJson ih, relocate, relocateAll_eq_map]
    rfl
  | @program body location each ih =>
    have told : ofJson? (program body location).toJson =
        (allOfJson? (listJson body)).map (.program · (location.map Location.unfiled)) := by
      cases location <;> rfl
    rw [told, allOfJson?_listJson ih, relocate, relocateAll_eq_map]
    rfl

theorem listJson_map_unfiled {trees : List Tree}
    (each : ∀ tree ∈ trees, (tree.relocate Location.unfiled).toJson = tree.toJson) :
    listJson (trees.map (·.relocate Location.unfiled)) = listJson trees := by
  induction trees with
  | nil => rfl
  | cons tree trees ih =>
    obtain ⟨first, rest⟩ := List.forall_mem_cons.mp each
    rw [List.map_cons, listJson, listJson, first, ih rest]

/-- No file is told. -/
theorem toJson_unfiled (a : Tree) : (a.relocate Location.unfiled).toJson = a.toJson := by
  have fields : ∀ location : Option Location,
      locationFields (location.map Location.unfiled) = locationFields location := by
    intro location
    cases location <;> rfl
  induction a using Tree.induction with
  | leaf | newline | bare | foreign => simp only [relocate, toJson, fields]
  | assignment name body location ih =>
    simp only [relocate, relocateAll_eq_map, toJson, fields, listJson_map_unfiled ih]
  | call name params location ih =>
    simp only [relocate, relocateAll_eq_map, toJson, fields, listJson_map_unfiled ih]
  | program body location ih =>
    simp only [relocate, relocateAll_eq_map, toJson, fields, listJson_map_unfiled ih]

/-! Nodes in the same position. -/

/-- The tree at the end of a path, which tells at every node which tree below it comes next. -/
def at? (tree : Tree) : List Nat → Option Tree
  | [] => some tree
  | index :: path => tree.children[index]?.bind fun child => child.at? path

/-- The line and the column of a node. -/
def position? (tree : Tree) : Option (Int × Int) :=
  tree.location.map fun l => (l.line, l.column)

/-- Nodes in the same position have the same line and column, or have none. -/
def SamePlaces (a b : Tree) : Prop :=
  ∀ path node node', a.at? path = some node → b.at? path = some node' →
    node.position? = node'.position?

theorem children_relocate (f : Location → Location) (tree : Tree) :
    (tree.relocate f).children = tree.children.map (·.relocate f) := by
  cases tree <;> simp [relocate, children, relocateAll_eq_map]

theorem at?_relocate (f : Location → Location) (tree : Tree) (path : List Nat) :
    (tree.relocate f).at? path = (tree.at? path).map (·.relocate f) := by
  induction path generalizing tree with
  | nil => rfl
  | cons index path ih =>
    rw [at?, at?, children_relocate, List.getElem?_map]
    cases tree.children[index]? with
    | none => rfl
    | some child => exact ih child

theorem position?_unfiled (tree : Tree) :
    (tree.relocate Location.unfiled).position? = tree.position? := by
  rw [position?, position?, location_relocate, Option.map_map]
  rfl

theorem samePlaces_of_unfiled_eq {a b : Tree}
    (same : a.relocate Location.unfiled = b.relocate Location.unfiled) : a.SamePlaces b := by
  intro path node node' found found'
  have moved := congrArg (·.at? path) same
  simp only [at?_relocate, found, found', Option.map_some, Option.some.injEq] at moved
  rw [← position?_unfiled node, moved, position?_unfiled]

theorem SamePlaces.root {a b : Tree} (h : a.SamePlaces b) :
    a.location.map Location.unfiled = b.location.map Location.unfiled := by
  have position : a.location.map (fun l => (l.line, l.column)) =
      b.location.map fun l => (l.line, l.column) := h [] a b rfl rfl
  cases place : a.location <;> cases place' : b.location <;>
    simp_all [Location.unfiled]

theorem SamePlaces.child {a b node node' : Tree} (h : a.SamePlaces b) {index : Nat}
    (found : a.children[index]? = some node) (found' : b.children[index]? = some node') :
    node.SamePlaces node' := by
  intro path x y stands stands'
  refine h (index :: path) x y ?_ ?_
  · rw [at?, found, Option.bind_some, stands]
  · rw [at?, found', Option.bind_some, stands']

theorem map_unfiled_eq {trees others : List Tree}
    (each : ∀ tree ∈ trees, ∀ other, tree.alike other = true → tree.SamePlaces other →
      tree.relocate Location.unfiled = other.relocate Location.unfiled)
    (alike : allAlike trees others = true)
    (places : ∀ (index : Nat) (node node' : Tree), trees[index]? = some node →
      others[index]? = some node' → node.SamePlaces node') :
    trees.map (·.relocate Location.unfiled) = others.map (·.relocate Location.unfiled) := by
  induction trees generalizing others with
  | nil =>
    cases others with
    | nil => rfl
    | cons => simp [allAlike] at alike
  | cons tree trees ih =>
    cases others with
    | nil => simp [allAlike] at alike
    | cons other others =>
      rw [allAlike, Bool.and_eq_true] at alike
      obtain ⟨first, rest⟩ := List.forall_mem_cons.mp each
      rw [List.map_cons, List.map_cons, first other alike.1 (places 0 tree other rfl rfl),
        ih rest alike.2 fun index => places (index + 1)]

/-- Equal trees with nodes in the same places are the same but for their files. -/
theorem unfiled_eq_of_alike {a b : Tree} (alike : a.alike b = true) (places : a.SamePlaces b) :
    a.relocate Location.unfiled = b.relocate Location.unfiled := by
  induction a using Tree.induction generalizing b with
  | leaf kind text location =>
    cases b <;> simp only [Tree.alike, Bool.false_eq_true] at alike
    rw [Bool.and_eq_true, decide_eq_true_eq, decide_eq_true_eq] at alike
    rw [relocate, relocate, alike.1, alike.2]
    exact congrArg _ places.root
  | newline location =>
    cases b <;> simp only [Tree.alike, Bool.false_eq_true] at alike
    exact congrArg newline places.root
  | assignment name body location ih =>
    cases b <;> simp only [Tree.alike, Bool.false_eq_true] at alike
    rw [Bool.and_eq_true, decide_eq_true_eq] at alike
    have below := map_unfiled_eq (fun tree mem _ => ih tree mem) alike.2
      fun index node node' => places.child
    rw [relocate, relocate, relocateAll_eq_map, relocateAll_eq_map, alike.1, below]
    exact congrArg _ places.root
  | call name params location ih =>
    cases b <;> simp only [Tree.alike, Bool.false_eq_true] at alike
    rw [Bool.and_eq_true, decide_eq_true_eq] at alike
    have below := map_unfiled_eq (fun tree mem _ => ih tree mem) alike.2
      fun index node node' => places.child
    rw [relocate, relocate, relocateAll_eq_map, relocateAll_eq_map, alike.1, below]
    exact congrArg _ places.root
  | program body location ih =>
    cases b <;> simp only [Tree.alike, Bool.false_eq_true] at alike
    have below := map_unfiled_eq (fun tree mem _ => ih tree mem) alike
      fun index node node' => places.child
    rw [relocate, relocate, relocateAll_eq_map, relocateAll_eq_map, below]
    exact congrArg _ places.root
  | bare location =>
    cases b <;> simp only [Tree.alike, Bool.false_eq_true] at alike
    exact congrArg bare places.root
  | foreign kind location => cases b <;> simp only [Tree.alike, Bool.false_eq_true] at alike

/-- The JSON of a tree is lossless. Trees of the language have one JSON, in whatever order its
fields stand, exactly when they are equal and nodes in the same position have the same line and
column or have none; the tree is read from its JSON, without its files. -/
theorem toJson_lossless :
    (∀ a b : Tree, a.OfLanguage → b.OfLanguage →
      (a.toJson = b.toJson ↔ a.alike b = true ∧ a.SamePlaces b) ∧
      (a.toJson.Same b.toJson ↔ a.alike b = true ∧ a.SamePlaces b)) ∧
    ∀ (a : Tree) (value : Json), a.OfLanguage → value.Same a.toJson →
      ofJson? value = some (a.relocate Location.unfiled) := by
  have read : ∀ (a : Tree) (value : Json), a.OfLanguage → value.Same a.toJson →
      ofJson? value = some (a.relocate Location.unfiled) := fun a value known same =>
    (ofJson?_eq_of_same same).1.trans (ofJson?_toJson known)
  refine ⟨fun a b known known' => ?_, read⟩
  have told : a.toJson.Same b.toJson → a.alike b = true ∧ a.SamePlaces b := by
    intro same
    have trees := (ofJson?_toJson known).symm.trans (read b a.toJson known' same)
    have unfiled := Option.some.inj trees
    exact ⟨alike_of_relocate_eq known unfiled, samePlaces_of_unfiled_eq unfiled⟩
  have equal : a.alike b = true ∧ a.SamePlaces b → a.toJson = b.toJson := by
    rintro ⟨alike, places⟩
    rw [← toJson_unfiled a, unfiled_eq_of_alike alike places, toJson_unfiled]
  have same_of_eq : a.toJson = b.toJson → a.toJson.Same b.toJson := by
    intro eq
    rw [eq]
    exact .refl _
  exact ⟨⟨fun eq => told (same_of_eq eq), equal⟩, ⟨told, fun h => same_of_eq (equal h)⟩⟩

/-- A call in one of two files and its JSON with the first fields exchanged: the JSON is the same,
and the call is read back with its empty list. -/
theorem call_without_params_recovered :
    (call "f" [] (some ⟨2, 5, "a.xo"⟩)).toJson = (call "f" [] (some ⟨2, 5, "b.xo"⟩)).toJson ∧
    ¬ (call "f" [] (some ⟨2, 5, "a.xo"⟩)).toJson.Same (call "f" [] none).toJson ∧
    ofJson? (.object [("name", .text "f"), ("kind", .text "FunctionCall"), ("params", .list []),
      ("location", .object [("line", .int 2), ("column", .int 5)])]) =
      some (call "f" [] (some ⟨2, 5, Location.unnamed⟩)) := by
  have known : ∀ location, (call "f" [] location).OfLanguage :=
    fun location => .call (by simp)
  refine ⟨(toJson_lossless.1 _ _ (known _) (known _)).1.mpr
    ⟨rfl, samePlaces_of_unfiled_eq rfl⟩, ?_, ?_⟩
  · intro same
    have places := ((toJson_lossless.1 _ _ (known _) (known _)).2.mp same).2
    exact absurd (places [] _ _ rfl rfl) (by simp [position?, location])
  · exact toJson_lossless.2 (call "f" [] (some ⟨2, 5, "a.xo"⟩)) _ (known _)
      (Json.same_of_exchanged (by decide) _ _ _)

end Tree

end XoLang
