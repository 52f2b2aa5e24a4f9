import RecordText.Descriptor.Document
import RecordText.Proofs.UniqueKeys

/-!
# Shapes of descriptor documents

A shape says what a node of a document should be: a text, a list, or a record
of two parts. Some values fit a shape; of the others, the one that is itself at
fault is told apart from the one that only holds such a node.

The first fault of a value is found by its parts in the order in which they
stand. When the keys of every object differ, the path of that fault leads to a
single node, the shape asks something of that node which it is not, and every
node that has been read before it fits what is asked of it.

## Implementation notes

The order of the nodes is said by the parts of a value, the members of an object
and the items of an array alike. A node has been read when all of its parts
have, so a fault of the node itself comes after the faults inside it.
-/

namespace RecordText

namespace Json

/-- The parts of a value in the order in which they stand, with the steps that lead to them. -/
def parts : Json → List (PathStep × Json)
  | .object members => members.map fun member => (.key member.1, member.2)
  | .array items => items.zipIdx.map fun item => (.index item.2, item.1)
  | _ => []

/-- Whether the node at one path has been read in full before that at another: a node is read in
full after everything inside it, and a part before everything in a later part. -/
inductive ReadBefore : Json → Path → Path → Prop where
  | inside (value : Json) (step : PathStep) (path : Path) : ReadBefore value (step :: path) []
  | earlier (value : Json) (step next : PathStep) (path path' : Path) (before after : List PathStep)
      (hsteps : value.parts.map Prod.fst = before ++ next :: after) (hstep : step ∈ before) :
      ReadBefore value (step :: path) (next :: path')
  | within (value : Json) (step : PathStep) (child : Json) (path path' : Path)
      (hchild : value.child? step = some child) (hpaths : ReadBefore child path path') :
      ReadBefore value (step :: path) (step :: path')

theorem mem_parts_of_child? {value child : Json} {step : PathStep}
    (h : value.child? step = some child) : (step, child) ∈ value.parts := by
  cases value with
  | array items =>
      cases step with
      | key name => cases h
      | index position =>
          have hitem : (child, position) ∈ items.zipIdx := List.mem_zipIdx_iff_getElem?.2 h
          exact List.mem_map.2 ⟨_, hitem, rfl⟩
  | object members =>
      cases step with
      | key name => exact List.mem_map.2 ⟨_, mem_of_getKey? h, rfl⟩
      | index position => cases h
  | _ => cases h

/-- Where the keys differ, a part is what its step leads to. -/
theorem KeysUnique.child?_of_mem {value child : Json} {step : PathStep} (h : value.KeysUnique)
    (hpart : (step, child) ∈ value.parts) : value.child? step = some child := by
  cases h with
  | array items =>
      obtain ⟨item, hitem, heq⟩ := List.mem_map.1 hpart
      cases heq
      exact List.mem_zipIdx_iff_getElem?.1 hitem
  | object members hkeys =>
      obtain ⟨member, hmember, heq⟩ := List.mem_map.1 hpart
      cases heq
      exact getKey?_of_mem hkeys hmember
  | _ => cases hpart

theorem KeysUnique.of_mem_parts {value : Json} {part : PathStep × Json} (h : value.KeysUnique)
    (hpart : part ∈ value.parts) : part.2.KeysUnique := by
  cases h with
  | array items hitems =>
      obtain ⟨item, hitem, rfl⟩ := List.mem_map.1 hpart
      exact hitems _ (List.fst_mem_of_mem_zipIdx hitem)
  | object members _ hmembers =>
      obtain ⟨member, hmember, rfl⟩ := List.mem_map.1 hpart
      exact hmembers _ hmember
  | _ => cases hpart

/-- Where the keys differ, so do the steps to the parts. -/
theorem KeysUnique.nodup_steps {value : Json} (h : value.KeysUnique) :
    (value.parts.map Prod.fst).Nodup := by
  cases h with
  | array items =>
      have hsteps : (Json.array items).parts.map Prod.fst =
          (List.range' 0 items.length).map PathStep.index := by
        rw [← List.zipIdx_map_snd, parts, List.map_map, List.map_map]
        rfl
      rw [hsteps]
      exact (List.nodup_range' ..).map fun _ _ heq => PathStep.index.inj heq
  | object members hkeys =>
      have hsteps : (Json.object members).parts.map Prod.fst =
          (members.map Prod.fst).map PathStep.key := by
        rw [parts, List.map_map, List.map_map]
        rfl
      rw [hsteps]
      exact hkeys.map fun _ _ heq => PathStep.key.inj heq
  | _ => exact List.nodup_nil

end Json

namespace Document

open Json (Path PathStep)

/-- What a node of a document should be. -/
inductive Shape where
  | text
  | list (item : Shape)
  | record (expected : Expected) (firstKey secondKey : String) (first second : Shape)

namespace Shape

/-- The values of a shape. A record is an object that has its first key, or the array of its parts;
its second part may be left out, and keys that are not its own may hold anything. -/
inductive Fits : Shape → Json → Prop where
  | text (text : String) : Fits .text (.string text)
  | list (item : Shape) (items : List Json) (hitems : ∀ value ∈ items, Fits item value) :
      Fits (.list item) (.array items)
  | object (expected : Expected) (firstKey secondKey : String) (first second : Shape)
      (members : List (String × Json)) (hkey : firstKey ∈ members.map Prod.fst)
      (hfirst : ∀ member ∈ members, member.1 = firstKey → Fits first member.2)
      (hsecond : ∀ member ∈ members, member.1 = secondKey → Fits second member.2) :
      Fits (.record expected firstKey secondKey first second) (.object members)
  | short (expected : Expected) (firstKey secondKey : String) (first second : Shape) (a : Json)
      (hfirst : Fits first a) : Fits (.record expected firstKey secondKey first second) (.array [a])
  | full (expected : Expected) (firstKey secondKey : String) (first second : Shape) (a b : Json)
      (hfirst : Fits first a) (hsecond : Fits second b) :
      Fits (.record expected firstKey secondKey first second) (.array [a, b])

/-- What is wrong with a node itself, whatever its parts are, and the words for it. -/
inductive Blames : Shape → Json → String → Prop where
  | notText (value : Json) (h : ∀ text, value ≠ .string text) :
      Blames .text value
        ("invalid type: " ++ foundWords value ++ ", expected " ++ Expected.text.words)
  | notList (item : Shape) (value : Json) (h : ∀ items, value ≠ .array items) :
      Blames (.list item) value
        ("invalid type: " ++ foundWords value ++ ", expected " ++ Expected.sequence.words)
  | notRecord (expected : Expected) (firstKey secondKey : String) (first second : Shape)
      (value : Json) (hobject : ∀ members, value ≠ .object members)
      (harray : ∀ items, value ≠ .array items) :
      Blames (.record expected firstKey secondKey first second) value
        ("invalid type: " ++ foundWords value ++ ", expected " ++ expected.words)
  | missingKey (expected : Expected) (firstKey secondKey : String) (first second : Shape)
      (members : List (String × Json)) (h : firstKey ∉ members.map Prod.fst) :
      Blames (.record expected firstKey secondKey first second) (.object members)
        ("missing field `" ++ firstKey ++ "`")
  | tooShort (expected : Expected) (firstKey secondKey : String) (first second : Shape) :
      Blames (.record expected firstKey secondKey first second) (.array [])
        ("invalid length 0, expected " ++ expected.words ++ " with 2 elements")
  | tooLong (expected : Expected) (firstKey secondKey : String) (first second : Shape)
      (items : List Json) (h : 2 < items.length) :
      Blames (.record expected firstKey secondKey first second) (.array items)
        ("invalid length " ++ toString items.length ++ ", expected fewer elements in array")

/-- The shape of a part, where the shape asks something of it. -/
def part? : Shape → PathStep → Option Shape
  | .list item, .index _ => some item
  | .record _ firstKey secondKey first second, .key name =>
    if name = firstKey then some first else if name = secondKey then some second else none
  | .record _ _ _ first _, .index 0 => some first
  | .record _ _ _ _ second, .index 1 => some second
  | _, _ => none

/-- The shape at the end of a path. -/
def along (shape : Shape) : Path → Option Shape
  | [] => some shape
  | step :: path => (shape.part? step).bind fun part => part.along path

variable {shape part : Shape} {value child : Json} {step : PathStep} {path : Path}

/-- A node that is itself at fault does not fit. -/
theorem Blames.not_fits {message : String} (h : shape.Blames value message) :
    ¬ shape.Fits value := by
  intro hfits
  cases h with
  | notText _ h =>
      cases hfits with
      | text text => exact h text rfl
  | notList _ _ h =>
      cases hfits with
      | list _ items => exact h items rfl
  | notRecord _ _ _ _ _ _ hobject harray =>
      cases hfits with
      | object _ _ _ _ _ members => exact hobject members rfl
      | short => exact harray _ rfl
      | full => exact harray _ rfl
  | missingKey _ _ _ _ _ _ h =>
      cases hfits with
      | object _ _ _ _ _ _ hkey => exact h hkey
  | tooShort => cases hfits
  | tooLong _ _ _ _ _ _ h => cases hfits <;> simp at h

/-- Each part of a value that fits does so itself. -/
theorem Fits.of_mem_parts (h : shape.Fits value) (hchild : (step, child) ∈ value.parts)
    (hpart : shape.part? step = some part) : part.Fits child := by
  cases h with
  | text => cases hchild
  | list item items hitems =>
      obtain ⟨entry, hentry, heq⟩ := List.mem_map.1 hchild
      cases heq
      cases hpart
      exact hitems _ (List.fst_mem_of_mem_zipIdx hentry)
  | object _ _ _ _ _ members _ hfirst hsecond =>
      obtain ⟨member, hmember, heq⟩ := List.mem_map.1 hchild
      cases heq
      rw [part?] at hpart
      split_ifs at hpart with hone htwo
      · cases hpart
        exact hfirst member hmember hone
      · cases hpart
        exact hsecond member hmember htwo
  | short _ _ _ _ _ a hfirst =>
      obtain ⟨rfl, rfl⟩ : step = .index 0 ∧ child = a := by simpa [Json.parts] using hchild
      cases hpart
      exact hfirst
  | full _ _ _ _ _ a b hfirst hsecond =>
      have hcases : (step = .index 0 ∧ child = a) ∨ (step = .index 1 ∧ child = b) := by
        simpa [Json.parts] using hchild
      obtain ⟨rfl, rfl⟩ | ⟨rfl, rfl⟩ := hcases
      · cases hpart
        exact hfirst
      · cases hpart
        exact hsecond

/-- Each node of a value that fits does so itself. -/
theorem Fits.of_node? (h : shape.Fits value) (hnode : value.node? path = some child)
    (hshape : shape.along path = some part) : part.Fits child := by
  induction path generalizing shape value with
  | nil =>
      cases hnode
      cases hshape
      exact h
  | cons step path ih =>
      obtain ⟨next, hnext, hnode⟩ := Option.bind_eq_some_iff.1 hnode
      obtain ⟨inner, hinner, hshape⟩ := Option.bind_eq_some_iff.1 hshape
      exact ih (h.of_mem_parts (Json.mem_parts_of_child? hnext) hinner) hnode hshape

/-- Each of some parts fits what is asked of it. -/
def FitParts (shape : Shape) (parts : List (PathStep × Json)) : Prop :=
  ∀ entry ∈ parts, ∀ part, shape.part? entry.1 = some part → part.Fits entry.2

theorem fitParts_nil (shape : Shape) : shape.FitParts [] := by
  rintro entry ⟨⟩

theorem fitParts_cons {entries : List (PathStep × Json)}
    (hchild : ∀ part, shape.part? step = some part → part.Fits child)
    (hentries : shape.FitParts entries) : shape.FitParts ((step, child) :: entries) := by
  intro entry hentry
  rcases List.mem_cons.1 hentry with rfl | hentry
  · exact hchild
  · exact hentries entry hentry

/-- The first fault of a value, with its path and the words for it: a fault of the value itself
when all of its parts fit, or the first fault of the first part that does not. -/
inductive FirstFault : Shape → Json → Path → String → Prop where
  | here (shape : Shape) (value : Json) (message : String) (hblames : shape.Blames value message)
      (hparts : shape.FitParts value.parts) : FirstFault shape value [] message
  | within (shape part : Shape) (value child : Json) (step : PathStep) (path : Path)
      (message : String) (before after : List (PathStep × Json))
      (hparts : value.parts = before ++ (step, child) :: after) (hbefore : shape.FitParts before)
      (hpart : shape.part? step = some part) (hfault : FirstFault part child path message) :
      FirstFault shape value (step :: path) message

/-- A value with a fault does not fit. -/
theorem FirstFault.not_fits {message : String} (h : shape.FirstFault value path message) :
    ¬ shape.Fits value := by
  induction h with
  | here _ _ _ hblames _ => exact hblames.not_fits
  | within shape part value child step _ _ before after hparts _ hpart _ ih =>
      intro hfits
      have hchild : (step, child) ∈ value.parts := by
        rw [hparts]
        exact List.mem_append_right _ (List.mem_cons_self ..)
      exact ih (hfits.of_mem_parts hchild hpart)

/-- The first fault of some parts that stand in a row is that of the first part that has one. -/
inductive FaultAmong (shape : Shape) :
    List (PathStep × Json) → Path → String → Prop where
  | intro (part : Shape) (before : List (PathStep × Json)) (step : PathStep) (child : Json)
      (after : List (PathStep × Json)) (path : Path) (message : String)
      (hbefore : shape.FitParts before) (hpart : shape.part? step = some part)
      (hfault : part.FirstFault child path message) :
      FaultAmong shape (before ++ (step, child) :: after) (step :: path) message

section Rows

variable {entries : List (PathStep × Json)} {message : String}

theorem FaultAmong.head (hpart : shape.part? step = some part)
    (hfault : part.FirstFault child path message) :
    shape.FaultAmong ((step, child) :: entries) (step :: path) message :=
  .intro part [] step child entries path message (fitParts_nil shape) hpart hfault

theorem FaultAmong.tail (hchild : ∀ part, shape.part? step = some part → part.Fits child)
    (h : shape.FaultAmong entries path message) :
    shape.FaultAmong ((step, child) :: entries) path message := by
  cases h with
  | intro part before next other after path message hbefore hpart hfault =>
      exact .intro part ((step, child) :: before) next other after path message
        (fitParts_cons hchild hbefore) hpart hfault

theorem FaultAmong.firstFault (h : shape.FaultAmong value.parts path message) :
    shape.FirstFault value path message := by
  generalize hentries : value.parts = entries at h
  cases h with
  | intro part before step child after path message hbefore hpart hfault =>
      exact .within shape part value child step path message before after hentries hbefore hpart
        hfault

end Rows

/-- A path points at a fault that no other precedes: it leads to a node that is itself at fault,
and every node that has been read before this one fits what is asked of it. -/
structure PointsAtFirst (shape : Shape) (value : Json) (path : Path) (message : String) : Prop where
  fault : ∃ node part, value.node? path = some node ∧ shape.along path = some part ∧
    part.Blames node message
  before : ∀ earlier node part, value.ReadBefore earlier path → value.node? earlier = some node →
    shape.along earlier = some part → part.Fits node

/-- Below a step whose part fits, every node fits. -/
theorem fits_of_step {node : Json} {inner : Shape}
    (hparts : ∀ child, value.child? step = some child → ∀ part, shape.part? step = some part →
      part.Fits child)
    (hnode : value.node? (step :: path) = some node)
    (hshape : shape.along (step :: path) = some inner) : inner.Fits node := by
  obtain ⟨child, hchild, hnode⟩ := Option.bind_eq_some_iff.1 hnode
  obtain ⟨part, hpart, hshape⟩ := Option.bind_eq_some_iff.1 hshape
  exact (hparts child hchild part hpart).of_node? hnode hshape

/-- Where the keys differ, an earlier step leads to an earlier part. -/
theorem mem_before_of_step {next : PathStep} {other : Json} {before after : List (PathStep × Json)}
    {steps others : List PathStep} (hkeys : value.KeysUnique)
    (hparts : value.parts = before ++ (next, other) :: after)
    (hsteps : value.parts.map Prod.fst = steps ++ next :: others) (hstep : step ∈ steps)
    (hchild : value.child? step = some child) : (step, child) ∈ before := by
  have hmap : value.parts.map Prod.fst = before.map Prod.fst ++ next :: after.map Prod.fst := by
    rw [hparts, List.map_append, List.map_cons]
  have hnot : next ∉ before.map Prod.fst ++ after.map Prod.fst := by
    have hnodup := hkeys.nodup_steps
    rw [hmap, List.nodup_middle, List.nodup_cons] at hnodup
    exact hnodup.1
  rw [List.mem_append, not_or] at hnot
  obtain ⟨rfl, -, -⟩ := (List.append_cons_inj_of_notMem hnot.1 hnot.2).1 (hmap.symm.trans hsteps)
  obtain ⟨entry, hentry, rfl⟩ := List.mem_map.1 hstep
  have hsame : value.child? entry.1 = some entry.2 :=
    hkeys.child?_of_mem (by rw [hparts]; exact List.mem_append_left _ hentry)
  cases hsame.symm.trans hchild
  exact hentry

/-- Where the keys differ, the path of the first fault points at it. -/
theorem FirstFault.pointsAtFirst {message : String} (hkeys : value.KeysUnique)
    (h : shape.FirstFault value path message) : shape.PointsAtFirst value path message := by
  induction h with
  | here shape value message hblames hparts =>
      refine ⟨⟨value, shape, rfl, rfl, hblames⟩, fun earlier node part hread hnode hshape => ?_⟩
      cases hread with
      | inside =>
          apply fits_of_step _ hnode hshape
          intro child hchild
          exact hparts _ (Json.mem_parts_of_child? hchild)
  | within shape part value child step path message before after hparts hbefore hpart _ ih =>
      have hmem : (step, child) ∈ value.parts := by
        rw [hparts]
        exact List.mem_append_right _ (List.mem_cons_self ..)
      have hchild := hkeys.child?_of_mem hmem
      have hinside := ih (hkeys.of_mem_parts hmem)
      constructor
      · obtain ⟨node, inner, hnode, hinner, hblames⟩ := hinside.fault
        refine ⟨node, inner, ?_, ?_, hblames⟩
        · rw [Json.node?, hchild]
          exact hnode
        · rw [along, hpart]
          exact hinner
      · intro earlier node inner hread hnode hinner
        cases hread with
        | earlier _ first _ path' _ steps others hsteps hfirst =>
            apply fits_of_step _ hnode hinner
            intro other hother
            exact hbefore _ (mem_before_of_step hkeys hparts hsteps hfirst hother)
        | within _ _ other path' _ hother hread =>
            cases hchild.symm.trans hother
            rw [Json.node?, hchild] at hnode
            rw [along, hpart] at hinner
            exact hinside.before path' node inner hread hnode hinner

end Shape

end Document

end RecordText
