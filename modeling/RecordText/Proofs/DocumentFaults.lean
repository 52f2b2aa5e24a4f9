import RecordText.Proofs.DocumentShapes
import RecordText.Proofs.DocumentSpellings

/-!
# First faults of descriptor documents

A document is one descriptor object, or an array of descriptors, each an object
or the array of its parts; anything else is answered by the path of its first
fault and by what is wrong with the node there.

## Main statements

* `visit_cons_cases`: what the reading of one member of an object can come to.
* `reads_list`, `reads_record`: the readers of arrays and records report first
  faults if the readers of their parts do.
* `read_points_at_first_fault`: what is read, and what is reported otherwise.

## Implementation notes

A reader belongs to a shape when it reads the values of the shape only and
reports the first fault of every other value. Texts, arrays and records are read
by readers that belong to their shapes as soon as the readers of their parts do,
and documents are put together from these three.
-/

namespace RecordText

namespace Document

open Json (Path PathStep)

/-- A reader of the values of a shape. Where it fails it reports the first fault. -/
structure Reads {α : Type} (read : Json → Except Failure α) (shape : Shape) : Prop where
  fits : ∀ value a, read value = .ok a → shape.Fits value
  fault : ∀ value failure, read value = .error failure →
    shape.FirstFault value failure.path failure.problem.message

section Readers

variable {α β : Type} {shape : Shape} {read : Json → Except Failure α}

theorem below_eq_error_iff (step : PathStep) (result : Except Failure α) (failure : Failure) :
    below step result = .error failure ↔
      ∃ inner, result = .error inner ∧ { inner with path := step :: inner.path } = failure :=
  mapError_eq_error_iff _ _ failure

/-- A reader of the values of a shape reads all of them. -/
theorem Reads.exists_ok_iff (h : Reads read shape) (value : Json) :
    (∃ a, read value = .ok a) ↔ shape.Fits value := by
  constructor
  · rintro ⟨a, ha⟩
    exact h.fits value a ha
  · intro hfits
    cases hread : read value with
    | ok a => exact ⟨a, rfl⟩
    | error failure => exact absurd hfits (h.fault value failure hread).not_fits

/-- What is made of the result does not matter. -/
theorem Reads.map (h : Reads read shape) (make : α → β) :
    Reads (fun value => (read value).map make) shape := by
  constructor
  · intro value b hb
    cases hread : read value with
    | ok a => exact h.fits value a hread
    | error failure => simp [hread, Except.map] at hb
  · intro value failure hfailure
    cases hread : read value with
    | ok a => simp [hread, Except.map] at hfailure
    | error failure' =>
        obtain rfl : failure' = failure := by simpa [hread, Except.map] using hfailure
        exact h.fault value failure' hread

/-- A fault of a part is reported below the step to that part. -/
theorem Reads.faultAmong {step : PathStep} {value : Json} {part : Shape}
    {entries : List (PathStep × Json)} {failure : Failure} (h : Reads read part)
    (hpart : shape.part? step = some part) (hread : below step (read value) = .error failure) :
    shape.FaultAmong ((step, value) :: entries) failure.path failure.problem.message := by
  obtain ⟨inner, hinner, rfl⟩ := (below_eq_error_iff _ _ _).1 hread
  exact .head hpart (h.fault value inner hinner)

theorem Reads.fits_part {step : PathStep} {value : Json} {part : Shape} {a : α}
    (h : Reads read part) (hpart : shape.part? step = some part)
    (hread : below step (read value) = .ok a) :
    ∀ asked, shape.part? step = some asked → asked.Fits value := by
  intro asked hasked
  cases hpart.symm.trans hasked
  exact h.fits value a ((below_eq_ok_iff _ _ _).1 hread)

/-- A fault of the value itself is reported at the value. -/
theorem firstFault_of_fail {value : Json} {problem : Problem} {failure : Failure}
    (hread : (fail problem : Except Failure α) = .error failure)
    (hblames : shape.Blames value problem.message) (hparts : shape.FitParts value.parts) :
    shape.FirstFault value failure.path failure.problem.message := by
  obtain rfl : { path := [], problem } = failure := Except.error.inj hread
  exact .here shape value problem.message hblames hparts

theorem reads_text : Reads readText .text := by
  constructor
  · intro value text h
    cases value with
    | string text => exact .text text
    | _ => cases h
  · intro value failure h
    by_cases htext : ∃ text, value = .string text
    · obtain ⟨text, rfl⟩ := htext
      cases h
    · rw [not_exists] at htext
      rw [readText] at h
      · exact firstFault_of_fail h (.notText value htext) (by simp [Shape.FitParts, Shape.part?])
      · exact htext

/-- The items of an array are read in order up to the first that has a fault. -/
theorem readItems_faultAmong (h : Reads read shape) (index : Nat) (items : List Json)
    (failure : Failure) (hread : readItems read index items = .error failure) :
    (Shape.list shape).FaultAmong
      ((items.zipIdx index).map fun item => (.index item.2, item.1)) failure.path
      failure.problem.message := by
  induction items generalizing index with
  | nil => cases hread
  | cons item rest ih =>
      rw [List.zipIdx_cons, List.map_cons]
      rw [readItems, bind_eq_error_iff] at hread
      rcases hread with hitem | ⟨first, hfirst, hrest⟩
      · exact h.faultAmong rfl hitem
      · apply Shape.FaultAmong.tail (h.fits_part rfl hfirst)
        rw [bind_eq_error_iff] at hrest
        rcases hrest with hrest | ⟨others, -, hpure⟩
        · exact ih (index + 1) hrest
        · cases hpure

theorem reads_list (h : Reads read shape) : Reads (readSequence read) (.list shape) := by
  constructor
  · intro value values hread
    cases value with
    | array items =>
        rw [readSequence, readItems_eq_ok_iff] at hread
        apply Shape.Fits.list
        intro item hitem
        obtain ⟨a, -, ha⟩ := exists_mem_of_forall₂ hread hitem
        exact h.fits item a ha
    | _ => cases hread
  · intro value failure hread
    by_cases harray : ∃ items, value = .array items
    · obtain ⟨items, rfl⟩ := harray
      exact (readItems_faultAmong h 0 items failure hread).firstFault
    · rw [not_exists] at harray
      rw [readSequence] at hread
      · apply firstFault_of_fail hread (.notList shape value harray)
        cases value with
        | array items => exact absurd rfl (harray items)
        | object members =>
            intro entry hentry part hpart
            obtain ⟨member, -, rfl⟩ := List.mem_map.1 hentry
            cases hpart
        | _ => exact Shape.fitParts_nil _
      · exact harray

end Readers

section Records

variable {α β : Type} {firstKey secondKey : String}
  {readFirst : Json → Except Failure α} {readSecond : Json → Except Failure β}
  {firstShape secondShape : Shape}

/-- One member of an object: its value has a fault, which is reported, or it fits what is asked of
it, and the visit goes on. -/
theorem visit_cons_cases (expected : Expected) (default : β) (hfirst : Reads readFirst firstShape)
    (hsecond : Reads readSecond secondShape) (first : Option α) (second : Option β) (key : String)
    (value : Json) (rest : List (String × Json)) :
    let shape := Shape.record expected firstKey secondKey firstShape secondShape
    let visit := readRecord.visit firstKey secondKey readFirst readSecond default
    (∃ failure, visit first second ((key, value) :: rest) = .error failure ∧
      shape.FaultAmong (Json.object ((key, value) :: rest)).parts failure.path
        failure.problem.message) ∨
    (∃ first' second', visit first second ((key, value) :: rest) = visit first' second' rest ∧
      (first'.isSome ↔ first.isSome ∨ firstKey = key) ∧
      ∀ part, shape.part? (.key key) = some part → part.Fits value) := by
  intro shape visit
  by_cases hone : key = firstKey
  · have hpart : shape.part? (.key key) = some firstShape := if_pos hone
    cases hread : below (.key key) (readFirst value) with
    | error failure =>
        refine .inl ⟨failure, ?_, hfirst.faultAmong hpart hread⟩
        simp only [visit, readRecord.visit, if_pos hone, hread]
        rfl
    | ok a =>
        refine .inr ⟨some a, second, ?_, by simp [hone], hfirst.fits_part hpart hread⟩
        simp only [visit, readRecord.visit, if_pos hone, hread]
        rfl
  · by_cases htwo : key = secondKey
    · have hpart : shape.part? (.key key) = some secondShape := (if_neg hone).trans (if_pos htwo)
      cases hread : below (.key key) (readSecond value) with
      | error failure =>
          refine .inl ⟨failure, ?_, hsecond.faultAmong hpart hread⟩
          simp only [visit, readRecord.visit, if_neg hone, if_pos htwo, hread]
          rfl
      | ok b =>
          refine .inr ⟨first, some b, ?_, by simp [Ne.symm hone], hsecond.fits_part hpart hread⟩
          simp only [visit, readRecord.visit, if_neg hone, if_pos htwo, hread]
          rfl
    · have hpart : shape.part? (.key key) = none := (if_neg hone).trans (if_neg htwo)
      refine .inr ⟨first, second, ?_, by simp [Ne.symm hone], by simp [hpart]⟩
      simp only [visit, readRecord.visit, if_neg hone, if_neg htwo]

/-- When all members have been visited without a fault, they all fit what is asked of them. -/
theorem visit_ok (expected : Expected) (default : β) (hfirst : Reads readFirst firstShape)
    (hsecond : Reads readSecond secondShape) (members : List (String × Json))
    (first : Option α) (second : Option β) (result : α × β)
    (h : readRecord.visit firstKey secondKey readFirst readSecond default first second members =
      .ok result) :
    (first.isSome ∨ firstKey ∈ members.map Prod.fst) ∧
      (Shape.record expected firstKey secondKey firstShape secondShape).FitParts
        (Json.object members).parts := by
  induction members generalizing first second with
  | nil =>
      refine ⟨.inl ?_, Shape.fitParts_nil _⟩
      cases first with
      | none => cases h
      | some a => rfl
  | cons member rest ih =>
      obtain ⟨key, value⟩ := member
      rcases visit_cons_cases expected default hfirst hsecond first second key value rest with
        ⟨failure, hfailure, -⟩ | ⟨first', second', hrest, hfound, hfits⟩
      · cases hfailure.symm.trans h
      · obtain ⟨hkey, hparts⟩ := ih first' second' (hrest.symm.trans h)
        refine ⟨?_, Shape.fitParts_cons hfits hparts⟩
        rw [hfound, or_assoc] at hkey
        simpa using hkey

/-- A visit fails at the first member that has a fault, or, when there is none, at a missing first
key. -/
theorem visit_error (expected : Expected) (default : β) (hfirst : Reads readFirst firstShape)
    (hsecond : Reads readSecond secondShape) (members : List (String × Json))
    (first : Option α) (second : Option β) (failure : Failure)
    (h : readRecord.visit firstKey secondKey readFirst readSecond default first second members =
      .error failure) :
    let shape := Shape.record expected firstKey secondKey firstShape secondShape
    shape.FaultAmong (Json.object members).parts failure.path failure.problem.message ∨
      (failure = { path := [], problem := .missingKey firstKey } ∧ first = none ∧
        firstKey ∉ members.map Prod.fst ∧ shape.FitParts (Json.object members).parts) := by
  intro shape
  induction members generalizing first second with
  | nil =>
      cases first with
      | none =>
          cases h
          exact .inr ⟨rfl, rfl, List.not_mem_nil, Shape.fitParts_nil _⟩
      | some a => cases h
  | cons member rest ih =>
      obtain ⟨key, value⟩ := member
      rcases visit_cons_cases expected default hfirst hsecond first second key value rest with
        ⟨failure', hfailure, hfault⟩ | ⟨first', second', hrest, hfound, hfits⟩
      · cases hfailure.symm.trans h
        exact .inl hfault
      · rcases ih first' second' (hrest.symm.trans h) with
          hfault | ⟨hproblem, hnone, hmissing, hparts⟩
        · exact .inl (hfault.tail hfits)
        · rw [hnone] at hfound
          have hnew : first = none ∧ firstKey ≠ key := by
            simpa using hfound
          refine .inr ⟨hproblem, hnew.1, ?_, Shape.fitParts_cons hfits hparts⟩
          simp [hnew.2, hmissing]

/-- The array of the parts of a record is read only if it has one or two items that fit. -/
theorem readRecord_array_fits (expected : Expected) (default : β)
    (hfirst : Reads readFirst firstShape) (hsecond : Reads readSecond secondShape)
    (items : List Json) (result : α × β)
    (h : readRecord expected firstKey secondKey readFirst readSecond default (.array items) =
      .ok result) :
    (Shape.record expected firstKey secondKey firstShape secondShape).Fits (.array items) := by
  match items with
  | [] => cases h
  | [a] =>
      rw [readRecord, bind_eq_ok_iff] at h
      obtain ⟨x, hx, -⟩ := h
      exact .short _ _ _ _ _ a (hfirst.fits a x ((below_eq_ok_iff _ _ _).1 hx))
  | a :: b :: more =>
      rw [readRecord, bind_eq_ok_iff] at h
      obtain ⟨x, hx, h⟩ := h
      rw [bind_eq_ok_iff] at h
      obtain ⟨y, hy, h⟩ := h
      split_ifs at h with hmore
      · obtain rfl : more = [] := List.isEmpty_iff.1 hmore
        exact .full _ _ _ _ _ a b (hfirst.fits a x ((below_eq_ok_iff _ _ _).1 hx))
          (hsecond.fits b y ((below_eq_ok_iff _ _ _).1 hy))
      · cases h

/-- Nothing is asked of the items behind the parts of a record. -/
theorem fitParts_leftOver (expected : Expected) (firstKey secondKey : String)
    (firstShape secondShape : Shape) (more : List Json) :
    (Shape.record expected firstKey secondKey firstShape secondShape).FitParts
      ((more.zipIdx 2).map fun item => (.index item.2, item.1)) := by
  intro entry hentry part hpart
  obtain ⟨⟨item, position⟩, hitem, rfl⟩ := List.mem_map.1 hentry
  obtain ⟨offset, rfl⟩ := Nat.exists_eq_add_of_le' (List.le_snd_of_mem_zipIdx hitem)
  cases hpart

/-- The items of an array are read by position before its length is found to be wrong. -/
theorem readRecord_array_fault (expected : Expected) (default : β)
    (hfirst : Reads readFirst firstShape) (hsecond : Reads readSecond secondShape)
    (items : List Json) (failure : Failure)
    (h : readRecord expected firstKey secondKey readFirst readSecond default (.array items) =
      .error failure) :
    (Shape.record expected firstKey secondKey firstShape secondShape).FirstFault (.array items)
      failure.path failure.problem.message := by
  match items with
  | [] => exact firstFault_of_fail h (.tooShort _ _ _ _ _) (Shape.fitParts_nil _)
  | [a] =>
      rw [readRecord, bind_eq_error_iff] at h
      rcases h with ha | ⟨x, -, h⟩
      · exact (hfirst.faultAmong rfl ha).firstFault
      · cases h
  | a :: b :: more =>
      rw [readRecord, bind_eq_error_iff] at h
      rcases h with ha | ⟨x, hx, h⟩
      · exact (hfirst.faultAmong rfl ha).firstFault
      rw [bind_eq_error_iff] at h
      rcases h with hb | ⟨y, hy, h⟩
      · exact ((hsecond.faultAmong rfl hb).tail (hfirst.fits_part rfl hx)).firstFault
      split_ifs at h with hmore
      · cases h
      · have hlength : 2 < (a :: b :: more).length := by
          have hpos : 0 < more.length := by simpa [List.length_pos_iff] using hmore
          simpa using hpos
        apply firstFault_of_fail h (.tooLong _ _ _ _ _ (a :: b :: more) hlength)
        apply Shape.fitParts_cons (hfirst.fits_part rfl hx)
        apply Shape.fitParts_cons (hsecond.fits_part rfl hy)
        exact fitParts_leftOver _ _ _ _ _ more

/-- A record is read with its parts: an object by its keys, an array by its positions. -/
theorem reads_record (expected : Expected) (default : β) (hkeys : firstKey ≠ secondKey)
    (hfirst : Reads readFirst firstShape) (hsecond : Reads readSecond secondShape) :
    Reads (readRecord expected firstKey secondKey readFirst readSecond default)
      (.record expected firstKey secondKey firstShape secondShape) := by
  constructor
  · intro value result h
    cases value with
    | object members =>
        obtain ⟨hkey, hparts⟩ := visit_ok expected default hfirst hsecond members none none result h
        have hmember (member : String × Json) (hin : member ∈ members) :=
          hparts (.key member.1, member.2) (List.mem_map.2 ⟨member, hin, rfl⟩)
        refine .object _ _ _ _ _ _ (by simpa using hkey) ?_ ?_
        · intro member hin hname
          exact hmember member hin firstShape (if_pos hname)
        · intro member hin hname
          have hother : member.1 ≠ firstKey := fun hone => hkeys (hone.symm.trans hname)
          exact hmember member hin secondShape ((if_neg hother).trans (if_pos hname))
    | array items => exact readRecord_array_fits expected default hfirst hsecond items result h
    | _ => cases h
  · intro value failure h
    cases value with
    | object members =>
        rcases visit_error expected default hfirst hsecond members none none failure h with
          hfault | ⟨rfl, -, hmissing, hparts⟩
        · exact hfault.firstFault
        · exact .here _ _ _ (.missingKey _ _ _ _ _ members hmissing) hparts
    | array items => exact readRecord_array_fault expected default hfirst hsecond items failure h
    | _ =>
        apply firstFault_of_fail h (.notRecord _ _ _ _ _ _ (by simp) (by simp))
        exact Shape.fitParts_nil _

end Records

/-- A field: its name and, if it is given, its declared type. -/
def fieldShape : Shape :=
  .record .field "name" "declaredType" .text .text

/-- A descriptor: the name of the type and, if they are given, its fields. -/
def descriptorShape : Shape :=
  .record .descriptor "typeName" "fields" .text (.list fieldShape)

/-- What a document should be: an array, a list of descriptors; anything else, a descriptor. -/
def rootShape : Json → Shape
  | .array _ => .list descriptorShape
  | _ => descriptorShape

/-- The documents: one descriptor object, or an array of descriptors. -/
inductive IsDocument : Json → Prop where
  | single (members : List (String × Json)) (h : descriptorShape.Fits (.object members)) :
      IsDocument (.object members)
  | many (items : List Json) (h : ∀ item ∈ items, descriptorShape.Fits item) :
      IsDocument (.array items)

theorem isDocument_iff (document : Json) :
    IsDocument document ↔ (rootShape document).Fits document := by
  constructor
  · intro h
    cases h with
    | single members h => exact h
    | many items h => exact .list _ items h
  · intro h
    cases document with
    | object members => exact .single members h
    | array items =>
        cases h with
        | list _ _ h => exact .many items h
    | _ => cases h

theorem reads_field : Reads readField fieldShape := by
  have hread : readField = fun value =>
      (readRecord .field "name" "declaredType" readText readText "" value).map
        fun parts => { name := parts.1, declaredType := parts.2 } := by
    funext value
    rw [readField]
    cases readRecord .field "name" "declaredType" readText readText "" value <;> rfl
  rw [hread]
  exact (reads_record .field "" (by decide) reads_text reads_text).map _

theorem reads_descriptor : Reads readDescriptor descriptorShape := by
  have hread : readDescriptor = fun value =>
      (readRecord .descriptor "typeName" "fields" readText (readSequence readField) [] value).map
        fun parts => { typeName := parts.1, fields := parts.2 } := by
    funext value
    rw [readDescriptor]
    cases readRecord .descriptor "typeName" "fields" readText (readSequence readField) [] value <;>
      rfl
  rw [hread]
  exact (reads_record .descriptor [] (by decide) reads_text (reads_list reads_field)).map _

/-- A document is read by a reader of what it should be. -/
theorem exists_reads_rootShape (document : Json) :
    ∃ reader : Json → Except Failure (List Descriptor),
      Reads reader (rootShape document) ∧ read document = reader document := by
  cases document with
  | array items => exact ⟨readSequence readDescriptor, reads_list reads_descriptor, rfl⟩
  | _ => exact ⟨_, reads_descriptor.map fun descriptor => [descriptor], rfl⟩

/-- Exactly the documents are read. Anything else whose keys differ, as they do in whatever is read
from a text, is answered by a path, at whose end a node is itself at fault and is described, while
every node that has been read before it fits. -/
theorem read_points_at_first_fault (document : Json) :
    ((∃ descriptors, read document = .ok descriptors) ↔ IsDocument document) ∧
    (∀ text, Json.parse? text = some document → document.KeysUnique) ∧
    (document.KeysUnique → ¬ IsDocument document → ∃ failure message,
      read document = .error failure ∧
      failure.message = "at JSON path " ++ failure.path.text ++ " → " ++ message ∧
      (rootShape document).PointsAtFirst document failure.path message) := by
  obtain ⟨reader, hreader, hread⟩ := exists_reads_rootShape document
  rw [hread, isDocument_iff]
  refine ⟨hreader.exists_ok_iff document, fun _ => Json.keysUnique_of_parse?,
    fun hkeys hfits => ?_⟩
  cases hresult : reader document with
  | ok descriptors => exact absurd (hreader.fits _ _ hresult) hfits
  | error failure =>
      exact ⟨failure, failure.problem.message, rfl, rfl,
        (hreader.fault _ _ hresult).pointsAtFirst hkeys⟩

/-- A document with three faults: a field whose name is a number, the type name that its descriptor
lacks, and a third descriptor that is no record. -/
def faultyDocument : Json :=
  .array [.object [("typeName", .string "A")],
    .object [("fields", .array [.array [.string "X"], .object [("name", .ofInt 7)]])],
    .bool true]

/-- Of the three faults, the one inside the fields is found first. -/
theorem read_faultyDocument :
    faultyDocument.KeysUnique ∧ ¬ IsDocument faultyDocument ∧ ∃ failure message,
      read faultyDocument = .error failure ∧
      failure.message =
        "at JSON path [1].fields[1].name → invalid type: integer `7`, expected a string" ∧
      failure.message = "at JSON path " ++ failure.path.text ++ " → " ++ message ∧
      (rootShape faultyDocument).PointsAtFirst faultyDocument failure.path message := by
  have hread : read faultyDocument = .error
      { path := [.index 1, .key "fields", .index 1, .key "name"],
        problem := .wrongType (.ofInt 7) .text } := rfl
  have hkeys : faultyDocument.KeysUnique := by
    simp [faultyDocument, Json.ofInt]
  have hnot : ¬ IsDocument faultyDocument := by
    rw [← (read_points_at_first_fault faultyDocument).1, hread]
    rintro ⟨descriptors, ⟨⟩⟩
  obtain ⟨failure, message, hfailure, hrest⟩ :=
    (read_points_at_first_fault faultyDocument).2.2 hkeys hnot
  refine ⟨hkeys, hnot, failure, message, hfailure, ?_, hrest⟩
  cases hread.symm.trans hfailure
  decide +kernel

end Document

end RecordText
