import RecordText.Files.Tree
import Mathlib.Data.List.Basic

/-!
# Places that paths name

In a tree without links the names of a path alone fix the location to which the
path leads. Whether it leads there at all depends on the directories on the way.
So the location can be spoken of before the directories are made.

A path with a file name that leads to a file names a location that ends with
this file name, and a path joined to a directory names a location directly below
the directory.

## Implementation notes

The parts of a path and the names that a walk follows are cut from the same
pieces between slashes. A point counts among the names, where it makes sure that
there is a directory, but not among the parts.
-/

namespace RecordText.Text

theorem cutAtSlashes_slash (rest : List Char) :
    cutAtSlashes ('/' :: rest) = [] :: cutAtSlashes rest := by
  rw [cutAtSlashes, if_pos rfl]

/-- A text without slashes is one piece. -/
theorem cutAtSlashes_of_not_mem (text : List Char) (h : '/' ∉ text) :
    cutAtSlashes text = [text] := by
  induction text with
  | nil => rfl
  | cons c rest ih =>
      have hc : c ≠ '/' := fun hc => h (by simp [hc])
      rw [cutAtSlashes, if_neg hc, ih fun hrest => h (List.mem_cons_of_mem c hrest)]
      rfl

/-- The pieces before a slash and behind it make up all pieces. -/
theorem cutAtSlashes_append (front back : List Char) :
    cutAtSlashes (front ++ '/' :: back) = cutAtSlashes front ++ cutAtSlashes back := by
  induction front with
  | nil => exact cutAtSlashes_slash back
  | cons c front ih =>
      rw [List.cons_append, cutAtSlashes, cutAtSlashes, ih]
      split
      · rfl
      · cases hfront : cutAtSlashes front with
        | nil => exact absurd hfront (cutAtSlashes_ne_nil front)
        | cons piece pieces => rfl

/-- No piece holds a slash. -/
theorem not_mem_of_mem_cutAtSlashes (text piece : List Char) (h : piece ∈ cutAtSlashes text) :
    '/' ∉ piece := by
  induction text generalizing piece with
  | nil =>
      rw [cutAtSlashes, List.mem_singleton] at h
      simp [h]
  | cons c rest ih =>
      rw [cutAtSlashes] at h
      split at h
      · rcases List.mem_cons.1 h with rfl | hrest
        · simp
        · exact ih piece hrest
      · rename_i hc
        cases hrest : cutAtSlashes rest with
        | nil => exact absurd hrest (cutAtSlashes_ne_nil rest)
        | cons first others =>
            rw [hrest, consLine] at h
            rcases List.mem_cons.1 h with rfl | hother
            · have hfirst := ih first (by simp [hrest])
              simp [hfirst, Ne.symm hc]
            · exact ih piece (by simp [hrest, hother])

end RecordText.Text

namespace RecordText.Files

open RecordText.Text

/-- Whether a text can name an entry of a directory. -/
structure IsEntryName (name : String) : Prop where
  ne_empty : name ≠ ""
  ne_here : name ≠ "."
  ne_up : name ≠ ".."
  no_slash : '/' ∉ name.toList

namespace Path

/-- The pieces that say something are the same with and without the start of a path. -/
theorem filter_cutStart (text : List Char) :
    (cutAtSlashes (cutStart text).2).filter (!isIdle ·) =
      (cutAtSlashes text).filter (!isIdle ·) := by
  unfold cutStart
  split
  · rw [cutAtSlashes_slash]
    rfl
  · rfl
  · rename_i body
    rw [cutAtSlashes_slash, show '.' :: '/' :: body = ['.'] ++ '/' :: body from rfl,
      cutAtSlashes_append]
    rfl
  · rfl

theorem fileName?_eq_some_iff (path : Path) (name : String) :
    path.fileName? = some name ↔ path.parts.getLast? = some (.name name) := by
  unfold fileName?
  split <;> simp_all

/-- The start of a path is no name. -/
theorem getLast?_startParts_ne (start : List Char) (name : String) :
    (startParts start).getLast? ≠ some (.name name) := by
  unfold startParts
  split <;> simp

/-- The file name of a path is its last piece that says something. -/
theorem exists_piece_of_fileName? (path : Path) (name : String) (h : path.fileName? = some name) :
    ((cutAtSlashes path.text.toList).filter (!isIdle ·)).getLast? = some name.toList ∧
      IsEntryName name := by
  have hparts : path.parts = startParts (cutStart path.text.toList).1 ++
      ((cutAtSlashes path.text.toList).filter (!isIdle ·)).map partOf := by
    rw [← filter_cutStart]
    rfl
  rw [fileName?_eq_some_iff, hparts] at h
  obtain hnil | ⟨front, piece, hpieces⟩ :=
    List.eq_nil_or_concat ((cutAtSlashes path.text.toList).filter (!isIdle ·))
  · rw [hnil, List.map_nil, List.append_nil] at h
    exact absurd h (getLast?_startParts_ne _ name)
  · have hmem : piece ∈ (cutAtSlashes path.text.toList).filter (!isIdle ·) := by simp [hpieces]
    obtain ⟨hcut, hidle⟩ := List.mem_filter.1 hmem
    rw [hpieces, List.concat_eq_append, List.map_append, ← List.append_assoc] at h
    simp only [List.map_cons, List.map_nil, List.getLast?_append, List.getLast?_singleton,
      Option.some_or, Option.some.injEq, partOf] at h
    by_cases hup : piece = ['.', '.']
    · simp [hup] at h
    · rw [if_neg hup, Part.name.injEq] at h
      subst h
      simp only [isIdle, Bool.not_eq_true', Bool.or_eq_false_iff, decide_eq_false_iff_not] at hidle
      refine ⟨by simp [hpieces], ?_, ?_, ?_, ?_⟩
      · exact fun heq => hidle.1 (String.ofList_injective heq)
      · exact fun heq => hidle.2 (String.ofList_injective heq)
      · exact fun heq => hup (String.ofList_injective heq)
      · simpa using not_mem_of_mem_cutAtSlashes _ _ hcut

/-- The last name of a path with a file name is the file name or a point. -/
theorem getLast?_names (path : Path) (name : String) (h : path.fileName? = some name) :
    ∃ front last, path.names = front ++ [last] ∧ (last = name ∨ last = ".") := by
  obtain ⟨hlast, -⟩ := path.exists_piece_of_fileName? name h
  have hidle : (cutAtSlashes path.text.toList).filter (!isIdle ·) =
      ((cutAtSlashes path.text.toList).filter fun piece => !piece.isEmpty).filter
        fun piece => piece ≠ ['.'] := by
    rw [List.filter_filter]
    apply List.filter_congr
    intro piece _
    cases piece <;> simp [isIdle]
  rw [hidle] at hlast
  rw [names]
  obtain hnil | ⟨front, piece, hpieces⟩ := List.eq_nil_or_concat
    ((cutAtSlashes path.text.toList).filter fun piece => !piece.isEmpty)
  · rw [hnil] at hlast
    cases hlast
  · rw [List.concat_eq_append] at hpieces
    refine ⟨front.map String.ofList, String.ofList piece, by simp [hpieces], ?_⟩
    by_cases hpoint : piece = ['.']
    · exact Or.inr (by rw [hpoint])
    · left
      rw [hpieces, List.filter_append] at hlast
      simp only [List.filter_cons, hpoint, ne_eq, not_false_eq_true, decide_true, if_true,
        List.filter_nil, List.getLast?_append, List.getLast?_singleton, Option.some_or,
        Option.some.injEq] at hlast
      rw [hlast, String.ofList_toList]

/-- A path joined to a directory goes one name further. -/
theorem names_join (path : Path) (name : String) (h : IsEntryName name) :
    (path.join name).names = path.names ++ [name] := by
  have hpiece : cutAtSlashes name.toList = [name.toList] :=
    cutAtSlashes_of_not_mem _ h.no_slash
  have hempty : name.toList.isEmpty = false := by
    simpa using h.ne_empty
  unfold join
  split
  · rename_i hroot
    simp [names, hroot, hpiece, hempty, cutAtSlashes]
  · split
    · rename_i hslash
      obtain ⟨front, hfront⟩ := List.getLast?_eq_some_iff.1 hslash
      simp [names, hfront, cutAtSlashes_append, hpiece, hempty, cutAtSlashes]
    · simp [names, cutAtSlashes_append, hpiece, hempty]

/-- A path joined to a directory starts where the directory's path starts. -/
theorem isAbsolute_join (path : Path) (name : String) (h : IsEntryName name) :
    (path.join name).isAbsolute = path.isAbsolute := by
  unfold join
  split
  · rename_i hroot
    have hhead : name.toList.head? ≠ some '/' :=
      fun hhead => h.no_slash (List.mem_of_mem_head? hhead)
    simp [isAbsolute, hroot, hhead]
  · rename_i hroot
    obtain ⟨c, rest, hcons⟩ : ∃ c rest, path.text.toList = c :: rest :=
      List.exists_cons_of_ne_nil (by simpa using hroot)
    split <;> simp [isAbsolute, hcons]

end Path

namespace FileTree

/-- Where a name leads from a directory. -/
def nextPlace (location : Location) (name : String) : Location :=
  if name = "." then location
  else if name = ".." then location.dropLast
  else location ++ [name]

/-- The location that a path names, whether or not there are directories on the way. -/
def place (tree : FileTree) (path : Path) : Location :=
  path.names.foldl nextPlace (tree.start path)

theorem place_congr (tree tree' : FileTree) (path : Path) (h : tree.working = tree'.working) :
    tree.place path = tree'.place path := by
  rw [place, place, start, start, h]

/-- A step is taken from a directory only. -/
theorem step_eq_ok (tree : FileTree) (location next : Location) (name : String)
    (h : tree.step location name = .ok next) :
    tree.get? location = some .directory ∧ next = nextPlace location name := by
  unfold step at h
  split at h
  · cases h
  · cases h
  · rename_i hdirectory
    refine ⟨hdirectory, ?_⟩
    unfold nextPlace
    split_ifs at h ⊢ <;> simpa using h.symm

/-- A walk leads to the location that its names fix. -/
theorem walk_eq_ok (tree : FileTree) (location last : Location) (names : List String)
    (h : tree.walk location names = .ok last) : last = names.foldl nextPlace location := by
  induction names generalizing location with
  | nil => exact (Except.ok.inj h).symm
  | cons name rest ih =>
      rw [walk] at h
      split at h
      · cases h
      · rename_i next hnext
        rw [ih next h, (tree.step_eq_ok _ _ _ hnext).2, List.foldl_cons]

/-- The last step of a walk starts from a directory. -/
theorem walk_append_eq_ok (tree : FileTree) (location last : Location) (names : List String)
    (name : String) (h : tree.walk location (names ++ [name]) = .ok last) :
    ∃ parent, tree.get? parent = some .directory ∧ last = nextPlace parent name := by
  induction names generalizing location with
  | nil =>
      rw [List.nil_append, walk] at h
      split at h
      · cases h
      · rename_i next hnext
        obtain rfl := Except.ok.inj h
        exact ⟨location, tree.step_eq_ok _ _ _ hnext⟩
  | cons first rest ih =>
      rw [List.cons_append, walk] at h
      split at h
      · cases h
      · exact ih _ h

theorem locate_eq_ok (tree : FileTree) (path : Path) (location : Location)
    (h : tree.locate path = .ok location) :
    tree.walk (tree.start path) path.names = .ok location ∧ location = tree.place path := by
  unfold locate at h
  split at h
  · cases h
  · exact ⟨h, tree.walk_eq_ok _ _ _ h⟩

/-- Text is read from the file at the location that the path names. -/
theorem readText_eq_ok (tree : FileTree) (path : Path) (text : String)
    (h : tree.readText path = .ok text) :
    tree.locate path = .ok (tree.place path) ∧ path.endsInSlash = false ∧
      tree.get? (tree.place path) = some (.file (.text text)) := by
  unfold readText find at h
  cases hlocate : tree.locate path with
  | error error => simp [hlocate] at h
  | ok location =>
      have hplace := (tree.locate_eq_ok path location hlocate).2
      subst hplace
      cases hget : tree.get? (tree.place path) with
      | none => simp [hlocate, hget] at h
      | some entry =>
          cases entry with
          | directory => simp [hlocate, hget] at h
          | file content =>
              cases hslash : path.endsInSlash with
              | true => simp [hlocate, hget, hslash] at h
              | false =>
                  cases content with
                  | binary bytes => simp [hlocate, hget, hslash] at h
                  | text value =>
                      simp only [hlocate, hget, hslash, Bool.false_eq_true, if_false,
                        Except.ok.injEq] at h
                      exact ⟨rfl, rfl, by rw [h]⟩

theorem readText_of_locate (tree : FileTree) (path : Path) (text : String)
    (hlocate : tree.locate path = .ok (tree.place path)) (hslash : path.endsInSlash = false)
    (hget : tree.get? (tree.place path) = some (.file (.text text))) :
    tree.readText path = .ok text := by
  simp only [readText, find, hlocate, hget, hslash, Bool.false_eq_true, if_false]

/-- A path with a file name that leads to a text names a location that ends with the file name. -/
theorem exists_place_of_readText (tree : FileTree) (path : Path) (name text : String)
    (hname : path.fileName? = some name) (h : tree.readText path = .ok text) :
    ∃ parent, tree.place path = parent ++ [name] := by
  obtain ⟨hlocate, -, hget⟩ := tree.readText_eq_ok path text h
  obtain ⟨hwalk, -⟩ := tree.locate_eq_ok path _ hlocate
  obtain ⟨-, hentry⟩ := path.exists_piece_of_fileName? name hname
  obtain ⟨front, last, hnames, hlast⟩ := path.getLast?_names name hname
  rw [hnames] at hwalk
  obtain ⟨parent, hparent, hplace⟩ := tree.walk_append_eq_ok _ _ _ _ hwalk
  rcases hlast with rfl | rfl
  · exact ⟨parent, by rw [hplace, nextPlace, if_neg hentry.ne_here, if_neg hentry.ne_up]⟩
  · rw [hplace, nextPlace, if_pos rfl, hparent] at hget
    cases hget

/-- A path joined to a directory names a location directly below the directory. -/
theorem place_join (tree : FileTree) (path : Path) (name : String) (h : IsEntryName name) :
    tree.place (path.join name) = tree.place path ++ [name] := by
  rw [place, path.names_join name h, List.foldl_append, start, path.isAbsolute_join name h]
  rw [List.foldl_cons, List.foldl_nil, nextPlace, if_neg h.ne_here, if_neg h.ne_up]
  rfl

end FileTree

end RecordText.Files
