import RecordText.Command.Workspace
import RecordText.Proofs.FilePlaces

/-!
# Changes of file trees

A write changes the file at one location. Making directories changes no file at
all, and a directory never goes away. So a text that was read or written at a
path is found there again until the location that the path names is written to.

## Main statements

* `FileTree.ChangesOnly.readText`: what a path leads to stays as long as its
  location is not written to.
* `Workspace.deliver_eq_none`: a delivered text is found at its path, and the
  delivery changes no other file.
-/

namespace RecordText.Files.FileTree

/-- How a tree may differ from what it was before: directories stay, and files are changed or made
only at the locations that are written to. -/
structure ChangesOnly (written : Location → Prop) (before after : FileTree) : Prop where
  working_eq : after.working = before.working
  directory : ∀ location, before.get? location = some .directory →
    after.get? location = some .directory
  file_iff : ∀ location content, ¬ written location →
    (after.get? location = some (.file content) ↔ before.get? location = some (.file content))

namespace ChangesOnly

variable {written written' : Location → Prop} {before middle after : FileTree}

theorem refl (written : Location → Prop) (tree : FileTree) : ChangesOnly written tree tree :=
  ⟨rfl, fun _ h => h, fun _ _ _ => Iff.rfl⟩

theorem trans (h : ChangesOnly written before middle) (h' : ChangesOnly written middle after) :
    ChangesOnly written before after where
  working_eq := h'.working_eq.trans h.working_eq
  directory location hget := h'.directory location (h.directory location hget)
  file_iff location content hwritten :=
    (h'.file_iff location content hwritten).trans (h.file_iff location content hwritten)

theorem mono (h : ChangesOnly written before after)
    (hsub : ∀ location, written location → written' location) :
    ChangesOnly written' before after where
  working_eq := h.working_eq
  directory := h.directory
  file_iff location content hwritten :=
    h.file_iff location content fun hlocation => hwritten (hsub location hlocation)

theorem place_eq (h : ChangesOnly written before after) (path : Path) :
    after.place path = before.place path :=
  place_congr after before path h.working_eq

/-- A walk stays possible. -/
theorem walk (h : ChangesOnly written before after) (location last : Location)
    (names : List String) (hwalk : before.walk location names = .ok last) :
    after.walk location names = .ok last := by
  induction names generalizing location with
  | nil => exact hwalk
  | cons name rest ih =>
      rw [FileTree.walk] at hwalk
      split at hwalk
      · cases hwalk
      · rename_i next hnext
        have hstep : after.step location name = .ok next := by
          have hdirectory := (before.step_eq_ok _ _ _ hnext).1
          simp only [step, hdirectory] at hnext
          simpa only [step, h.directory location hdirectory] using hnext
        rw [FileTree.walk, hstep]
        exact ih next hwalk

/-- A path that leads to a location goes on to lead there. -/
theorem locate (h : ChangesOnly written before after) (path : Path) (location : Location)
    (hlocate : before.locate path = .ok location) : after.locate path = .ok location := by
  have hwalk := h.walk _ _ _ (before.locate_eq_ok path location hlocate).1
  have hstart : after.start path = before.start path := by rw [start, start, h.working_eq]
  unfold FileTree.locate at hlocate ⊢
  split at hlocate
  · cases hlocate
  · rename_i hempty
    rw [if_neg hempty, hstart, hwalk]

/-- The text at a path stays if nothing is written to the location that the path names. -/
theorem readText (h : ChangesOnly written before after) (path : Path) (text : String)
    (hwritten : ¬ written (before.place path)) (hread : before.readText path = .ok text) :
    after.readText path = .ok text := by
  obtain ⟨hlocate, hslash, hget⟩ := before.readText_eq_ok path text hread
  have hplace := h.place_eq path
  apply after.readText_of_locate path text _ hslash
  · rw [hplace]
    exact (h.file_iff _ _ hwritten).2 hget
  · rw [hplace]
    exact h.locate path _ hlocate

end ChangesOnly

/-- An entry can be put where no directory stands. -/
theorem changesOnly_put (tree : FileTree) (location : Location) (entry : Entry)
    (h : tree.get? location ≠ some .directory) :
    ChangesOnly (· = location) tree (tree.put location entry) where
  working_eq := rfl
  directory other hother := by
    have hne : other ≠ location := fun heq => h (heq ▸ hother)
    rwa [get?_put_of_ne tree location other entry hne]
  file_iff other content hwritten := by rw [get?_put_of_ne tree location other entry hwritten]

/-- Making a directory changes no file. -/
theorem changesOnly_makeDirectory (tree made : FileTree) (path : Path)
    (h : tree.makeDirectory path = .ok made) : ChangesOnly (fun _ => False) tree made := by
  unfold makeDirectory at h
  split at h
  · cases h
  · rename_i location hlocate
    split at h
    · cases h
    · rename_i hsome
      have hnone : tree.get? location = none := by simpa using hsome
      obtain rfl := Except.ok.inj h
      have hroot : location ≠ [] := by
        rintro rfl
        cases hnone
      have hput := changesOnly_put tree location .directory (by simp [hnone])
      refine ⟨hput.working_eq, hput.directory, fun other content _ => ?_⟩
      by_cases hother : other = location
      · subst hother
        simp [hnone, get?_put_self tree other .directory hroot]
      · exact hput.file_iff other content hother

/-- Making directories changes no file, even if it fails. -/
theorem changesOnly_makeChain (tree : FileTree) (paths : List Path) :
    ChangesOnly (fun _ => False) tree (tree.makeChain paths).1 := by
  induction paths with
  | nil => exact .refl _ tree
  | cons path outer ih =>
      rw [makeChain]
      split
      · rename_i made hmade
        exact changesOnly_makeDirectory tree made path hmade
      · split
        · rename_i made error houter
          rwa [houter] at ih
        · rename_i made houter
          rw [houter] at ih
          split
          · rename_i inner hinner
            exact ih.trans (changesOnly_makeDirectory made inner path hinner)
          · split <;> exact ih
      · split <;> exact .refl _ tree

/-- A write changes the file at the location that the path names, and no other. -/
theorem write_eq_ok (tree after : FileTree) (path : Path) (text : String)
    (h : tree.write path (.text text) = .ok after) :
    ChangesOnly (· = tree.place path) tree after ∧ after.readText path = .ok text := by
  unfold write at h
  split at h
  · cases h
  · rename_i location hlocate
    obtain rfl := (tree.locate_eq_ok path location hlocate).2
    split at h
    · cases h
    · rename_i hrefused
      obtain rfl := Except.ok.inj h
      simp only [Bool.or_eq_true, decide_eq_true_eq, not_or, Bool.not_eq_true] at hrefused
      have hchanges := changesOnly_put tree _ (.file (.text text)) hrefused.2
      refine ⟨hchanges, readText_of_locate _ path text ?_ hrefused.1 ?_⟩
      · rw [hchanges.place_eq]
        exact hchanges.locate path _ hlocate
      · rw [hchanges.place_eq]
        exact get?_put_self tree _ _ fun hroot => hrefused.2 (by rw [hroot]; rfl)

end RecordText.Files.FileTree

namespace RecordText.Command.Workspace

open RecordText.Files

theorem makeParent_files (workspace : Workspace) (path : Path) :
    FileTree.ChangesOnly (fun _ => False) workspace.files (workspace.makeParent path).1.files ∧
      (workspace.makeParent path).1.printed = workspace.printed := by
  unfold makeParent
  split
  · exact ⟨.refl _ _, rfl⟩
  · rename_i directory _
    have hchanges := workspace.files.changesOnly_makeChain directory.ancestors
    split
    · rename_i files hmade
      rw [← FileTree.makeDirectories, hmade] at hchanges
      exact ⟨hchanges, rfl⟩
    · rename_i files error hmade
      rw [← FileTree.makeDirectories, hmade] at hchanges
      exact ⟨hchanges, rfl⟩

/-- A text that is delivered to a file is found there, and no other file is changed. -/
theorem deliver_eq_none (workspace after : Workspace) (path : Path) (text : String)
    (h : workspace.deliver (some path) text = (after, none)) :
    FileTree.ChangesOnly (· = workspace.files.place path) workspace.files after.files ∧
      after.files.readText path = .ok text ∧ after.printed = workspace.printed := by
  obtain ⟨hparent, hprinted⟩ := workspace.makeParent_files path
  unfold deliver at h
  dsimp only at h
  split at h
  · cases h
  · rename_i made hmade
    rw [hmade] at hparent hprinted
    unfold write at h
    split at h
    · cases h
    · rename_i files hwrite
      obtain rfl := (Prod.mk.inj h).1
      obtain ⟨hwritten, hread⟩ := made.files.write_eq_ok files path text hwrite
      rw [hparent.place_eq] at hwritten
      exact ⟨(hparent.mono fun _ => False.elim).trans hwritten, hread, hprinted⟩

end RecordText.Command.Workspace
