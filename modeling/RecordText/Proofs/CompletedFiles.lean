import RecordText.Command.Fix
import RecordText.Proofs.FileChanges
import RecordText.Proofs.Outcomes

/-!
# Files completed into a directory

Files that are completed into a directory are read and written in turns. Still
every file is completed from the content that it had before the first write,
even where the directory holds some of them: a text is written under the file
name of its source, and no two sources have the same file name, so no write goes
to a source that is still to be read.

If two sources have the same file name, or one has none, nothing is done at all.

## Implementation notes

A source may be named by way of a directory that the run itself makes, and then
its path leads nowhere before the run. The content that it had before is
therefore looked up at the location that the path names; where the path could be
read, this is what was read.
-/

namespace RecordText.Command.Fix

open RecordText.Files

/-- The job that completes a file into a directory. -/
def jobInto (directory path : Path) : Job :=
  { source := path, target := path.fileName?.map directory.join }

/-- Jobs are made only for paths with file names, all of them different. -/
theorem jobsInto_eq_ok (directory : Path) (planned jobs : List Job) (paths : List Path)
    (h : jobsInto directory planned paths = .ok jobs) :
    jobs = planned.reverse ++ paths.map (jobInto directory) ∧
      (∀ path ∈ paths, ∃ name, path.fileName? = some name ∧
        ∀ job ∈ planned, job.target ≠ some (directory.join name)) ∧
      (paths.map Path.fileName?).Nodup := by
  induction paths generalizing planned with
  | nil =>
      obtain rfl := Except.ok.inj h
      simp
  | cons path rest ih =>
      rw [jobsInto] at h
      split at h
      · cases h
      · rename_i name hname
        dsimp only at h
        split at h
        · cases h
        · rename_i hfind
          obtain ⟨rfl, hrest, hnodup⟩ := ih _ h
          have hnew : ∀ job ∈ planned, job.target ≠ some (directory.join name) := by
            simpa using hfind
          refine ⟨?_, ?_, ?_⟩
          · simp [jobInto, hname]
          · intro other hother
            rcases List.mem_cons.1 hother with rfl | hother
            · exact ⟨name, hname, hnew⟩
            · obtain ⟨name', hname', hplanned⟩ := hrest other hother
              exact ⟨name', hname', fun job hjob => hplanned job (List.mem_cons_of_mem _ hjob)⟩
          · rw [List.map_cons, List.nodup_cons, List.mem_map]
            refine ⟨?_, hnodup⟩
            rintro ⟨other, hother, hsame⟩
            obtain ⟨name', hname', hplanned⟩ := hrest other hother
            obtain rfl : name' = name := by
              rw [hname', hname] at hsame
              exact Option.some.inj hsame
            exact hplanned _ (List.mem_cons_self ..) rfl

/-- Reports change nothing but what is reported. -/
theorem foldl_report (lines : List String) (workspace : Workspace) :
    (lines.foldl Workspace.report workspace).files = workspace.files ∧
      (lines.foldl Workspace.report workspace).printed = workspace.printed := by
  induction lines generalizing workspace with
  | nil => exact ⟨rfl, rfl⟩
  | cons line lines ih => exact ih (workspace.report line)

section IntoDirectory

variable (command : Fix) (directory : Path) (coloured : Bool)

/-- The completed text of the file that a path names stands in the directory, under the name of the
file. The content that is completed is that of the tree before. -/
def CompletedInto (path : Path) (before after : FileTree) : Prop :=
  ∃ name source completion, path.fileName? = some name ∧
    before.get? (before.place path) = some (.file (.text source)) ∧
    Edit.complete source command.style = .ok completion ∧
    after.readText (directory.join name) = .ok completion.text

/-- The locations in the directory that take the completed texts of some files. -/
def TakesText (paths : List Path) (tree : FileTree) (location : Location) : Prop :=
  ∃ path ∈ paths, ∃ name, path.fileName? = some name ∧
    location = tree.place (directory.join name)

/-- One file is completed: it is read, and the completed text is written into the directory. -/
theorem runJob_eq_none (hdirectory : command.destination = .directory directory) (path : Path)
    (name : String) (hname : path.fileName? = some name) (workspace after : Workspace)
    (h : command.runJob coloured (jobInto directory path) workspace = (after, none)) :
    ∃ source completion, workspace.files.readText path = .ok source ∧
      Edit.complete source command.style = .ok completion ∧
      FileTree.ChangesOnly (· = workspace.files.place (directory.join name)) workspace.files
        after.files ∧
      after.files.readText (directory.join name) = .ok completion.text ∧
      after.printed = workspace.printed := by
  unfold runJob at h
  split at h
  · cases h
  · rename_i source hsource
    split at h
    · cases h
    · rename_i completion hcompletion
      have hread : workspace.files.readText path = .ok source :=
        (mapError_eq_ok_iff _ _ _).1 hsource
      rw [← List.foldl_map] at h
      dsimp only at h
      split at h
      · cases h
      · rename_i stored hstored
        obtain rfl := (Prod.mk.inj h).1
        rw [store, hdirectory, if_neg (by simp), jobInto, hname, Option.map_some] at hstored
        obtain ⟨hchanges, htext, hstill⟩ := Workspace.deliver_eq_none _ _ _ _ hstored
        rw [(foldl_report _ workspace).1] at hchanges
        exact ⟨source, completion, hread, hcompletion, hchanges, htext,
          hstill.trans (foldl_report _ workspace).2⟩

/-- All files are completed from the contents that they had before the run, since no job writes to
the source of a later one. -/
theorem runJobs_eq_none (hdirectory : command.destination = .directory directory)
    (paths : List Path) (hnames : ∀ path ∈ paths, ∃ name, path.fileName? = some name)
    (hnodup : (paths.map Path.fileName?).Nodup) (workspace after : Workspace)
    (h : command.runJobs coloured workspace (paths.map (jobInto directory)) = (after, none)) :
    FileTree.ChangesOnly (TakesText directory paths workspace.files) workspace.files after.files ∧
      after.printed = workspace.printed ∧
      ∀ path ∈ paths, CompletedInto command directory path workspace.files after.files ∧
        (workspace.files.place path).getLast? = path.fileName? := by
  induction paths generalizing workspace with
  | nil =>
      obtain rfl := (Prod.mk.inj h).1
      exact ⟨.refl _ _, rfl, by simp⟩
  | cons path rest ih =>
      obtain ⟨name, hname⟩ := hnames path (List.mem_cons_self ..)
      obtain ⟨hfresh, hnodup⟩ := List.nodup_cons.1 (List.map_cons ▸ hnodup)
      have hentry := (path.exists_piece_of_fileName? name hname).2
      rw [List.map_cons, runJobs] at h
      split at h
      · cases h
      rename_i middle hjob
      obtain ⟨source, completion, hread, hcompletion, hfirst, htext, hprinted⟩ :=
        runJob_eq_none command directory coloured hdirectory path name hname workspace middle hjob
      obtain ⟨hlater, hprinted', hcompleted⟩ :=
        ih (fun other hother => hnames other (List.mem_cons_of_mem _ hother)) hnodup middle h
      have hapart : ∀ other ∈ rest, ∀ location : Location,
          location.getLast? = other.fileName? →
            location ≠ workspace.files.place (directory.join name) := by
        rintro other hother location hlast rfl
        rw [FileTree.place_join _ _ _ hentry, List.getLast?_append] at hlast
        exact hfresh (List.mem_map.2 ⟨other, hother, by rw [← hlast, hname]; rfl⟩)
      refine ⟨?_, hprinted'.trans hprinted, ?_⟩
      · apply (hfirst.mono _).trans (hlater.mono _)
        · rintro location rfl
          exact ⟨path, List.mem_cons_self .., name, hname, rfl⟩
        · rintro location ⟨other, hother, name', hname', rfl⟩
          exact ⟨other, List.mem_cons_of_mem _ hother, name', hname', hfirst.place_eq _⟩
      · intro other hother
        rcases List.mem_cons.1 hother with rfl | hother
        · obtain ⟨parent, hplace⟩ :=
            workspace.files.exists_place_of_readText other name source hname hread
          refine ⟨⟨name, source, completion, hname,
            (workspace.files.readText_eq_ok other source hread).2.2, hcompletion, ?_⟩,
            by rw [hplace, hname]; simp⟩
          apply hlater.readText _ _ _ htext
          rintro ⟨later, hmem, name', hname', hsame⟩
          rw [hfirst.place_eq, hfirst.place_eq] at hsame
          refine hapart later hmem _ ?_ hsame.symm
          rw [FileTree.place_join _ _ _ (later.exists_piece_of_fileName? name' hname').2, hname']
          simp
        · obtain ⟨⟨name', source', completion', hname', hget, hcompletion', htext'⟩, hlast⟩ :=
            hcompleted other hother
          rw [hfirst.place_eq] at hget hlast
          have hsource := (hfirst.file_iff _ _ (hapart other hother _ hlast)).1 hget
          exact ⟨⟨name', source', completion', hname', hsource, hcompletion', htext'⟩, hlast⟩

/-- A run that completes files into a directory.

If two files have the same name, or one has none, nothing is done. If the run succeeds, each file's
completed text stands in the directory under the name of the file, completed from the content that
the file had before the run; no other file is changed, and nothing is printed. -/
theorem run_into_directory (files : FileTree)
    (hdirectory : command.destination = .directory directory) :
    (∀ paths, resolve files command.inputs = .ok paths →
      ((∃ path ∈ paths, path.fileName? = none) ∨ ¬ (paths.map Path.fileName?).Nodup) →
        ∃ failure, command.run coloured { files } = ({ files }, some failure)) ∧
    ∀ after, command.run coloured { files } = (after, none) →
      ∃ paths, resolve files command.inputs = .ok paths ∧
        (∀ path ∈ paths, CompletedInto command directory path files after.files) ∧
        (∀ location, ¬ TakesText directory paths files location →
          ∀ content, after.files.get? location = some (.file content) ↔
            files.get? location = some (.file content)) ∧
        after.printed = "" := by
  have hjobs : ∀ paths, command.jobs paths = jobsInto directory [] paths := by
    intro paths
    rw [jobs, hdirectory]
  constructor
  · intro paths hpaths hnames
    cases hplan : jobsInto directory [] paths with
    | error failure => exact ⟨failure, by simp only [run, hpaths, hjobs, hplan]⟩
    | ok jobs =>
        obtain ⟨-, hnamed, hnodup⟩ := jobsInto_eq_ok directory [] jobs paths hplan
        rcases hnames with ⟨path, hpath, hnone⟩ | hshared
        · obtain ⟨name, hname, -⟩ := hnamed path hpath
          cases hname.symm.trans hnone
        · exact absurd hnodup hshared
  · intro after h
    unfold run at h
    split at h
    · cases h
    · rename_i paths hpaths
      rw [hjobs] at h
      split at h
      · cases h
      · rename_i jobs hplan
        obtain ⟨rfl, hnamed, hnodup⟩ := jobsInto_eq_ok directory [] jobs paths hplan
        rw [List.reverse_nil, List.nil_append] at h
        obtain ⟨hchanges, hprinted, hcompleted⟩ := runJobs_eq_none command directory coloured
          hdirectory paths (fun path hpath => (hnamed path hpath).imp fun _ hname => hname.1)
          hnodup _ after h
        exact ⟨paths, hpaths, fun path hpath => (hcompleted path hpath).1,
          fun location htakes content => hchanges.file_iff location content htakes, hprinted⟩

end IntoDirectory

/-- Two files, one of them in the directory that takes the completed texts. -/
def twoFiles : FileTree :=
  { entries := [(["in"], .directory), (["in", "A.cs"], .file (.text "class A \x7b \x7d")),
      (["out"], .directory), (["out", "B.cs"], .file (.text "class B \x7b int Y => 1; \x7d"))] }

/-- Complete both files into the directory of one of them. -/
def completeTwo : Fix :=
  { inputs := ["in/A.cs", "out/B.cs"], destination := .directory ⟨"out"⟩ }

theorem run_into_directory_twoFiles :
    completeTwo.destination = .directory ⟨"out"⟩ ∧
      ∃ after, completeTwo.run false { files := twoFiles } = (after, none) ∧
        CompletedInto completeTwo ⟨"out"⟩ ⟨"in/A.cs"⟩ twoFiles after.files ∧
        CompletedInto completeTwo ⟨"out"⟩ ⟨"out/B.cs"⟩ twoFiles after.files ∧
        after.printed = "" := by
  have hsuccess : (completeTwo.run false { files := twoFiles }).2.isNone = true := by
    decide +kernel
  have hrun : completeTwo.run false { files := twoFiles } =
      ((completeTwo.run false { files := twoFiles }).1, none) :=
    Prod.ext rfl (Option.isNone_iff_eq_none.1 hsuccess)
  have hresolve : resolve twoFiles completeTwo.inputs = .ok [⟨"in/A.cs"⟩, ⟨"out/B.cs"⟩] := rfl
  obtain ⟨paths, hpaths, hcompleted, -, hprinted⟩ :=
    (run_into_directory completeTwo ⟨"out"⟩ false twoFiles rfl).2 _ hrun
  obtain rfl := Except.ok.inj (hresolve.symm.trans hpaths)
  exact ⟨rfl, _, hrun, hcompleted _ (by simp), hcompleted _ (by simp), hprinted⟩

end RecordText.Command.Fix
