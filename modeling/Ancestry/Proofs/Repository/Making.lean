import Ancestry.Proofs.Reference.Tidy
import Ancestry.Repository.Basic

/-!
# Repositories that were just made

Making a repository adds directories, and HEAD unless that was there. Where no data directory was
before, no branch has a file then, and what was written in the data directory holds the initial
branch, so that the new data directory is tidy.
-/

namespace Ancestry.RefFiles

open FileSystem

variable {line : String} {root : Location} {draw : UInt32}

/-- A directory in which no repository was made yet. -/
structure Fresh (repository : Repository) (root : Location) : Prop where
  found : repository.files.find repository.root = .ok root
  closed : Closed repository.files
  vacant : repository.files.entry? (".git" :: root) = none

/-- The line of HEAD in a new repository. -/
def firstLine : String := "ref: " ++ (RefName.ofBranch .initial).path ++ "\n"

/-- The directories of a repository are made, and nothing else. -/
theorem of_makeDirectories {repository middle : Repository}
    (made : repository.makeDirectories = (.ok (), middle)) :
    middle.root = repository.root ∧ Furnished repository.files middle.files := by
  -- opened without its equation, which takes long to derive for a path that is not a variable
  delta Repository.makeDirectories at made
  have objects := createDirectories_furnished repository.files repository.objectsPath
  split at made
  · cases made
  · rename_i some created
    rw [created] at objects
    have branches := createDirectories_furnished some (branchesPath repository.dataPath)
    split at made
    · cases made
    · rename_i all created
      rw [created] at branches
      obtain rfl := (Prod.mk.inj made).2
      exact ⟨rfl, objects.trans branches⟩

/-- HEAD is written where it is not there. -/
theorem of_makeHead {middle ready : Repository} (made : middle.makeHead draw = (.ok (), ready)) :
    ready.root = middle.root ∧
      (ready.files = middle.files ∧ middle.files.has (headPath middle.dataPath) = true ∨
        write middle.files (headPath middle.dataPath) firstLine draw = (.ok (), ready.files)) := by
  delta Repository.makeHead at made
  split at made
  · rename_i present
    obtain rfl := (Prod.mk.inj made).2
    exact ⟨rfl, .inl ⟨rfl, present⟩⟩
  · split at made
    · cases made
    · rename_i written attached
      obtain rfl := (Prod.mk.inj made).2
      exact ⟨rfl, .inr attached⟩

/-- What making a repository adds: directories, and HEAD unless that was there. -/
structure Made (repository : Repository) (draw : UInt32) (ready : Repository) : Prop where
  root : ready.root = repository.root
  between : ∃ middle, Furnished repository.files middle ∧ SameDirectories middle ready.files
  closed : Closed repository.files → Closed ready.files
  headed : ∃ place, ready.files.find (headPath ready.dataPath) = .ok place
  onlyHead : ∀ place bytes, ready.files.entry? place = some (.file bytes) →
    repository.files.entry? place = some (.file bytes) ∨
      Touched (headPath ready.dataPath) draw (.ok ()) ready.files place ∧
        bytes = Utf8.encode firstLine

/-- That is what making it comes to when it succeeds. -/
theorem made_of_initialized {repository ready : Repository}
    (made : repository.initialized draw = (.ok line, ready)) : Made repository draw ready := by
  delta Repository.initialized at made
  split at made
  · cases made
  · rename_i middle directories
    obtain ⟨kept, furnished⟩ := of_makeDirectories directories
    split at made
    · cases made
    · rename_i last headed
      obtain rfl := (Prod.mk.inj made).2
      obtain ⟨same, headed⟩ := of_makeHead headed
      have data : last.dataPath = middle.dataPath := by
        rw [Repository.dataPath, same, Repository.dataPath]
      rw [← data] at headed
      rcases headed with ⟨unchanged, present⟩ | written
      · rw [← unchanged] at furnished present
        refine ⟨same.trans kept, ⟨_, furnished, fun _ => Iff.rfl⟩, furnished.closed, ?_,
          fun _ _ stands => .inl (furnished.file_iff.mp stands)⟩
        rw [has, lookup?] at present
        cases found : last.files.find (headPath last.dataPath) with
        | ok place => exact ⟨place, rfl⟩
        | error fault =>
          rw [found] at present
          cases present
      · obtain ⟨filled, more, stirs⟩ := stirs_of_write written
        obtain ⟨place, found, stands⟩ := stirs.put rfl
        have furnished := furnished.trans more
        refine ⟨same.trans kept, ⟨filled, furnished, stirs.directories⟩,
          stirs.closed ∘ furnished.closed, ⟨place, found⟩, fun other bytes stood => ?_⟩
        by_cases touched : Touched (headPath last.dataPath) draw (.ok ()) last.files other
        · exact (stirs.stood other bytes stood).symm.imp furnished.file_iff.mp (⟨touched, ·⟩)
        · rw [stirs.entries other touched] at stood
          exact .inl (furnished.file_iff.mp stood)

namespace Fresh

variable {repository ready : Repository}

/-- Nothing stands below the data directory of a repository that was not made yet. -/
theorem nothing (fresh : Fresh repository root) (inner : List String) :
    repository.files.entry? (inner ++ ".git" :: root) = none := by
  by_contra present
  by_cases filled : inner = []
  · exact present (filled ▸ fresh.vacant)
  · have around := fresh.closed.around filled (Option.isSome_iff_ne_none.mpr present)
    rw [fresh.vacant] at around
    cases around

/-- Where a repository was made, paths below its data directory stand below a text that leads to
the directory. -/
theorem standing (fresh : Fresh repository root) (made : Made repository draw ready) :
    ∃ stem, (∀ next, Path.isAbsolute ⟨next⟩ = false →
        ready.dataPath.join next = Path.below stem next) ∧
      Standing ready.files stem (".git" :: root) := by
  have filled : repository.root.text ≠ "" := by
    intro empty
    have found := fresh.found
    rw [find, show repository.root = ⟨""⟩ from congrArg Path.mk empty] at found
    cases found
  obtain ⟨base, joined, form⟩ := Path.exists_stem filled
  have isData : Path.IsName ".git" := ⟨by decide, by decide, by decide, by decide⟩
  have data : ready.dataPath = Path.below base ".git" := by
    rw [Repository.dataPath, made.root]
    exact joined ".git" (by decide)
  obtain ⟨notEmpty, unslashed⟩ := Path.below_unslashed base isData
  have joinedData (next : String) (relative : Path.isAbsolute ⟨next⟩ = false) :
      ready.dataPath.join next = Path.below (Path.below base ".git").text next := by
    rw [data]
    exact Path.join_filled notEmpty unslashed relative
  refine ⟨_, joinedData, ?_⟩
  obtain ⟨place, found⟩ := made.headed
  rw [headPath, joinedData "HEAD" (by decide)] at found
  obtain ⟨here, standing⟩ := exists_standing found
  obtain ⟨middle, furnished, same⟩ := made.between
  have led : middle.follow [] (Path.pieces ⟨base⟩) = .ok root := by
    refine furnished.covers.follow
      (led_of_found fresh.found (form.imp (congrArg Path.mk) fun slashed => ?_))
    rw [Path.below, String.append_empty, ← slashed]
  obtain rfl : here = ".git" :: root := by
    have whole : Path.pieces ⟨(Path.below base ".git").text⟩ = Path.pieces ⟨base⟩ ++ [".git"] := by
      rw [← isData.pieces]
      exact Path.pieces_below base ".git"
    have further := same.symm.follow standing.led standing.stands
    rw [whole, follow_append, led] at further
    exact (of_follow (by decide) further).1
  exact standing

/-- The data directory of a repository that was made is tidy. -/
theorem tidy (fresh : Fresh repository root)
    (initialized : repository.initialized draw = (.ok line, ready)) :
    ∃ stem, Tidy ready.dataPath stem (".git" :: root) ready.files := by
  have made := made_of_initialized initialized
  obtain ⟨stem, joined, standing⟩ := fresh.standing made
  have written {inner : List String} {bytes : Bytes}
      (stands : ready.files.entry? (inner ++ ".git" :: root) = some (.file bytes)) :
      (∃ name, inner ++ ".git" :: root = name :: ".git" :: root) ∧
        bytes = Utf8.encode firstLine := by
    rcases made.onlyHead _ bytes stands with stood | ⟨touched, same⟩
    · rw [fresh.nothing] at stood
      cases stood
    · rw [headPath, joined "HEAD" (by decide)] at touched
      exact ⟨Tidy.touched_head standing touched, same⟩
  refine ⟨stem, joined, standing, made.closed fresh.closed, fun inner bytes stands => ?_,
    fun bytes stands => ⟨firstLine, .attached .initial, ?_⟩⟩
  · have whole : inner ++ branchesPlace (".git" :: root) =
        (inner ++ ["heads", "refs"]) ++ ".git" :: root := by simp [branchesPlace]
    rw [whole] at stands
    obtain ⟨name, place⟩ := (written stands).1
    exact absurd (place.symm.trans whole.symm) (ne_branch name _ inner)
  · have whole : "HEAD" :: ".git" :: root = ["HEAD"] ++ ".git" :: root := rfl
    exact (written (whole ▸ stands)).2

end Fresh

end Ancestry.RefFiles
