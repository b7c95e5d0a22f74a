import Ancestry.Reference.Files
import Ancestry.Store.Loose

/-!
# Repositories

A repository is a directory among files. What belongs to it is kept in the directory
`.git` below: objects, references, and the reference that is checked out.
-/

namespace Ancestry

/-- A directory among files. -/
structure Repository where
  root : Path
  files : FileSystem

namespace Repository

instance : Inhabited Repository := ⟨⟨⟨"/"⟩, {}⟩⟩

/-- Opens a directory, and makes it if it is absent. What was made stays when the
directory cannot be opened. -/
def openAt (files : FileSystem) (path : Path) : Except FileFault Repository × FileSystem :=
  match if files.has path then (.ok (), files) else files.createDirectories path with
  | (.error fault, files) => (.error fault, files)
  | (.ok (), files) =>
    match files.canonical path with
    | .error fault => (.error fault, files)
    | .ok root => (.ok ⟨root, files⟩, files)

/-- The directory of the repository's data. -/
def dataPath (repository : Repository) : Path := repository.root.join ".git"

/-- The directory of objects. -/
def objectsPath (repository : Repository) : Path := repository.dataPath.join "objects"

/-- The data directory exists. -/
def isInitialized (repository : Repository) : Bool :=
  repository.files.hasDirectory repository.dataPath

/-- The objects as a source. -/
def source (repository : Repository) : Source :=
  LooseStore.source repository.objectsPath repository.files

/-- The repository with other files. -/
def withFiles (repository : Repository) (files : FileSystem) : Repository :=
  { repository with files }

/-- Makes the directories of an empty repository. -/
def makeDirectories (repository : Repository) : Except Failure Unit × Repository :=
  match repository.files.createDirectories repository.objectsPath with
  | (.error fault, files) =>
    (.error (.ofFile "Failed to create .git/objects directory" fault),
      repository.withFiles files)
  | (.ok (), files) =>
    match files.createDirectories (RefFiles.branchesPath repository.dataPath) with
    | (.error fault, files) =>
      (.error (.ofFile "Failed to create .git/refs/heads directory" fault),
        repository.withFiles files)
    | (.ok (), files) => (.ok (), repository.withFiles files)

/-- Checks the initial branch out, unless something is checked out. A number is drawn for the spare
file. -/
def makeHead (repository : Repository) (draw : UInt32 := 0) : Except Failure Unit × Repository :=
  if repository.files.has (RefFiles.headPath repository.dataPath) then (.ok (), repository)
  else
    match RefFiles.attachHead repository.dataPath repository.files .initial draw with
    | (.error failure, files) =>
      (.error (failure.within "Failed to create initial HEAD reference"),
        repository.withFiles files)
    | (.ok (), files) => (.ok (), repository.withFiles files)

/-- Makes what a repository needs and does not have. The answer is the line that says
so. -/
def initialized (repository : Repository) (draw : UInt32 := 0) :
    Except Failure String × Repository :=
  match repository.makeDirectories with
  | (.error failure, repository) => (.error failure, repository)
  | (.ok (), repository) =>
    match repository.makeHead draw with
    | (.error failure, repository) => (.error failure, repository)
    | (.ok (), repository) =>
      (.ok ("Initialized empty Git repository in " ++ repository.root.text ++ "\n"), repository)

end Repository

end Ancestry
