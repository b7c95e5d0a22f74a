import Ancestry.CommandLine.Request
import Ancestry.Log.Basic

/-!
# Running a command

A command works on files and ends with a code, what it printed, and what it reported.
Arguments that are refused end with code 2, failures with code 1.
-/

namespace Ancestry.CommandLine

/-- How a command ended. -/
structure Ending where
  code : Nat := 0
  printed : String := ""
  reported : String := ""
  deriving DecidableEq, Repr, Inhabited

/-- The end of a command that may have failed. -/
def Ending.of (printed : String) : Option Failure → Ending
  | none => { printed }
  | some failure => { code := 1, printed, reported := failure.report }

/-- The program and its version. -/
def versionText : String := "revwalk 0.1.0\n"

/-- The path of a directory that was named in the working directory. The empty name
stays empty, and names nothing. -/
def pathIn (working : Path) : Option String → Path
  | none => working
  | some "" => ⟨""⟩
  | some text => working.join text

/-- Makes a repository. A number is drawn for the spare file. -/
def runInit (repository : Repository) (draw : UInt32 := 0) : Ending × Repository :=
  match repository.initialized draw with
  | (.ok printed, repository) => (.of printed none, repository)
  | (.error failure, repository) => (.of "" (some failure), repository)

/-- Prints the log of a directory that holds a repository. -/
def runLog (repository : Repository) (options : LogOptions) : Ending :=
  if repository.isInitialized then
    match Log.run repository options false {} with
    | (report, _) => .of report.output report.failure
  else .of "" (some (.ofText ("not a git repository: " ++ repository.root.text)))

/-- Runs a command on an open repository. -/
def runCommand (repository : Repository) (command : Command) (draw : UInt32 := 0) :
    Ending × Repository :=
  match command with
  | .init _ => runInit repository draw
  | .log options => (runLog repository options, repository)

/-- The directory in which a request works. -/
def Request.place (request : Request) : Option String :=
  match request.command with
  | .init path => path <|> request.directory
  | .log _ => request.directory

/-- Does what is requested. -/
def runRequest (working : Path) (files : FileSystem) (request : Request) (draw : UInt32 := 0) :
    Ending × FileSystem :=
  match Repository.openAt files (pathIn working request.place) with
  | (.error fault, files) => (.of "" (some (.fault (.file fault))), files)
  | (.ok repository, _) =>
    match runCommand repository request.command draw with
    | (ending, repository) => (ending, repository.files)

/-- Runs the program. A number is drawn for the spare file. -/
def run (working : Path) (files : FileSystem) (arguments : List String) (draw : UInt32 := 0) :
    Ending × FileSystem :=
  match parse arguments with
  | .error .refused => ({ code := 2 }, files)
  | .error .version => ({ printed := versionText }, files)
  | .ok request => runRequest working files request draw

end Ancestry.CommandLine
