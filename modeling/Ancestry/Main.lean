import Ancestry.CommandLine.Run

/-!
# The program

The library works on files as values. The program reads the names of the files below the
working directory from standard input, a name a line, and with them the files. It runs
the command of its arguments on these, writes the files and directories that the command
made or changed, and ends with the command's code.
-/

namespace Ancestry.Main

/-- The lines of an input up to its end, without their line feeds. -/
partial def inputLines (input : IO.FS.Stream) : IO (List String) := do
  let line ← input.getLine
  if line.isEmpty then return []
  return String.ofList (line.toList.filter (· != '\n')) :: (← inputLines input)

/-- Files of some names in a directory, with the directory itself. -/
def load (working : Path) (names : List String) : IO FileSystem := do
  let mut files := ({} : FileSystem).createDirectories working |>.2
  for name in names do
    let path := working.join name
    let bytes ← IO.FS.readBinFile path.text
    files := (files.writeFile path bytes.toList).2
  return files

/-- Writes what differs from earlier files, and removes the files that are no longer there. -/
def save (earlier later : FileSystem) : IO Unit := do
  for (place, _) in earlier.entries.toList do
    if later.entry? place == none then IO.FS.removeFile (FileSystem.pathOf place).text
  for (place, entry) in later.entries.toList do
    if earlier.entry? place != some entry then
      let path := (FileSystem.pathOf place).text
      match entry with
      | .directory => IO.FS.createDirAll path
      | .file bytes =>
        if let some parent := (FileSystem.pathOf place).parent? then
          IO.FS.createDirAll parent.text
        IO.FS.writeBinFile path ⟨bytes.toArray⟩

/-- Runs a command on the files below the working directory. -/
def run (arguments : List String) : IO UInt32 := do
  let working : Path := ⟨toString (← IO.FS.realPath ".")⟩
  let files ← load working (← inputLines (← IO.getStdin))
  let draw := UInt32.ofNat (← IO.rand 0 (UInt32.size - 1))
  match CommandLine.run working files arguments draw with
  | (ending, changed) =>
    save files changed
    IO.print ending.printed
    unless ending.reported.isEmpty do IO.eprintln ending.reported
    return UInt32.ofNat ending.code

end Ancestry.Main

/-- Runs the command of the arguments. -/
def main (arguments : List String) : IO UInt32 := Ancestry.Main.run arguments
