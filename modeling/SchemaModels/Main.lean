import SchemaModels.Command.Run

/-! # The program

Loads the files that the arguments name, runs the command on them, and stores what it wrote. -/

namespace SchemaModels.Command

def usageText : String :=
  "Usage: " ++ commandName ++
    " [--config FILE] [--strict] [--add-generation-comment] [--verbose] [SCHEMA] [OUTPUT]\n"

/-- Adds what stands at a location to a workspace. -/
def load (w : Workspace) (l : Location) : IO Workspace := do
  let target := (← IO.currentDir) / fullPath l
  if ← target.isDir then return { w with directories := l :: w.directories }
  else if ← target.pathExists then
    return { w with files := w.files.insert l (← IO.FS.readBinFile target) }
  else return w

/-- Writes a file of a workspace. -/
def store (w : Workspace) (l : Location) : IO Unit := do
  if let some bytes := w.files.get? l then
    IO.FS.writeBinFile ((← IO.currentDir) / fullPath l) bytes

/-- Runs the command on the file system. -/
def runProgram (args : List String) : IO UInt32 := do
  let directory := components (← IO.currentDir).toString
  let given := (Arguments.ofList? args).getD {}
  let named := (given.config.toList ++ given.paths).filter fun p => !p.toList.contains '\x00'
  let named := named.map (resolve directory)
  let w ← (named ++ named.map List.dropLast).foldlM load { directory }
  let outcome := run w args
  match outcome.ending, given.help with
  | .done, true => IO.print usageText
  | .done, false | .crashed (.file .unencodable), _ =>
    if let some output := given.paths[1]? then store outcome.workspace (resolve directory output)
  | .usage, _ => IO.eprint usageText
  | _, _ => pure ()
  IO.eprint (outcome.messages?.getD "")
  return outcome.exitCode.toUInt32

end SchemaModels.Command

def main (args : List String) : IO UInt32 := SchemaModels.Command.runProgram args
