import SchemaModels.Command.Path
import SchemaModels.Table
import SchemaModels.Text.Lines

/-! # Workspaces

The files that the command works on, as a value. -/

namespace SchemaModels.Command

/-- Why a file cannot be read or written. -/
inductive FileFault
  | isDirectory
  | missing
  | notADirectory
  | nameTooLong
  | undecodable
  | unencodable
  deriving DecidableEq, Repr

/-- The working directory, the files, and directories beyond those that hold them. -/
structure Workspace where
  directory : Location
  files : Table Location ByteArray := ∅
  directories : List Location := []

namespace Workspace

def isFile (w : Workspace) (l : Location) : Bool := w.files.contains l

/-- A directory is one that holds the working directory, a directory given as such, or a file. -/
def isDirectory (w : Workspace) (l : Location) : Bool :=
  l.isPrefixOf w.directory || w.directories.any l.isPrefixOf ||
    w.files.keys.any fun f => l.isPrefixOf f && l != f

def exists? (w : Workspace) (l : Location) : Bool := w.isFile l || w.isDirectory l

/-- Whether a file stands where the location needs a directory. -/
def isBlocked (w : Workspace) (l : Location) : Bool :=
  w.files.keys.any fun f => f.isPrefixOf l && f != l

def read (w : Workspace) (l : Location) : Except FileFault ByteArray :=
  match w.files.get? l with
  | some bytes => .ok bytes
  | none =>
    if w.isDirectory l then .error .isDirectory
    else if w.isBlocked l then .error .notADirectory
    else .error .missing

/-- Reads a text with line feeds as its line endings. -/
def readText (w : Workspace) (l : Location) : Except FileFault String := do
  match String.fromUTF8? (← w.read l) with
  | some s => return String.ofList (Text.normalizeNewlines s.toList)
  | none => .error .undecodable

/-- The number of bytes that a name may have. -/
def nameLimit : Nat := 255

/-- The number of bytes below which the path of a location has to stay. -/
def pathLimit : Nat := 4096

/-- What stands in the way of a file below a directory, looking at one name after the other. -/
def obstacle? (w : Workspace) (directory : Location) : List String → Option FileFault
  | [] => some .isDirectory
  | name :: rest =>
    let next := directory ++ [name]
    if nameLimit < name.utf8ByteSize then some .nameTooLong
    else if w.isDirectory next then w.obstacle? next rest
    else if rest.isEmpty then none
    else if w.isFile next then some .notADirectory
    else some .missing

/-- Writes a text as the whole content of a file. Its directory has to exist. -/
def writeText (w : Workspace) (l : Location) (text : String) : Except FileFault Workspace :=
  if pathLimit ≤ (fullPath l).utf8ByteSize then .error .nameTooLong
  else
    match w.obstacle? [] l with
    | some fault => .error fault
    | none => .ok { w with files := w.files.insert l text.toUTF8 }

end Workspace

end SchemaModels.Command
