/-! # Paths

A location is the list of names from the root of the file system down to it. -/

namespace SchemaModels.Command

abbrev Location := List String

/-- The names in a path, in order. Empty ones and single dots name nothing. -/
def components (path : String) : List String :=
  ((path.toList.splitOn '/').map String.ofList).filter fun s => !s.isEmpty && s != "."

/-- The last name in a path, empty if there is none. -/
def fileName (path : String) : String := (components path).getLast?.getD ""

/-- Goes from a location along a name, or up for two dots. -/
def step (l : Location) (name : String) : Location := if name == ".." then l.dropLast else l ++ [name]

/-- The location that a path names, seen from a directory. -/
def resolve (directory : Location) (path : String) : Location :=
  (components path).foldl step (if path.toList.head? == some '/' then [] else directory)

/-- The path of a location from the root. -/
def fullPath (l : Location) : String := "/" ++ "/".intercalate l

/-- The path of a location as it is shown: from the directory, if it lies in there. -/
def shownPath (directory l : Location) : String :=
  if directory.isPrefixOf l && directory != l then "/".intercalate (l.drop directory.length)
  else fullPath l

end SchemaModels.Command
