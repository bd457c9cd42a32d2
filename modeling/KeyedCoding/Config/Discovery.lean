import KeyedCoding.Config.Context
import KeyedCoding.Text.Utf8

/-! Finding settings: the nearest settings file from a directory upward, up to the root of the workspace. -/

namespace KeyedCoding

/--
A tree of files below a root; a path lists the names of directories and file, outermost first. A file
without content is there, but cannot be read.
-/
structure FileTree where
  files : List (List String × Option (List UInt8))

namespace FileTree

/-- The names on a written path. -/
def names (path : String) : List String :=
  (path.splitOn "/").filter fun name => name ≠ "" && name ≠ "."

/-- Whether there is a file at a path. -/
def isFile (tree : FileTree) (path : List String) : Bool := (tree.files.lookup path).isSome

/-- The content of a file, if it can be read. -/
def content? (tree : FileTree) (path : List String) : Option (List UInt8) :=
  (tree.files.lookup path).join

/-- The text of a file, if it can be read and is one. -/
def text? (tree : FileTree) (path : List String) : Option String :=
  (tree.content? path).bind Text.Utf8.decode?

end FileTree

namespace Config

/-- The names that a settings file may have; an earlier one wins. -/
def fileNames : List String := ["codable-synth.toml", ".codable-synth.toml"]

/-- The settings file of a directory. -/
def fileIn? (tree : FileTree) (directory : List String) : Option (List String) :=
  (fileNames.map fun name => directory ++ [name]).find? tree.isFile

/-- Whether a directory is the root of a workspace: its manifest says so. -/
def isWorkspaceRoot (tree : FileTree) (directory : List String) : Bool :=
  match (tree.text? (directory ++ ["Cargo.toml"])).bind Toml.ofText? with
  | some entries => (entries.get? "workspace").isSome
  | none => false

/-- The nearest settings file; the directory to start from is given innermost name first. -/
def nearestFrom (tree : FileTree) : List String → Option (List String)
  | [] => fileIn? tree []
  | name :: parents =>
    let directory := (name :: parents).reverse
    match fileIn? tree directory with
    | some path => some path
    | none => if isWorkspaceRoot tree directory then none else nearestFrom tree parents

/-- The nearest settings file from a directory upward. -/
def nearest? (tree : FileTree) (start : List String) : Option (List String) :=
  nearestFrom tree start.reverse

/-- The settings in a file. -/
def ofFile (tree : FileTree) (path : List String) : Synthesis Config :=
  match tree.text? path with
  | some text => ofText text
  | none => .error (.config .unreadable)

/-- The settings that hold for a directory; without a directory, or without a file, the defaults. -/
def discover (tree : FileTree) (start : Option (List String)) : Synthesis Config :=
  match start.bind (nearest? tree) with
  | some path => ofFile tree path
  | none => .ok {}

end Config

namespace Context

/-- The context that holds for a directory. -/
def discover (tree : FileTree) (start : Option (List String)) : Synthesis Context := do
  ofConfig (← Config.discover tree start)

end Context

end KeyedCoding
