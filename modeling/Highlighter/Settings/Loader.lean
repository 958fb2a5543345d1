import Highlighter.Data.Toml.Reader
import Highlighter.Files
import Highlighter.Settings.Basic
import Highlighter.Settings.Path

/-!
Settings in layers. The defaults come first, then files in the order they were added, then
single settings, which go before all files. Each layer changes only what it mentions.
-/

namespace Highlighter.Settings

/-- A file with settings. One that need not exist is passed over if it cannot be read. -/
structure Layer where
  path : String
  required : Bool
  deriving DecidableEq, Repr, Inhabited

structure Loader where
  layers : List Layer := []
  overrides : List (Path × Tree) := []
  deriving Inhabited

/-- The file that is looked for when none is named. -/
def localFile : String := "hilite.toml"

/-- The path without superfluous parts. -/
def tidy (path : String) : String :=
  "/".intercalate ((Folder.names path).filter fun n => n != "" && n != ".")

/-- The files that a path may mean: itself, or the same with an ending. -/
def candidates (path : String) : List String :=
  let names := (Folder.names path).filter fun n => n != "" && n != "."
  match names.getLast? with
  | none => [path]
  | some last => if last == ".." then [path] else [path, "/".intercalate names ++ ".toml"]

/-- Reads files by their paths. -/
abbrev Reader := String → Except ReadFault ByteArray

/-- The first of some files that is there. -/
def found? (read : Reader) : List String → Option (String × Except ReadFault ByteArray)
  | [] => none
  | path :: paths =>
    match read path with
    | .ok bytes => some (path, .ok bytes)
    | .error (.other reason) => some (path, .error (.other reason))
    | .error _ => found? read paths

/-- The settings in a file. -/
def Layer.read (read : Reader) (layer : Layer) : Except Error (List (String × Tree)) :=
  match found? read (candidates layer.path) with
  | none => if layer.required then .error (.fileNotFound layer.path) else .ok []
  | some (path, bytes) =>
    match bytes >>= decodeText with
    | .error fault => if layer.required then .error (.fileUnreadable fault.message) else .ok []
    | .ok source =>
      match Toml.read? source with
      | some doc => .ok (Tree.ofDoc (some (tidy path)) doc).entries
      | none => .error (.malformedFile (tidy path))

namespace Loader

/-- Adds a file that has to exist. -/
def withFile (l : Loader) (path : String) : Loader :=
  { l with layers := l.layers ++ [⟨path, true⟩] }

/-- Adds a file that need not exist. -/
def withOptionalFile (l : Loader) (path : String) : Loader :=
  { l with layers := l.layers ++ [⟨path, false⟩] }

/-- The file that is named or, if none is, the local one if there is one. -/
def discover : Option String → Loader
  | some path => ({} : Loader).withFile path
  | none => ({} : Loader).withOptionalFile localFile

/-- Sets one setting, above all files. -/
def set (l : Loader) (key : String) (value : Tree) : Except Error Loader :=
  match Path.ofString? key with
  | none => .error .malformedPath
  | some path =>
    .ok { l with overrides := l.overrides.filter (·.1 != path) ++ [(path, value)] }

/-- Sets what a key of a file stands for. It may be written as a path. -/
def addEntry (t : Tree) (entry : String × Tree) : Except Error Tree :=
  match Path.ofString? entry.1 with
  | some path => Tree.setAt entry.2 path t
  | none => .ok (t.set entry.1 entry.2)

/-- All layers put together. -/
def merged (l : Loader) (read : Reader) : Except Error Tree := do
  let t ← l.layers.foldlM
    (fun t layer => do (← layer.read read).foldlM addEntry t) defaults.toTree
  l.overrides.foldlM (fun t (path, value) => Tree.setAt value path t) t

/-- Reads the settings. -/
def build (l : Loader) (read : Reader) : Except Error Settings := do
  ofTree (← l.merged read)

/-- The files that may be read. -/
def paths (l : Loader) : List String := l.layers.flatMap fun layer => candidates layer.path

end Loader

end Highlighter.Settings
