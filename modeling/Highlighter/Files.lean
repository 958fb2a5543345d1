/-!
A folder of files held in memory, and what can go wrong when one of them is read.
-/

namespace Highlighter

/-- Why a file could not be read. -/
inductive ReadFault
  | notFound
  | isDirectory
  | notDirectory
  | notText
  | other (reason : String)
  deriving DecidableEq, Repr, Inhabited

def ReadFault.message : ReadFault → String
  | notFound => "No such file or directory (os error 2)"
  | isDirectory => "Is a directory (os error 21)"
  | notDirectory => "Not a directory (os error 20)"
  | notText => "stream did not contain valid UTF-8"
  | other reason => reason

/-- The text that some bytes encode. -/
def decodeText (bytes : ByteArray) : Except ReadFault String :=
  match String.fromUTF8? bytes with
  | some s => .ok s
  | none => .error .notText

/-- Files with their paths from the folder, divided into names. -/
structure Folder where
  files : List (List String × ByteArray) := []
  deriving Inhabited

namespace Folder

/-- The names in a path. A path that ends in a slash ends in an empty name. -/
def names (path : String) : List String :=
  let step (c : Char) (acc : List Char × List String) : List Char × List String :=
    if c == '/' then ([], String.ofList acc.1 :: acc.2) else (c :: acc.1, acc.2)
  let (first, rest) := path.toList.foldr step ([], [])
  String.ofList first :: rest

/-- Puts a file into the folder, in place of one that was there. -/
def write (folder : Folder) (path : String) (bytes : ByteArray) : Folder :=
  let key := (names path).filter fun n => n != "" && n != "."
  ⟨(key, bytes) :: folder.files.filter (·.1 != key)⟩

/-- Whether some names lead to a directory. -/
def isDirectory (folder : Folder) (key : List String) : Bool :=
  key.isEmpty || folder.files.any fun f => key.isPrefixOf f.1 && f.1 != key

/-- The file or directory that names lead to from a directory. -/
def resolve (folder : Folder) (here : List String) :
    List String → Except ReadFault (List String)
  | [] => .ok here
  | name :: rest =>
    if (folder.files.lookup here).isSome then .error .notDirectory
    else if !folder.isDirectory here then .error .notFound
    else if name == "" || name == "." then folder.resolve here rest
    else if name == ".." then folder.resolve here.dropLast rest
    else folder.resolve (here ++ [name]) rest

/-- Reads a file. -/
def read (folder : Folder) (path : String) : Except ReadFault ByteArray :=
  if path.isEmpty || path.startsWith "/" then .error .notFound
  else match folder.resolve [] (names path) with
    | .error fault => .error fault
    | .ok key =>
      match folder.files.lookup key with
      | some bytes => .ok bytes
      | none => .error (if folder.isDirectory key then .isDirectory else .notFound)

end Folder

end Highlighter
