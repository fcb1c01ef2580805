import Phrasebook.Text.Words

/-!
# A folder of files

The program reads its files from the folder that it runs in. A path is followed name by name: an empty
name or a dot stays where it is, two dots go up, and any other name goes down, if there is something of
that name. What lies outside the folder is not known, but for the empty file `/dev/null`.
-/

namespace Phrasebook.CommandLine

/-- Why a file cannot be read. -/
inductive FileProblem where
  | notFound
  /-- a path goes on behind a file -/
  | notFolder
  | isFolder
  | nameTooLong
  /-- the bytes of the file are no text -/
  | notText
  | other (problem : String)
deriving DecidableEq, Repr, Inhabited

/-- The wording of a problem. -/
def FileProblem.message : FileProblem → String
  | notFound => "No such file or directory (os error 2)"
  | notFolder => "Not a directory (os error 20)"
  | isFolder => "Is a directory (os error 21)"
  | nameTooLong => "File name too long (os error 36)"
  | notText => "stream did not contain valid UTF-8"
  | other problem => problem

/-- A folder by the files in it and below it, each with the names on the way to it and its text. -/
structure Folder where
  files : List (List (List Char) × String)
deriving DecidableEq, Repr, Inhabited

/-- What a path leads to. -/
inductive Destination where
  | file (text : String)
  /-- the folder itself, or a folder below it by the names on the way -/
  | folder (names : List (List Char))
  /-- a folder that is not known -/
  | outside
deriving DecidableEq, Repr, Inhabited

namespace Folder

/-- The names in a path. -/
def names (path : String) : List (List Char) :=
  Text.splitOn (· == '/') path.toList

/-- The folder with these files, by their paths. -/
def ofFiles (files : List (String × String)) : Folder :=
  ⟨files.map fun (path, text) => ((names path).filter fun n => !(n.isEmpty || n == ['.']), text)⟩

/-- The length from which a path is too long. -/
def tooLongPath : Nat := 4096

/-- The length of the longest name. -/
def longestName : Nat := 255

/-- What a name leads to from a folder that is known. -/
def down (f : Folder) (path : List (List Char)) : Except FileProblem Destination :=
  match f.files.find? (·.1 == path) with
  | some (_, text) => .ok (.file text)
  | none => if f.files.any (path.isPrefixOf ·.1) then .ok (.folder path) else .error .notFound

/-- What a name leads to. -/
def step (f : Folder) (here : Destination) (name : List Char) : Except FileProblem Destination :=
  match here with
  | .file _ => .error .notFolder
  | .folder path =>
    if name.isEmpty || name == ['.'] then .ok here
    else if name == ['.', '.'] then .ok (if path.isEmpty then .outside else .folder path.dropLast)
    else if longestName < (String.ofList name).utf8ByteSize then .error .nameTooLong
    else f.down (path ++ [name])
  | .outside =>
    if name.isEmpty || name == ['.'] || name == ['.', '.'] then .ok here
    else if longestName < (String.ofList name).utf8ByteSize then .error .nameTooLong
    else .error .notFound

/-- What a path leads to. -/
def follow (f : Folder) (path : String) : Except FileProblem Destination :=
  (names path).foldlM f.step (if path.startsWith "/" then .outside else .folder [])

/-- The text of the file that a path leads to. -/
def read (f : Folder) (path : String) : Except FileProblem String :=
  if path.isEmpty then .error .notFound
  else if tooLongPath ≤ path.utf8ByteSize then .error .nameTooLong
  else if path == "/dev/null" then .ok ""
  else
    match f.follow path with
    | .error problem => .error problem
    | .ok (.file text) => .ok text
    | .ok _ => .error .isFolder

end Folder

end Phrasebook.CommandLine
