/-!
A folder of files and the reading of one file by its path. A path is followed component by
component, so the first component that leads nowhere decides why a file cannot be read.
-/
namespace ClaimPolicy

inductive ReadFault where
  | notFound
  | denied
  | notDirectory
  | isDirectory
  | nameTooLong
  | zeroInPath
  | notText
  deriving DecidableEq, Repr

def ReadFault.message : ReadFault → String
  | .notFound => "No such file or directory (os error 2)"
  | .denied => "Permission denied (os error 13)"
  | .notDirectory => "Not a directory (os error 20)"
  | .isDirectory => "Is a directory (os error 21)"
  | .nameTooLong => "File name too long (os error 36)"
  | .zeroInPath => "file name contained an unexpected NUL byte"
  | .notText => "stream did not contain valid UTF-8"

namespace Path

def parent : List Char := ['.', '.']

/-- The components of a path; empty ones and single dots add nothing. -/
def components (path : String) : List (List Char) :=
  (path.toList.splitOn '/').filter fun part => !part.isEmpty && part != ['.']

/-- A path that ends in a separator or in a single dot asks for a folder. -/
def asksFolder (path : String) : Bool :=
  match path.toList.reverse with
  | '/' :: _ | '.' :: '/' :: _ => true
  | _ => false

/-- The last component, unless it leads to the folder above. -/
def fileName? (path : String) : Option (List Char) :=
  (components path).getLast?.filter fun name => name != parent

/-- What follows the last dot of the file name. A dot at its start does not count. -/
def extension? (path : String) : Option (List Char) := do
  let reversed := (← fileName? path).reverse
  let extension := reversed.takeWhile (· != '.')
  match reversed.drop extension.length with
  | '.' :: _ :: _ => some extension.reverse
  | _ => none

/-- The longest path, in bytes of UTF-8. -/
def maxBytes : Nat := 4095

def maxComponentBytes : Nat := 255

end Path

/-- Files under the components of their paths. -/
abbrev Files := List (List (List Char) × String)

def Files.below (files : Files) (part : List Char) : Files :=
  files.filterMap fun file =>
    match file.1 with
    | first :: rest => if first == part then some (rest, file.2) else none
    | [] => none

/-- A folder that holds files, each under a relative path, and nothing else. -/
structure Folder where
  files : List (String × String) := []

namespace Folder

/-- Follows components from a folder. The folders passed on the way are kept, the nearest first,
since two dots lead back to them. -/
def follow (passed : List Files) (here : Files) : List (List Char) → Except ReadFault String
  | [] => .error .isDirectory
  | part :: rest =>
      if part == Path.parent then
        match passed with
        | above :: passed => follow passed above rest
        | [] => .error .notFound
      else if Path.maxComponentBytes < (String.ofList part).utf8ByteSize then .error .nameTooLong
      else
        match here.lookup [part] with
        | some text => if rest.isEmpty then .ok text else .error .notDirectory
        | none =>
            let inner := here.below part
            if inner.isEmpty then .error .notFound else follow (here :: passed) inner rest

def read (folder : Folder) (path : String) : Except ReadFault String :=
  if path.toList.contains '\x00' then .error .zeroInPath
  else if Path.maxBytes < path.utf8ByteSize then .error .nameTooLong
  else if path.toList.head? == some '/' then .error .notFound
  else
    let here := folder.files.map fun file => (Path.components file.1, file.2)
    match follow [] here (Path.components path) with
    | .ok text => if Path.asksFolder path then .error .notDirectory else .ok text
    | .error fault => .error fault

end Folder

end ClaimPolicy
