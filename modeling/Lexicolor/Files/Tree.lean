/-
Files as data. Reading a path gives bytes or says why there are none; a program that reads
files takes the function that answers, so it can run on a tree held in memory as well as on
a disk.
-/
import Lexicolor.Files.Path

namespace Lexicolor.Files

/-- What a path leads to. -/
inductive Entry where
  | file (bytes : ByteArray)
  | directory
  | missing
  /-- Something on the way is a file. -/
  | notDirectory
deriving Inhabited

/-- Why a text could not be read. -/
inductive ReadError where
  | missing
  | directory
  | notDirectory
  | notText
deriving Repr, DecidableEq, Inhabited

def ReadError.message : ReadError → String
  | missing => "No such file or directory (os error 2)"
  | directory => "Is a directory (os error 21)"
  | notDirectory => "Not a directory (os error 20)"
  | notText => "stream did not contain valid UTF-8"

namespace Entry

def text : Entry → Except ReadError String
  | file bytes => match String.fromUTF8? bytes with
    | some s => .ok s
    | none => .error .notText
  | directory => .error .directory
  | missing => .error .missing
  | notDirectory => .error .notDirectory

def isFile : Entry → Bool
  | file _ => true
  | _ => false

end Entry

/-- Files by their paths, which are relative and have neither points nor empty components; the
directories are those that the paths pass through. -/
abbrev Tree := List (List (List Char) × ByteArray)

namespace Tree

def ofFiles (files : List (String × ByteArray)) : Tree := files.map fun (p, b) => (components p, b)

def bytesAt? (t : Tree) (place : List (List Char)) : Option ByteArray := t.lookup place

def isDirectory (t : Tree) (place : List (List Char)) : Bool :=
  place.isEmpty || t.any fun (p, _) => place.isPrefixOf p && place != p

/-- Follows components from a directory, whose own components come first and reversed. -/
def walk (t : Tree) : List (List Char) → List (List Char) → Entry
  | here, [] => if t.isDirectory here.reverse then .directory else .missing
  | here, c :: rest =>
    if c.isEmpty || c == ['.'] then walk t here rest
    else if c == ['.', '.'] then walk t here.tail rest
    else
      let place := (c :: here).reverse
      match t.bytesAt? place with
      | some bytes => if rest.isEmpty then .file bytes else .notDirectory
      | none => if t.isDirectory place then walk t (c :: here) rest else .missing

/-- What a path leads to from the directory that holds the tree. -/
def entry (t : Tree) (path : String) : Entry :=
  if path.isEmpty || isAbsolute path then .missing else walk t [] (splitAt isSlash path.toList)

end Tree

end Lexicolor.Files
