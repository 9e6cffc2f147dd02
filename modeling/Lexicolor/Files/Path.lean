/-
Paths as texts: components between slashes. Empty components and single points change nothing;
two points go up. Nothing here looks at files.
-/

namespace Lexicolor.Files

/-- The pieces of a list between separators. -/
def splitAt (p : Char → Bool) : List Char → List (List Char)
  | [] => [[]]
  | c :: cs =>
    match splitAt p cs with
    | [] => [[c]]
    | piece :: rest => if p c then [] :: piece :: rest else (c :: piece) :: rest

def isSlash (c : Char) : Bool := c == '/'

def isAbsolute (path : String) : Bool := path.toList.head?.any isSlash

/-- The components that name something or go up. -/
def components (path : String) : List (List Char) :=
  (splitAt isSlash path.toList).filter fun c => !c.isEmpty && c != ['.']

/-- The last component, unless it goes up. -/
def fileName? (path : String) : Option (List Char) :=
  (components path).getLast?.filter (· != ['.', '.'])

/-- What follows the last point of the file name; none when the only point comes first. -/
def extension? (path : String) : Option String :=
  match fileName? path with
  | none => none
  | some name =>
    let after := (name.reverse.takeWhile (· != '.')).reverse
    if name.length ≤ after.length + 1 then none else some (String.ofList after)

/-- The path without the slashes and single points at its end. -/
def dropTrailing : Nat → List Char → List Char
  | 0, cs => cs
  | n + 1, cs =>
    match cs.reverse with
    | '/' :: _ :: _ => dropTrailing n cs.dropLast
    | '.' :: '/' :: rest => if rest.isEmpty then ['/'] else dropTrailing n cs.dropLast.dropLast
    | _ => cs

/-- The path without its last component; none for the empty path and the root. -/
def parent? (path : String) : Option String :=
  let cs := path.toList
  let trimmed := dropTrailing cs.length cs
  if trimmed.isEmpty || trimmed == ['/'] then none
  else
    let kept := (trimmed.reverse.dropWhile (!isSlash ·)).reverse
    some (String.ofList (dropTrailing kept.length kept))

/-- The path with an extension after its file name; none where no file is named. -/
def withExtension? (path extension : String) : Option String :=
  (fileName? path).map fun _ =>
    let cs := path.toList
    String.ofList (dropTrailing cs.length cs) ++ "." ++ extension

/-- The path without empty components and single points. -/
def tidy (path : String) : String :=
  (if isAbsolute path then "/" else "") ++ "/".intercalate ((components path).map String.ofList)

/-- A path taken from a directory; an absolute path stays as it is. -/
def join (base path : String) : String :=
  if isAbsolute path || base.isEmpty then path
  else if base.toList.getLast?.any isSlash then base ++ path
  else base ++ "/" ++ path

end Lexicolor.Files
