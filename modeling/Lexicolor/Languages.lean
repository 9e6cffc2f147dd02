/-
The known languages. A grammar is registered under a name; its aliases and extensions lead to
that name. Names, aliases and extensions are folded to lower case when they are stored and when
they are looked up. Registering a name again forgets what its earlier grammar brought, and an
alias or extension leads to the language that claimed it last.
-/
import Lexicolor.SortedTable
import Lexicolor.Piyathon
import Lexicolor.Files.Path

namespace Lexicolor

structure Languages where
  grammars : SortedTable Grammar
  /-- The names that aliases lead to. -/
  aliases : SortedTable String
  /-- The names that extensions lead to. -/
  extensions : SortedTable String
deriving Inhabited

namespace Languages

def empty : Languages := ⟨[], [], []⟩

/-- An extension without the points before it, in lower case. -/
def extensionKey (extension : String) : String :=
  Text.lowercase (String.ofList (extension.toList.dropWhile (· == '.')))

def register (r : Languages) (name : String) (g : Grammar) : Languages :=
  let key := Text.lowercase name
  let others := fun (t : SortedTable String) => t.filter fun (_, target) => target != key
  let claim := fun (t : SortedTable String) (k : String) => t.put k key
  { grammars := r.grammars.put key g
    aliases := ((g.aliases.map Text.lowercase).filter (· != key)).foldl claim (others r.aliases)
    extensions := (g.extensions.map extensionKey).foldl claim (others r.extensions) }

def registerPiyathon (r : Languages) : Languages := r.register Piyathon.name Piyathon.grammar

/-- The built-in languages. -/
def builtin : Languages := empty.registerPiyathon

/-- The grammar of a name or alias; names come before aliases. -/
def get? (r : Languages) (name : String) : Option Grammar :=
  let key := Text.lowercase name
  (r.grammars.get? key).or ((r.aliases.get? key).bind r.grammars.get?)

def has (r : Languages) (name : String) : Bool := (r.get? name).isSome

def findByExtension (r : Languages) (extension : String) : Option Grammar :=
  (r.extensions.get? (extensionKey extension)).bind r.grammars.get?

def findByPath (r : Languages) (path : String) : Option Grammar :=
  (Files.extension? path).bind r.findByExtension

/-- The first language, by name, that has the type in whatever case of Latin letters. -/
def findByMimeType (r : Languages) (type : String) : Option Grammar :=
  let same := fun (t : String) => Text.lowercaseAscii t == Text.lowercaseAscii type
  (r.grammars.find? fun (_, g) => g.mimeTypes.any same).map (·.2)

/-- The names in order. -/
def names (r : Languages) : List String := r.grammars.keys

def size (r : Languages) : Nat := r.grammars.length

end Languages

end Lexicolor
