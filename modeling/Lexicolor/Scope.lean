/-
Scopes: the classes a token is tagged with. Keywords, built-ins and literals come from word
lists, identifier and plain are what is left, and the others come from rules.
-/

namespace Lexicolor

inductive Scope where
  | comment
  | number
  | string
  | function
  | classDef
  | title
  | keyword
  | builtIn
  | literal
  | identifier
  | plain
deriving Repr, DecidableEq, Inhabited

namespace Scope

def all : List Scope :=
  [comment, number, string, function, classDef, title, keyword, builtIn, literal, identifier, plain]

/-- The name that themes know the scope by. -/
def name : Scope → String
  | comment => "comment"
  | number => "number"
  | string => "string"
  | function => "function"
  | classDef => "class"
  | title => "title"
  | keyword => "keyword"
  | builtIn => "built_in"
  | literal => "literal"
  | identifier => "identifier"
  | plain => "plain"

def ofName? (name : String) : Option Scope := all.find? (·.name == name)

theorem ofName?_name (s : Scope) : ofName? s.name = some s := by cases s <;> decide

end Scope

/-- The classes of listed words, in the order in which they take precedence. -/
inductive WordClass where
  | keyword
  | builtIn
  | literal
deriving Repr, DecidableEq, Inhabited

namespace WordClass

def all : List WordClass := [keyword, builtIn, literal]

def scope : WordClass → Scope
  | keyword => .keyword
  | builtIn => .builtIn
  | literal => .literal

def name (c : WordClass) : String := c.scope.name

def ofName? (name : String) : Option WordClass := all.find? (·.name == name)

end WordClass

/-- Whether tokens of the scope come from word lists. -/
def Scope.isWordClass (s : Scope) : Bool := WordClass.all.any (·.scope == s)

end Lexicolor
