/-
Values of settings. Each knows where it was given, so that an error can say so; tables are kept in
the order of their keys.
-/
import Lexicolor.SortedTable
import Lexicolor.Toml.Table
import Lexicolor.Decimal.Text
import Lexicolor.Text.Quoted

namespace Lexicolor.Settings

/-- Where a value was given. -/
inductive Origin where
  /-- By the program itself or by its caller. -/
  | program
  | file (path : String)
  | environment
deriving Repr, DecidableEq, Inhabited

inductive Value where
  /-- A place in a list that nothing was put into. -/
  | nothing
  | flag (origin : Origin) (b : Bool)
  | int (origin : Origin) (n : Int)
  | float (origin : Origin) (x : Float)
  | text (origin : Origin) (s : String)
  | list (origin : Origin) (items : List Value)
  | table (origin : Origin) (entries : List (String × Value))
deriving Repr, Inhabited

namespace Value

def origin : Value → Origin
  | nothing => .program
  | flag o _ | int o _ | float o _ | text o _ | list o _ | table o _ => o

def emptyTable : Value := .table .program []

/-- The entries of a table; a value of another kind has none. -/
def entries : Value → SortedTable Value
  | table _ es => es
  | _ => []

/-- The items of a list; a value of another kind has none. -/
def items : Value → List Value
  | list _ vs => vs
  | _ => []

/-- The value itself if it is a table, else an empty one. -/
def asTable : Value → Value
  | table o es => table o es
  | _ => emptyTable

/-- The table with one more entry; a value of another kind makes room for a table. -/
def put (v : Value) (key : String) (entry : Value) : Value :=
  .table v.asTable.origin (SortedTable.put key entry v.entries)

/-- How an error names what it found. -/
def shown : Value → String
  | nothing => "unit value"
  | flag _ b => "boolean \x60" ++ (if b then "true" else "false") ++ "\x60"
  | int _ n => "integer \x60" ++ toString n ++ "\x60"
  | float _ x => "floating point \x60" ++ Decimal.pointed x ++ "\x60"
  | text _ s => "string " ++ Text.quoted s
  | list _ _ => "sequence"
  | table _ _ => "map"

mutual

/-- What a file says, in the words of settings. -/
def ofToml (o : Origin) : Toml.Item → Value
  | .text s => .text o s
  | .int n => .int o n
  | .float x => .float o x
  | .flag b => .flag o b
  | .moment s => .text o s
  | .list items => .list o (ofTomlItems o items)
  | .table _ _ members => .table o (ofTomlMembers o members)
  | .tables elements => .list o (ofTomlTables o elements)

def ofTomlItems (o : Origin) : List Toml.Item → List Value
  | [] => []
  | v :: vs => ofToml o v :: ofTomlItems o vs

def ofTomlMembers (o : Origin) : List (String × Toml.Item) → List (String × Value)
  | [] => []
  | (k, v) :: rest => SortedTable.put k (ofToml o v) (ofTomlMembers o rest)

def ofTomlTables (o : Origin) : List (List (String × Toml.Item)) → List Value
  | [] => []
  | ms :: rest => .table o (ofTomlMembers o ms) :: ofTomlTables o rest

end

end Value

end Lexicolor.Settings
