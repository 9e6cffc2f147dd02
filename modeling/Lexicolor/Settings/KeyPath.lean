/-
Paths to settings. Names are compared in lower case. Setting the end of a path makes the tables and
lists on the way, over whatever stood there before; tables that are set are merged into what is
there, entry by entry, and all other values replace it.
-/
import Lexicolor.Settings.Value
import Lexicolor.Decimal.Reader

namespace Lexicolor.Settings

inductive KeyPath where
  | name (s : String)
  | entry (table : KeyPath) (s : String)
  /-- A place in a list, counted from its end if negative. -/
  | item (list : KeyPath) (index : Int)
deriving Repr, DecidableEq, Inhabited

/-! ## Reading -/

namespace KeyPath

/-- The characters of a name. -/
def isNameChar (c : Char) : Bool := c.isAlphanum || c == ' ' || c == '_' || c == '-'

/-- A name of at least one character. -/
def readName (cs : List Char) : Option (String × List Char) :=
  let name := cs.takeWhile isNameChar
  if name.isEmpty then none else some (String.ofList name, cs.drop name.length)

def skipBlanks (cs : List Char) : List Char := cs.dropWhile fun c => c == ' ' || c == '\t'

/-- An index and its closing bracket. -/
def readIndex (cs : List Char) : Option (Int × List Char) := do
  let cs := skipBlanks cs
  let (negative, cs) :=
    match cs with
    | '-' :: rest => (true, rest)
    | cs => (false, cs)
  let digits := cs.takeWhile Decimal.isDigit
  let n ← Decimal.int64? ((if negative then ['-'] else []) ++ digits)
  match skipBlanks (cs.drop digits.length) with
  | ']' :: rest => some (n, rest)
  | _ => none

/-- Reads on to the end of a path. -/
def readMore : Nat → KeyPath → List Char → Option KeyPath
  | _, path, [] => some path
  | 0, _, _ => none
  | n + 1, path, c :: cs =>
    if c == '.' then do
      let (s, rest) ← readName cs
      readMore n (.entry path s) rest
    else if c == '[' then do
      let (i, rest) ← readIndex cs
      readMore n (.item path i) rest
    else none

/-- The path that a key writes, such as `a.b[0]`. -/
def read? (key : String) : Option KeyPath := do
  let (s, rest) ← readName key.toList
  readMore rest.length (.name s) rest

end KeyPath

/-! ## Setting -/

mutual

/-- The table with a value set under a name. -/
def Value.assign (root : Value) (name : String) : Value → Value
  | .table _ incoming =>
    let key := Text.lowercase name
    root.put key (Value.assignAll ((root.entries.get? key).getD .emptyTable) incoming)
  | v => root.put (Text.lowercase name) v

def Value.assignAll (target : Value) : List (String × Value) → Value
  | [] => target
  | (k, v) :: rest => Value.assignAll (Value.assign target k v) rest

end

/-- The place that an index means in a list of so many items. -/
def placeOf (index : Int) (length : Nat) : Option Nat :=
  match index with
  | .ofNat n => some n
  | .negSucc n => if n < length then some (length - (n + 1)) else none

/-- The list with one item changed; a list that is too short is filled up first. -/
def Value.changeItem (f : Value → Value) (index : Int) (v : Value) : Value :=
  let origin :=
    match v with
    | .list o _ => o
    | _ => .program
  match placeOf index v.items.length with
  | none => .list origin v.items
  | some n =>
    let items := v.items ++ List.replicate (n + 1 - v.items.length) .nothing
    .list origin (items.modify n f)

/-- The table with one entry changed. -/
def Value.changeEntry (f : Value → Value) (name : String) (v : Value) : Value :=
  let key := Text.lowercase name
  v.put key (f ((v.entries.get? key).getD .nothing))

namespace KeyPath

/-- The root with the value at a path changed. -/
def change (f : Value → Value) : KeyPath → Value → Value
  | .name s, root => root.changeEntry f s
  | .entry table s, root => change (Value.changeEntry f s) table root
  | .item list i, root => change (Value.changeItem f i) list root

/-- The root with a value set at a path. -/
def set (value : Value) : KeyPath → Value → Value
  | .name s, root => root.assign s value
  | .entry table s, root => change (fun v => v.asTable.assign s value) table root
  | .item list i, root => change (Value.changeItem (fun _ => value) i) list root

end KeyPath

/-- The root with a value set under a key, which is a name of its own if it is no path. -/
def Value.setKey (root : Value) (key : String) (value : Value) : Value :=
  match KeyPath.read? key with
  | some path => path.set value root
  | none => root.assign key value

/-- The root with a layer of values over it. -/
def Value.overlay (root : Value) (layer : List (String × Value)) : Value :=
  layer.foldl (fun root (key, v) => root.setKey key v) root

end Lexicolor.Settings
