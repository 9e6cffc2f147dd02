/-
TOML tables. A table may be filled in several places, but each way of writing it forbids others:
a header names a table once, a dotted key goes only through tables that dotted keys have made, and
what stands in braces is complete.
-/

namespace Lexicolor.Toml

/-- How a table came to be. -/
inductive Made where
  /-- It has a header or braces of its own. -/
  | written
  /-- A header names a table inside it. -/
  | passed
  /-- A dotted key leads through it. -/
  | dotted
deriving Repr, DecidableEq, Inhabited

inductive Item where
  | text (s : String)
  | int (n : Int)
  | float (x : Float)
  | flag (b : Bool)
  /-- A date, a time, or both. -/
  | moment (s : String)
  | list (items : List Item)
  | table (braced : Bool) (made : Made) (members : List (String × Item))
  /-- Tables under one name, in the order of their headers. -/
  | tables (elements : List (List (String × Item)))
deriving Repr, Inhabited

abbrev Members := List (String × Item)

namespace Members

def has (ms : Members) (key : String) : Bool := ms.any (·.1 == key)

/-- The members with one of them replaced, or added at the end. -/
def put (ms : Members) (key : String) (item : Item) : Members :=
  if ms.has key then ms.map fun (k, v) => if k == key then (k, item) else (k, v)
  else ms ++ [(key, item)]

/-- Follows a path through tables, making those that are not there, and acts on the last one. Of
several tables under one name the last is followed. Dotted keys go through no table that has a
header or braces. -/
def within {α : Type} (braced dotted : Bool) (act : Made → Members → Option (α × Members)) :
    List String → Made → Members → Option (α × Members)
  | [], made, ms => act made ms
  | k :: ks, _, ms =>
    match ms.lookup k with
    | none => do
      let fresh := if dotted then Made.dotted else .passed
      let (a, inner) ← within braced dotted act ks fresh []
      return (a, ms.put k (.table braced fresh inner))
    | some (.table b made inner) =>
      if b != braced || (dotted && made = .written) then none
      else do
        let (a, inner) ← within braced dotted act ks made inner
        return (a, ms.put k (.table b made inner))
    | some (.tables elements) => do
      let (a, inner) ← within braced dotted act ks .written (← elements.getLast?)
      return (a, ms.put k (.tables (elements.dropLast ++ [inner])))
    | some _ => none

/-- The members of a table with one more, whose key may be dotted. -/
def addPair (braced : Bool) (ms : Members) (path : List String) (key : String) (item : Item) :
    Option Members :=
  let act := fun (made : Made) (ms : Members) =>
    if (made = .dotted) = (path.isEmpty = true) || ms.has key then none
    else some ((), ms ++ [(key, item)])
  (within braced true act path .written ms).map (·.2)

end Members

/-- A document as far as it is read: what is finished, and the table that is being filled. -/
structure Document where
  root : Members
  current : Members
  /-- The name of that table; nothing for the root itself. -/
  path : List String
  /-- Whether it is one of several tables under its name. -/
  isElement : Bool
deriving Inhabited

namespace Document

def empty : Document := ⟨[], [], [], false⟩

/-- Puts the table that was being filled into its place. -/
def finish (d : Document) : Option Members :=
  match d.path.getLast? with
  | none => some d.current
  | some key =>
    let act := fun (_ : Made) (ms : Members) =>
      match ms.lookup key, d.isElement with
      | none, true => some ((), ms.put key (.tables [d.current]))
      | some (.tables es), true => some ((), ms.put key (.tables (es ++ [d.current])))
      | none, false => some ((), ms.put key (.table false .written d.current))
      | some (.table false made _), false =>
        if made = .written then none
        else some ((), ms.put key (.table false .written d.current))
      | _, _ => none
    (Members.within false false act d.path.dropLast .written d.root).map (·.2)

/-- Goes on to the table that a header names, which may so far only have been passed through. -/
def openTable (d : Document) (path : List String) : Option Document := do
  let root ← d.finish
  let key ← path.getLast?
  let act := fun (_ : Made) (ms : Members) =>
    match ms.lookup key with
    | none => some ([], ms)
    | some (.table false .passed inner) => some (inner, ms.filter (·.1 != key))
    | some _ => none
  let (current, root) ← Members.within false false act path.dropLast .written root
  return ⟨root, current, path, false⟩

/-- Goes on to one more table of a name that only such tables have. -/
def openElement (d : Document) (path : List String) : Option Document := do
  let root ← d.finish
  let key ← path.getLast?
  let act := fun (_ : Made) (ms : Members) =>
    match ms.lookup key with
    | none => some ((), ms)
    | some (.tables _) => some ((), ms)
    | some _ => none
  let ((), root) ← Members.within false false act path.dropLast .written root
  return ⟨root, [], path, true⟩

def addPair (d : Document) (path : List String) (key : String) (item : Item) : Option Document := do
  return { d with current := ← d.current.addPair false path key item }

end Document

end Lexicolor.Toml
