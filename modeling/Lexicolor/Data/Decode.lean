/-
Decoding values. What is decoded straight from the text meets the faults of the text as
they come and may be nested 127 deep; what has been read whole before it is decoded has no
faults left. The two ways differ in what they say of a list that is too long.
-/
import Lexicolor.Data.Value
import Lexicolor.Text.Quoted

namespace Lexicolor.Data

/-- What was found where something else was expected. -/
inductive Found where
  | null
  | bool (b : Bool)
  | int (n : Int)
  | float (x : Float)
  | str (s : String)
  | list
  | map
deriving Inhabited

def Found.text : Found → String
  | .null => "null"
  | .bool b => "boolean \x60" ++ (if b then "true" else "false") ++ "\x60"
  | .int n => "integer \x60" ++ toString n ++ "\x60"
  | .float x => "floating point \x60" ++ Decimal.scientific x ++ "\x60"
  | .str s => "string " ++ Text.quoted s
  | .list => "sequence"
  | .map => "map"

/-- Why a value is not what it should be. -/
inductive Mismatch where
  | invalidType (found : Found) (expected : String)
  | invalidValue (found : Found) (expected : String)
  | invalidLength (length : Nat) (expected : String)
  | missingField (name : String)
  | duplicateField (name : String)
  | unknownVariant (name : String) (variants : List String)
  | badPattern
deriving Inhabited

def ticked (s : String) : String := "\x60" ++ s ++ "\x60"

/-- A choice between names. -/
def oneOf : List String → String
  | [] => ""
  | [a] => ticked a
  | [a, b] => ticked a ++ " or " ++ ticked b
  | names => "one of " ++ ", ".intercalate (names.map ticked)

/-- The text of the error. Of a text that is no pattern it says no more than that: the reasons that a reader of
patterns gives are left out. -/
def Mismatch.message : Mismatch → String
  | .invalidType found expected => "invalid type: " ++ found.text ++ ", expected " ++ expected
  | .invalidValue found expected => "invalid value: " ++ found.text ++ ", expected " ++ expected
  | .invalidLength n expected => "invalid length " ++ toString n ++ ", expected " ++ expected
  | .missingField name => "missing field " ++ ticked name
  | .duplicateField name => "duplicate field " ++ ticked name
  | .unknownVariant name variants =>
    "unknown variant " ++ ticked name ++ ", expected " ++ oneOf variants
  | .badPattern => "regex parse error"

inductive Error where
  | fault (f : Fault)
  | mismatch (m : Mismatch)
deriving Inhabited

abbrev Decoded := Except Error

/-- How a value is read: from the text, with so many levels left, or after it was read whole. -/
inductive Mode where
  | direct (levels : Nat)
  | whole

/-- The number of levels of a text: one more than may be used. -/
def Mode.top : Mode := .direct 128

def fail {α : Type} (m : Mismatch) : Decoded α := .error (.mismatch m)

def failFault {α : Type} (f : Fault) : Decoded α := .error (.fault f)

def orFault (f : Option Fault) : Decoded Unit :=
  match f with
  | none => .ok ()
  | some f => failFault f

/-- One level further in. -/
def Mode.enter : Mode → Decoded Mode
  | .direct n => if n ≤ 1 then failFault .malformed else .ok (.direct (n - 1))
  | .whole => .ok .whole

/-- The error for a value of the wrong kind; a value that is itself at fault is reported first. -/
def wrongType {α : Type} (v : Value) (expected : String) : Decoded α :=
  let fail := fun (f : Found) => fail (.invalidType f expected)
  match v with
  | .null => fail .null
  | .bool b => fail (.bool b)
  | .int i => fail (.int i)
  | .minusZero => fail (.int 0)
  | .float x => fail (.float x)
  | .tooLarge => failFault .malformed
  | .str s => fail (.str s)
  | .unpaired => failFault .malformed
  | .arr _ _ => fail .list
  | .obj _ _ => fail .map
  | .broken f => failFault f

/-- Reads a value whole, for later. -/
def hold (mode : Mode) (v : Value) : Decoded Unit :=
  match mode with
  | .direct n => orFault (v.fault? (some n))
  | .whole => .ok ()

/-- Passes over a value that nobody asks for. -/
def ignore (mode : Mode) (v : Value) : Decoded Unit :=
  match mode with
  | .direct _ => orFault (v.fault? none)
  | .whole => .ok ()

def string (v : Value) : Decoded String :=
  match v with
  | .str s => .ok s
  | v => wrongType v "a string"

def bool (v : Value) : Decoded Bool :=
  match v with
  | .bool b => .ok b
  | v => wrongType v "a boolean"

/-- A number below `2 ^ 32`. -/
def word32 (v : Value) : Decoded Nat :=
  match v with
  | .int i => if 0 ≤ i ∧ i.toNat < Nat.pow 2 32 then .ok i.toNat else fail (.invalidValue (.int i) "u32")
  | .minusZero => .ok 0
  | v => wrongType v "u32"

/-- A list of values. -/
def listOf {α : Type} (item : Mode → Value → Decoded α) (mode : Mode) (v : Value) :
    Decoded (List α) :=
  match v with
  | .arr items fault => do
    let mode ← mode.enter
    let items ← items.mapM (item mode)
    orFault fault
    return items
  | v => wrongType v "a sequence"

/-- A record with named fields: each field is required or has its value in `blank`. -/
structure Shape (α : Type) where
  name : String
  fields : List (String × Bool)
  blank : α
  /-- The record with one of its fields read. -/
  set : Mode → α → String → Value → Decoded α

namespace Shape

variable {α : Type}

def count (n : Nat) : String := if n = 1 then "1 element" else toString n ++ " elements"

/-- The fields in order, from a list. -/
def fromItems (s : Shape α) (mode : Mode) (fault : Option Fault) :
    Nat → List (String × Bool) → List Value → α → Decoded α
  | index, (_, required) :: fields, [], a => do
    orFault fault
    if required then
      fail (.invalidLength index ("struct " ++ s.name ++ " with " ++ count s.fields.length))
    else fromItems s mode fault (index + 1) fields [] a
  | index, (field, _) :: fields, v :: vs, a => do
    fromItems s mode fault (index + 1) fields vs (← s.set mode a field v)
  | index, [], vs, a => do
    match mode, vs with
    | _, [] => orFault fault
    | .direct _, _ :: _ => failFault .malformed
    | .whole, _ :: _ => fail (.invalidLength (index + vs.length) (count index ++ " in sequence"))
    return a

/-- The field that a key names or gives the position of; none for keys that are passed over. -/
def fieldOf (s : Shape α) (key : Key) : Decoded (Option String) :=
  match key with
  | .name name => .ok (if s.fields.any (·.1 == name) then some name else none)
  | .position n => .ok (s.fields[n]?.map (·.1))
  | .other => failFault .malformed

/-- The fields by name, in any order; `seen` holds those that have come. -/
def fromMembers (s : Shape α) (mode : Mode) :
    List (Key × Value) → List String → α → Decoded (α × List String)
  | [], seen, a => .ok (a, seen)
  | (key, v) :: rest, seen, a => do
    match ← s.fieldOf key with
    | some field =>
      if seen.contains field then fail (.duplicateField field)
      fromMembers s mode rest (field :: seen) (← s.set mode a field v)
    | none =>
      ignore mode v
      fromMembers s mode rest seen a

/-- The first required field that has not come. -/
def missing? (s : Shape α) (seen : List String) : Option String :=
  (s.fields.find? fun (name, required) => required && !seen.contains name).map (·.1)

def decode (s : Shape α) (mode : Mode) (v : Value) : Decoded α :=
  match v with
  | .arr items fault => do
    s.fromItems (← mode.enter) fault 0 s.fields items s.blank
  | .obj members fault => do
    let (a, seen) ← s.fromMembers (← mode.enter) members [] s.blank
    orFault fault
    match s.missing? seen with
    | some name => fail (.missingField name)
    | none => return a
  | v => wrongType v ("struct " ++ s.name)

end Shape

/-- The variant at a position. -/
def variantAt (variants : List String) (i : Nat) : Decoded String :=
  match variants[i]? with
  | some name => .ok name
  | none => fail (.invalidValue (.int i) ("variant index 0 <= i < " ++ toString variants.length))

/-- The name of one of several variants, where a value read whole may also give its position. -/
def variantName (mode : Mode) (variants : List String) (v : Value) : Decoded String :=
  match mode, v with
  | .whole, .int (.ofNat i) => variantAt variants i
  | _, .str s => if variants.contains s then .ok s else fail (.unknownVariant s variants)
  | _, v => wrongType v "variant identifier"

/-- Nothing at all: null or, in a value read whole, an empty object. -/
def nothing (mode : Mode) (v : Value) : Decoded Unit :=
  match mode, v with
  | _, .null => .ok ()
  | .whole, .obj [] _ => .ok ()
  | _, v => wrongType v "unit"

/-- One of several names: as a string, or as the only key of an object that holds nothing. -/
def nameOf (variants : List String) (mode : Mode) (v : Value) : Decoded String :=
  match v with
  | .str s => variantName .whole variants (.str s)
  | .obj [(key, inner)] _ => do
    let name ←
      match key with
      | .name s => variantName .whole variants (.str s)
      | .position i => variantAt variants i
      | .other => failFault .malformed
    nothing mode inner
    return name
  | .obj _ _ => fail (.invalidValue .map "map with a single key")
  | v => wrongType v "string or map"

/-- A record that says of which kind it is: a list whose first item is the name of the kind, or
an object with the name under `tag`. What is left is read whole. -/
def tagged (what tag : String) (variants : List String) (mode : Mode) (v : Value) :
    Decoded (String × Value) :=
  match v with
  | .arr items fault => do
    let mode ← mode.enter
    match items with
    | [] =>
      orFault fault
      fail (.missingField tag)
    | first :: rest =>
      let name ← variantName mode variants first
      rest.forM (hold mode)
      orFault fault
      return (name, .arr rest none)
  | .obj members fault => do
    let (name, rest) ← go (← mode.enter) members none
    orFault fault
    match name with
    | none => fail (.missingField tag)
    | some name => return (name, .obj rest none)
  | v => wrongType v what
where
  go (mode : Mode) : List (Key × Value) → Option String →
      Decoded (Option String × List (Key × Value))
    | [], name => .ok (name, [])
    | (.other, _) :: _, _ => failFault .malformed
    | (key, v) :: rest, name => do
      if key = .name tag then
        if name.isSome then fail (.duplicateField tag)
        go mode rest (some (← variantName mode variants v))
      else
        hold mode v
        let (name, rest) ← go mode rest name
        return (name, (key, v) :: rest)

end Lexicolor.Data
