/-
Documents as values. How a node is read depends on what is expected: a text takes any scalar as
it is written, whereas a value of no expected kind says itself what it is, by its tag or by the
words that it is written with.
-/
import Lexicolor.Yaml.Node
import Lexicolor.Yaml.Plain
import Lexicolor.Data.Value

namespace Lexicolor.Yaml

open Data (Key Value)

/-- What is expected of a node. -/
inductive Shape where
  | text
  | flag
  | list (item : Shape)
  /-- A record; members of other names are passed over. -/
  | record (fields : List (String × Shape))
  | any
deriving Inhabited

/-- Following references, of which so many more may be followed. -/
abbrev Follow := ReaderT Document (StateT Nat Option)

namespace Follow

def fail {α : Type} : Follow α := fun _ _ => none

/-- The node itself, or the one that it refers to. -/
def target (v : Node) : Follow Node := do
  match v with
  | .reference n =>
    match ← get, (← read).anchored.lookup n with
    | left + 1, some v =>
      set left
      return v
    | _, _ => fail
  | v => return v

end Follow

/-- The common types that tags can name. -/
def typeTag (name : String) : Octets := octetsOf ("tag:yaml.org,2002:" ++ name)

/-- Whether a tag is of local use. -/
def isLocalTag (tag : Option Octets) : Bool :=
  match tag with
  | some octets =>
    octets.head? == some 0x21 && (String.fromUTF8? ⟨octets.toArray⟩).isSome
  | none => false

/-- Whether a node is a scalar of which nothing is written. -/
def isAbsent : Node → Bool
  | .scalar _ _ form text => form = .plain && text.isEmpty
  | _ => false

def Plain.value (text : String) : Plain → Follow Value
  | .null => return .null
  | .bool b => return .bool b
  | .nat n => return .int n
  | .negative n => return if n = 0 then .minusZero else .int (-(n : Int))
  | .huge => Follow.fail
  | .float x => return .float x
  | .text => return .str text

/-- What a scalar says of itself. -/
def scalarValue (tag : Option Octets) (form : Form) (text : String) : Follow Value :=
  if isLocalTag tag then Follow.fail
  else if tag == some (typeTag "null") then
    if !text.isEmpty && Plain.isNull text then return .null else Follow.fail
  else if tag == some (typeTag "bool") then
    match Plain.bool? text with
    | some b => return .bool b
    | none => Follow.fail
  else if tag == some (typeTag "int") then
    match Plain.integer? text.toList with
    | some n => n.value text
    | none => Follow.fail
  else if tag == some (typeTag "float") then
    match Plain.float? text with
    | some x => return .float x
    | none => Follow.fail
  else if tag.isNone && form = .plain then (Plain.ofText text).value text
  else return .str text

/-- A truth value, which must be written as one. -/
def flagValue (tag : Option Octets) (form : Form) (text : String) : Follow Value :=
  let written := form = .plain || (form = .literal && tag == some (typeTag "bool"))
  match written, Plain.bool? text with
  | true, some b => return .bool b
  | _, _ => Follow.fail

/-- The key that a value makes where no kind of key is expected. -/
def keyOfValue : Value → Key
  | .str s => .name s
  | .int (.ofNat n) => .position n
  | _ => .other

/-- The value of a node of an expected shape, which holds at most `levels` lists and records
inside each other. -/
def Node.value : (levels : Nat) → Shape → Node → Follow Value
  | levels, shape, v => do
    let v ← Follow.target v
    let inner : Shape → Node → Follow Value :=
      match levels with
      | 0 => fun _ _ => Follow.fail
      | levels + 1 => Node.value levels
    match shape, v with
    | .text, .scalar _ _ _ text => return .str text
    | .flag, .scalar _ tag form text => flagValue tag form text
    | .any, .scalar _ tag form text => scalarValue tag form text
    | .list item, .list _ _ items =>
      if levels = 0 then Follow.fail else return .list (← items.mapM (inner item))
    | .any, .list _ tag items =>
      if levels = 0 || isLocalTag tag then Follow.fail
      else return .list (← items.mapM (inner .any))
    | .record fields, .record _ _ members =>
      if levels = 0 then Follow.fail
      else
        let found ← members.mapM fun (k, v) => do
          match ← Follow.target k with
          | .scalar _ _ _ name =>
            match fields.lookup name with
            | some shape => return [(Key.name name, ← inner shape v)]
            | none => return []
          | _ => Follow.fail
        return .obj found.flatten none
    | .any, .record _ tag members =>
      if levels = 0 || isLocalTag tag then Follow.fail
      else
        let members ← members.mapM fun (k, v) => do
          return (keyOfValue (← inner .any k), ← inner .any v)
        return .obj members none
    | .list _, v => if isAbsent v then return .list [] else Follow.fail
    | .record _, v => if isAbsent v then return .object [] else Follow.fail
    | _, _ => Follow.fail

/-- The value of a document of an expected shape. Lists and records may lie 128 deep, and a
hundred references may be followed for each mark in the text. -/
def Document.value? (d : Document) (shape : Shape) : Option Value :=
  ((d.root.value 128 shape).run d).run (100 * d.root.weight) |>.map (·.1)

/-- The value that a text writes. -/
def value? (shape : Shape) (text : String) : Option Value := do
  (← Document.read? text).value? shape

end Lexicolor.Yaml
