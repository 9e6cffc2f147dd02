/-
Documents as trees. A node is a scalar, a list, a record or a reference to a node with an anchor.
Anchors are numbered by the names in use when they are met, and a reference leads to the last node
with its number.
-/
import Lexicolor.Yaml.Token

namespace Lexicolor.Yaml

inductive Node where
  | scalar (anchor : Option Nat) (tag : Option Octets) (form : Form) (text : String)
  | list (anchor : Option Nat) (tag : Option Octets) (items : List Node)
  | record (anchor : Option Nat) (tag : Option Octets) (members : List (Node × Node))
  | reference (anchor : Nat)
deriving Repr, Inhabited

namespace Node

/-- A scalar that is not there. -/
def absent : Node := .scalar none none .plain ""

mutual

/-- The number of marks that a node is made of: lists and records have one at either end. -/
def weight : Node → Nat
  | .scalar .. => 1
  | .reference _ => 1
  | .list _ _ items => 2 + weightOf items
  | .record _ _ members => 2 + weightOfMembers members

def weightOf : List Node → Nat
  | [] => 0
  | v :: vs => weight v + weightOf vs

def weightOfMembers : List (Node × Node) → Nat
  | [] => 0
  | (k, v) :: rest => weight k + weight v + weightOfMembers rest

end

/-- A node under the number of its anchor, if it has one. -/
def underAnchor (v : Node) : Option Nat → List (Nat × Node)
  | none => []
  | some n => [(n, v)]

mutual

/-- The nodes with anchors, in the order in which they begin. -/
def anchored : Node → List (Nat × Node)
  | .scalar a tag form text => underAnchor (.scalar a tag form text) a
  | .reference _ => []
  | .list a tag items => underAnchor (.list a tag items) a ++ anchoredIn items
  | .record a tag members => underAnchor (.record a tag members) a ++ anchoredAmong members

def anchoredIn : List Node → List (Nat × Node)
  | [] => []
  | v :: vs => anchored v ++ anchoredIn vs

def anchoredAmong : List (Node × Node) → List (Nat × Node)
  | [] => []
  | (k, v) :: rest => anchored k ++ anchored v ++ anchoredAmong rest

end

/-- What is left of the tokens, the numbers of the anchors met so far, and the handles of tags. -/
structure Reader where
  tokens : List Token
  anchors : List (String × Nat)
  handles : List (String × Octets)
deriving Inhabited

abbrev Read := StateT Reader Option

def next? : Read (Option Token) := return (← get).tokens.head?

def drop : Read Unit := modify fun r => { r with tokens := r.tokens.tail }

def fail {α : Type} : Read α := StateT.lift none

/-- Passes over a token that must come next. -/
def expect (token : Token) : Read Unit := do
  if (← next?) == some token then drop else fail

/-- Numbers an anchor. A name that is met again counts anew but takes no new number away. -/
def bindAnchor (name : String) : Read Nat := do
  let r ← get
  let n := r.anchors.length
  set { r with anchors := (name, n) :: r.anchors.filter (·.1 != name) }
  return n

def resolveTag (name : TagName) : Read Octets := do
  if name.handle.isEmpty then return name.suffix
  match (← get).handles.lookup name.handle with
  | some meaning => return meaning ++ name.suffix
  | none => fail

def anchor? : Read (Option String) := do
  match ← next? with
  | some (.anchor name) => drop; return some name
  | _ => return none

def tag? : Read (Option Octets) := do
  match ← next? with
  | some (.tag name) => drop; return some (← resolveTag name)
  | _ => return none

/-- An anchor and a tag in either order. -/
def properties : Read (Option String × Option Octets) := do
  match ← anchor? with
  | some a => return (some a, ← tag?)
  | none =>
    match ← tag? with
    | some t => return (← anchor?, some t)
    | none => return (none, none)

def isBlockEnd (token : Option Token) : Bool := token == some .blockEnd

/-- Whether a block has no node here. -/
def endsBlockEntry (token : Option Token) : Bool :=
  token == some .key || token == some .value || isBlockEnd token

mutual

/-- A node. Blocks may begin here if `inBlock` holds, and the items of a list may stand at the
depth of the key it belongs to if `afterKey` holds. -/
def node : Nat → Bool → Bool → Read Node
  | 0, _, _ => fail
  | n + 1, inBlock, afterKey => do
    if let some (.alias name) ← next? then
      drop
      match (← get).anchors.lookup name with
      | some number => return .reference number
      | none => fail
    else
      let (name, tag) ← properties
      let bind : Read (Option Nat) :=
        match name with
        | some a => return some (← bindAnchor a)
        | none => return none
      match ← next? with
      | some .blockEntry =>
        if inBlock && afterKey then return .list (← bind) tag (← looseItems n)
        else if name.isSome || tag.isSome then return .scalar (← bind) tag .plain ""
        else fail
      | some (.scalar form text) =>
        drop
        return .scalar (← bind) (if tag == some (octetsOf "!") then none else tag) form text
      | some .flowListStart => drop; return .list (← bind) tag (← flowItems n true)
      | some .flowRecordStart => drop; return .record (← bind) tag (← flowMembers n true)
      | token =>
        if inBlock && token == some .blockListStart then
          drop; return .list (← bind) tag (← blockItems n)
        else if inBlock && token == some .blockRecordStart then
          drop; return .record (← bind) tag (← blockMembers n)
        else if name.isSome || tag.isSome then return .scalar (← bind) tag .plain ""
        else fail

/-- The items of a list up to the end of its block. -/
def blockItems : Nat → Read (List Node)
  | 0 => fail
  | n + 1 => do
    match ← next? with
    | some .blockEntry =>
      drop
      let after ← next?
      let item ←
        if after == some .blockEntry || isBlockEnd after then pure absent else node n true false
      return item :: (← blockItems n)
    | token => if isBlockEnd token then drop; return [] else fail

/-- The items of a list at the depth of its key. -/
def looseItems : Nat → Read (List Node)
  | 0 => fail
  | n + 1 => do
    match ← next? with
    | some .blockEntry =>
      drop
      let after ← next?
      let item ←
        if after == some .blockEntry || endsBlockEntry after then pure absent
        else node n true false
      return item :: (← looseItems n)
    | _ => return []

/-- The members of a record up to the end of its block. -/
def blockMembers : Nat → Read (List (Node × Node))
  | 0 => fail
  | n + 1 => do
    match ← next? with
    | some .key =>
      drop
      let k ← blockPart n
      let v ← blockValue n
      return (k, v) :: (← blockMembers n)
    | token => if isBlockEnd token then drop; return [] else fail

/-- A key or a value, whose mark was passed over. -/
def blockPart : Nat → Read Node
  | 0 => fail
  | n + 1 => do if endsBlockEntry (← next?) then return absent else node n true true

def blockValue : Nat → Read Node
  | 0 => fail
  | n + 1 => do
    if (← next?) == some .value then
      drop
      blockPart n
    else return absent

/-- The items of a list up to its bracket; before all but the first a comma. -/
def flowItems : Nat → Bool → Read (List Node)
  | 0, _ => fail
  | n + 1, first => do
    if (← next?) == some .flowListEnd then
      drop
      return []
    unless first do expect .flowEntry
    match ← next? with
    | some .flowListEnd =>
      drop
      return []
    | some .key =>
      drop
      let item ← flowPair n
      return item :: (← flowItems n false)
    | _ =>
      let item ← node n false false
      return item :: (← flowItems n false)

/-- A key and a value inside a list, as a record of their own. Where the key is missing, the token
that follows its mark is lost. -/
def flowPair : Nat → Read Node
  | 0 => fail
  | n + 1 => do
    let after ← next?
    let k ←
      if after == some .value || after == some .flowEntry || after == some .flowListEnd then
        drop
        pure absent
      else node n false false
    let v ←
      if (← next?) == some .value then
        drop
        let after ← next?
        if after == some .flowEntry || after == some .flowListEnd then pure absent
        else node n false false
      else pure absent
    return .record none none [(k, v)]

/-- The members of a record up to its brace; before all but the first a comma. -/
def flowMembers : Nat → Bool → Read (List (Node × Node))
  | 0, _ => fail
  | n + 1, first => do
    if (← next?) == some .flowRecordEnd then
      drop
      return []
    unless first do expect .flowEntry
    match ← next? with
    | some .flowRecordEnd =>
      drop
      return []
    | some .key =>
      drop
      let after ← next?
      let k ←
        if after == some .value || endsFlowPart after then pure absent else node n false false
      let v ←
        if (← next?) == some .value then
          drop
          if endsFlowPart (← next?) then pure absent else node n false false
        else pure absent
      return (k, v) :: (← flowMembers n false)
    | _ =>
      let k ← node n false false
      return (k, absent) :: (← flowMembers n false)
where
  endsFlowPart (token : Option Token) : Bool :=
    token == some .flowEntry || token == some .flowRecordEnd

end

/-- The directives before a document: at most one of the version, which must be known, and at
most one for each handle. -/
def directives : Nat → Bool → Read Unit
  | 0, _ => fail
  | n + 1, versioned => do
    match ← next? with
    | some (.directive (.version major minor)) =>
      if versioned || major != 1 || (minor != 1 && minor != 2) then fail
      drop
      directives n true
    | some (.directive (.tag handle meaning)) =>
      let r ← get
      if (r.handles.lookup handle).isSome then fail
      set { r with tokens := r.tokens.tail, handles := (handle, meaning) :: r.handles }
      directives n versioned
    | _ => return ()

/-- The handles that need no directive. -/
def knownHandles : List (String × Octets) :=
  [("!", octetsOf "!"), ("!!", octetsOf "tag:yaml.org,2002:")]

def isDirective : Option Token → Bool
  | some (.directive _) => true
  | _ => false

/-- Whether a document with a mark of its own has nothing here. -/
def isEmptyDocument (token : Option Token) : Bool :=
  token.isNone || isDirective token || token == some .documentStart || token == some .documentEnd

def dropMarks : Nat → Read Unit
  | 0 => return ()
  | n + 1 => do
    if (← next?) == some .documentEnd then
      drop
      dropMarks n

/-- The root of the only document. -/
def root : Read Node := do
  let n := (← get).tokens.length + 1
  let first ← next?
  let marked := isDirective first || first == some .documentStart
  directives n false
  modify fun r => { r with handles := r.handles ++ knownHandles }
  if marked then expect .documentStart
  let v ← if marked && isEmptyDocument (← next?) then pure absent else node (3 * n + 10) true false
  dropMarks n
  if (← next?).isSome then fail
  return v

end Node

/-- A tree and the nodes that references lead to. -/
structure Document where
  root : Node
  /-- The nodes with anchors, latest first. -/
  anchored : List (Nat × Node)
deriving Inhabited

/-- The only document of a text; none when the text is not YAML or holds no or more documents. -/
def Document.read? (text : String) : Option Document := do
  let tokens ← tokens? text
  if tokens.isEmpty then none
  let (root, _) ← (Node.root).run ⟨tokens, [], []⟩
  return ⟨root, root.anchored.reverse⟩

end Lexicolor.Yaml
