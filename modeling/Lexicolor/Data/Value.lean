/-
Values as they stand in a text: null, truth values, numbers, texts, lists and keyed members. Where
the text stops being well formed the value has a fault in it, at the place where it would be met
when the text is read from the front; so what a reader of the value reports first does not depend
on how much of the text it has looked at.
-/
import Lexicolor.Decimal.Text

namespace Lexicolor.Data

/-- What can be wrong with a text: it ends too early, or it is malformed. -/
inductive Fault where
  | ended
  | malformed
deriving Repr, DecidableEq, Inhabited

/-- The key of a member. -/
inductive Key where
  | name (s : String)
  /-- A number, which stands for the field at that position. -/
  | position (n : Nat)
  /-- A key of any other kind: no field has it. -/
  | other
deriving Repr, DecidableEq, Inhabited

inductive Value where
  | null
  | bool (b : Bool)
  | int (n : Int)
  /-- Zero written with a minus sign, where that is still an integer. -/
  | minusZero
  | float (x : Float)
  /-- A number beyond all floating-point numbers: it can only be passed over. -/
  | tooLarge
  | str (s : String)
  /-- A string that names half of a surrogate pair: no text, but it can be passed over. -/
  | unpaired
  /-- A list; with a fault where something else should follow the last item. -/
  | arr (items : List Value) (fault : Option Fault)
  /-- Members in order. -/
  | obj (members : List (Key × Value)) (fault : Option Fault)
  /-- No value stands here. -/
  | broken (fault : Fault)
deriving Repr, Inhabited

namespace Value

def list (items : List Value) : Value := .arr items none

def object (members : List (String × Value)) : Value :=
  .obj (members.map fun (k, v) => (.name k, v)) none

def nat (n : Nat) : Value := .int n

def strings (ss : List String) : Value := .list (ss.map .str)

end Value

mutual

/-- The first fault met when the value is read from the front. With a limit the value is read
with all it holds, and may be nested that deep less one; without one it is only passed over. -/
def Value.fault? (limit : Option Nat) : Value → Option Fault
  | .null => none
  | .bool _ => none
  | .int _ => none
  | .minusZero => none
  | .float _ => none
  | .tooLarge => limit.map fun _ => .malformed
  | .str _ => none
  | .unpaired => limit.map fun _ => .malformed
  | .broken f => some f
  | .arr items fault =>
    if limit.any (· ≤ 1) then some .malformed
    else (faultIn (limit.map (· - 1)) items).or fault
  | .obj members fault =>
    if limit.any (· ≤ 1) then some .malformed
    else (faultAmong (limit.map (· - 1)) members).or fault

def Value.faultIn (limit : Option Nat) : List Value → Option Fault
  | [] => none
  | v :: vs => (Value.fault? limit v).or (faultIn limit vs)

def Value.faultAmong (limit : Option Nat) : List (Key × Value) → Option Fault
  | [] => none
  | (key, v) :: rest =>
    if key = .other && limit.isSome then some .malformed
    else (Value.fault? limit v).or (faultAmong limit rest)

end

end Lexicolor.Data
