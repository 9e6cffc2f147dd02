/-
Tokens: classified stretches of a text. A token that a region or a header makes holds the
tokens found inside it; text inside it that nothing classifies belongs to the token alone.
-/
import Lexicolor.Scope
import Lexicolor.Text.Place

namespace Lexicolor

open Text

structure Token where
  scope : Scope
  /-- Where the token begins, in bytes from the start of the text. -/
  start : Nat
  /-- Where it ends. -/
  stop : Nat
  text : String
  children : List Token
deriving Repr, Inhabited

namespace Token

/-- The token over a span. -/
def ofSpan (scope : Scope) (span : Span) (children : List Token) : Token :=
  ⟨scope, span.start.offset, span.stop.offset, span.text, children⟩

mutual

/-- The token and all its descendants, each before its own descendants. -/
def walk : Token → List Token
  | ⟨scope, start, stop, text, children⟩ =>
    ⟨scope, start, stop, text, children⟩ :: walkAll children

def walkAll : List Token → List Token
  | [] => []
  | t :: ts => t.walk ++ walkAll ts

end

mutual

/-- The first descendant with the scope: a child is searched to the bottom before its next
sibling. -/
def findChild (t : Token) (scope : Scope) : Option Token :=
  match t with
  | ⟨_, _, _, _, children⟩ => findIn children scope

def findIn : List Token → Scope → Option Token
  | [], _ => none
  | t :: ts, scope =>
    if t.scope = scope then some t
    else
      match findChild t scope with
      | some found => some found
      | none => findIn ts scope

end

end Token

end Lexicolor
