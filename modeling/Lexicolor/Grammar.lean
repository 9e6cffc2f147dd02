/-
Grammars: what a language looks like to a scan. A grammar names the language and the files it
is found in, says what a word is and which words are listed, and holds rules in order of
precedence.
-/
import Lexicolor.Pattern
import Lexicolor.Keywords

namespace Lexicolor

/-- One pair of delimiters of a region. -/
structure Variant where
  begin_ : Pattern
  finish : Pattern
  /-- Of two variants that begin at one place, the more relevant is taken. -/
  relevance : Nat
deriving Repr, Inhabited

/-- How the name in a header is found. -/
structure TitleRule where
  pattern : Pattern
  relevance : Nat
  /-- The title stops where the header's end begins, even if its pattern reaches further. -/
  endsWithParent : Bool
deriving Repr, Inhabited

/-- A line that begins with an anchor word, gives a name, and runs to its end pattern. -/
structure HeaderRule where
  scope : Scope
  begin_ : Pattern
  finish : Pattern
  /-- The words classified inside the header. -/
  keywords : KeywordTable
  title : TitleRule
deriving Repr, Inhabited

inductive Rule where
  /-- One match on its own; without a scope it is passed over in silence. -/
  | lexeme (scope : Option Scope) (pattern : Pattern)
  /-- From a beginning to the end of the same variant, with rules that hold inside. -/
  | region (scope : Scope) (variants : List Variant) (contains : List Rule)
  | header (rule : HeaderRule)
deriving Repr, Inhabited

namespace Rule

/-- The scope of the tokens that the rule makes. -/
def scope? : Rule → Option Scope
  | lexeme scope _ => scope
  | region scope _ _ => some scope
  | header rule => some rule.scope

end Rule

namespace Variant

def same (v w : Variant) : Bool :=
  v.begin_ == w.begin_ && v.finish == w.finish && v.relevance == w.relevance

end Variant

namespace TitleRule

def same (t u : TitleRule) : Bool :=
  t.pattern == u.pattern && t.relevance == u.relevance && t.endsWithParent == u.endsWithParent

end TitleRule

namespace HeaderRule

def same (h k : HeaderRule) : Bool :=
  h.scope == k.scope && h.begin_ == k.begin_ && h.finish == k.finish && h.keywords == k.keywords &&
    h.title.same k.title

end HeaderRule

/-- Whether two lists have the same length and agree item by item. -/
def sameLists {α : Type} (same : α → α → Bool) : List α → List α → Bool
  | [], [] => true
  | a :: as, b :: bs => same a b && sameLists same as bs
  | _, _ => false

mutual

/-- Equality of rules, patterns being compared by their texts. -/
def Rule.same : Rule → Rule → Bool
  | .lexeme s p, .lexeme t q => s == t && p == q
  | .region s vs rs, .region t ws qs => s == t && sameLists Variant.same vs ws && Rule.sameAll rs qs
  | .header h, .header k => h.same k
  | _, _ => false

def Rule.sameAll : List Rule → List Rule → Bool
  | [], [] => true
  | r :: rs, q :: qs => r.same q && Rule.sameAll rs qs
  | _, _ => false

end

structure Grammar where
  name : String
  aliases : List String
  caseInsensitive : Bool
  /-- What a word is. -/
  identifier : Pattern
  keywords : KeywordTable
  rules : List Rule
  extensions : List String
  mimeTypes : List String
deriving Repr, Inhabited

namespace Grammar

instance : BEq Grammar where
  beq g h :=
    g.name == h.name && g.aliases == h.aliases && g.caseInsensitive == h.caseInsensitive &&
      g.identifier == h.identifier && g.keywords == h.keywords && Rule.sameAll g.rules h.rules &&
      g.extensions == h.extensions && g.mimeTypes == h.mimeTypes

/-- The class of a word, in the case mode of the grammar. -/
def classify (g : Grammar) (word : String) : Option WordClass :=
  g.keywords.lookup word g.caseInsensitive

/-- The scope of a word: its class, or identifier for a word that is not listed. -/
def wordScope (g : Grammar) (word : String) : Scope :=
  match g.classify word with
  | some c => c.scope
  | none => .identifier

end Grammar

end Lexicolor
