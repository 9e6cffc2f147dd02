/-
Grammars as values. Patterns are written as their texts, words as sorted lists, rules
with their kind first; a field that may be left out is always written. The texts of patterns are read
by whatever reader is given.
-/
import Lexicolor.Grammar
import Lexicolor.Data.Decode

namespace Lexicolor

open Data (Value Mode Shape Decoded)

/-- Three word lists before they are sorted. -/
structure WordLists where
  keyword : List String
  builtIn : List String
  literal : List String
deriving Inhabited

def WordLists.table (w : WordLists) : KeywordTable := .ofWords w.keyword w.builtIn w.literal

namespace Grammar.Record

def scopeNames : List String := Scope.all.map Scope.name

def kinds : List String := ["lexeme", "region", "header"]

/-! ## Writing -/

def pattern (p : Pattern) : Value := .str p.source

def scope (s : Scope) : Value := .str s.name

def keywords (t : KeywordTable) : Value :=
  .object [("keyword", .strings t.keyword), ("built_in", .strings t.builtIn),
    ("literal", .strings t.literal)]

def variant (v : Variant) : Value :=
  .object [("begin", pattern v.begin_), ("end", pattern v.finish), ("relevance", .nat v.relevance)]

def title (t : TitleRule) : Value :=
  .object [("pattern", pattern t.pattern), ("relevance", .nat t.relevance),
    ("ends_with_parent", .bool t.endsWithParent)]

mutual

def rule : Rule → Value
  | .lexeme s p =>
    .object [("kind", .str "lexeme"), ("scope", (s.map scope).getD .null), ("pattern", pattern p)]
  | .region s vs rs =>
    .object [("kind", .str "region"), ("scope", scope s), ("variants", .list (vs.map variant)),
      ("contains", .list (rules rs))]
  | .header h =>
    .object [("kind", .str "header"), ("scope", scope h.scope), ("begin", pattern h.begin_),
      ("end", pattern h.finish), ("keywords", keywords h.keywords), ("title", title h.title)]

def rules : List Rule → List Value
  | [] => []
  | r :: rs => rule r :: rules rs

end

def grammar (g : Grammar) : Value :=
  .object [("name", .str g.name), ("aliases", .strings g.aliases),
    ("case_insensitive", .bool g.caseInsensitive), ("identifier", pattern g.identifier),
    ("keywords", keywords g.keywords), ("rules", .list (rules g.rules)),
    ("extensions", .strings g.extensions), ("mime_types", .strings g.mimeTypes)]

/-! ## Reading -/

section

variable (reader : Regex.Reader)

def readPattern (v : Value) : Decoded Pattern := do
  match Pattern.read (← Data.string v) reader with
  | .ok p => return p
  | .error _ => Data.fail .badPattern

def readScope (mode : Mode) (v : Value) : Decoded Scope := do
  return (Scope.ofName? (← Data.nameOf scopeNames mode v)).getD .plain

/-- A scope that may be null. The scopes of rules are only ever read after the rule around them was
read whole. -/
def readScope? (v : Value) : Decoded (Option Scope) :=
  match v with
  | .null => return none
  | v => return some (← readScope .whole v)

def strings : Mode → Value → Decoded (List String) := Data.listOf fun _ => Data.string

def keywordShape : Shape WordLists where
  name := "KeywordSets"
  fields := [("keyword", false), ("built_in", false), ("literal", false)]
  blank := ⟨[], [], []⟩
  set mode w field v :=
    match field with
    | "keyword" => return { w with keyword := ← strings mode v }
    | "built_in" => return { w with builtIn := ← strings mode v }
    | _ => return { w with literal := ← strings mode v }

def readKeywords (mode : Mode) (v : Value) : Decoded KeywordTable :=
  return (← keywordShape.decode mode v).table

def variantShape : Shape Variant where
  name := "RegionVariant"
  fields := [("begin", true), ("end", true), ("relevance", false)]
  blank := ⟨default, default, 0⟩
  set _ a field v :=
    match field with
    | "begin" => return { a with begin_ := ← readPattern reader v }
    | "end" => return { a with finish := ← readPattern reader v }
    | _ => return { a with relevance := ← Data.word32 v }

def titleShape : Shape TitleRule where
  name := "TitleRule"
  fields := [("pattern", true), ("relevance", false), ("ends_with_parent", false)]
  blank := ⟨default, 0, false⟩
  set _ t field v :=
    match field with
    | "pattern" => return { t with pattern := ← readPattern reader v }
    | "relevance" => return { t with relevance := ← Data.word32 v }
    | _ => return { t with endsWithParent := ← Data.bool v }

def lexemeShape : Shape (Option Scope × Pattern) where
  name := "LexemeRule"
  fields := [("scope", false), ("pattern", true)]
  blank := (none, default)
  set _ a field v :=
    match field with
    | "scope" => return (← readScope? v, a.2)
    | _ => return (a.1, ← readPattern reader v)

/-- A region whose nested rules are read by `nested`. -/
def regionShape (nested : Mode → Value → Decoded Rule) :
    Shape (Scope × List Variant × List Rule) where
  name := "RegionRule"
  fields := [("scope", true), ("variants", true), ("contains", false)]
  blank := (.plain, [], [])
  set mode a field v :=
    match field with
    | "scope" => return (← readScope .whole v, a.2)
    | "variants" => return (a.1, ← Data.listOf (variantShape reader).decode mode v, a.2.2)
    | _ => return (a.1, a.2.1, ← Data.listOf nested mode v)

def headerShape : Shape HeaderRule where
  name := "HeaderRule"
  fields := [("scope", true), ("begin", true), ("end", true), ("keywords", false), ("title", true)]
  blank := ⟨.plain, default, default, .empty, default⟩
  set mode h field v :=
    match field with
    | "scope" => return { h with scope := ← readScope .whole v }
    | "begin" => return { h with begin_ := ← readPattern reader v }
    | "end" => return { h with finish := ← readPattern reader v }
    | "keywords" => return { h with keywords := ← readKeywords mode v }
    | _ => return { h with title := ← (titleShape reader).decode mode v }

/-- A rule nested less than `n` deep: first its kind, then the rest, which is read whole. -/
def readRule : Nat → Mode → Value → Decoded Rule
  | 0, _, _ => Data.failFault .malformed
  | n + 1, mode, v => do
    let (kind, rest) ← Data.tagged "internally tagged enum MatchRule" "kind" kinds mode v
    match kind with
    | "lexeme" =>
      let (scope, pattern) ← (lexemeShape reader).decode .whole rest
      return .lexeme scope pattern
    | "region" =>
      let (scope, variants, contains) ← (regionShape reader (readRule n)).decode .whole rest
      return .region scope variants contains
    | _ => return .header (← (headerShape reader).decode .whole rest)

/-- As deep as rules can be nested in a text. -/
def ruleDepth : Nat := 128

end

def grammarShape (reader : Regex.Reader := Regex.Expr.read) : Shape Grammar where
  name := "GrammarDescriptor"
  fields := [("name", true), ("aliases", false), ("case_insensitive", false), ("identifier", true),
    ("keywords", false), ("rules", false), ("extensions", false), ("mime_types", false)]
  blank := ⟨"", [], false, default, .empty, [], [], []⟩
  set mode g field v :=
    match field with
    | "name" => return { g with name := ← Data.string v }
    | "aliases" => return { g with aliases := ← strings mode v }
    | "case_insensitive" => return { g with caseInsensitive := ← Data.bool v }
    | "identifier" => return { g with identifier := ← readPattern reader v }
    | "keywords" => return { g with keywords := ← readKeywords mode v }
    | "rules" => return { g with rules := ← Data.listOf (readRule reader ruleDepth) mode v }
    | "extensions" => return { g with extensions := ← strings mode v }
    | _ => return { g with mimeTypes := ← strings mode v }

end Grammar.Record

end Lexicolor
