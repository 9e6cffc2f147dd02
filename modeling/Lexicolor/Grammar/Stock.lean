/-
Rules that grammars share: comments that run to the end of the line, decimal numbers,
backslash escapes, quoted strings and headers that begin with an anchor word. Each pattern is
given as its text and as the expression that the text writes.
-/
import Lexicolor.Grammar

namespace Lexicolor.Stock

open Regex

def thaiLetter : CharSet :=
  .unions [.range 'ก' '๛', .range 'a' 'z', .range 'A' 'Z', .single '_']

def thaiLetterOrDigit : CharSet :=
  .unions [.range 'ก' '๛', .range 'a' 'z', .range 'A' 'Z', .range '0' '9', .single '_']

/-- Words of Thai script, Latin letters, digits and underscores that begin with no digit. -/
def identifier : Pattern where
  source := "[ก-๛a-zA-Z_][ก-๛a-zA-Z0-9_]*"
  expr := .seq (.one thaiLetter) (.rep (.one thaiLetterOrDigit) 0 none true)

def commentPattern : Pattern where
  source := "#[^\\r\\n]*"
  expr := .seq (.one (.single '#')) (.rep (.one (.compl (.union (.single '\r') (.single '\n')))) 0 none true)

def digits : Expr := .rep (.one (.range '0' '9')) 1 none true

def numberPattern : Pattern where
  source := "\\b[0-9]+(?:\\.[0-9]+)?"
  expr := .seq (.seq (.anchor (.wordEdge false)) digits)
    (.rep (.seq (.one (.single '.')) digits) 0 (some 1) true)

def escapePattern : Pattern where
  source := "\\\\(?s:.)"
  expr := .seq (.one (.single '\\')) (.one .any)

def colon : Pattern where
  source := ":"
  expr := .one (.single ':')

def titlePattern : Pattern where
  source := "\\s+(?P<title>" ++ identifier.source ++ ")"
  expr := .seq (.rep (.one .space) 1 none true) (.group (some "title") identifier.expr)

theorem read_identifier : (Expr.read identifier.source).toOption = some identifier.expr := by decide +kernel

theorem read_commentPattern : (Expr.read commentPattern.source).toOption = some commentPattern.expr := by decide +kernel

theorem read_numberPattern : (Expr.read numberPattern.source).toOption = some numberPattern.expr := by decide +kernel

theorem read_escapePattern : (Expr.read escapePattern.source).toOption = some escapePattern.expr := by decide +kernel

theorem read_colon : (Expr.read colon.source).toOption = some colon.expr := by decide +kernel

theorem read_titlePattern : (Expr.read titlePattern.source).toOption = some titlePattern.expr := by decide +kernel

/-- The expressions of the characters of a text. -/
def spelled (text : String) : List Expr := text.toList.map fun c => .one (.single c)

/-- The pattern that matches a text as it stands. -/
def literal (text : String) : Pattern where
  source := Pattern.escape text
  expr := .sequence (spelled text)

/-- The pattern that matches a text between two word edges. -/
def wholeWord (text : String) : Pattern where
  source := "\\b" ++ Pattern.escape text ++ "\\b"
  expr := .sequence (.anchor (.wordEdge false) :: spelled text ++ [.anchor (.wordEdge false)])

def hashComment : Rule := .lexeme (some .comment) commentPattern

def number : Rule := .lexeme (some .number) numberPattern

/-- A backslash and the character after it. -/
def backslashEscape : Rule := .lexeme none escapePattern

/-- The variant with the same text at both ends. -/
def quotedBy (delimiter : String) (relevance : Nat) : Variant :=
  ⟨literal delimiter, literal delimiter, relevance⟩

/-- Strings between quotes; three quotes in a row are taken together. -/
def quotedString : Rule :=
  .region .string [quotedBy "'''" 10, quotedBy "\"\"\"" 10, quotedBy "'" 0, quotedBy "\"" 0]
    [backslashEscape]

/-- A header from the anchor to the next colon, with the name it declares as title. -/
def blockHeader (scope : Scope) (anchor : String) : Rule :=
  .header
    { scope
      begin_ := wholeWord anchor
      finish := colon
      keywords := KeywordTable.empty.withWords .keyword anchor
      title := ⟨titlePattern, 0, true⟩ }

end Lexicolor.Stock
