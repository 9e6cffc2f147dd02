/-
Words of a text outside rules. A gap is cut out of the text and split with the identifier
pattern, as a text of its own; at the top level what lies between the words is plain.
-/
import Lexicolor.Grammar
import Lexicolor.Token

namespace Lexicolor.Scan

open Text Regex

/-- The words between two places. -/
def wordsIn (g : Grammar) (from_ to_ : Place) : List Span :=
  ((g.identifier.allMatches (from_.cut to_)).filter (!·.isEmpty)).map (·.span)

/-- Tokens for the words, with plain tokens for what lies before and between them, from a place
to another. -/
def fillGap (g : Grammar) (to_ : Place) : Place → List Span → List Token
  | p, [] => if p.offset < to_.offset then [.ofSpan .plain ⟨p, to_⟩ []] else []
  | p, w :: ws =>
    let token := Token.ofSpan (g.wordScope w.text) w []
    if p.offset < w.start.offset then .ofSpan .plain ⟨p, w.start⟩ [] :: token :: fillGap g to_ w.stop ws
    else token :: fillGap g to_ w.stop ws

/-- Tokens that cover a gap exactly. -/
def gapTokens (g : Grammar) (from_ to_ : Place) : List Token :=
  fillGap g to_ (from_.cut to_) (wordsIn g from_ to_)

/-- Tokens for the words of a gap that a table lists; everything else is dropped. -/
def listedWords (g : Grammar) (table : KeywordTable) (from_ to_ : Place) : List Token :=
  (wordsIn g from_ to_).filterMap fun w =>
    (table.lookup w.text g.caseInsensitive).map fun c => .ofSpan c.scope w []

/-- The end of the word, among the words of all that follows a place, that begins before another
place and runs past it. -/
def wordAcross (g : Grammar) (from_ at_ : Place) : Option Place :=
  let words := g.identifier.allMatches ⟨from_.offset, none, from_.rest⟩
  let early := words.takeWhile fun m => m.start.offset < at_.offset
  (early.find? fun m => at_.offset < m.stop.offset).map (·.stop)

end Lexicolor.Scan
