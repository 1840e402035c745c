import Concordance.Analysis.Stem
import Concordance.Analysis.Token

set_option relaxedAutoImplicit false
set_option autoImplicit false

/-!
# Filters

A filter brings tokens into the form in which they are compared. It looks at each token by
itself, and lets it pass, changes it or takes it out.

## Main definitions

* `Concordance.Filter` — the filters.
* `Concordance.Filter.text?` — what becomes of the text of a token.
* `Concordance.Filter.run` — what becomes of tokens.
-/

namespace Concordance

/-- A filter of tokens. -/
inductive Filter
  /-- Small letters. -/
  | lowercase
  /-- Letters and numerals only, and small letters. -/
  | lowercaseAlphanumeric
  /-- No tokens that are among certain words. -/
  | stopWords (words : List String)
  /-- Stems of English words. -/
  | stemmer
  deriving DecidableEq, Repr

namespace Filter

/-- The words of English that are too common to be looked up. -/
def commonWords : List String :=
  ["a", "an", "and", "are", "as", "at", "be", "but", "by", "for", "from", "has", "he", "in", "is",
   "it", "its", "of", "on", "or", "that", "the", "this", "to", "was", "were", "will", "with"]

/-- The name of a filter. -/
def name : Filter → String
  | lowercase => "lowercase"
  | lowercaseAlphanumeric => "lowercase_alphanumeric"
  | stopWords _ => "stop_words"
  | stemmer => "stemmer"

/-- A text, unless it is empty. -/
def nonempty? (text : String) : Option String := if text = "" then none else some text

/-- The small form of the letters and numerals of a text, each by itself. -/
def alphanumericOnly (text : String) : String :=
  String.ofList ((text.toList.filter Text.isAlphanumeric).flatMap Text.lowerChar)

/-- What becomes of the text of a token; nothing if the token is taken out. Changes that leave
nothing of a token take it out. -/
def text? : Filter → String → Option String
  | lowercase, text => nonempty? (Text.lower text)
  | lowercaseAlphanumeric, text => nonempty? (alphanumericOnly text)
  | stopWords words, text => if words.contains text then none else some text
  | stemmer, text => nonempty? (Stem.stem text)

/-- What becomes of tokens. -/
def run (filter : Filter) (tokens : List Token) : List Token :=
  tokens.filterMap fun token => (filter.text? token.text).map fun text => { token with text }

end Filter

end Concordance
