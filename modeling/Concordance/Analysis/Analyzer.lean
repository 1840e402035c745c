import Concordance.Analysis.Filter
import Concordance.Error

set_option relaxedAutoImplicit false
set_option autoImplicit false

/-!
# Analyzers

An analyzer takes the terms of a text that are looked up: a tokenizer cuts the text, and a chain
of filters brings the tokens into a common form. A term of a query goes through the same filters,
so that it meets the terms of the documents.

## Main definitions

* `Concordance.Analyzer` — a tokenizer and a chain of filters.
* `Concordance.Analyzer.terms`, `rawTerms` — the terms of a text.
* `Concordance.Analyzer.normalize` — the form in which a term is looked up.
* `Concordance.Analyzer.named` — the analyzers that schemas can name.
-/

namespace Concordance

/-- A tokenizer and a chain of filters. -/
structure Analyzer where
  name : String
  tokenizer : Tokenizer := {}
  filters : List Filter := []
  deriving DecidableEq, Repr

namespace Analyzer

/-- The elements of a list, each at its first place only. -/
def firstOccurrences {α : Type} [DecidableEq α] : List α → List α
  | [] => []
  | a :: rest => a :: (firstOccurrences rest).filter (· ≠ a)

/-- What the filters make of tokens. -/
def refine (analyzer : Analyzer) (tokens : List Token) : List Token :=
  analyzer.filters.foldl (fun tokens filter => filter.run tokens) tokens

/-- The tokens of a text behind the last filter. -/
def analyze (analyzer : Analyzer) (text : String) : List Token :=
  analyzer.refine (analyzer.tokenizer.tokens text)

/-- The tokens of a text before the first filter, each once. -/
def rawTerms (analyzer : Analyzer) (text : String) : List String :=
  firstOccurrences ((analyzer.tokenizer.tokens text).map Token.text)

/-- The terms of a text, each once. -/
def terms (analyzer : Analyzer) (text : String) : List String :=
  firstOccurrences ((analyzer.analyze text).map Token.text)

/-- The form in which a term is looked up; nothing if a filter takes it out. The term is not cut
into words. -/
def normalize (analyzer : Analyzer) (term : String) : Option String :=
  (analyzer.refine [⟨term, 0, 0⟩]).head?.bind fun token => Filter.nonempty? token.text

/-- Stems of English words, without symbols and common words. -/
def standard : Analyzer where
  name := "standard_english"
  filters := [.lowercaseAlphanumeric, .stopWords Filter.commonWords, .stemmer]

/-- Words in small letters. -/
def simple : Analyzer where
  name := "simple"
  filters := [.lowercase]

/-- The analyzer that a schema names. -/
def named (name : String) : Except Error Analyzer :=
  if name = "standard" then .ok standard
  else if name = "simple" then .ok simple
  else .error (.unknownAnalyzer name)

end Analyzer

end Concordance
