import Concordance.Text.Case
import Concordance.Text.Words

set_option relaxedAutoImplicit false
set_option autoImplicit false

/-!
# Tokens

A tokenizer cuts a text into its words. A token remembers which word of the text it is and where
the word starts.

## Main definitions

* `Concordance.Token` — a word of a text.
* `Concordance.Tokenizer` — how a text is cut.
* `Concordance.Tokenizer.tokens` — the tokens of a text.
-/

namespace Concordance

/-- A word of a text. -/
structure Token where
  text : String
  /-- The number of tokens before it. -/
  position : Nat
  /-- The byte at which it starts. -/
  offset : Nat
  deriving DecidableEq, Repr

/-- How a text is cut. -/
structure Tokenizer where
  /-- Whether tokens are in small letters. -/
  lowercase : Bool := false
  /-- The number of bytes beyond which a word is passed over. -/
  maxLength : Nat := 255
  deriving DecidableEq, Repr

namespace Tokenizer

/-- The text of the token of a word. -/
def tokenText (tokenizer : Tokenizer) (word : List Char) : String :=
  if tokenizer.lowercase then Text.lower (String.ofList word) else String.ofList word

/-- The words of a text that become tokens, with their offsets. -/
def kept (tokenizer : Tokenizer) (text : String) : List (Nat × List Char) :=
  (Text.words text).filter fun word => Text.byteLength word.2 ≤ tokenizer.maxLength

/-- The tokens of a text. Words that are too long take no position. -/
def tokens (tokenizer : Tokenizer) (text : String) : List Token :=
  (tokenizer.kept text).zipIdx.map fun (word, i) => ⟨tokenizer.tokenText word.2, i, word.1⟩

end Tokenizer

end Concordance
