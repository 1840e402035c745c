set_option relaxedAutoImplicit false
set_option autoImplicit false

/-!
# Bytes

File contents and lines are lists of bytes. This file holds what the library does with them:
encoding text, trimming padding, cutting at line breaks.

## Main definitions

* `Concordance.Bytes` — a list of bytes.
* `Concordance.Bytes.ofText`, `toText?` — the encoding of characters in bytes and back.
* `Concordance.Bytes.trimEnd` — bytes without the blanks at their end.
* `Concordance.Bytes.lines` — the pieces between line feeds.
-/

namespace Concordance

/-- A sequence of bytes. -/
abbrev Bytes := List UInt8

namespace Bytes

/-- The bytes that encode a text. -/
def ofText (text : List Char) : Bytes := text.flatMap String.utf8EncodeChar

/-- The text that bytes encode, if they encode one. -/
def toText? (bytes : Bytes) : Option (List Char) :=
  (String.fromUTF8? ⟨bytes.toArray⟩).map String.toList

/-- The line feed, which ends every line. -/
def lineFeed : UInt8 := 10

/-- The blank that lines are padded with. -/
def blank : UInt8 := 32

/-- Blanks among the first 128 characters: space, tab, line feed, form feed and carriage
return. -/
def isBlank (b : UInt8) : Bool := b == 32 || b == 9 || b == 10 || b == 12 || b == 13

/-- The bytes without the blanks at their end. -/
def trimEnd (bytes : Bytes) : Bytes := (bytes.reverse.dropWhile isBlank).reverse

/-- The pieces between line feeds; what follows the last line feed is a piece too. -/
def lines : Bytes → List Bytes
  | [] => [[]]
  | b :: rest =>
    if b = lineFeed then [] :: lines rest
    else match lines rest with
      | [] => [[b]]
      | piece :: pieces => (b :: piece) :: pieces

/-- The bytes cut into chunks of `size`, the last one shorter if they do not divide evenly. No
chunk is empty, so a size of zero cuts like a size of one. -/
def chunks (size : Nat) : Bytes → List Bytes
  | [] => []
  | b :: rest => (b :: rest.take (size - 1)) :: chunks size (rest.drop (size - 1))
  termination_by bytes => bytes.length
  decreasing_by simp only [List.length_drop, List.length_cons]; omega

end Bytes

end Concordance
