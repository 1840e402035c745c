import Concordance.Json.Basic
import Concordance.Positional

set_option relaxedAutoImplicit false
set_option autoImplicit false

/-!
# Reading JSON

The reader takes a value off the front of a text and returns what is left of the text, or `none`
when the text starts with no value. It accepts the JSON grammar to the letter: no leading zeros,
no bare control characters in strings, no trailing commas.

## Main definitions

* `Concordance.Json.readString` — the rest of a string literal after its opening quote.
* `Concordance.Numeral.read` — a number.
* `Concordance.Json.read` — a text that is a single value.
-/

namespace Concordance

namespace Json

/-- The blanks between the parts of a value. -/
def isGap (c : Char) : Bool := c == ' ' || c == '\n' || c == '\t' || c == '\r'

/-- A text without the blanks at its start. -/
def skipGap (text : List Char) : List Char := text.dropWhile isGap

/-- The value of a hexadecimal digit. -/
def hexValue? (c : Char) : Option Nat :=
  if '0' ≤ c ∧ c ≤ '9' then some (c.toNat - 48)
  else if 'a' ≤ c ∧ c ≤ 'f' then some (c.toNat - 87)
  else if 'A' ≤ c ∧ c ≤ 'F' then some (c.toNat - 55)
  else none

/-- The code unit of four hexadecimal digits. -/
def hexUnit? (a b c d : Char) : Option Nat := do
  return ((← hexValue? a) * 16 + (← hexValue? b)) * 256 + (← hexValue? c) * 16 + (← hexValue? d)

/-- The character that a short escape stands for. -/
def shortEscape? (c : Char) : Option Char :=
  if c = '"' ∨ c = '\\' ∨ c = '/' then some c
  else if c = 'b' then some '\x08'
  else if c = 'f' then some '\x0c'
  else if c = 'n' then some '\n'
  else if c = 'r' then some '\r'
  else if c = 't' then some '\t'
  else none

/-- The code units of a string literal after its opening quote, and what follows its closing
quote. Characters stand for themselves; escaped halves of surrogate pairs are units of their
own. -/
def readUnits : List Char → Option (List Nat × List Char)
  | [] => none
  | c :: rest =>
    if c = '"' then some ([], rest)
    else if c = '\\' then
      match rest with
      | [] => none
      | e :: rest =>
        if e = 'u' then
          match rest with
          | h₁ :: h₂ :: h₃ :: h₄ :: rest => do
            let unit ← hexUnit? h₁ h₂ h₃ h₄
            let (units, rest) ← readUnits rest
            return (unit :: units, rest)
          | _ => none
        else do
          let c ← shortEscape? e
          let (units, rest) ← readUnits rest
          return (c.toNat :: units, rest)
    else if c.toNat < 32 then none
    else do
      let (units, rest) ← readUnits rest
      return (c.toNat :: units, rest)

/-- The text of code units: a high and a low surrogate make one character, and a surrogate
without its partner makes none. -/
def textOf? : List Nat → Option (List Char)
  | [] => some []
  | unit :: rest =>
    if 0xD800 ≤ unit ∧ unit < 0xDC00 then
      match rest with
      | low :: rest =>
        if 0xDC00 ≤ low ∧ low < 0xE000 then
          (textOf? rest).map
            (Char.ofNat (0x10000 + (unit - 0xD800) * 1024 + (low - 0xDC00)) :: ·)
        else none
      | [] => none
    else if 0xDC00 ≤ unit ∧ unit < 0xE000 then none
    else (textOf? rest).map (Char.ofNat unit :: ·)

/-- A string literal after its opening quote: its text, and what follows its closing quote. -/
def readString (text : List Char) : Option (Option (List Char) × List Char) :=
  (readUnits text).map fun (units, rest) => (textOf? units, rest)

/-- The digits at the start of a text, and what follows them. -/
def readDigits : List Char → List Nat × List Char
  | [] => ([], [])
  | c :: rest =>
    match Positional.digitOf? c with
    | some d => let (ds, rest) := readDigits rest; (d :: ds, rest)
    | none => ([], c :: rest)

end Json

namespace Numeral

/-- The digits after a point, if there is one. -/
def readFraction : List Char → Option (List Nat × List Char)
  | '.' :: rest =>
    match Json.readDigits rest with
    | ([], _) => none
    | (digits, rest) => some (digits, rest)
  | text => some ([], text)

/-- The sign of an exponent. -/
def readSign : List Char → ExponentSign × List Char
  | '+' :: rest => (.plus, rest)
  | '-' :: rest => (.minus, rest)
  | text => (.bare, text)

/-- An exponent, if there is one. -/
def readExponent : List Char → Option (Option (ExponentSign × List Nat) × List Char)
  | [] => some (none, [])
  | c :: rest =>
    if c = 'e' ∨ c = 'E' then
      let (sign, rest) := readSign rest
      match Json.readDigits rest with
      | ([], _) => none
      | (digits, rest) => some (some (sign, digits), rest)
    else some (none, c :: rest)

/-- A number at the start of a text. Its whole part is a zero or starts with another digit. -/
def read (text : List Char) : Option (Numeral × List Char) := do
  let negative := text.head? = some '-'
  let (whole, text) := Json.readDigits (if negative then text.tail else text)
  if whole = [] ∨ whole.head? = some 0 ∧ whole ≠ [0] then none
  let (fraction, text) ← readFraction text
  let (exponent, text) ← readExponent text
  return ({ negative, whole, fraction, exponent }, text)

end Numeral

namespace Json

mutual

/-- A value at the start of a text. `fuel` bounds how deep values are nested and how many items
they hold; the length of the text is enough. -/
def readValue : Nat → List Char → Option (Json × List Char)
  | 0, _ => none
  | fuel + 1, text =>
    match skipGap text with
    | 'n' :: 'u' :: 'l' :: 'l' :: rest => some (.null, rest)
    | 't' :: 'r' :: 'u' :: 'e' :: rest => some (.bool true, rest)
    | 'f' :: 'a' :: 'l' :: 's' :: 'e' :: rest => some (.bool false, rest)
    | '"' :: rest => (readString rest).map fun (s, rest) => (.string s, rest)
    | '[' :: rest =>
      match skipGap rest with
      | ']' :: rest => some (.array [], rest)
      | rest => (readItems fuel rest).map fun (items, rest) => (.array items, rest)
    | '\x7b' :: rest =>
      match skipGap rest with
      | '\x7d' :: rest => some (.object [], rest)
      | rest => (readMembers fuel rest).map fun (members, rest) => (.object members, rest)
    | rest => (Numeral.read rest).map fun (n, rest) => (.number n, rest)

/-- The items of an array up to its closing bracket. -/
def readItems : Nat → List Char → Option (List Json × List Char)
  | 0, _ => none
  | fuel + 1, text => do
    let (item, rest) ← readValue fuel text
    match skipGap rest with
    | ',' :: rest =>
      let (items, rest) ← readItems fuel rest
      return (item :: items, rest)
    | ']' :: rest => return ([item], rest)
    | _ => none

/-- The members of an object up to its closing brace. -/
def readMembers : Nat → List Char → Option (List (Option (List Char) × Json) × List Char)
  | 0, _ => none
  | fuel + 1, text =>
    match skipGap text with
    | '"' :: rest => do
      let (name, rest) ← readString rest
      match skipGap rest with
      | ':' :: rest =>
        let (value, rest) ← readValue fuel rest
        match skipGap rest with
        | ',' :: rest =>
          let (members, rest) ← readMembers fuel rest
          return ((name, value) :: members, rest)
        | '\x7d' :: rest => return ([(name, value)], rest)
        | _ => none
      | _ => none
    | _ => none

end

/-- A text that is a single value, with blanks around it. -/
def read (text : List Char) : Option Json := do
  let (value, rest) ← readValue (text.length + 1) text
  if skipGap rest = [] then some value else none

end Json

end Concordance
