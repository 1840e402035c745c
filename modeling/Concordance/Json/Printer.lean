import Concordance.Json.Basic
import Concordance.Positional

set_option relaxedAutoImplicit false
set_option autoImplicit false

/-!
# Writing JSON

The compact written form: no blanks, and in strings nothing escaped but quotes, backslashes and
control characters.

## Main definitions

* `Concordance.Json.quote` — a text as a string literal.
* `Concordance.Numeral.render` — a number in its written form.
* `Concordance.Json.render` — a value in its written form.
-/

namespace Concordance

/-- The hexadecimal digit `d`, in small letters. -/
def Json.hexDigit (d : Nat) : Char := if d < 10 then Char.ofNat (48 + d) else Char.ofNat (87 + d)

/-- A character inside a string literal. Control characters without a short escape are written
with four hexadecimal digits. -/
def Json.escape (c : Char) : List Char :=
  if c = '"' then ['\\', '"']
  else if c = '\\' then ['\\', '\\']
  else if c = '\x08' then ['\\', 'b']
  else if c = '\x0c' then ['\\', 'f']
  else if c = '\n' then ['\\', 'n']
  else if c = '\r' then ['\\', 'r']
  else if c = '\t' then ['\\', 't']
  else if c.toNat < 32 then
    ['\\', 'u', '0', '0', Json.hexDigit (c.toNat / 16), Json.hexDigit (c.toNat % 16)]
  else [c]

/-- The characters of a text inside a string literal. -/
def Json.escaped (text : List Char) : List Char := text.flatMap Json.escape

/-- A text as a string literal. -/
def Json.quote (text : List Char) : List Char := '"' :: Json.escaped text ++ ['"']

/-- A number in its written form. -/
def Numeral.render (n : Numeral) : List Char :=
  (if n.negative then ['-'] else []) ++ n.whole.map Positional.digitChar ++
    (if n.fraction = [] then [] else '.' :: n.fraction.map Positional.digitChar) ++
    match n.exponent with
    | none => []
    | some (sign, digits) =>
      'e' :: (match sign with | .bare => [] | .plus => ['+'] | .minus => ['-']) ++
        digits.map Positional.digitChar

mutual

/-- A value in its written form. -/
def Json.render : Json → List Char
  | .null => ['n', 'u', 'l', 'l']
  | .bool true => ['t', 'r', 'u', 'e']
  | .bool false => ['f', 'a', 'l', 's', 'e']
  | .number n => n.render
  | .string text => Json.quote (text.getD [])
  | .array items => '[' :: Json.renderItems items ++ [']']
  | .object members => '\x7b' :: Json.renderMembers members ++ ['\x7d']

/-- The items of an array, separated by commas. -/
def Json.renderItems : List Json → List Char
  | [] => []
  | [item] => item.render
  | item :: next :: rest => item.render ++ ',' :: Json.renderItems (next :: rest)

/-- The members of an object, separated by commas. -/
def Json.renderMembers : List (Option (List Char) × Json) → List Char
  | [] => []
  | [member] => Json.renderMember member
  | member :: next :: rest =>
    Json.renderMember member ++ ',' :: Json.renderMembers (next :: rest)

/-- A member of an object: its name and its value. -/
def Json.renderMember : Option (List Char) × Json → List Char
  | (name, value) => Json.quote (name.getD []) ++ ':' :: value.render

end

end Concordance
