import Concordance.Text.Letters
import Concordance.Text.Marks

set_option relaxedAutoImplicit false
set_option autoImplicit false

/-!
# Word break classes

The classes of characters that the rules for word boundaries of the Unicode text segmentation
standard speak of.

## Main definitions

* `Concordance.Text.WordBreak` — the classes.
* `Concordance.Text.WordBreak.of` — the class of a character.
* `Concordance.Text.pictographs` — emoji and the symbols that behave like them.
-/

namespace Concordance.Text

/-- The word break classes. -/
inductive WordBreak
  | carriageReturn
  | lineFeed
  | newline
  | extend
  | joiner
  | format
  | regional
  | katakana
  | hebrew
  | letter
  | singleQuote
  | doubleQuote
  | midNumLet
  | midLetter
  | midNum
  | numeric
  | extendNumLet
  | space
  | other
  deriving DecidableEq, Repr

/-- The Katakana letters and the marks written among them. -/
def katakanaLetters : Ranges :=
  [(0x3031, 0x3035), (0x309B, 0x309C), (0x30A0, 0x30FA), (0x30FC, 0x30FF), (0x31F0, 0x31FF),
   (0x32D0, 0x32FE), (0x3300, 0x3357), (0xFF66, 0xFF9D), (0x1AFF0, 0x1AFF3), (0x1AFF5, 0x1AFFB),
   (0x1AFFD, 0x1AFFE), (0x1B000, 0x1B000), (0x1B120, 0x1B122), (0x1B155, 0x1B155),
   (0x1B164, 0x1B167)]

/-- The Hebrew letters. -/
def hebrewLetters : Ranges :=
  [(0x5D0, 0x5EA), (0x5EF, 0x5F2), (0xFB1D, 0xFB1D), (0xFB1F, 0xFB28), (0xFB2A, 0xFB36),
   (0xFB38, 0xFB3C), (0xFB3E, 0xFB3E), (0xFB40, 0xFB41), (0xFB43, 0xFB44), (0xFB46, 0xFB4F)]

/-- Stretches of code points whose letters do not join into words: ideographs, Hiragana, and the
scripts of South East Asia that are written without spaces. -/
def unspaced : Ranges :=
  [(0xE01, 0xE30), (0xE32, 0xE33), (0xE40, 0xE46), (0xE81, 0xEB0), (0xEB2, 0xEB3), (0xEBD, 0xEC6),
   (0xEDC, 0xEDF), (0x1000, 0x102A), (0x103F, 0x1055), (0x105A, 0x105D), (0x1061, 0x1061),
   (0x1065, 0x1066), (0x106E, 0x1070), (0x1075, 0x1081), (0x108E, 0x108E), (0x1780, 0x17B3),
   (0x17D7, 0x17DC), (0x1950, 0x19C9), (0x1A20, 0x1A54), (0x1AA7, 0x1AA7), (0x3006, 0x3029),
   (0x3038, 0x303A), (0x3041, 0x309F), (0x3400, 0x9FFF), (0xA9E0, 0xA9E4), (0xA9E6, 0xA9FE),
   (0xAA60, 0xAA7A), (0xAA7E, 0xAAAF), (0xAAB1, 0xAAB1), (0xAAB5, 0xAAB6), (0xAAB9, 0xAABD),
   (0xAAC0, 0xAADD), (0xF900, 0xFAD9), (0x11700, 0x1171A), (0x11740, 0x11746), (0x17000, 0x18D08),
   (0x1B001, 0x1B11F), (0x1B132, 0x1B152), (0x1B170, 0x1B2FB), (0x20000, 0x323AF)]

/-- Signs that join words like letters do without being letters. -/
def extraLetters : Ranges :=
  [(0x2C2, 0x2C5), (0x2D2, 0x2D7), (0x2DE, 0x2DF), (0x2E5, 0x2EB), (0x2ED, 0x2ED), (0x2EF, 0x2FF),
   (0x55A, 0x55C), (0x55E, 0x55E), (0x58A, 0x58A), (0x5F3, 0x5F3), (0xA708, 0xA716),
   (0xA720, 0xA721), (0xA789, 0xA78A), (0xAB5B, 0xAB5B)]

/-- The spaces that run together. -/
def wordSpaces : Ranges :=
  [(0x20, 0x20), (0x1680, 0x1680), (0x2000, 0x2006), (0x2008, 0x200A), (0x205F, 0x205F),
   (0x3000, 0x3000)]

/-- Underscores and their like, which join letters and digits. -/
def connectors : Ranges :=
  [(0x5F, 0x5F), (0x202F, 0x202F), (0x203F, 0x2040), (0x2054, 0x2054), (0xFE33, 0xFE34),
   (0xFE4D, 0xFE4F), (0xFF3F, 0xFF3F)]

/-- Emoji, and the symbols and reserved code points that behave like them. -/
def pictographs : Ranges :=
  [(0xA9, 0xA9), (0xAE, 0xAE), (0x203C, 0x203C), (0x2049, 0x2049), (0x2122, 0x2122),
   (0x2139, 0x2139), (0x2194, 0x2199), (0x21A9, 0x21AA), (0x231A, 0x231B), (0x2328, 0x2328),
   (0x2388, 0x2388), (0x23CF, 0x23CF), (0x23E9, 0x23F3), (0x23F8, 0x23FA), (0x24C2, 0x24C2),
   (0x25AA, 0x25AB), (0x25B6, 0x25B6), (0x25C0, 0x25C0), (0x25FB, 0x25FE), (0x2600, 0x2605),
   (0x2607, 0x2612), (0x2614, 0x2685), (0x2690, 0x2705), (0x2708, 0x2712), (0x2714, 0x2714),
   (0x2716, 0x2716), (0x271D, 0x271D), (0x2721, 0x2721), (0x2728, 0x2728), (0x2733, 0x2734),
   (0x2744, 0x2744), (0x2747, 0x2747), (0x274C, 0x274C), (0x274E, 0x274E), (0x2753, 0x2755),
   (0x2757, 0x2757), (0x2763, 0x2767), (0x2795, 0x2797), (0x27A1, 0x27A1), (0x27B0, 0x27B0),
   (0x27BF, 0x27BF), (0x2934, 0x2935), (0x2B05, 0x2B07), (0x2B1B, 0x2B1C), (0x2B50, 0x2B50),
   (0x2B55, 0x2B55), (0x3030, 0x3030), (0x303D, 0x303D), (0x3297, 0x3297), (0x3299, 0x3299),
   (0x1F000, 0x1F0FF), (0x1F10D, 0x1F10F), (0x1F12F, 0x1F12F), (0x1F16C, 0x1F171),
   (0x1F17E, 0x1F17F), (0x1F18E, 0x1F18E), (0x1F191, 0x1F19A), (0x1F1AD, 0x1F1E5),
   (0x1F201, 0x1F20F), (0x1F21A, 0x1F21A), (0x1F22F, 0x1F22F), (0x1F232, 0x1F23A),
   (0x1F23C, 0x1F23F), (0x1F249, 0x1F3FA), (0x1F400, 0x1F53D), (0x1F546, 0x1F64F),
   (0x1F680, 0x1F6FF), (0x1F774, 0x1F77F), (0x1F7D5, 0x1F7FF), (0x1F80C, 0x1F80F),
   (0x1F848, 0x1F84F), (0x1F85A, 0x1F85F), (0x1F888, 0x1F88F), (0x1F8AE, 0x1F8FF),
   (0x1F90C, 0x1F93A), (0x1F93C, 0x1F945), (0x1F947, 0x1FAFF), (0x1FC00, 0x1FFFD)]

/-- Signs that join the letters around them. -/
def midLetters : Ranges :=
  [(0x3A, 0x3A), (0xB7, 0xB7), (0x387, 0x387), (0x55F, 0x55F), (0x5F4, 0x5F4), (0x2027, 0x2027),
   (0xFE13, 0xFE13), (0xFE55, 0xFE55), (0xFF1A, 0xFF1A)]

/-- Signs that join the digits around them. -/
def midNumbers : Ranges :=
  [(0x2C, 0x2C), (0x3B, 0x3B), (0x37E, 0x37E), (0x589, 0x589), (0x60C, 0x60D), (0x66C, 0x66C),
   (0x7F8, 0x7F8), (0x2044, 0x2044), (0xFE10, 0xFE10), (0xFE14, 0xFE14), (0xFE50, 0xFE50),
   (0xFE54, 0xFE54), (0xFF0C, 0xFF0C), (0xFF1B, 0xFF1B)]

/-- Signs that join both letters and digits around them. -/
def midBoth : Ranges :=
  [(0x2E, 0x2E), (0x2018, 0x2019), (0x2024, 0x2024), (0xFE52, 0xFE52), (0xFF07, 0xFF07),
   (0xFF0E, 0xFF0E)]

/-- Marks and other characters that belong to the character before them. -/
def isExtender (c : Char) : Bool :=
  hangingMarks.has c || spacingMarks.has c || otherExtenders.has c

/-- Letters that join into words: all but those of scripts written without spaces. -/
def isWordLetter (c : Char) : Bool :=
  letters.has c && !unspaced.has c || extraLetters.has c

/-- The word break class of a character. -/
def WordBreak.of (c : Char) : WordBreak :=
  if c = '\r' then .carriageReturn
  else if c = '\n' then .lineFeed
  else if c = '\x0b' || c = '\x0c' || c = '\u0085' || c = '\u2028' || c = '\u2029' then .newline
  else if c = '\u200d' then .joiner
  else if c = '\'' then .singleQuote
  else if c = '"' then .doubleQuote
  else if midBoth.has c then .midNumLet
  else if midLetters.has c then .midLetter
  else if midNumbers.has c then .midNum
  else if wordSpaces.has c then .space
  else if connectors.has c then .extendNumLet
  else if decimalDigits.has c || c = '\u066b' then .numeric
  else if isExtender c then .extend
  else if formatControls.has c then .format
  else if katakanaLetters.has c then .katakana
  else if hebrewLetters.has c then .hebrew
  else if isWordLetter c then .letter
  else if 0x1F1E6 ≤ c.toNat && c.toNat ≤ 0x1F1FF then .regional
  else .other

/-- Whether a pictograph, which a joiner binds to what comes before it. -/
def isPictograph (c : Char) : Bool := pictographs.has c

end Concordance.Text
