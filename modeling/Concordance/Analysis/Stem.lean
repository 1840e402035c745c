set_option relaxedAutoImplicit false
set_option autoImplicit false

/-!
# English stems

The stem of an English word is found by taking suffixes off in a fixed order of steps. A suffix
goes only if enough of the word stands before it; how much is enough is measured by two
positions. The first region of a word starts behind the first consonant that follows a vowel, and
the second region starts at the same place of the first region.

While a word is worked on, a `y` that sounds as a consonant is written `Y`.

## Main definitions

* `Concordance.Stem.Regions` — where the two regions of a word start.
* `Concordance.Stem.Rule` — a suffix, what takes its place, and when.
* `Concordance.Stem.stem` — the stem of a word.
-/

namespace Concordance.Stem

/-- Whether a letter is a vowel. -/
def isVowel (c : Char) : Bool := "aeiouy".toList.contains c

/-- Where the two regions of a word start. -/
structure Regions where
  first : Nat
  second : Nat
  deriving DecidableEq, Repr

/-- The position behind the first consonant that follows a vowel. -/
def pastSyllable? (word : List Char) : Option Nat := do
  let i ← word.findIdx? isVowel
  let j ← (word.drop (i + 1)).findIdx? fun c => !isVowel c
  return i + j + 2

/-- Starts of words after which the first region begins whatever the letters. -/
def wholeStarts : List (List Char) := ["gener".toList, "commun".toList, "arsen".toList]

/-- Where the first region of a word starts, if it has one. -/
def firstRegion? (word : List Char) : Option Nat :=
  match wholeStarts.find? (·.isPrefixOf word) with
  | some start => some start.length
  | none => pastSyllable? word

/-- The regions of a word. A region that the word does not have starts at its end. -/
def regions (word : List Char) : Regions :=
  match firstRegion? word with
  | none => ⟨word.length, word.length⟩
  | some i => ⟨i, ((pastSyllable? (word.drop i)).map (i + ·)).getD word.length⟩

/-- Whether a word ends in a short syllable: a vowel and a consonant other than `w`, `x` and `Y`
behind a consonant, or a vowel and a consonant that are the whole word. -/
def endsShort (word : List Char) : Bool :=
  match word.reverse with
  | [c, v] => isVowel v && !isVowel c
  | c :: v :: b :: _ => !isVowel b && isVowel v && !isVowel c && !"wxY".toList.contains c
  | _ => false

/-- A word without a suffix, if it ends with it. -/
def without? (suffix word : List Char) : Option (List Char) :=
  if suffix.isSuffixOf word then some (word.take (word.length - suffix.length)) else none

/-- The first of several suffixes that a word ends with, and what stands before it. -/
def firstSuffix? (suffixes : List String) (word : List Char) : Option (String × List Char) :=
  suffixes.findSome? fun suffix => (without? suffix.toList word).map (suffix, ·)

/-- A suffix and what takes its place, provided it lies in a region and follows certain
letters. -/
structure Rule where
  suffix : String
  replacement : String
  /-- The letters one of which has to stand before the suffix; any may if none are listed. -/
  after : String := ""
  /-- Whether the suffix has to lie in the second region rather than the first. -/
  second : Bool := false
  deriving DecidableEq, Repr

/-- Whether a rule's conditions hold for what stands before its suffix. -/
def Rule.applies (rule : Rule) (regions : Regions) (rest : List Char) : Bool :=
  (if rule.second then regions.second else regions.first) ≤ rest.length &&
    (rule.after == "" || (rest.getLast?.any fun c => rule.after.toList.contains c))

/-- One step over a table that lists longer suffixes before shorter ones: only the longest suffix
of the word counts, and the word stays as it is if the conditions for that one fail. -/
def step (rules : List Rule) (regions : Regions) (word : List Char) : List Char :=
  let found := rules.findSome? fun rule => (without? rule.suffix.toList word).map (rule, ·)
  match found with
  | some (rule, rest) =>
    if rule.applies regions rest then rest ++ rule.replacement.toList else word
  | none => word

/-- Whole words with stems of their own. -/
def irregular : List (String × String) :=
  [("skis", "ski"), ("skies", "sky"), ("dying", "die"), ("lying", "lie"), ("tying", "tie"),
   ("idly", "idl"), ("gently", "gentl"), ("ugly", "ugli"), ("early", "earli"), ("only", "onli"),
   ("singly", "singl"), ("sky", "sky"), ("news", "news"), ("howe", "howe"), ("atlas", "atlas"),
   ("cosmos", "cosmos"), ("bias", "bias"), ("andes", "andes")]

/-- Words that keep what looks like an ending, once a plural ending is off. -/
def complete : List String :=
  ["inning", "outing", "canning", "herring", "earring", "proceed", "exceed", "succeed"]

/-- The letters with every consonant `y` as `Y`: one that follows a vowel. The first component
tells whether the letter before is a vowel. -/
def markConsonants : Bool → List Char → List Char
  | _, [] => []
  | afterVowel, c :: rest =>
    let c := if c = 'y' ∧ afterVowel then 'Y' else c
    c :: markConsonants (isVowel c) rest

/-- A word with its consonants marked and without an apostrophe in front. At the start of a word
`y` is a consonant too. -/
def prepare (word : List Char) : List Char :=
  markConsonants true (match word with | '\'' :: rest => rest | _ => word)

/-- Whether a word has a `y` that `prepare` marks. -/
def hasMarks (word : List Char) : Bool := (prepare word).count 'Y' != word.count 'Y'

/-- A word without an ending of possession. -/
def dropPossessive (word : List Char) : List Char :=
  match firstSuffix? ["'s'", "'s", "'"] word with
  | some (_, rest) => rest
  | none => word

/-- A word without an ending of the plural. -/
def dropPlural (word : List Char) : List Char :=
  match firstSuffix? ["sses", "ied", "ies", "us", "ss", "s"] word with
  | some ("sses", rest) => rest ++ "ss".toList
  | some ("s", rest) => if rest.dropLast.any isVowel then rest else word
  | some (suffix, rest) =>
    if suffix = "us" ∨ suffix = "ss" then word
    else rest ++ (if 2 ≤ rest.length then "i" else "ie").toList
  | none => word

/-- A word that has lost an ending of the past or of duration, restored: some get an `e` back,
and a consonant doubled for the ending becomes single. -/
def restore (regions : Regions) (word : List Char) : List Char :=
  match firstSuffix? ["at", "bl", "iz"] word with
  | some _ => word ++ ['e']
  | none =>
    match firstSuffix? ["bb", "dd", "ff", "gg", "mm", "nn", "pp", "rr", "tt"] word with
    | some _ => word.dropLast
    | none =>
      if word.length = regions.first && endsShort word then word ++ ['e'] else word

/-- A word without an ending of the past or of duration. -/
def dropTense (regions : Regions) (word : List Char) : List Char :=
  match firstSuffix? ["eedly", "ingly", "edly", "eed", "ing", "ed"] word with
  | some (suffix, rest) =>
    if suffix = "eed" ∨ suffix = "eedly" then
      if regions.first ≤ rest.length then rest ++ "ee".toList else word
    else if rest.any isVowel then restore regions rest
    else word
  | none => word

/-- A word with `i` for a final `y` that follows a consonant other than the first letter. -/
def softenEnd (word : List Char) : List Char :=
  match word.reverse with
  | y :: c :: b :: rest =>
    if (y = 'y' ∨ y = 'Y') ∧ !isVowel c then ('i' :: c :: b :: rest).reverse else word
  | _ => word

/-- Compound endings, made simple. -/
def compoundEndings : List Rule :=
  [⟨"ational", "ate", "", false⟩, ⟨"fulness", "ful", "", false⟩,
   ⟨"iveness", "ive", "", false⟩, ⟨"ization", "ize", "", false⟩,
   ⟨"ousness", "ous", "", false⟩, ⟨"biliti", "ble", "", false⟩,
   ⟨"lessli", "less", "", false⟩, ⟨"tional", "tion", "", false⟩,
   ⟨"alism", "al", "", false⟩, ⟨"aliti", "al", "", false⟩, ⟨"ation", "ate", "", false⟩,
   ⟨"entli", "ent", "", false⟩, ⟨"fulli", "ful", "", false⟩, ⟨"iviti", "ive", "", false⟩,
   ⟨"ousli", "ous", "", false⟩, ⟨"abli", "able", "", false⟩, ⟨"alli", "al", "", false⟩,
   ⟨"anci", "ance", "", false⟩, ⟨"ator", "ate", "", false⟩, ⟨"enci", "ence", "", false⟩,
   ⟨"izer", "ize", "", false⟩, ⟨"bli", "ble", "", false⟩, ⟨"ogi", "og", "l", false⟩,
   ⟨"li", "", "cdeghkmnrt", false⟩]

/-- Endings of derived words. -/
def derivedEndings : List Rule :=
  [⟨"ational", "ate", "", false⟩, ⟨"tional", "tion", "", false⟩, ⟨"alize", "al", "", false⟩,
   ⟨"ative", "", "", true⟩, ⟨"icate", "ic", "", false⟩, ⟨"iciti", "ic", "", false⟩,
   ⟨"ical", "ic", "", false⟩, ⟨"ness", "", "", false⟩, ⟨"ful", "", "", false⟩]

/-- Endings that go without a trace. -/
def plainEndings : List Rule :=
  (["ement", "able", "ance", "ence", "ible", "ment", "ant", "ate", "ent"].map
      fun suffix => ⟨suffix, "", "", true⟩) ++
    ⟨"ion", "", "st", true⟩ ::
    ["ism", "iti", "ive", "ize", "ous", "al", "er", "ic"].map fun suffix => ⟨suffix, "", "", true⟩

/-- A word without a silent `e` or the second of two final `l`. -/
def trimEnd (regions : Regions) (word : List Char) : List Char :=
  match word.reverse with
  | 'e' :: reversed =>
    let rest := reversed.reverse
    if regions.second ≤ rest.length || (regions.first ≤ rest.length && !endsShort rest) then rest
    else word
  | 'l' :: 'l' :: reversed =>
    let rest := ('l' :: reversed).reverse
    if regions.second ≤ rest.length then rest else word
  | _ => word

/-- The steps that take endings off a prepared word. -/
def strip (word : List Char) : List Char :=
  let regions := regions word
  let word := dropPlural (dropPossessive word)
  if complete.any fun other => other.toList = word then word
  else
    let word := softenEnd (dropTense regions word)
    let word := step compoundEndings regions word
    let word := step derivedEndings regions word
    trimEnd regions (step plainEndings regions word)

/-- The stem of a word. Words of fewer than three letters are stems themselves. -/
def stem (text : String) : String :=
  match irregular.lookup text with
  | some other => other
  | none =>
    let word := text.toList
    if word.length < 3 then text
    else
      let stripped := strip (prepare word)
      String.ofList <|
        if hasMarks word then stripped.map fun c => if c = 'Y' then 'y' else c else stripped

end Concordance.Stem
