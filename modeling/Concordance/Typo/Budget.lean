import Concordance.Typo.Automaton

set_option relaxedAutoImplicit false
set_option autoImplicit false

/-!
# Edit budgets

How many typos a term may have depends on its length.

## Main definitions

* `Concordance.TypoConfig` — the settings of typo-tolerant look-up.
* `Concordance.Budget` — the edits that terms are allowed.
* `Concordance.Budget.maxDistance` — the edits that a term is allowed.
-/

namespace Concordance

/-- The settings of typo-tolerant look-up. -/
structure TypoConfig where
  enabled : Bool := true
  /-- Lengths in characters, each with the edits that a term of at least this length is
  allowed. -/
  thresholds : List (Nat × Nat) := [(9, 2), (5, 1)]
  /-- The number of characters of a term that go into its state. -/
  indexLength : Nat := 14
  alphabetSize : Nat := 4
  deriving DecidableEq, Repr

/-- The candidate generator that settings ask for. -/
def TypoConfig.automaton (config : TypoConfig) : Automaton :=
  .new config.alphabetSize config.indexLength

/-- The edits that terms are allowed: none for all of them, or as many as the longest threshold
that they reach allows. -/
structure Budget where
  enabled : Bool
  /-- The thresholds, the longest first. -/
  thresholds : List (Nat × Nat)
  deriving DecidableEq, Repr

namespace Budget

/-- The budget that settings ask for. Of two thresholds of one length the one listed first
counts. -/
def new (config : TypoConfig) : Budget where
  enabled := config.enabled
  thresholds := config.thresholds.mergeSort fun a b => b.1 ≤ a.1

/-- The number of edits that a term is allowed. -/
def maxDistance (budget : Budget) (term : String) : Nat :=
  if budget.enabled then
    match budget.thresholds.find? fun threshold => threshold.1 ≤ term.length with
    | some (_, distance) => distance
    | none => 0
  else 0

end Budget

end Concordance
