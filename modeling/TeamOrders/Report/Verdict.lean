/-!
# Verdicts

What checking a command against its context finds. Errors make a command invalid; warnings and
suggestions never do.
-/

namespace TeamOrders

/-- The findings of a check. -/
structure Verdict where
  valid : Bool
  errors : List String
  warnings : List String
  suggestions : List String
deriving DecidableEq

namespace Verdict

def clean : Verdict := ⟨true, [], [], []⟩

instance : Inhabited Verdict := ⟨clean⟩

/-- Adds an error, which makes the command invalid. -/
def withError (verdict : Verdict) (message : String) : Verdict :=
  { verdict with errors := verdict.errors ++ [message], valid := false }

def withWarning (verdict : Verdict) (message : String) : Verdict :=
  { verdict with warnings := verdict.warnings ++ [message] }

def withSuggestion (verdict : Verdict) (message : String) : Verdict :=
  { verdict with suggestions := verdict.suggestions ++ [message] }

/-- Appends the findings of another check; valid is what is left without errors. -/
def merge (first second : Verdict) : Verdict :=
  { valid := (first.errors ++ second.errors).isEmpty
    errors := first.errors ++ second.errors
    warnings := first.warnings ++ second.warnings
    suggestions := first.suggestions ++ second.suggestions }

end Verdict

end TeamOrders
