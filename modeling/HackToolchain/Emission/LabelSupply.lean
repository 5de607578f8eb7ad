/-! # Generated labels

Branches and calls need labels that no other line declares. A supply counts the comparisons and the
calls served so far, and numbers each new label with its count.
-/

namespace HackToolchain

/-- The numbers of comparisons and calls that have been given labels. -/
structure LabelSupply where
  comparisons : Nat := 0
  calls : Nat := 0
deriving DecidableEq, Repr

/-- The two labels of a comparison. -/
structure ComparisonLabels where
  /-- Where a comparison that holds jumps to. -/
  holds : String
  /-- Where both outcomes go on. -/
  done : String
deriving DecidableEq, Repr

namespace LabelSupply

/-- The labels of the comparison with a number. -/
def comparisonLabels (number : Nat) : ComparisonLabels where
  holds := "$compare.true." ++ number.repr
  done := "$compare.end." ++ number.repr

/-- The label for the return from the call with a number. -/
def returnLabel (function : String) (number : Nat) : String :=
  function ++ "$ret." ++ number.repr

/-- Labels for one more comparison. -/
def nextComparison (supply : LabelSupply) : ComparisonLabels × LabelSupply :=
  (comparisonLabels supply.comparisons, { supply with comparisons := supply.comparisons + 1 })

/-- A label for one more call. Calls of all functions share one count. -/
def nextCall (supply : LabelSupply) (function : String) : String × LabelSupply :=
  (returnLabel function supply.calls, { supply with calls := supply.calls + 1 })

end LabelSupply

end HackToolchain
