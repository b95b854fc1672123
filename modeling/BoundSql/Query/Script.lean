import BoundSql.Query.Fetch

/-!
# Scripted answers

An executor that answers from a list and keeps what it was sent.
-/

namespace BoundSql

/-- The answers to come and the statements sent so far. -/
structure Script where
  answers : List (Except Fault RowSet)
  sent : List (String × List Binding)

namespace Script

/-- Answers a statement with the next answer, or with no rows when there is none left. -/
def run : Executor Script := fun sql bindings script =>
  (script.answers.head?.getD (.ok .empty),
    { answers := script.answers.drop 1, sent := script.sent ++ [(sql, bindings)] })

end Script

end BoundSql
