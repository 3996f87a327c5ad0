/-
# ConfigDrive.StandIn — programs that answer by a table.

A stand-in takes the place of a real program: for some lists of arguments, written with single spaces
between them, it has a response of its own, and for all others a common one.
-/
import ConfigDrive.WaitStatus

namespace ConfigDrive

/-- A program given by its responses. -/
structure StandIn where
  rules : List (String × Completion)
  fallback : Completion
  deriving DecidableEq, Repr

/-- The response to a list of arguments: that of the first rule that matches. -/
def StandIn.respond (p : StandIn) (args : List String) : Completion :=
  (p.rules.lookup (" ".intercalate args)).getD p.fallback

end ConfigDrive
