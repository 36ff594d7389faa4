/-!
# EdmCommands.Selection

Which of several parameter sets is the default: the one with the fewest mandatory parameters, of
those the one with the fewest parameters, of those the first.

* `Selection.offer`: the best so far and one more candidate.
* `selectDefault`: the best of a list.
-/

namespace EdmCommands
namespace Selection

/-- A parameter set with the numbers of its parameters. -/
structure Candidate where
  name : String
  mandatory : Nat
  total : Nat
deriving Repr, DecidableEq

def Candidate.beats (a b : Candidate) : Bool :=
  a.mandatory < b.mandatory || (a.mandatory == b.mandatory && a.total < b.total)

/-- The best of the candidates so far and one more; the earlier one stays unless it is beaten. -/
def offer (best : Option Candidate) (candidate : Candidate) : Option Candidate :=
  match best with
  | some b => if candidate.beats b then some candidate else some b
  | none => some candidate

def selectDefault (candidates : List Candidate) : Option Candidate :=
  candidates.foldl offer none

/-- The best so far, before and after each of the candidates. -/
def selections (best : Option Candidate) : List Candidate → List (Option Candidate)
  | [] => [best]
  | candidate :: rest => best :: selections (offer best candidate) rest

end Selection
end EdmCommands
