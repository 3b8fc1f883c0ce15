import SqlComposer.Proofs.OneKind
import SqlComposer.Proofs.Reachable

/-!
# Which parts make a query

A query is given by its clauses, its parameters and its counter. The keys of the parameters are
compared with the numbers from one up to the counter. Of these there are none below zero, where the
empty mapping passes; such a query cannot take a parameter later on. When the keys do not pass, they
are sorted to be shown, which fails itself for keys that cannot be compared.
-/

namespace SqlComposer

/-! ## Comparing keys -/

namespace Value

end Value

namespace Entries

end Entries

namespace Query

section Calls

variable {a : Ambient} {call : Call} {q : Query} {template : Template} {settings : Settings}

end Calls

end Query

end SqlComposer
