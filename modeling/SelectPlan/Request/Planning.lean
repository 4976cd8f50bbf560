import SelectPlan.Planning.Plan
import SelectPlan.Request.Values

/-!
Requests: what a select is planned with.
-/

namespace SelectPlan

variable {b : Backend}

instance : Readable Session := ⟨fun document => Session.ofList <$> fromJson document⟩

instance : Readable (Catalog b) := ⟨fun document => .mk <$> fromJson document⟩

end SelectPlan
