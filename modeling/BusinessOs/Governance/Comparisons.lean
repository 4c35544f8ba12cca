/- Source: rust/src/security.rs (SecurityService::constant_time_eq),
   crates/abos-governance-core/src/lib.rs (constant_time_eq)
   digest: What the two constant-time comparisons decide. -/

import BusinessOs.Core.Security
import BusinessOs.Governance.Ledger

set_option autoImplicit false
set_option relaxedAutoImplicit false

namespace BusinessOs.Governance.Comparisons

open BusinessOs.Lib.Bytes

variable (a b : String)

/-- Both comparisons hold of two texts exactly when these have the same bytes. -/
theorem comparisons_decide_equality :
    (Core.Security.constantTimeEq a b = true ↔ utf8 a = utf8 b) ∧
      (Ledger.constantTimeEq a b = true ↔ utf8 a = utf8 b) := by
  constructor
  · unfold Core.Security.constantTimeEq
    exact comparison_iff
  · unfold Ledger.constantTimeEq
    exact comparison_iff

/-- The two crates accept the same signatures and keys. -/
theorem constantTimeEq_eq : Core.Security.constantTimeEq a b = Ledger.constantTimeEq a b := by
  rw [Bool.eq_iff_iff, Core.Security.constantTimeEq_iff, Ledger.constantTimeEq_iff]

end BusinessOs.Governance.Comparisons
