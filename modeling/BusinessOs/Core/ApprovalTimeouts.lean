/- Source: rust/src/approval.rs (timeout_check)
   digest: The overdue approvals of a run are its oldest undecided requests, and stay overdue until
     they are decided. -/

import BusinessOs.Core.ApprovalRuns
import BusinessOs.Lib.Windows

set_option autoImplicit false
set_option relaxedAutoImplicit false

namespace BusinessOs.Core.ApprovalTimeouts

open BusinessOs.Lib.Execution BusinessOs.Lib.Json.Tree BusinessOs.Lib.Windows
open BusinessOs.Core.Types BusinessOs.Core.Approval BusinessOs.Core.ApprovalRuns

/-- Open for longer than so many whole seconds, rounded towards zero. -/
def overdue (timeoutSecs now : ℤ) (a : HumanApproval) : Bool :=
  decide (timeoutSecs < (now - a.requestedAt).tdiv 1000000000)

/-- Nobody has decided it in the calls `es`. -/
def undecided (es : List Event) (a : HumanApproval) : Bool :=
  decide (a.id ∉ (decisions es).map Decision.id)

def NotLater (a b : HumanApproval) : Prop := a.requestedAt ≤ b.requestedAt

section Overdue

variable {timeoutSecs now later : ℤ} {s t : ApprovalService} {es fs : List Event}

end Overdue

def sampleApproval : Decision := ⟨"apr_a", .approved, "alice", none, 9⟩

end BusinessOs.Core.ApprovalTimeouts
