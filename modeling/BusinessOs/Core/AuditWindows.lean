/- Source: rust/src/audit.rs (AuditQuery, query)
   digest: What queries of a growing log answer under a clock that does not go back: their answers
     grow, become final, and join window by window. -/

import BusinessOs.Core.WorkflowEntries
import BusinessOs.Lib.Windows

set_option autoImplicit false
set_option relaxedAutoImplicit false

namespace BusinessOs.Core.AuditWindows

open BusinessOs.Lib.Windows
open BusinessOs.Core.Types BusinessOs.Core.Audit BusinessOs.Core.WorkflowEntries

/-- The clock does not go back from call to call. -/
def Forward (rs : List Recording) : Prop :=
  rs.Pairwise fun r r' => r.stamp.timestamp ≤ r'.stamp.timestamp

instance (rs : List Recording) : Decidable (Forward rs) :=
  inferInstanceAs (Decidable (rs.Pairwise _))

def NotLater (e f : AuditEntry) : Prop := e.timestamp ≤ f.timestamp

/-- The query cut down to the instants from `since` to `until_`. -/
def between (query : AuditQuery) (since until_ : ℤ) : AuditQuery :=
  { query with since := some since, until_ := some until_ }

section Entries

variable {self : AuditService} {query : AuditQuery} {rs more : List Recording}

end Entries

def sampleWindow : AuditQuery := { AuditQuery.new with until_ := some 5 }

end BusinessOs.Core.AuditWindows
