/- digest: Ordered lists cut by predicates that hold up to a point: the parts follow one another. -/

import Mathlib.Data.List.Basic

set_option autoImplicit false
set_option relaxedAutoImplicit false

namespace BusinessOs.Lib.Windows

universe u

variable {α : Type u} {r : α → α → Prop} {p q : α → Bool} {l m : List α}

end BusinessOs.Lib.Windows
