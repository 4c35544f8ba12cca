/- digest: Attributes that a session reads, changes in memory, and writes back if they changed. -/

import Mathlib.Logic.Basic

set_option autoImplicit false
set_option relaxedAutoImplicit false

namespace BusinessOs.Lib.UnitOfWork

universe u

/-- An attribute as it was last read or written, and as it stands in memory. -/
structure Tracked (α : Type u) where
  loaded : α
  current : α
  deriving DecidableEq

variable {α : Type u}

def Tracked.load (stored : α) : Tracked α := ⟨stored, stored⟩

def Tracked.set (t : Tracked α) (value : α) : Tracked α := { t with current := value }

/-- After a commit the value in memory is the one last written. -/
def Tracked.committed (t : Tracked α) : Tracked α := ⟨t.current, t.current⟩

/-- What a flush leaves in the row: an attribute without a net change is not written. -/
def Tracked.flush [DecidableEq α] (t : Tracked α) (stored : α) : α :=
  if t.current = t.loaded then stored else t.current

variable {t : Tracked α} {stored : α}

theorem committed_eq : t.committed = .load t.current := rfl

section Flush

variable [DecidableEq α]

/-- On a row that still holds what was read, a flush leaves the value in memory. -/
theorem flush_of_loaded (fresh : t.loaded = stored) : t.flush stored = t.current := by
  unfold Tracked.flush
  by_cases same : t.current = t.loaded
  · rw [if_pos same, same, fresh]
  · rw [if_neg same]

/-- A change is written whatever the row holds by then. -/
theorem flush_of_ne (changed : t.current ≠ t.loaded) : t.flush stored = t.current :=
  if_neg changed

/-- Without a net change the row keeps what it holds by then. -/
theorem flush_of_eq (same : t.current = t.loaded) : t.flush stored = stored :=
  if_pos same

end Flush

end BusinessOs.Lib.UnitOfWork
