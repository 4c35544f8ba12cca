/- Source: app/services/skills.py
   digest: When the calls that register skills leave no two rows with the same slug, department and
     agent. -/

import BusinessOs.App.Skills
import BusinessOs.Lib.Execution

set_option autoImplicit false
set_option relaxedAutoImplicit false

namespace BusinessOs.App.SkillIdentity

open BusinessOs.Lib BusinessOs.Lib.Execution BusinessOs.Lib.Lowercase BusinessOs.App.Skills

def keys (s : Registry) : List SkillKey := s.skills.map Skill.key

def coreKey (core : CoreSkill) : SkillKey := ⟨core.slug, none, none⟩

/-- The row of a core skill, if there is one, belongs to the company. -/
def Free (s : Registry) (core : CoreSkill) : Prop :=
  ∀ row ∈ s.skills, row.key = coreKey core → row.scope = .company

section Calls

variable (env : Surroundings)

/-- A completed call. -/
def Step (s : Registry) (call : SkillCall) (t : Registry) : Prop :=
  performSkillCall env s call = some t

end Calls

section Steps

variable {env : Surroundings} {s t : Registry}

theorem keys_update {write : Skill → Skill} (same : ∀ row, SameGrant row (write row))
    (id : String) :
    keys { s with skills := Table.update Skill.id s.skills id write } = keys s :=
  Table.map_update Skill.key fun row => (same row).key

end Steps

section Sample

/-- The same request to make a skill, made twice. -/
def sampleCreation : Creation where
  description := "Scan markets, competitors, customer segments, and trend signals."
  name := some "Market Scan"

end Sample

end BusinessOs.App.SkillIdentity
