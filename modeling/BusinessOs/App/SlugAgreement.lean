/- Source: rust/src/bridge.rs (slugify); app/services/skills.py (slugify)
   digest: The slug that the bridge cuts by bytes is the one that Python cuts by characters. -/

import BusinessOs.App.Skills
import BusinessOs.Core.SlugForm
import BusinessOs.Lib.Bytes

set_option autoImplicit false
set_option relaxedAutoImplicit false

namespace BusinessOs.App.SlugAgreement

open BusinessOs.Lib BusinessOs.Lib.Lowercase BusinessOs.Lib.Bytes
open BusinessOs.Core BusinessOs.Core.SkillBridge

variable (table : CaseTable) (value : String)

/-- `bridge::slugify` with its length in bytes and its slice of bytes; `none` is the panic of that
slice. -/
def slugifyBytes : Option String :=
  let slug := separated false (toLowercase table value).toList
  let trimmed := trimMatches (fun c => c == '_') slug
  let capped := if 80 < byteLen trimmed then takeBytes 80 trimmed else some trimmed
  capped.map fun capped => if capped.isEmpty then "custom_skill" else String.ofList capped

/-- A slug is written with single bytes. -/
theorem trimmed_ascii (text : List Char) :
    ∀ c ∈ trimMatches (fun c => c == '_') (separated false text), c.utf8Size = 1 := by
  rw [SlugForm.trim_separated]
  intro c member
  have own := Runs.mem_intercalate (Runs.runs_part isSlugChar text) c member
  exact utf8Size_of_ascii (SlugForm.toLower_slugChar own).1

/-- The two languages make the same slug of every text, and the bridge's slice does not panic. -/
theorem slugifiers_agree : slugifyBytes table value = some (Skills.slugify table value) := by
  have ascii := trimmed_ascii (toLowercase table value).toList
  rw [Skills.slugify_eq, slugifyBytes, Core.SkillBridge.slugify]
  generalize trimMatches (fun c => c == '_') (separated false (toLowercase table value).toList) =
    trimmed at ascii ⊢
  have capped : (if 80 < byteLen trimmed then takeBytes 80 trimmed else some trimmed) =
      some (trimmed.take 80) := by
    rw [byteLen_ascii ascii]
    split_ifs with long
    · exact takeBytes_ascii ascii long.le
    · rw [List.take_of_length_le (not_lt.mp long)]
  exact congrArg _ capped

end BusinessOs.App.SlugAgreement
