/- digest: Unicode and ASCII lowercasing of a text, and the ASCII patterns that both bring out. -/

import Mathlib.Data.List.Infix
import Mathlib.Data.String.Basic

set_option autoImplicit false
set_option relaxedAutoImplicit false

namespace BusinessOs.Lib.Lowercase

def isAscii (c : Char) : Bool := decide (c.toNat < 128)

/-- A character of ASCII is one byte of UTF-8. -/
theorem utf8Size_of_ascii {c : Char} (plain : isAscii c = true) : c.utf8Size = 1 := by
  have below : c.toNat < 128 := of_decide_eq_true plain
  exact Char.utf8Size_eq_one_iff.mpr (UInt32.le_iff_toNat_le.mpr (Nat.le_of_lt_succ below))

theorem utf8ByteSize_ascii {text : List Char} (plain : ∀ c ∈ text, isAscii c = true) :
    (String.ofList text).utf8ByteSize = text.length := by
  rw [String.utf8ByteSize_ofList]
  induction text with
  | nil => rfl
  | cons c text ih =>
    obtain ⟨own, others⟩ := List.forall_mem_cons.mp plain
    rw [String.utf8Len_cons, ih others, utf8Size_of_ascii own, List.length_cons]

def kelvinSign : Char := '\u212A'

def dottedI : Char := '\u0130'

def dotAbove : Char := '\u0307'

def bigSigma : Char := '\u03A3'

/-- The lowercase column of the Unicode tables, with what the standard has in it for ASCII. -/
structure CaseTable where
  lower : Char → List Char
  cased : Char → Bool
  caseIgnorable : Char → Bool
  lower_ne_nil : ∀ c, lower c ≠ []
  lower_ascii : ∀ c, isAscii c = true → lower c = [c.toLower]
  lower_kelvinSign : lower kelvinSign = ['k']
  lower_dottedI : lower dottedI = ['i', dotAbove]
  lower_foreign : ∀ c, isAscii c = false → c ≠ kelvinSign → c ≠ dottedI →
    ∀ d ∈ lower c, isAscii d = false

section Text

variable (table : CaseTable)

/-- The first character that is not ignored, if any, is cased. -/
def ignorableThenCased (text : List Char) : Bool :=
  (text.dropWhile table.caseIgnorable).head?.any table.cased

/-- A capital sigma is final behind a cased character and before none. -/
def lowerAt (before : List Char) (c : Char) (after : List Char) : List Char :=
  if c = bigSigma then
    if ignorableThenCased table before && !ignorableThenCased table after then ['\u03C2']
    else ['\u03C3']
  else table.lower c

/-- Lowercase the rest of a text; what stands before it is reversed. -/
def lowerFrom : List Char → List Char → List Char
  | _, [] => []
  | before, c :: after => lowerAt table before c after ++ lowerFrom (c :: before) after

end Text

/-- `to_lowercase`. -/
def toLowercase (table : CaseTable) (text : String) : String :=
  String.ofList (lowerFrom table [] text.toList)

/-- `to_ascii_lowercase`. -/
def toAsciiLowercase (text : String) : String := String.ofList (text.toList.map Char.toLower)

def contains (text pattern : String) : Bool := decide (pattern.toList <:+: text.toList)

/-- Write every Kelvin sign as the letter. -/
def plainKelvin (c : Char) : Char := if c = kelvinSign then 'k' else c

def withoutKelvinSigns (text : String) : String := String.ofList (text.toList.map plainKelvin)

/-! What stands in a lowercased text for one character. -/

inductive Block : Char → List Char → Prop
  | ascii {c : Char} (plain : isAscii c = true) : Block c [c.toLower]
  | kelvinSign : Block kelvinSign ['k']
  | dottedI : Block dottedI ['i', dotAbove]
  | foreign {c d : Char} {ds : List Char} (other : c ≠ Lowercase.kelvinSign)
      (origin : isAscii c = false) (all : ∀ e ∈ d :: ds, isAscii e = false) : Block c (d :: ds)

theorem lowerAt_block (table : CaseTable) (before : List Char) (c : Char) (after : List Char) :
    Block c (lowerAt table before c after) := by
  by_cases sigma : c = bigSigma
  · subst sigma
    rw [lowerAt, if_pos rfl]
    split
    · exact .foreign (by decide) (by decide) (List.forall_mem_singleton.mpr (by decide))
    · exact .foreign (by decide) (by decide) (List.forall_mem_singleton.mpr (by decide))
  rw [lowerAt, if_neg sigma]
  cases plain : isAscii c with
  | true =>
    rw [table.lower_ascii c plain]
    exact .ascii plain
  | false =>
    by_cases kelvin : c = kelvinSign
    · subst kelvin
      rw [table.lower_kelvinSign]
      exact .kelvinSign
    by_cases dotted : c = dottedI
    · subst dotted
      rw [table.lower_dottedI]
      exact .dottedI
    have all := table.lower_foreign c plain kelvin dotted
    cases lowered : table.lower c with
    | nil => exact absurd lowered (table.lower_ne_nil c)
    | cons d ds => exact .foreign kelvin plain (lowered ▸ all)

theorem lowerAt_ascii {table : CaseTable} {c : Char} (plain : isAscii c = true)
    (before after : List Char) : lowerAt table before c after = [c.toLower] := by
  have other : c ≠ bigSigma := by
    rintro rfl
    exact absurd plain (by decide)
  rw [lowerAt, if_neg other, table.lower_ascii c plain]

theorem lowerFrom_ascii {table : CaseTable} {text : List Char}
    (plain : ∀ c ∈ text, isAscii c = true) (before : List Char) :
    lowerFrom table before text = text.map Char.toLower := by
  induction text generalizing before with
  | nil => rfl
  | cons c text ih =>
    obtain ⟨own, others⟩ := List.forall_mem_cons.mp plain
    rw [lowerFrom, lowerAt_ascii own, ih others, List.singleton_append, List.map_cons]

/-! A pattern of ASCII characters that does not end in an `i`. -/

structure Searchable (pattern : List Char) : Prop where
  ascii : ∀ c ∈ pattern, isAscii c = true
  last : pattern.getLast? ≠ some 'i'

instance (pattern : List Char) : Decidable (Searchable pattern) :=
  decidable_of_iff (pattern.all isAscii = true ∧ pattern.getLast? ≠ some 'i')
    ⟨fun both => ⟨List.all_eq_true.mp both.1, both.2⟩,
      fun search => ⟨List.all_eq_true.mpr search.ascii, search.last⟩⟩

theorem Searchable.tail {c : Char} {pattern : List Char} (search : Searchable (c :: pattern)) :
    Searchable pattern := by
  refine ⟨fun d member => search.ascii d (List.mem_cons_of_mem _ member), ?_⟩
  intro last
  apply search.last
  cases pattern with
  | nil => cases last
  | cons d ds => rw [List.getLast?_cons_cons, last]

/-- An `i` of the pattern is followed by another character of it. -/
theorem Searchable.ne_nil {pattern : List Char} (search : Searchable ('i' :: pattern)) :
    pattern ≠ [] := by
  rintro rfl
  exact search.last rfl

/-- The lowercasing of single characters that a searchable pattern cannot tell from the table's. -/
def plainLower (c : Char) : Char := (plainKelvin c).toLower

theorem toLower_of_foreign {c : Char} (foreign : isAscii c = false) : c.toLower = c := by
  have high : ¬ c.toNat < 128 := by simpa [isAscii] using foreign
  unfold Char.toLower
  rw [dif_neg]
  rintro ⟨_, low⟩
  have below : c.val.toNat ≤ 'Z'.val.toNat := low
  have bound : 'Z'.val.toNat = 90 := rfl
  have same : c.toNat = c.val.toNat := rfl
  omega

section Search

variable {table : CaseTable} {pattern before text block : List Char} {c : Char}

/-- A nonempty pattern does not begin with a foreign character. -/
theorem Searchable.not_prefix_foreign {d p : Char} {ds : List Char}
    (search : Searchable (p :: pattern)) (foreign : isAscii d = false) :
    ¬ p :: pattern <+: d :: ds := by
  intro begins
  obtain ⟨same, _⟩ := List.cons_prefix_cons.mp begins
  have ascii := search.ascii p List.mem_cons_self
  rw [same, foreign] at ascii
  cases ascii

theorem prefix_lowerFrom (search : Searchable pattern) :
    pattern <+: lowerFrom table before text ↔ pattern <+: text.map plainLower := by
  induction text generalizing before pattern with
  | nil => rfl
  | cons c text ih =>
    cases pattern with
    | nil => simp
    | cons p pattern =>
      rw [lowerFrom, List.map_cons]
      have blocks := lowerAt_block table before c text
      generalize lowerAt table before c text = block at blocks
      cases blocks with
      | ascii plain =>
        have other : c ≠ kelvinSign := by
          rintro rfl
          exact absurd plain (by decide)
        have same : plainLower c = c.toLower := by rw [plainLower, plainKelvin, if_neg other]
        rw [List.singleton_append, List.cons_prefix_cons, List.cons_prefix_cons, same,
          ih search.tail]
      | kelvinSign =>
        have same : plainLower kelvinSign = 'k' := by decide
        rw [List.singleton_append, List.cons_prefix_cons, List.cons_prefix_cons, same,
          ih search.tail]
      | dottedI =>
        have same : plainLower dottedI = dottedI := by decide
        rw [same]
        constructor
        · intro begins
          obtain ⟨rfl, rest⟩ := List.cons_prefix_cons.mp begins
          obtain ⟨q, qs, rfl⟩ := List.exists_cons_of_ne_nil search.ne_nil
          exact absurd rest (search.tail.not_prefix_foreign (by decide))
        · intro begins
          exact absurd begins (search.not_prefix_foreign (by decide))
      | foreign other origin all =>
        have same : plainLower c = c := by
          rw [plainLower, plainKelvin, if_neg other, toLower_of_foreign origin]
        rw [same]
        constructor
        · intro begins
          exact absurd begins (search.not_prefix_foreign (all _ List.mem_cons_self))
        · intro begins
          exact absurd begins (search.not_prefix_foreign origin)

/-- An occurrence of a pattern does not begin inside a foreign block. -/
theorem infix_append_foreign {rest : List Char} (search : Searchable pattern)
    (some_ : pattern ≠ []) (all : ∀ d ∈ block, isAscii d = false) :
    pattern <:+: block ++ rest ↔ pattern <:+: rest := by
  obtain ⟨p, pattern, rfl⟩ := List.exists_cons_of_ne_nil some_
  induction block with
  | nil => rfl
  | cons d block ih =>
    have tail : ∀ e ∈ block, isAscii e = false := fun e member =>
      all e (List.mem_cons_of_mem _ member)
    rw [List.cons_append, List.infix_cons_iff, ih tail]
    exact or_iff_right (search.not_prefix_foreign (all d List.mem_cons_self))

/-- A searchable pattern occurs in the lowercased text exactly where it occurs in the text with
Kelvin signs written as letters and the ASCII letters lowercased. -/
theorem infix_lowerFrom (search : Searchable pattern) (some_ : pattern ≠ []) :
    pattern <:+: lowerFrom table before text ↔ pattern <:+: text.map plainLower := by
  induction text generalizing before with
  | nil => rfl
  | cons c text ih =>
    have starts : pattern <+: lowerFrom table before (c :: text) ↔
        pattern <+: (c :: text).map plainLower := prefix_lowerFrom search
    rw [List.map_cons, List.infix_cons_iff, ← List.map_cons, ← starts, lowerFrom]
    have blocks := lowerAt_block table before c text
    generalize lowerAt table before c text = block at blocks
    cases blocks with
    | ascii plain => rw [List.singleton_append, List.infix_cons_iff, ih]
    | kelvinSign => rw [List.singleton_append, List.infix_cons_iff, ih]
    | dottedI =>
      have dot : ∀ d ∈ [dotAbove], isAscii d = false := List.forall_mem_singleton.mpr (by decide)
      rw [List.cons_append, List.infix_cons_iff, infix_append_foreign search some_ dot, ih]
    | foreign other origin all =>
      obtain ⟨p, pattern, rfl⟩ := List.exists_cons_of_ne_nil some_
      rw [infix_append_foreign search some_ all, ih]
      exact (or_iff_right (search.not_prefix_foreign (all _ List.mem_cons_self))).symm

end Search

/-- A pattern stays where a second map agrees with the first on the pattern's characters. -/
theorem infix_map_mono {pattern text : List Char} {f g : Char → Char}
    (same : ∀ c, f c ∈ pattern → g c = f c) (occurs : pattern <:+: text.map f) :
    pattern <:+: text.map g := by
  obtain ⟨part, inside, rfl⟩ := List.infix_map_iff.mp occurs
  have equal : part.map g = part.map f := by
    apply List.map_congr_left
    intro c member
    exact same c (List.mem_map_of_mem member)
  rw [← equal]
  exact inside.map g

/-! The same, for strings. -/

section Contains

variable (table : CaseTable) (text : String) {pattern : String}

theorem contains_toLowercase_iff (search : Searchable pattern.toList)
    (some_ : pattern.toList ≠ []) :
    contains (toLowercase table text) pattern = true ↔
      pattern.toList <:+: text.toList.map plainLower := by
  rw [contains, toLowercase, String.toList_ofList, decide_eq_true_iff,
    infix_lowerFrom search some_]

theorem contains_toLowercase (search : Searchable pattern.toList) (some_ : pattern.toList ≠ []) :
    contains (toLowercase table text) pattern =
      contains (toAsciiLowercase (withoutKelvinSigns text)) pattern := by
  unfold contains toLowercase toAsciiLowercase withoutKelvinSigns
  rw [String.toList_ofList, String.toList_ofList, String.toList_ofList, List.map_map]
  exact decide_eq_decide.mpr (infix_lowerFrom search some_)

/-- A text around the one that is searched hides no occurrence, whatever it does to a sigma. -/
theorem contains_of_infix {text context : String} (inside : text.toList <:+: context.toList)
    (search : Searchable pattern.toList) (some_ : pattern.toList ≠ [])
    (found : contains (toLowercase table text) pattern = true) :
    contains (toLowercase table context) pattern = true := by
  rw [contains_toLowercase_iff table _ search some_] at found ⊢
  exact found.trans (inside.map plainLower)

/-- Writing Kelvin signs as letters hides no occurrence. -/
theorem contains_withoutKelvinSigns (search : Searchable pattern.toList)
    (found : contains (toAsciiLowercase text) pattern = true) :
    contains (toAsciiLowercase (withoutKelvinSigns text)) pattern = true := by
  unfold contains toAsciiLowercase at found ⊢
  unfold withoutKelvinSigns
  rw [String.toList_ofList] at found
  rw [String.toList_ofList, String.toList_ofList, List.map_map]
  refine decide_eq_true (infix_map_mono ?_ (of_decide_eq_true found))
  intro c member
  have other : c ≠ kelvinSign := by
    rintro rfl
    exact absurd (search.ascii _ member) (by decide)
  show (plainKelvin c).toLower = c.toLower
  rw [plainKelvin, if_neg other]

/-- A pattern without a `k` is found in either lowercasing. -/
theorem contains_toLowercase_of_not_mem (search : Searchable pattern.toList)
    (some_ : pattern.toList ≠ []) (noK : 'k' ∉ pattern.toList) :
    contains (toLowercase table text) pattern = contains (toAsciiLowercase text) pattern := by
  rw [contains_toLowercase table text search some_, Bool.eq_iff_iff]
  refine ⟨fun found => ?_, contains_withoutKelvinSigns text search⟩
  unfold contains toAsciiLowercase withoutKelvinSigns at found
  unfold contains toAsciiLowercase
  rw [String.toList_ofList, String.toList_ofList, List.map_map] at found
  rw [String.toList_ofList]
  refine decide_eq_true (infix_map_mono ?_ (of_decide_eq_true found))
  intro c member
  have other : c ≠ kelvinSign := by
    rintro rfl
    exact noK member
  show c.toLower = (plainKelvin c).toLower
  rw [plainKelvin, if_neg other]

end Contains

/-- A table that knows the ASCII letters and the two characters that become ASCII. -/
def plainTable : CaseTable where
  lower c :=
    if isAscii c then [c.toLower]
    else if c = kelvinSign then ['k']
    else if c = dottedI then ['i', dotAbove]
    else [c]
  cased := Char.isAlpha
  caseIgnorable := fun _ => false
  lower_ne_nil c := by
    split
    · simp
    · split
      · simp
      · split <;> simp
  lower_ascii c plain := if_pos plain
  lower_kelvinSign := by decide
  lower_dottedI := by decide
  lower_foreign c foreign notKelvin notDotted d member := by
    rw [foreign, if_neg Bool.false_ne_true, if_neg notKelvin, if_neg notDotted] at member
    rw [List.mem_singleton.mp member, foreign]

end BusinessOs.Lib.Lowercase
