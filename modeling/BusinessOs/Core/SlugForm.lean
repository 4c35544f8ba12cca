/- Source: rust/src/bridge.rs (slugify)
   digest: The slugs that are well formed and stable, by the words of the text that they are made
     of. -/

import BusinessOs.Core.SkillBridge
import BusinessOs.Lib.Runs

set_option autoImplicit false
set_option relaxedAutoImplicit false

namespace BusinessOs.Core.SlugForm

open BusinessOs.Lib.Lowercase BusinessOs.Lib.Runs BusinessOs.Core.SkillBridge

/-- Words of letters and digits with one underscore between any two of them. -/
structure WellFormed (slug : String) : Prop where
  nonempty : slug.toList ≠ []
  bounded : slug.toList.length ≤ 80
  chars : ∀ c ∈ slug.toList, isSlugChar c = true ∨ c = '_'
  single : slug.toList.IsChain fun a b => ¬(a = '_' ∧ b = '_')
  starts : '_' ∉ slug.toList.head?
  ends : '_' ∉ slug.toList.getLast?

/-- The words of a text, as `slugify` sees them. -/
def words (table : CaseTable) (value : String) : List (List Char) :=
  runs isSlugChar (toLowercase table value).toList

/-- The first words of several, with what stands between them. -/
def leading (k : ℕ) (parts : List (List Char)) : List Char :=
  List.intercalate ['_'] (parts.take k)

section Trimmed

variable {text : List Char}

theorem underscore_cut : isSlugChar '_' = false := by decide

/-- Behind a separator the loop writes none before the next word. -/
theorem separated_true_head (text : List Char) :
    (separated true text).dropWhile (fun c => c == '_') = separated true text := by
  induction text with
  | nil => rfl
  | cons c cs ih =>
    cases keep : isSlugChar c with
    | true =>
      have other : (c == '_') = false := by
        apply beq_false_of_ne
        rintro rfl
        exact absurd keep (by decide)
      rw [separated, if_pos keep, List.dropWhile_cons, other, if_neg Bool.false_ne_true]
    | false =>
      rw [separated, if_neg (Bool.eq_false_iff.mp keep), if_pos rfl]
      exact ih

theorem separated_separator {c : Char} (skip : isSlugChar c = false) (cs : List Char) :
    separated false (c :: cs) = '_' :: separated true (c :: cs) := by
  rw [separated, separated, if_neg (Bool.eq_false_iff.mp skip), if_neg Bool.false_ne_true,
    if_neg (Bool.eq_false_iff.mp skip), if_pos rfl]

theorem dropWhile_separated (text : List Char) :
    (separated false text).dropWhile (fun c => c == '_') = separated true text := by
  cases text with
  | nil => rfl
  | cons c cs =>
    cases keep : isSlugChar c with
    | true =>
      have same : separated false (c :: cs) = separated true (c :: cs) := by
        rw [separated, separated, if_pos keep, if_pos keep]
      rw [same, separated_true_head]
    | false =>
      rw [separated_separator keep, List.dropWhile_cons_of_pos (by decide), separated_true_head]

/-- A word goes through the loop unchanged. -/
theorem separated_word {word : List Char} (all : ∀ c ∈ word, isSlugChar c = true)
    (rest : List Char) : separated false (word ++ rest) = word ++ separated false rest := by
  induction word with
  | nil => rfl
  | cons c cs ih =>
    obtain ⟨keep, others⟩ := List.forall_mem_cons.mp all
    rw [List.cons_append, separated, if_pos keep, ih others, List.cons_append]

theorem rdropWhile_word {word : List Char} (made : Part isSlugChar word) :
    word.rdropWhile (fun c => c == '_') = word := by
  refine List.rdropWhile_eq_self_iff.mpr fun some_ last => ?_
  exact made.ne_sep underscore_cut (List.getLast_mem some_) (beq_iff_eq.mp last)

theorem rdropWhile_separated (text : List Char) :
    (separated true text).rdropWhile (fun c => c == '_') =
      List.intercalate ['_'] (runs isSlugChar text) := by
  fun_induction runs isSlugChar text with
  | case1 => rfl
  | case2 c rest keep ih =>
    have made : Part isSlugChar (c :: rest.takeWhile isSlugChar) := by
      refine ⟨List.cons_ne_nil _ _, List.forall_mem_cons.mpr ⟨keep, ?_⟩⟩
      exact fun d taken => List.mem_takeWhile_imp taken
    have through : separated true (c :: rest) =
        (c :: rest.takeWhile isSlugChar) ++ separated false (rest.dropWhile isSlugChar) := by
      rw [separated, if_pos keep, List.cons_append,
        ← separated_word (List.forall_mem_cons.mp made.2).2,
        List.takeWhile_append_dropWhile]
    rw [through, rdropWhile_append, rdropWhile_word made]
    cases shape : rest.dropWhile isSlugChar with
    | nil => simp [separated, runs]
    | cons d ds =>
      have skip : isSlugChar d = false := by
        have stops := List.head?_dropWhile_not isSlugChar rest
        rw [shape] at stops
        simpa using stops
      rw [shape] at ih
      rw [separated_separator skip, ← List.singleton_append, rdropWhile_append, ih]
      by_cases last : runs isSlugChar (d :: ds) = []
      · simp [last]
      · have more : List.intercalate ['_'] (runs isSlugChar (d :: ds)) ≠ [] :=
          intercalate_ne_nil (runs_part isSlugChar (d :: ds)) last
        rw [if_neg more, if_neg (by simp), List.intercalate_cons_of_ne_nil last, List.append_assoc]
  | case3 c rest skip ih =>
    rw [separated, if_neg skip, if_pos rfl]
    exact ih

/-- What is left between the outer underscores are the words, joined. -/
theorem trim_separated (text : List Char) :
    trimMatches (fun c => c == '_') (separated false text) =
      List.intercalate ['_'] (runs isSlugChar text) := by
  rw [trimMatches, dropWhile_separated, rdropWhile_separated]

end Trimmed

section Stable

variable {table : CaseTable} {value slug : String}

theorem slugify_words (table : CaseTable) (value : String) :
    slugify table value =
      if ((List.intercalate ['_'] (words table value)).take 80).isEmpty then "custom_skill"
      else String.ofList ((List.intercalate ['_'] (words table value)).take 80) := by
  rw [slugify, trim_separated]
  rfl

theorem isSlugChar_range {c : Char} (keep : isSlugChar c = true) :
    97 ≤ c.toNat ∧ c.toNat ≤ 122 ∨ 48 ≤ c.toNat ∧ c.toNat ≤ 57 := by
  rcases Bool.or_eq_true_iff.mp keep with lower | digit
  · obtain ⟨low, high⟩ := Bool.and_eq_true_iff.mp lower
    exact .inl ⟨of_decide_eq_true low, of_decide_eq_true high⟩
  · obtain ⟨low, high⟩ := Bool.and_eq_true_iff.mp digit
    exact .inr ⟨of_decide_eq_true low, of_decide_eq_true high⟩

theorem toLower_slugChar {c : Char} (own : isSlugChar c = true ∨ c = '_') :
    isAscii c = true ∧ c.toLower = c := by
  rcases own with keep | rfl
  · have range := isSlugChar_range keep
    refine ⟨decide_eq_true (by omega), ?_⟩
    unfold Char.toLower
    rw [dif_neg]
    rintro ⟨low, high⟩
    have above : 65 ≤ c.toNat := low
    have below : c.toNat ≤ 90 := high
    omega
  · decide

/-- Letters, digits and underscores are lowercase already. -/
theorem lowerFrom_slug (before : List Char) {text : List Char}
    (chars : ∀ c ∈ text, isSlugChar c = true ∨ c = '_') : lowerFrom table before text = text := by
  have ascii : ∀ c ∈ text, isAscii c = true := fun c member => (toLower_slugChar (chars c member)).1
  have lower : ∀ c ∈ text, c.toLower = c := fun c member => (toLower_slugChar (chars c member)).2
  rw [lowerFrom_ascii ascii, List.map_congr_left lower, List.map_id']

/-- The loop keeps words that are joined by single underscores. -/
theorem separated_slug {text : List Char} (flag : Bool)
    (chars : ∀ c ∈ text, isSlugChar c = true ∨ c = '_')
    (single : text.IsChain fun a b => ¬(a = '_' ∧ b = '_'))
    (starts : flag = true → '_' ∉ text.head?) : separated flag text = text := by
  induction text generalizing flag with
  | nil => rfl
  | cons c cs ih =>
    obtain ⟨own, others⟩ := List.forall_mem_cons.mp chars
    obtain ⟨next, chain⟩ := List.isChain_cons.mp single
    rcases own with keep | rfl
    · rw [separated, if_pos keep, ih false others chain (absurd · Bool.false_ne_true)]
    · have first : flag = false := by
        cases flag with
        | false => rfl
        | true => exact absurd rfl (starts rfl)
      have wordFollows : '_' ∉ cs.head? := fun second => next '_' second ⟨rfl, rfl⟩
      rw [first, separated, if_neg (by decide), if_neg Bool.false_ne_true,
        ih true others chain (fun _ => wordFollows)]

theorem slugify_wellFormed (form : WellFormed slug) : slugify table slug = slug := by
  have lower : toLowercase table slug = slug := by
    rw [toLowercase, lowerFrom_slug [] form.chars, String.ofList_toList]
  have loop : separated false slug.toList = slug.toList :=
    separated_slug false form.chars form.single fun set => absurd set Bool.false_ne_true
  have trimmed : trimMatches (fun c => c == '_') slug.toList = slug.toList := by
    have front : slug.toList.dropWhile (fun c => c == '_') = slug.toList := by
      refine List.dropWhile_eq_self_iff.mpr fun some_ first => form.starts ?_
      rw [List.head?_eq_getElem?, List.getElem?_eq_getElem some_]
      exact Option.mem_some_iff.mpr (beq_iff_eq.mp first)
    rw [trimMatches, front, List.rdropWhile_eq_self_iff]
    intro some_ last
    exact form.ends (beq_iff_eq.mp last ▸ List.getLast_mem_getLast? some_)
  have nonempty : slug.toList.isEmpty = false := by
    rw [List.isEmpty_eq_false_iff]
    exact form.nonempty
  rw [slugify, lower, loop, trimmed, List.take_of_length_le form.bounded, nonempty,
    if_neg Bool.false_ne_true, String.ofList_toList]

end Stable

section Form

variable {table : CaseTable} {value : String} {parts : List (List Char)}

/-- The cap leaves words with single underscores between them, and perhaps one at the end. -/
theorem capped_form (made : ∀ part ∈ parts, Part isSlugChar part)
    (some_ : (List.intercalate ['_'] parts).take 80 ≠ [])
    (whole : '_' ∉ ((List.intercalate ['_'] parts).take 80).getLast?) :
    WellFormed (String.ofList ((List.intercalate ['_'] parts).take 80)) := by
  refine ⟨?_, ?_, ?_, ?_, ?_, ?_⟩ <;> rw [String.toList_ofList]
  · exact some_
  · exact List.length_take_le 80 _
  · exact fun c member => mem_intercalate made c (List.mem_of_mem_take member)
  · exact (chain_intercalate made underscore_cut).take 80
  · intro first
    rw [List.head?_take, if_neg (by decide)] at first
    have word := head_intercalate made '_' first
    rw [underscore_cut] at word
    exact nomatch word
  · exact whole

/-- The cap ends on an underscore if some of the words fill all but one of its characters. -/
theorem getLast_capped (made : ∀ part ∈ parts, Part isSlugChar part) :
    '_' ∈ ((List.intercalate ['_'] parts).take 80).getLast? ↔
      ∃ k, 0 < k ∧ k < parts.length ∧ (leading k parts).length = 79 := by
  have last : '_' ∉ (List.intercalate ['_'] parts).getLast? := by
    intro final
    have word := getLast_intercalate made '_' final
    rw [underscore_cut] at word
    exact nomatch word
  have position := getElem_intercalate_eq_sep made underscore_cut 79
  unfold leading
  rw [← position, List.getLast?_take, if_neg (by decide)]
  cases at_ : (List.intercalate ['_'] parts)[80 - 1]? with
  | none => exact iff_of_false last (fun found => nomatch found)
  | some c => exact Iff.rfl

end Form

theorem fallback_wellFormed : WellFormed "custom_skill" := by
  have letters : "custom_skill".toList =
      ['c', 'u', 's', 't', 'o', 'm', '_', 's', 'k', 'i', 'l', 'l'] := by decide
  constructor <;> rw [letters]
  · exact List.cons_ne_nil _ _
  · decide
  · simp [isSlugChar]
  · simp
  · simp
  · simp

/-- The slug of a text is well formed and its own slug exactly when its first words do not fill all
but one of the eighty characters. -/
theorem slug_form_iff (table : CaseTable) (value : String) :
    WellFormed (slugify table value) ∧
        slugify table (slugify table value) = slugify table value ↔
      ¬∃ k, 0 < k ∧ k < (words table value).length ∧
        (leading k (words table value)).length = 79 := by
  have made : ∀ part ∈ words table value, Part isSlugChar part := runs_part isSlugChar _
  rw [← getLast_capped made, slugify_words]
  by_cases none_ : (List.intercalate ['_'] (words table value)).take 80 = []
  · rw [none_, List.isEmpty_nil, if_pos rfl]
    exact iff_of_true ⟨fallback_wellFormed, slugify_wellFormed fallback_wellFormed⟩
      (fun impossible => nomatch impossible)
  · rw [if_neg (by simpa using none_)]
    constructor
    · intro formed last
      have ends := formed.1.ends
      rw [String.toList_ofList] at ends
      exact ends last
    · intro whole
      have form := capped_form made none_ whole
      exact ⟨form, slugify_wellFormed form⟩

/-- A first word of 79 letters and a second one: the slug ends on an underscore, which its own slug
has not. -/
theorem slug_unstable :
    let value := String.ofList (List.replicate 79 'a') ++ " b"
    slugify plainTable value = String.ofList (List.replicate 79 'a') ++ "_" ∧
      slugify plainTable (slugify plainTable value) = String.ofList (List.replicate 79 'a') := by
  decide +kernel

end BusinessOs.Core.SlugForm
