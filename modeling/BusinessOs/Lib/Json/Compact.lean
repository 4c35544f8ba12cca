/- digest: The compact text of a JSON value determines the value. -/

import BusinessOs.Lib.Json.Literals
import Mathlib.Data.List.Flatten

set_option autoImplicit false
set_option relaxedAutoImplicit false

namespace BusinessOs.Lib.Json.Compact

open BusinessOs.Lib.Json.Tree BusinessOs.Lib.Json.Literals

variable (lit : LiteralPrinter)

/-- `[",".join(texts)]` between brackets. -/
def bracketed (left right : Char) (texts : List (List Char)) : List Char :=
  left :: (List.intercalate [','] texts ++ [right])

mutual

/-- The text of a value without spaces, members in iteration order. -/
def compact : Value → List Char
  | .null => ['n', 'u', 'l', 'l']
  | .bool true => ['t', 'r', 'u', 'e']
  | .bool false => ['f', 'a', 'l', 's', 'e']
  | .number n => lit.number n
  | .string s => lit.string s
  | .array items => bracketed '[' ']' (compactItems items)
  | .object members => bracketed '{' '}' (compactMembers members)

def compactItems : List Value → List (List Char)
  | [] => []
  | v :: vs => compact v :: compactItems vs

def compactMembers : List (String × Value) → List (List Char)
  | [] => []
  | (k, v) :: ms => (lit.string k ++ ':' :: compact v) :: compactMembers ms

end

theorem compactItems_eq (items : List Value) :
    compactItems lit items = items.map (compact lit) := by
  induction items with
  | nil => rfl
  | cons v vs ih => rw [compactItems, ih, List.map_cons]

/-- The text of one object member. -/
def memberText (m : String × Value) : List Char := lit.string m.1 ++ ':' :: compact lit m.2

theorem compactMembers_eq (members : List (String × Value)) :
    compactMembers lit members = members.map (memberText lit) := by
  induction members with
  | nil => rfl
  | cons m ms ih => rw [compactMembers, ih, List.map_cons, memberText]

/-- The texts after the first one, each behind its comma. -/
def continued (texts : List (List Char)) : List Char := texts.flatMap (',' :: ·)

theorem intercalate_cons (text : List Char) (texts : List (List Char)) :
    List.intercalate [','] (text :: texts) = text ++ continued texts := by
  induction texts generalizing text with
  | nil => simp [List.intercalate, continued]
  | cons next rest ih =>
    have step : List.intercalate [','] (text :: next :: rest) =
        text ++ ',' :: List.intercalate [','] (next :: rest) := by
      simp [List.intercalate, List.intersperse]
    rw [step, ih]
    simp [continued]

theorem bracketed_cons (left right : Char) (text : List Char) (texts : List (List Char))
    (rest : List Char) :
    bracketed left right (text :: texts) ++ rest =
      left :: (text ++ (continued texts ++ right :: rest)) := by
  simp [bracketed, intercalate_cons]

theorem infix_bracketed {left right : Char} {text : List Char} {texts : List (List Char)}
    (member : text ∈ texts) : text <:+: bracketed left right texts := by
  cases texts with
  | nil => cases member
  | cons first rest =>
    have shape := bracketed_cons left right first rest []
    rw [List.append_nil] at shape
    rw [shape]
    rcases List.mem_cons.mp member with rfl | later
    · exact ⟨[left], continued rest ++ [right], by simp⟩
    · have behind : ',' :: text <:+: continued rest :=
        List.infix_of_mem_flatten (List.mem_map_of_mem later)
      have own : text <:+: continued rest := (List.suffix_cons ',' text).isInfix.trans behind
      exact own.trans ⟨left :: first, [right], by simp⟩

/-- The text of a value contains the text of every value that occurs in it. -/
theorem compact_infix {v w : Value} (occurs : Occurs v w) : compact lit v <:+: compact lit w := by
  induction occurs with
  | here => exact List.infix_rfl
  | item mem _ ih =>
    rw [compact, compactItems_eq]
    exact ih.trans (infix_bracketed (List.mem_map_of_mem mem))
  | @member m members mem _ ih =>
    rw [compact, compactMembers_eq]
    have own : compact lit m.2 <:+: memberText lit m := ⟨lit.string m.1 ++ [':'], [], by
      simp [memberText]⟩
    exact ih.trans (own.trans (infix_bracketed (List.mem_map_of_mem mem)))

section Bracketed

variable {α : Type} {text : α → List Char}

/-- The text of `x` is read back from the front of any text that a delimiter continues. -/
def Readable (text : α → List Char) (x : α) : Prop :=
  ∀ y r s, Delimited r → Delimited s → text x ++ r = text y ++ s → x = y ∧ r = s

variable {right : Char} (close : isNumberChar right = false) {xs ys : List α} {r s : List Char}

include close

theorem delimited_continued (texts : List (List Char)) :
    Delimited (continued texts ++ right :: r) := by
  cases texts with
  | nil => exact delimited_cons close
  | cons t ts => exact delimited_cons (by decide)

theorem continued_prefix (comma : right ≠ ',') (readable : ∀ x ∈ xs, Readable text x)
    (same : continued (xs.map text) ++ right :: r = continued (ys.map text) ++ right :: s) :
    xs = ys ∧ r = s := by
  induction xs generalizing ys with
  | nil =>
    cases ys with
    | nil => simpa [continued] using same
    | cons y ys =>
      simp only [List.map_nil, List.map_cons, continued, List.flatMap_nil, List.flatMap_cons,
        List.nil_append, List.cons_append, List.cons.injEq] at same
      exact absurd same.1 comma
  | cons x xs ih =>
    cases ys with
    | nil =>
      simp only [List.map_nil, List.map_cons, continued, List.flatMap_nil, List.flatMap_cons,
        List.nil_append, List.cons_append, List.cons.injEq] at same
      exact absurd same.1.symm comma
    | cons y ys =>
      have heads : text x ++ (continued (xs.map text) ++ right :: r) =
          text y ++ (continued (ys.map text) ++ right :: s) := by
        simpa [continued] using same
      obtain ⟨rfl, tails⟩ := readable x List.mem_cons_self y _ _
        (delimited_continued close _) (delimited_continued close _) heads
      obtain ⟨rfl, rest⟩ := ih (fun z hz => readable z (List.mem_cons_of_mem _ hz)) tails
      exact ⟨rfl, rest⟩

/-- A bracketed list is read back from the front of any text, when its elements are readable
and none of them starts with the closing bracket. -/
theorem bracketed_prefix (left : Char) (comma : right ≠ ',')
    (opens : ∀ x r s, text x ++ r ≠ right :: s) (readable : ∀ x ∈ xs, Readable text x)
    (same : bracketed left right (xs.map text) ++ r = bracketed left right (ys.map text) ++ s) :
    xs = ys ∧ r = s := by
  cases xs with
  | nil =>
    cases ys with
    | nil => simpa [bracketed] using same
    | cons y ys =>
      rw [List.map_cons, bracketed_cons] at same
      exact absurd (List.cons.inj same).2.symm (opens y _ _)
  | cons x xs =>
    cases ys with
    | nil =>
      rw [List.map_cons, bracketed_cons] at same
      exact absurd (List.cons.inj same).2 (opens x _ _)
    | cons y ys =>
      rw [List.map_cons, List.map_cons, bracketed_cons, bracketed_cons] at same
      obtain ⟨rfl, tails⟩ := readable x List.mem_cons_self y _ _
        (delimited_continued close _) (delimited_continued close _) (List.cons.inj same).2
      obtain ⟨rfl, rest⟩ := continued_prefix close comma
        (fun z hz => readable z (List.mem_cons_of_mem _ hz)) tails
      exact ⟨rfl, rest⟩

end Bracketed

/-- The constructor that a first character belongs to. -/
def tagOf (c : Char) : ℕ :=
  if c = 'n' then 0
  else if c = 't' then 1
  else if c = 'f' then 2
  else if c = '"' then 3
  else if c = '[' then 4
  else if c = '{' then 5
  else if isNumberChar c then 6
  else 7

/-- The constructor of a value, with the two truth values apart. -/
def tag : Value → ℕ
  | .null => 0
  | .bool true => 1
  | .bool false => 2
  | .string _ => 3
  | .array _ => 4
  | .object _ => 5
  | .number _ => 6

theorem tagOf_number {c : Char} (h : isNumberChar c = true) : tagOf c = 6 := by
  have other : ∀ d, isNumberChar d = false → c ≠ d := by
    rintro d no rfl
    exact Bool.false_ne_true (no.symm.trans h)
  simp only [tagOf, other 'n' rfl, other 't' rfl, other 'f' rfl, other '"' rfl, other '[' rfl,
    other '{' rfl, h, if_true, if_false]

/-- A text starts with a character of its value's constructor. -/
theorem compact_head (v : Value) : ∃ c cs, compact lit v = c :: cs ∧ tagOf c = tag v := by
  cases v with
  | null => exact ⟨_, _, rfl, rfl⟩
  | bool b => cases b <;> exact ⟨_, _, rfl, rfl⟩
  | number n =>
    obtain ⟨c, cs, text⟩ := List.exists_cons_of_ne_nil (lit.number_ne_nil n)
    refine ⟨c, cs, text, tagOf_number (lit.number_chars n c ?_)⟩
    rw [text]
    exact List.mem_cons_self
  | string s =>
    obtain ⟨body, text, _⟩ := lit.string_quoted s
    exact ⟨_, _, text, rfl⟩
  | array items => exact ⟨_, _, rfl, rfl⟩
  | object members => exact ⟨_, _, rfl, rfl⟩

theorem tag_eq {v w : Value} {r s : List Char} (same : compact lit v ++ r = compact lit w ++ s) :
    tag v = tag w := by
  obtain ⟨c, cs, hv, tv⟩ := compact_head lit v
  obtain ⟨d, ds, hw, tw⟩ := compact_head lit w
  rw [hv, hw] at same
  simp only [List.cons_append, List.cons.injEq] at same
  rw [← tv, ← tw, same.1]

/-- A text starts with no character that begins no value. -/
theorem compact_opens {c : Char} (hc : tagOf c = 7) (v : Value) (r s : List Char) :
    compact lit v ++ r ≠ c :: s := by
  intro same
  obtain ⟨d, ds, hv, tv⟩ := compact_head lit v
  rw [hv] at same
  simp only [List.cons_append, List.cons.injEq] at same
  rw [same.1, hc] at tv
  cases v with
  | bool b => cases b <;> simp [tag] at tv
  | _ => simp [tag] at tv

theorem member_opens {c : Char} (hc : c ≠ '"') (m : String × Value) (r s : List Char) :
    memberText lit m ++ r ≠ c :: s := by
  intro same
  obtain ⟨body, text, _⟩ := lit.string_quoted m.1
  rw [memberText, text] at same
  simp only [List.cons_append, List.cons.injEq] at same
  exact hc same.1.symm

theorem member_readable {m : String × Value} (value : Readable (compact lit) m.2) :
    Readable (memberText lit) m := by
  intro n r s hr hs same
  simp only [memberText, List.append_assoc, List.cons_append] at same
  obtain ⟨key, rest⟩ := string_prefix lit same
  obtain ⟨val, ends⟩ := value n.2 r s hr hs (List.cons.inj rest).2
  exact ⟨Prod.ext key val, ends⟩

/-- Every value is read back from the front of any text that a delimiter continues. -/
theorem compact_readable (v : Value) : Readable (compact lit) v := by
  induction v using Value.induct with
  | null =>
    intro w r s _ _ same
    have tags := tag_eq lit same
    cases w with
    | null => exact ⟨rfl, by simpa [compact] using same⟩
    | bool b => cases b <;> simp [tag] at tags
    | _ => simp [tag] at tags
  | bool b =>
    intro w r s _ _ same
    have tags := tag_eq lit same
    cases w with
    | bool c => cases b <;> cases c <;> simp_all [tag, compact]
    | _ => cases b <;> simp [tag] at tags
  | number n =>
    intro w r s hr hs same
    have tags := tag_eq lit same
    cases w with
    | number m =>
      obtain ⟨rfl, ends⟩ := number_prefix lit hr hs same
      exact ⟨rfl, ends⟩
    | bool b => cases b <;> simp [tag] at tags
    | _ => simp [tag] at tags
  | string t =>
    intro w r s _ _ same
    have tags := tag_eq lit same
    cases w with
    | string u =>
      obtain ⟨rfl, ends⟩ := string_prefix lit same
      exact ⟨rfl, ends⟩
    | bool b => cases b <;> simp [tag] at tags
    | _ => simp [tag] at tags
  | array items ih =>
    intro w r s _ _ same
    have tags := tag_eq lit same
    cases w with
    | array others =>
      simp only [compact, compactItems_eq] at same
      obtain ⟨rfl, ends⟩ := bracketed_prefix (by decide) '[' (by decide)
        (compact_opens lit (by decide)) ih same
      exact ⟨rfl, ends⟩
    | bool b => cases b <;> simp [tag] at tags
    | _ => simp [tag] at tags
  | object members ih =>
    intro w r s _ _ same
    have tags := tag_eq lit same
    cases w with
    | object others =>
      simp only [compact, compactMembers_eq] at same
      obtain ⟨rfl, ends⟩ := bracketed_prefix (by decide) '{' (by decide)
        (member_opens lit (by decide)) (fun m hm => member_readable lit (ih m hm)) same
      exact ⟨rfl, ends⟩
    | bool b => cases b <;> simp [tag] at tags
    | _ => simp [tag] at tags

/-- Two values with the same text are the same value. -/
theorem compact_injective : Function.Injective (compact lit) := by
  intro v w same
  exact (compact_readable lit v w [] [] delimited_nil delimited_nil (by simpa using same)).1

end BusinessOs.Lib.Json.Compact
