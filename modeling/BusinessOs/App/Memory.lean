/- Source: app/services/memory.py, app/services/rag.py, app/models.py (MemoryEntry)
   digest: The entries of a memory namespace, and when a search returns the best matches of it. -/

import BusinessOs.App.Skills
import BusinessOs.Lib.TopN

set_option autoImplicit false
set_option relaxedAutoImplicit false

namespace BusinessOs.App.Memory

open BusinessOs.Lib BusinessOs.Lib.Lowercase BusinessOs.Lib.TopN
open BusinessOs.Core.SkillBridge BusinessOs.App.Skills

/-- `str.isspace`: four separators more than the property `White_Space`. -/
def isSpace (c : Char) : Bool :=
  isWhitespace c || (decide (0x1C ≤ c.toNat) && decide (c.toNat ≤ 0x1F))

/-- `str.split`. -/
def split (text : String) : List String :=
  ((text.toList.splitOnP isSpace).filter fun word => !word.isEmpty).map String.ofList

/-- `items[:limit]`. -/
def sliceTo {α : Type} (limit : ℤ) (items : List α) : List α :=
  if 0 ≤ limit then items.take limit.toNat else items.take (items.length - limit.natAbs)

structure MemoryEntry (Value : Type) where
  id : String
  memoryNamespace : String
  key : String
  value : Value
  text : String
  deriving DecidableEq

/-- The table, in the order of insertion. -/
structure MemoryStore (Value : Type) where
  entries : List (MemoryEntry Value)
  ids : (entries.map MemoryEntry.id).Nodup

section Service

variable {Value : Type} (env : Surroundings) (render : Value → String)

def MemoryStore.inNamespace (store : MemoryStore Value) (memoryNamespace : String) :
    List (MemoryEntry Value) :=
  store.entries.filter fun entry => entry.memoryNamespace == memoryNamespace

def isNamed (memoryNamespace key : String) (entry : MemoryEntry Value) : Bool :=
  entry.memoryNamespace == memoryNamespace && entry.key == key

/-- `MemoryService.get`. -/
def MemoryStore.get (store : MemoryStore Value) (memoryNamespace key : String) :
    Option (MemoryEntry Value) :=
  store.entries.find? (isNamed memoryNamespace key)

/-- `MemoryService.set`. -/
def MemoryStore.set (store : MemoryStore Value) (memoryNamespace key : String) (value : Value)
    (text : String) : MemoryStore Value :=
  match store.get memoryNamespace key with
  | some existing =>
    { entries := Table.update MemoryEntry.id store.entries existing.id fun entry =>
        { entry with value, text }
      ids := by
        have kept : ∀ entry : MemoryEntry Value, { entry with value, text }.id = entry.id :=
          fun _ => rfl
        rw [Table.keys_update kept]
        exact store.ids }
  | none =>
    { entries := store.entries ++
        [⟨env.newId (store.entries.map MemoryEntry.id), memoryNamespace, key, value, text⟩]
      ids := Table.nodup_append store.ids (env.newId_new _) }

def tokens (query : String) : List String :=
  ((split query).filter fun token => decide (2 < token.length)).map (toLowercase env.python)

/-- What an entry is searched in; `render` is `str` of its value. -/
def haystack (entry : MemoryEntry Value) : String :=
  toLowercase env.python (entry.key ++ " " ++ entry.text ++ " " ++ render entry.value)

/-- How many tokens of a query an entry matches. -/
def score (query : String) (entry : MemoryEntry Value) : ℕ :=
  (tokens env query).countP (contains (haystack env render entry))

/-- The loop of `search`. -/
def scored (query : String) (entries : List (MemoryEntry Value)) :
    List (ℕ × MemoryEntry Value) :=
  entries.filterMap fun entry =>
    let score := score env render query entry
    if score ≠ 0 then some (score, entry) else none

/-- `MemoryService.search`; without an order the rows come as the table has them. -/
def search (store : MemoryStore Value) (memoryNamespace query : String) (limit : ℤ) :
    List (MemoryEntry Value) :=
  if (tokens env query).isEmpty then []
  else
    let entries := (store.inNamespace memoryNamespace).take 200
    let sorted := (scored env render query entries).insertionSort fun a b => b.1 ≤ a.1
    (sliceTo limit sorted).map Prod.snd

/-- The rest of `KnowledgeService.answer` where the cloud has none; a source is a key and an id. -/
def answerFromMemory (store : MemoryStore Value) (memoryNamespace question : String) :
    String × List (String × String) :=
  let found := search env render store memoryNamespace question 5
  let context := (found.map MemoryEntry.text).filter fun text => text != ""
  if context.isEmpty then ("I do not have enough internal knowledge to answer that yet.", [])
  else
    let stitched := (" ".intercalate context).toList
    (String.ofList (stitched.take 900) ++ if 900 < stitched.length then "..." else "",
      found.map fun entry => (entry.key, entry.id))

end Service

section Search

variable {Value : Type} {env : Surroundings} {render : Value → String}

theorem inNamespace_nodup (store : MemoryStore Value) (memoryNamespace : String) :
    (store.inNamespace memoryNamespace).Nodup :=
  (List.Nodup.of_map _ store.ids).filter _

/-- The scores that are paired with the entries only sort them. -/
theorem sort_scored (query : String) (entries : List (MemoryEntry Value)) :
    (scored env render query entries).insertionSort (fun a b => b.1 ≤ a.1) =
      (ranked (score env render query) entries).map fun entry =>
        (score env render query entry, entry) := by
  have pairs : scored env render query entries =
      (entries.filter fun entry => decide (0 < score env render query entry)).map fun entry =>
        (score env render query entry, entry) := by
    rw [← List.filterMap_eq_map, List.filterMap_filter]
    apply List.filterMap_congr
    intro entry _
    by_cases matched : 0 < score env render query entry
    · rw [if_pos matched.ne', if_pos (decide_eq_true matched)]
      rfl
    · rw [if_neg (by omega), if_neg (by simpa using matched)]
  rw [pairs, ranked]
  exact (List.map_insertionSort (fun a b => score env render query b ≤ score env render query a)
    (fun a b : ℕ × MemoryEntry Value => b.1 ≤ a.1) _ _ fun _ _ _ _ => Iff.rfl).symm

theorem search_eq (store : MemoryStore Value) (memoryNamespace query : String) (n : ℕ) :
    search env render store memoryNamespace query n =
      top (score env render query) n ((store.inNamespace memoryNamespace).take 200) := by
  unfold search
  split_ifs with none_
  · refine (top_eq_nil ?_).symm
    intro entry _
    rw [score, List.isEmpty_iff.mp none_, List.countP_nil]
  · show (sliceTo n ((scored env render query _).insertionSort fun a b => b.1 ≤ a.1)).map
      Prod.snd = _
    rw [sort_scored, sliceTo, if_pos (Int.natCast_nonneg n), Int.toNat_natCast, ← List.map_take,
      List.map_map, top]
    exact List.map_id _

/-- The search returns the best matches of a namespace exactly when every match behind the first two
hundred entries is as good as `n` of these are. -/
theorem search_best_iff (env : Surroundings) (render : Value → String) (store : MemoryStore Value)
    (memoryNamespace query : String) (n : ℕ) :
    Best (score env render query) n (store.inNamespace memoryNamespace)
        (search env render store memoryNamespace query n) ↔
      ∀ entry ∈ (store.inNamespace memoryNamespace).drop 200,
        0 < score env render query entry →
          n ≤ ((store.inNamespace memoryNamespace).take 200).countP fun other =>
            decide (score env render query entry ≤ score env render query other) := by
  have whole := List.take_append_drop 200 (store.inNamespace memoryNamespace)
  have distinct := inNamespace_nodup store memoryNamespace
  rw [← whole] at distinct
  rw [search_eq, ← best_top_iff distinct, whole]

/-- So it does wherever a namespace has no more entries than are fetched. -/
theorem search_best (store : MemoryStore Value) (memoryNamespace query : String) (n : ℕ)
    (few : (store.inNamespace memoryNamespace).length ≤ 200) :
    Best (score env render query) n (store.inNamespace memoryNamespace)
      (search env render store memoryNamespace query n) := by
  have best : Best (score env render query) n (store.inNamespace memoryNamespace ++ [])
      (top (score env render query) n (store.inNamespace memoryNamespace)) :=
    best_of_covered (inNamespace_nodup store memoryNamespace)
      fun _ member => absurd member List.not_mem_nil
  rw [List.append_nil] at best
  rw [search_eq, List.take_of_length_le few]
  exact best

/-- An answer names entries of the namespace that match the question. -/
theorem source_of_answer {store : MemoryStore Value} {memoryNamespace question : String}
    {source : String × String}
    (member : source ∈ (answerFromMemory env render store memoryNamespace question).2) :
    ∃ entry ∈ store.inNamespace memoryNamespace, 0 < score env render question entry ∧
      source = (entry.key, entry.id) := by
  unfold answerFromMemory at member
  have five : (5 : ℤ) = (5 : ℕ) := rfl
  rw [five, search_eq] at member
  dsimp only at member
  have named : source ∈ (top (score env render question) 5
      ((store.inNamespace memoryNamespace).take 200)).map fun entry => (entry.key, entry.id) := by
    split_ifs at member with silent long
    · cases member
    · exact member
    · exact member
  obtain ⟨entry, found, rfl⟩ := List.mem_map.mp named
  obtain ⟨fetched, matched⟩ := mem_of_mem_top found
  exact ⟨entry, List.mem_of_mem_take fetched, matched, rfl⟩

end Search

section Table

variable {Value : Type} {env : Surroundings} {store : MemoryStore Value}

theorem isNamed_iff {memoryNamespace key : String} {entry : MemoryEntry Value} :
    isNamed memoryNamespace key entry = true ↔
      entry.memoryNamespace = memoryNamespace ∧ entry.key = key := by
  rw [isNamed, Bool.and_eq_true, beq_iff_eq, beq_iff_eq]

theorem get_some {memoryNamespace key : String} {entry : MemoryEntry Value}
    (found : store.get memoryNamespace key = some entry) :
    entry ∈ store.entries ∧ entry.memoryNamespace = memoryNamespace ∧ entry.key = key :=
  ⟨List.mem_of_find?_eq_some found, isNamed_iff.mp (List.find?_some found)⟩

/-- A write finds the same entries, its own changed. -/
theorem find_written (memoryNamespace key id : String) (value : Value) (text : String) :
    (Table.update MemoryEntry.id store.entries id fun entry => { entry with value, text }).find?
        (isNamed memoryNamespace key) =
      (store.get memoryNamespace key).map fun entry =>
        if entry.id = id then { entry with value, text } else entry :=
  Table.find?_update fun _ => rfl

/-- What is set is what is found. -/
theorem get_set (memoryNamespace key : String) (value : Value) (text : String) :
    ∃ entry, (store.set env memoryNamespace key value text).get memoryNamespace key = some entry ∧
      entry.value = value ∧ entry.text = text := by
  unfold MemoryStore.set
  split
  · rename_i existing found
    refine ⟨{ existing with value, text }, ?_, rfl, rfl⟩
    rw [MemoryStore.get, find_written, found, Option.map_some, if_pos rfl]
  · rename_i missing
    let row : MemoryEntry Value :=
      ⟨env.newId (store.entries.map MemoryEntry.id), memoryNamespace, key, value, text⟩
    have own : isNamed memoryNamespace key row = true := isNamed_iff.mpr ⟨rfl, rfl⟩
    refine ⟨row, ?_, rfl, rfl⟩
    rw [MemoryStore.get] at missing
    rw [MemoryStore.get, List.find?_append, missing, Option.none_or,
      List.find?_cons_of_pos own]

/-- Every other key keeps its entry. -/
theorem get_set_of_ne {memoryNamespace key otherNamespace otherKey : String} (value : Value)
    (text : String) (other : ¬(otherNamespace = memoryNamespace ∧ otherKey = key)) :
    (store.set env memoryNamespace key value text).get otherNamespace otherKey =
      store.get otherNamespace otherKey := by
  unfold MemoryStore.set
  split
  · rename_i existing found
    obtain ⟨there, sameNamespace, sameKey⟩ := get_some found
    rw [MemoryStore.get, find_written]
    cases before : store.get otherNamespace otherKey with
    | none => rfl
    | some entry =>
      obtain ⟨inside, entryNamespace, entryKey⟩ := get_some before
      have apart : entry.id ≠ existing.id := by
        intro same
        obtain rfl : entry = existing := List.inj_on_of_nodup_map store.ids inside there same
        exact other ⟨entryNamespace.symm.trans sameNamespace, entryKey.symm.trans sameKey⟩
      rw [Option.map_some, if_neg apart]
  · have miss : ∀ id, ¬ isNamed otherNamespace otherKey
        (⟨id, memoryNamespace, key, value, text⟩ : MemoryEntry Value) = true := by
      intro id named
      obtain ⟨sameNamespace, sameKey⟩ := isNamed_iff.mp named
      exact other ⟨sameNamespace.symm, sameKey.symm⟩
    rw [MemoryStore.get, List.find?_append, List.find?_cons_of_neg (miss _), List.find?_nil,
      Option.or_none, MemoryStore.get]

end Table

section Sample

/-- A note on nothing, with an id and a key of its own. -/
def note (i : ℕ) : MemoryEntry Unit where
  id := String.ofList (List.replicate (i / 16) 'a' ++ List.replicate (i % 16) 'b')
  memoryNamespace := "company"
  key := String.ofList (List.replicate i 'a')
  value := ()
  text := ""

def budget : MemoryEntry Unit := ⟨"budget", "company", "budget", (), ""⟩

theorem note_id_injective : Function.Injective fun i => (note i).id := by
  intro i j same
  have letters := String.ofList_injective same
  have as := congrArg (List.count 'a') letters
  have bs := congrArg (List.count 'b') letters
  simp only [List.count_append, List.count_replicate_self] at as bs
  rw [List.count_replicate, List.count_replicate, if_neg (by decide), if_neg (by decide)] at as bs
  omega

theorem ids_grown :
    (((List.range 200).map note ++ [budget]).map MemoryEntry.id).Nodup := by
  have notes : (((List.range 200).map note).map MemoryEntry.id).Nodup := by
    rw [List.map_map]
    exact List.nodup_range.map note_id_injective
  refine Table.nodup_append notes ?_
  rw [List.map_map]
  intro member
  obtain ⟨i, _, same⟩ := List.mem_map.mp member
  have letters := congrArg (fun text => 'u' ∈ String.toList text) same
  have last : 'u' ∈ "budget".toList := by decide
  have inside : 'u' ∈ (note i).id.toList := letters.symm ▸ last
  simp [note] at inside

def grownStore : MemoryStore Unit := ⟨(List.range 200).map note ++ [budget], ids_grown⟩

def braces (_ : Unit) : String := "\x7b\x7d"

theorem tokens_budget : tokens sampleSurroundings "budget" = ["budget"] := by decide +kernel

/-- There is no letter `b` in a note. -/
theorem score_note (i : ℕ) : score sampleSurroundings braces "budget" (note i) = 0 := by
  rw [score, tokens_budget, List.countP_eq_zero]
  intro token member
  obtain rfl := List.mem_singleton.mp member
  rw [haystack, contains_toLowercase_iff _ _ (by decide) (by decide)]
  intro inside
  have letter : 'b' ∈ "budget".toList := by decide
  obtain ⟨c, there, same⟩ := List.mem_map.mp (inside.subset letter)
  have chars : c = 'a' ∨ c = ' ' ∨ c ∈ "\x7b\x7d".toList := by
    simp only [note, braces, String.toList_append, String.toList_ofList, List.mem_append,
      List.mem_replicate] at there
    rcases there with (((⟨_, letter⟩ | space) | none_) | space) | brace
    · exact .inl letter
    · exact .inr (.inl (List.mem_singleton.mp space))
    · cases none_
    · exact .inr (.inl (List.mem_singleton.mp space))
    · exact .inr (.inr brace)
  have lowered : plainLower 'a' ≠ 'b' ∧ plainLower ' ' ≠ 'b' ∧
      'b' ∉ "\x7b\x7d".toList.map plainLower := by decide
  rcases chars with rfl | rfl | brace
  · exact lowered.1 same
  · exact lowered.2.1 same
  · exact lowered.2.2 (same ▸ List.mem_map_of_mem brace)

theorem score_budget : 0 < score sampleSurroundings braces "budget" budget := by decide +kernel

/-- The one entry that matches is not among the first two hundred. -/
theorem match_missed : ¬ ∀ (store : MemoryStore Unit) (memoryNamespace query : String) (n : ℕ),
    tokens sampleSurroundings query ≠ [] →
    Best (score sampleSurroundings braces query) n (store.inNamespace memoryNamespace)
      (search sampleSurroundings braces store memoryNamespace query n) := by
  intro law
  have best := law grownStore "company" "budget" 1 (by simp [tokens_budget])
  have all : grownStore.inNamespace "company" = (List.range 200).map note ++ [budget] := by
    refine List.filter_eq_self.mpr fun entry member => ?_
    rcases List.mem_append.mp member with old | last
    · obtain ⟨i, _, rfl⟩ := List.mem_map.mp old
      rfl
    · rw [List.mem_singleton.mp last]
      rfl
  have fetched : (grownStore.inNamespace "company").take 200 = (List.range 200).map note := by
    rw [all]
    exact List.take_left' (by simp)
  have found : search sampleSurroundings braces grownStore "company" "budget" (1 : ℕ) = [] := by
    rw [search_eq, fetched]
    refine top_eq_nil fun entry member => ?_
    obtain ⟨i, _, rfl⟩ := List.mem_map.mp member
    exact score_note i
  have matching : 0 < (grownStore.inNamespace "company").countP fun entry =>
      decide (0 < score sampleSurroundings braces "budget" entry) := by
    rw [List.countP_pos_iff, all]
    exact ⟨budget, List.mem_append_right _ (List.mem_singleton_self _),
      decide_eq_true score_budget⟩
  have length := best.length
  rw [found, List.length_nil] at length
  omega

end Sample

end BusinessOs.App.Memory
