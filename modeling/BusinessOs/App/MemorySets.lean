/- Source: app/services/memory.py (MemoryService.set), app/db.py
   digest: Writes of memory entries from several sessions: what a key shows after them, and what a
     write that is overtaken between its read and its commit can lose. -/

import BusinessOs.App.Memory
import BusinessOs.Lib.Execution
import BusinessOs.Lib.Interleaving
import BusinessOs.Lib.UnitOfWork

set_option autoImplicit false
set_option relaxedAutoImplicit false

namespace BusinessOs.App.MemorySets

open BusinessOs.Lib BusinessOs.Lib.Execution BusinessOs.Lib.Interleaving BusinessOs.Lib.UnitOfWork
open BusinessOs.App.Skills BusinessOs.App.Memory

/-- The arguments of a call of `set`. Values are taken up to Python's equality, to which `1`, `1.0`
and `True` are one value: a flush leaves out an attribute that was set to an equal one. -/
structure Write (Value : Type) where
  memoryNamespace : String
  key : String
  value : Value
  text : String
  deriving DecidableEq

/-- The row that a call has read, with the attributes that it has set in memory. -/
structure Found (Value : Type) where
  id : String
  value : Tracked Value
  text : Tracked String
  deriving DecidableEq

inductive Phase (Value : Type)
  | idle
  /-- Behind the query, before the commit. -/
  | read (call : Write Value) (existing : Option (Found Value))

inductive Event (P Value : Type)
  | select (p : P) (call : Write Value)
  | commit (p : P) (call : Write Value)
  /-- The process dies, or its session is closed. -/
  | stop (p : P)

abbrev World (P Value : Type) := Interleaving.World P (MemoryStore Value) (Phase Value)

variable {P Value : Type}

def Write.find (call : Write Value) (store : MemoryStore Value) : Option (MemoryEntry Value) :=
  store.get call.memoryNamespace call.key

def Found.load (call : Write Value) (entry : MemoryEntry Value) : Found Value where
  id := entry.id
  value := (Tracked.load entry.value).set call.value
  text := (Tracked.load entry.text).set call.text

def Found.flush [DecidableEq Value] (existing : Found Value) (entry : MemoryEntry Value) :
    MemoryEntry Value :=
  { entry with
    value := existing.value.flush entry.value
    text := existing.text.flush entry.text }

section Step

variable [DecidableEq Value] (env : Surroundings)

/-- The commit of a call that has read `existing`. -/
def commit (store : MemoryStore Value) (call : Write Value) :
    Option (Found Value) → MemoryStore Value
  | some existing =>
    { entries := Table.update MemoryEntry.id store.entries existing.id existing.flush
      ids := by
        have kept : ∀ entry, (existing.flush entry).id = entry.id := fun _ => rfl
        rw [Table.keys_update kept]
        exact store.ids }
  | none =>
    { entries := store.entries ++ [⟨env.newId (store.entries.map MemoryEntry.id),
        call.memoryNamespace, call.key, call.value, call.text⟩]
      ids := Table.nodup_append store.ids (env.newId_new _) }

def step [DecidableEq P] (s : World P Value) : Event P Value → Option (World P Value)
  | .select p call =>
    match s.phase p with
    | .idle => some (s.move p s.db (.read call ((call.find s.db).map (Found.load call))))
    | .read _ _ => none
  | .commit p call =>
    match s.phase p with
    | .read own existing =>
      if own = call then some (s.move p (commit env s.db call existing) .idle) else none
    | .idle => none
  | .stop p => some (s.move p s.db .idle)

end Step

/-- The call writes this key. -/
def Write.names (call : Write Value) (memoryNamespace key : String) : Bool :=
  call.memoryNamespace == memoryNamespace && call.key == key

/-- The committed writes of a key, in the order of their commits. -/
def writes (memoryNamespace key : String) (es : List (Event P Value)) : List (Write Value) :=
  es.filterMap fun e =>
    match e with
    | .commit _ call => if call.names memoryNamespace key then some call else none
    | _ => none

/-- What a commit of this key has read is what the table holds by then. -/
def Current (memoryNamespace key : String) (s : World P Value) : Event P Value → Prop
  | .commit p call => call.names memoryNamespace key = true →
    ∀ own existing, s.phase p = .read own existing →
      existing = (call.find s.db).map (Found.load call)
  | _ => True

def rows (store : MemoryStore Value) (memoryNamespace key : String) : List (MemoryEntry Value) :=
  store.entries.filter (isNamed memoryNamespace key)

structure Initial (s : World P Value) : Prop where
  empty : s.db.entries = []
  idle : ∀ p, s.phase p = .idle

/-- What a key holds after the steps `es`. -/
structure Register [DecidableEq P] [DecidableEq Value] (env : Surroundings)
    (start : World P Value) (es : List (Event P Value))
    (s : World P Value) (memoryNamespace key : String) : Prop where
  present : s.db.get memoryNamespace key = none ↔ writes memoryNamespace key es = []
  /-- No later step hides the entry that the key shows, or gives it another id. -/
  stays : ∀ fs t entry, Run (ofPartial (step env)) s fs t →
    s.db.get memoryNamespace key = some entry →
      ∃ later, t.db.get memoryNamespace key = some later ∧ later.id = entry.id
  /-- Values and texts are of committed writes, if not always of one and the same. -/
  written : ∀ entry ∈ rows s.db memoryNamespace key,
    (∃ call ∈ writes memoryNamespace key es, call.value = entry.value) ∧
      ∃ call ∈ writes memoryNamespace key es, call.text = entry.text
  /-- Where no write of the key is overtaken, it has one row, as the last write left it. -/
  last : Run (Guarded (Current memoryNamespace key) (ofPartial (step env))) start es s →
    (rows s.db memoryNamespace key).map (fun entry => (entry.value, entry.text)) =
      ((writes memoryNamespace key es).getLast?.map fun call => (call.value, call.text)).toList

section Rows

variable {store : MemoryStore Value} {call : Write Value} {memoryNamespace key : String}

theorem names_iff : call.names memoryNamespace key = true ↔
    call.memoryNamespace = memoryNamespace ∧ call.key = key := by
  rw [Write.names, Bool.and_eq_true, beq_iff_eq, beq_iff_eq]

theorem rows_eq_nil : rows store memoryNamespace key = [] ↔
    store.get memoryNamespace key = none := by
  rw [rows, MemoryStore.get, List.filter_eq_nil_iff, List.find?_eq_none]

theorem get_eq_head : store.get memoryNamespace key = (rows store memoryNamespace key).head? := by
  rw [rows, List.head?_filter, MemoryStore.get]

theorem writes_snoc (es : List (Event P Value)) (e : Event P Value) :
    writes memoryNamespace key (es ++ [e]) =
      writes memoryNamespace key es ++ writes memoryNamespace key [e] :=
  List.filterMap_append

theorem writes_commit (p : P) : writes memoryNamespace key [.commit p call] =
    if call.names memoryNamespace key then [call] else [] := by
  unfold writes
  cases own : call.names memoryNamespace key <;> simp [own]

end Rows

section Commit

variable [DecidableEq Value] {env : Surroundings} {store : MemoryStore Value} {call : Write Value}
variable {memoryNamespace key : String} {existing : Found Value}

/-- The row that a call inserts. -/
def inserted (env : Surroundings) (store : MemoryStore Value) (call : Write Value) :
    MemoryEntry Value :=
  ⟨env.newId (store.entries.map MemoryEntry.id), call.memoryNamespace, call.key, call.value,
    call.text⟩

omit [DecidableEq Value] in
theorem inserted_named : isNamed memoryNamespace key (inserted env store call) =
    call.names memoryNamespace key := rfl

/-- Undisturbed, the query and the commit are the sequential `set`. -/
theorem commit_current (call : Write Value) (store : MemoryStore Value) :
    commit env store call ((call.find store).map (Found.load call)) =
      store.set env call.memoryNamespace call.key call.value call.text := by
  unfold MemoryStore.set
  split
  · rename_i existing found
    have held : call.find store = some existing := found
    rw [held]
    show (⟨_, _⟩ : MemoryStore Value) = ⟨_, _⟩
    congr 1
    refine List.map_congr_left fun entry member => ?_
    show (if entry.id = existing.id then _ else entry) = if entry.id = existing.id then _ else entry
    by_cases own : entry.id = existing.id
    · -- the only row with the id is the one that was read
      have same : entry = existing :=
        List.inj_on_of_nodup_map store.ids member (get_some found).1 own
      rw [if_pos own, if_pos own, same]
      show MemoryEntry.mk _ _ _ _ _ = MemoryEntry.mk _ _ _ _ _
      congr 1
      · exact flush_of_loaded rfl
      · exact flush_of_loaded rfl
    · rw [if_neg own, if_neg own]
  · rename_i missing
    have held : call.find store = none := missing
    rw [held]
    rfl

theorem get_update (existing : Found Value) :
    (commit env store call (some existing)).get memoryNamespace key =
      (store.get memoryNamespace key).map fun entry =>
        if entry.id = existing.id then existing.flush entry else entry :=
  Table.find?_update fun _ => rfl

theorem get_insert : (commit env store call none).get memoryNamespace key =
    (store.get memoryNamespace key).or
      (if call.names memoryNamespace key then some (inserted env store call) else none) := by
  have whole : (commit env store call none).entries = store.entries ++ [inserted env store call] :=
    rfl
  rw [MemoryStore.get, whole, List.find?_append, MemoryStore.get]
  congr 1
  rw [List.find?_singleton, inserted_named]

/-- A commit leaves the entry that a key shows in its place. -/
theorem get_commit (existing : Option (Found Value)) {entry : MemoryEntry Value}
    (shown : store.get memoryNamespace key = some entry) :
    ∃ later, (commit env store call existing).get memoryNamespace key = some later ∧
      later.id = entry.id := by
  cases existing with
  | none => exact ⟨entry, by rw [get_insert, shown, Option.some_or], rfl⟩
  | some existing =>
    refine ⟨if entry.id = existing.id then existing.flush entry else entry, ?_, ?_⟩
    · rw [get_update, shown, Option.map_some]
    · split_ifs
      · rfl
      · rfl

end Commit

section Laws

variable [DecidableEq P] [DecidableEq Value] {env : Surroundings} {s t : World P Value}
variable {e : Event P Value} {memoryNamespace key : String}

/-- What the calls under way have read is still what their keys show, as far as the id goes. -/
def Reads (s : World P Value) : Prop :=
  ∀ p call existing, s.phase p = .read call (some existing) →
    existing.value.current = call.value ∧ existing.text.current = call.text ∧
      ∃ entry, call.find s.db = some entry ∧ entry.id = existing.id

/-- What a step does: it reads, it commits what a call has read, or it drops a call. -/
theorem step_cases (taken : step env s e = some t) :
    (∃ p call, e = .select p call ∧
      t = s.move p s.db (.read call ((call.find s.db).map (Found.load call)))) ∨
    (∃ p call existing, e = .commit p call ∧ s.phase p = .read call existing ∧
      t = s.move p (commit env s.db call existing) .idle) ∨
    (∃ p, e = .stop p ∧ t = s.move p s.db .idle) := by
  cases e with
  | select p call =>
    unfold step at taken
    dsimp only at taken
    split at taken
    · exact .inl ⟨p, call, rfl, (Option.some.inj taken).symm⟩
    · cases taken
  | commit p call =>
    unfold step at taken
    dsimp only at taken
    split at taken
    · rename_i own existing phase
      split_ifs at taken with same
      subst same
      exact .inr (.inl ⟨p, own, existing, rfl, phase, (Option.some.inj taken).symm⟩)
    · cases taken
  | stop p => exact .inr (.inr ⟨p, rfl, (Option.some.inj taken).symm⟩)

theorem step_stays (taken : step env s e = some t) {entry : MemoryEntry Value}
    (shown : s.db.get memoryNamespace key = some entry) :
    ∃ later, t.db.get memoryNamespace key = some later ∧ later.id = entry.id := by
  rcases step_cases taken with ⟨p, call, _, rfl⟩ | ⟨p, call, existing, _, _, rfl⟩ | ⟨p, _, rfl⟩
  · exact ⟨entry, shown, rfl⟩
  · exact get_commit existing shown
  · exact ⟨entry, shown, rfl⟩

theorem run_stays {es : List (Event P Value)} (run : Run (ofPartial (step env)) s es t)
    {entry : MemoryEntry Value} (shown : s.db.get memoryNamespace key = some entry) :
    ∃ later, t.db.get memoryNamespace key = some later ∧ later.id = entry.id := by
  refine run.invariant (I := fun t : World P Value =>
    ∃ later, t.db.get memoryNamespace key = some later ∧ later.id = entry.id) ?_ ⟨entry, shown, rfl⟩
  rintro s e t ⟨later, found, same⟩ taken
  obtain ⟨next, here, own⟩ := step_stays taken found
  exact ⟨next, here, own.trans same⟩

theorem Reads.step (reads : Reads s) (taken : step env s e = some t) : Reads t := by
  have others : ∀ p call existing, s.phase p = .read call (some existing) →
      existing.value.current = call.value ∧ existing.text.current = call.text ∧
        ∃ entry, call.find t.db = some entry ∧ entry.id = existing.id := by
    intro p call existing phase
    obtain ⟨value, text, entry, found, same⟩ := reads p call existing phase
    obtain ⟨later, here, own⟩ := step_stays taken found
    exact ⟨value, text, later, here, own.trans same⟩
  intro p call existing phase
  rcases step_cases taken with ⟨q, other, _, rfl⟩ | ⟨q, other, read, _, _, rfl⟩ | ⟨q, _, rfl⟩
  · by_cases own : p = q
    · subst own
      rw [move_self] at phase
      obtain ⟨rfl, loaded⟩ := Phase.read.inj phase
      obtain ⟨entry, found, rfl⟩ := Option.map_eq_some_iff.mp loaded
      exact ⟨rfl, rfl, entry, found, rfl⟩
    · rw [move_of_ne own] at phase
      exact others p call existing phase
  · by_cases own : p = q
    · subst own
      rw [move_self] at phase
      cases phase
    · rw [move_of_ne own] at phase
      exact others p call existing phase
  · by_cases own : p = q
    · subst own
      rw [move_self] at phase
      cases phase
    · rw [move_of_ne own] at phase
      exact others p call existing phase

/-- What holds of a key after any steps. -/
structure Held (memoryNamespace key : String) (es : List (Event P Value)) (s : World P Value) :
    Prop where
  present : s.db.get memoryNamespace key = none ↔ writes memoryNamespace key es = []
  written : ∀ entry ∈ rows s.db memoryNamespace key,
    (∃ call ∈ writes memoryNamespace key es, call.value = entry.value) ∧
      ∃ call ∈ writes memoryNamespace key es, call.text = entry.text

omit [DecidableEq Value] in
theorem find_of_names {call : Write Value} {store : MemoryStore Value}
    (own : call.names memoryNamespace key = true) :
    call.find store = store.get memoryNamespace key := by
  obtain ⟨rfl, rfl⟩ := names_iff.mp own
  rfl

/-- A commit fills its own key, and no other. -/
theorem get_commit_none {store : MemoryStore Value} {call : Write Value}
    {existing : Option (Found Value)}
    (found : ∀ f, existing = some f → ∃ entry, call.find store = some entry ∧ entry.id = f.id) :
    (commit env store call existing).get memoryNamespace key = none ↔
      store.get memoryNamespace key = none ∧ call.names memoryNamespace key = false := by
  cases existing with
  | none =>
    rw [get_insert, Option.or_eq_none_iff]
    cases own : call.names memoryNamespace key <;> simp
  | some f =>
    obtain ⟨entry, shown, _⟩ := found f rfl
    rw [get_update, Option.map_eq_none_iff]
    refine ⟨fun missing => ⟨missing, ?_⟩, And.left⟩
    cases own : call.names memoryNamespace key with
    | false => rfl
    | true =>
      rw [find_of_names own, missing] at shown
      cases shown

/-- Every row behind a commit has its value, and its text, from before or from the call. -/
theorem written_commit {store : MemoryStore Value} {call : Write Value}
    {existing : Option (Found Value)}
    (found : ∀ f, existing = some f → f.value.current = call.value ∧ f.text.current = call.text ∧
      ∃ entry, call.find store = some entry ∧ entry.id = f.id)
    {entry : MemoryEntry Value}
    (member : entry ∈ rows (commit env store call existing) memoryNamespace key) :
    ((∃ old ∈ rows store memoryNamespace key, old.value = entry.value) ∨
        call.names memoryNamespace key = true ∧ call.value = entry.value) ∧
      ((∃ old ∈ rows store memoryNamespace key, old.text = entry.text) ∨
        call.names memoryNamespace key = true ∧ call.text = entry.text) := by
  obtain ⟨inside, named⟩ := List.mem_filter.mp member
  cases existing with
  | none =>
    rcases List.mem_append.mp inside with old | new
    · have there : entry ∈ rows store memoryNamespace key := List.mem_filter.mpr ⟨old, named⟩
      exact ⟨.inl ⟨entry, there, rfl⟩, .inl ⟨entry, there, rfl⟩⟩
    · obtain rfl := List.mem_singleton.mp new
      exact ⟨.inr ⟨named, rfl⟩, .inr ⟨named, rfl⟩⟩
  | some f =>
    obtain ⟨value, text, shown, read, same⟩ := found f rfl
    rcases Table.mem_update inside with ⟨old, _⟩ | ⟨old, here, own, rfl⟩
    · have there : entry ∈ rows store memoryNamespace key := List.mem_filter.mpr ⟨old, named⟩
      exact ⟨.inl ⟨entry, there, rfl⟩, .inl ⟨entry, there, rfl⟩⟩
    · have there : old ∈ rows store memoryNamespace key := List.mem_filter.mpr ⟨here, named⟩
      obtain ⟨listed, ownNamespace, ownKey⟩ := get_some read
      obtain rfl : old = shown :=
        List.inj_on_of_nodup_map store.ids here listed (own.trans same.symm)
      obtain ⟨rowNamespace, rowKey⟩ := isNamed_iff.mp named
      have names : call.names memoryNamespace key = true :=
        names_iff.mpr ⟨ownNamespace.symm.trans rowNamespace, ownKey.symm.trans rowKey⟩
      constructor
      · by_cases changed : f.value.current = f.value.loaded
        · exact .inl ⟨old, there, (flush_of_eq changed).symm⟩
        · exact .inr ⟨names, value.symm.trans (flush_of_ne changed).symm⟩
      · by_cases changed : f.text.current = f.text.loaded
        · exact .inl ⟨old, there, (flush_of_eq changed).symm⟩
        · exact .inr ⟨names, text.symm.trans (flush_of_ne changed).symm⟩

omit [DecidableEq P] [DecidableEq Value] in
theorem Held.still {es : List (Event P Value)} (held : Held memoryNamespace key es s)
    (db : t.db = s.db) (silent : writes memoryNamespace key [e] = []) :
    Held memoryNamespace key (es ++ [e]) t := by
  have same : writes memoryNamespace key (es ++ [e]) = writes memoryNamespace key es := by
    rw [writes_snoc, silent, List.append_nil]
  constructor
  · rw [db, same]
    exact held.present
  · rw [db, same]
    exact held.written

theorem Held.step {es : List (Event P Value)} (held : Held memoryNamespace key es s)
    (reads : Reads s) (taken : step env s e = some t) :
    Held memoryNamespace key (es ++ [e]) t := by
  rcases step_cases taken with ⟨p, call, rfl, rfl⟩ | ⟨p, call, existing, rfl, phase, rfl⟩ |
    ⟨p, rfl, rfl⟩
  · exact held.still rfl rfl
  · have found : ∀ f, existing = some f → f.value.current = call.value ∧
        f.text.current = call.text ∧ ∃ entry, call.find s.db = some entry ∧ entry.id = f.id := by
      rintro f rfl
      exact reads p call f phase
    constructor
    · show (commit env s.db call existing).get memoryNamespace key = none ↔ _
      rw [get_commit_none fun f same => (found f same).2.2, held.present, writes_snoc,
        writes_commit, List.append_eq_nil_iff]
      cases own : call.names memoryNamespace key <;> simp
    · intro entry member
      obtain ⟨value, text⟩ := written_commit found member
      rw [writes_snoc, writes_commit]
      constructor
      · rcases value with ⟨old, there, same⟩ | ⟨names, same⟩
        · obtain ⟨⟨other, listed, own⟩, _⟩ := held.written old there
          exact ⟨other, List.mem_append_left _ listed, own.trans same⟩
        · rw [if_pos names]
          exact ⟨call, List.mem_append_right _ (List.mem_singleton_self call), same⟩
      · rcases text with ⟨old, there, same⟩ | ⟨names, same⟩
        · obtain ⟨_, other, listed, own⟩ := held.written old there
          exact ⟨other, List.mem_append_left _ listed, own.trans same⟩
        · rw [if_pos names]
          exact ⟨call, List.mem_append_right _ (List.mem_singleton_self call), same⟩
  · exact held.still rfl rfl

/-- The rows of a key hold what the last of its writes wrote, and nothing else. -/
def Last (memoryNamespace key : String) (es : List (Event P Value)) (s : World P Value) : Prop :=
  (rows s.db memoryNamespace key).map (fun entry => (entry.value, entry.text)) =
    ((writes memoryNamespace key es).getLast?.map fun call => (call.value, call.text)).toList

omit [DecidableEq Value] in
/-- A `set` of a key that has at most one row leaves it one, with the new value and text. -/
theorem rows_set {store : MemoryStore Value} {value : Value} {text : String}
    (few : (rows store memoryNamespace key).length ≤ 1) :
    (rows (store.set env memoryNamespace key value text) memoryNamespace key).map
      (fun entry => (entry.value, entry.text)) = [(value, text)] := by
  unfold MemoryStore.set
  split
  · rename_i existing found
    rw [get_eq_head] at found
    have only : rows store memoryNamespace key = [existing] := by
      cases held : rows store memoryNamespace key with
      | nil =>
        rw [held] at found
        cases found
      | cons first rest =>
        rw [held] at found few
        obtain rfl := Option.some.inj found
        rw [List.length_cons] at few
        rw [List.eq_nil_of_length_eq_zero (by omega : rest.length = 0)]
    have changed : (Table.update MemoryEntry.id store.entries existing.id fun entry =>
        { entry with value, text }).filter (isNamed memoryNamespace key) =
        (rows store memoryNamespace key).map fun entry =>
          if entry.id = existing.id then { entry with value, text } else entry :=
      Table.filter_update fun _ => rfl
    rw [rows, changed, only, List.map_singleton, List.map_singleton, if_pos rfl]
  · rename_i missing
    have own : isNamed memoryNamespace key (⟨env.newId (store.entries.map MemoryEntry.id),
        memoryNamespace, key, value, text⟩ : MemoryEntry Value) = true := isNamed_iff.mpr ⟨rfl, rfl⟩
    have none_ : store.entries.filter (isNamed memoryNamespace key) = [] := rows_eq_nil.mpr missing
    show ((store.entries ++ [_]).filter (isNamed memoryNamespace key)).map _ = _
    rw [List.filter_append, none_, List.filter_cons_of_pos own]
    rfl

/-- A commit of another key leaves the rows of this one. -/
theorem rows_other {store : MemoryStore Value} {call : Write Value}
    {existing : Option (Found Value)} (other : call.names memoryNamespace key = false)
    (found : ∀ f, existing = some f → ∃ entry, call.find store = some entry ∧ entry.id = f.id) :
    rows (commit env store call existing) memoryNamespace key =
      rows store memoryNamespace key := by
  cases existing with
  | none =>
    show (store.entries ++ [inserted env store call]).filter _ = _
    rw [List.filter_append, List.filter_cons_of_neg (by rw [inserted_named, other]; decide),
      List.filter_nil, List.append_nil]
    rfl
  | some f =>
    obtain ⟨shown, read, same⟩ := found f rfl
    obtain ⟨listed, ownNamespace, ownKey⟩ := get_some read
    have changed : rows (commit env store call (some f)) memoryNamespace key =
        (rows store memoryNamespace key).map fun entry =>
          if entry.id = f.id then f.flush entry else entry := Table.filter_update fun _ => rfl
    rw [changed]
    refine (List.map_congr_left fun entry member => ?_).trans (List.map_id _)
    obtain ⟨inside, named⟩ := List.mem_filter.mp member
    rw [if_neg]
    · rfl
    · intro own
      obtain rfl : entry = shown :=
        List.inj_on_of_nodup_map store.ids inside listed (own.trans same.symm)
      obtain ⟨rowNamespace, rowKey⟩ := isNamed_iff.mp named
      have names : call.names memoryNamespace key = true :=
        names_iff.mpr ⟨ownNamespace.symm.trans rowNamespace, ownKey.symm.trans rowKey⟩
      rw [other] at names
      cases names

omit [DecidableEq P] [DecidableEq Value] in
theorem Last.still {es : List (Event P Value)} (last : Last memoryNamespace key es s)
    (same : rows t.db memoryNamespace key = rows s.db memoryNamespace key)
    (silent : writes memoryNamespace key [e] = []) : Last memoryNamespace key (es ++ [e]) t := by
  unfold Last at last ⊢
  rw [same, writes_snoc, silent, List.append_nil]
  exact last

theorem Last.step {es : List (Event P Value)} (last : Last memoryNamespace key es s)
    (reads : Reads s) (current : Current memoryNamespace key s e)
    (taken : step env s e = some t) : Last memoryNamespace key (es ++ [e]) t := by
  rcases step_cases taken with ⟨p, call, rfl, rfl⟩ | ⟨p, call, existing, rfl, phase, rfl⟩ |
    ⟨p, rfl, rfl⟩
  · exact last.still rfl rfl
  · cases own : call.names memoryNamespace key with
    | false =>
      refine last.still (rows_other own ?_) ?_
      · rintro f rfl
        exact (reads p call f phase).2.2
      · rw [writes_commit, own]
        rfl
    | true =>
      have few : (rows s.db memoryNamespace key).length ≤ 1 := by
        have lengths := congrArg List.length last
        rw [List.length_map] at lengths
        rw [lengths]
        cases (writes memoryNamespace key es).getLast? <;> simp
      obtain ⟨rfl, rfl⟩ := names_iff.mp own
      unfold Last
      rw [current own call existing phase]
      show (rows (commit env s.db call _) _ _).map _ = _
      rw [commit_current, rows_set few, writes_snoc, writes_commit, if_pos own,
        List.getLast?_concat]
      rfl
  · exact last.still rfl rfl

theorem run_held {es fs : List (Event P Value)} (run : Run (ofPartial (step env)) s fs t)
    (reads : Reads s) (held : Held memoryNamespace key es s) :
    Held memoryNamespace key (es ++ fs) t := by
  induction run generalizing es with
  | nil s =>
    rw [List.append_nil]
    exact held
  | @cons s mid t e fs first _ ih =>
    rw [List.append_cons]
    exact ih (reads.step first) (held.step reads first)

theorem run_last {es fs : List (Event P Value)}
    (run : Run (Guarded (Current memoryNamespace key) (ofPartial (step env))) s fs t)
    (reads : Reads s) (last : Last memoryNamespace key es s) :
    Last memoryNamespace key (es ++ fs) t := by
  induction run generalizing es with
  | nil s =>
    rw [List.append_nil]
    exact last
  | @cons s mid t e fs first _ ih =>
    rw [List.append_cons]
    exact ih (reads.step first.2) (last.step reads first.1 first.2)

end Laws

/-- In every interleaving of calls of `set` from an empty table, calls that stop between their read
and their commit included, every key is a register. -/
theorem memory_registers [DecidableEq P] [DecidableEq Value] (env : Surroundings)
    {start s : World P Value} {es : List (Event P Value)} (initial : Initial start)
    (run : Run (ofPartial (step env)) start es s) (memoryNamespace key : String) :
    Register env start es s memoryNamespace key := by
  have reads : Reads start := by
    intro p call existing phase
    rw [initial.idle p] at phase
    cases phase
  have none_ : rows start.db memoryNamespace key = [] := by
    rw [rows, initial.empty, List.filter_nil]
  have held : Held memoryNamespace key ([] : List (Event P Value)) start := by
    refine ⟨iff_of_true (rows_eq_nil.mp none_) rfl, ?_⟩
    intro entry member
    rw [none_] at member
    cases member
  have last : Last memoryNamespace key ([] : List (Event P Value)) start := by
    unfold Last
    rw [none_]
    rfl
  obtain ⟨present, written⟩ := run_held run reads held
  exact ⟨present, fun _ _ _ later shown => run_stays later shown, written,
    fun guarded => run_last guarded reads last⟩

def sampleStart : World Bool Bool := ⟨⟨[], .nil⟩, fun _ => .idle⟩

def firstWrite : Write Bool := ⟨"leads", "a@b.c", true, "first"⟩

def secondWrite : Write Bool := ⟨"leads", "a@b.c", false, "second"⟩

/-- Two sessions write one key after the other, and one of them reads it and stops. -/
def sampleEvents : List (Event Bool Bool) :=
  [.select true firstWrite, .commit true firstWrite, .select false firstWrite, .stop false,
    .select false secondWrite, .commit false secondWrite]

theorem memory_registers_sample : ∃ s : World Bool Bool,
    Run (ofPartial (step sampleSurroundings)) sampleStart sampleEvents s ∧
      (rows s.db "leads" "a@b.c").map (fun entry => (entry.value, entry.text)) =
        [(false, "second")] := by
  have guarded : ∃ s : World Bool Bool,
      Run (Guarded (Current "leads" "a@b.c") (ofPartial (step sampleSurroundings))) sampleStart
        sampleEvents s := by
    refine ⟨_, .cons ⟨trivial, rfl⟩ (.cons ⟨?_, rfl⟩ (.cons ⟨trivial, rfl⟩ (.cons ⟨trivial, rfl⟩
      (.cons ⟨trivial, rfl⟩ (.single ⟨?_, rfl⟩)))))⟩
    · intro _ own existing phase
      obtain ⟨rfl, rfl⟩ := Phase.read.inj phase
      rfl
    · intro _ own existing phase
      obtain ⟨rfl, rfl⟩ := Phase.read.inj phase
      rfl
  obtain ⟨s, guarded⟩ := guarded
  have register := memory_registers sampleSurroundings ⟨rfl, fun _ => rfl⟩ guarded.unguard "leads"
    "a@b.c"
  exact ⟨s, guarded.unguard, register.last guarded⟩

end BusinessOs.App.MemorySets
