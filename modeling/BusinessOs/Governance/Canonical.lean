/- Source: crates/abos-governance-core/src/lib.rs (canonical_value, canonical_json)
   digest: The canonical text of a value, and of an audit event, determines it up to nulls. -/

import BusinessOs.Lib.Bytes
import BusinessOs.Lib.Chrono
import BusinessOs.Lib.Json.Compact

set_option autoImplicit false
set_option relaxedAutoImplicit false

namespace BusinessOs.Governance.Canonical

open BusinessOs.Lib.Bytes BusinessOs.Lib.Chrono
open BusinessOs.Lib.Json.Tree BusinessOs.Lib.Json.Literals BusinessOs.Lib.Json.Compact

inductive GovernanceError
  | missingSigningSecret
  | json (message : String)
  deriving DecidableEq, Repr

structure AuditEvent where
  eventId : String
  action : String
  actor : String
  message : String
  workflowId : Option String
  metadata : Value
  createdAt : ℤ
  deriving DecidableEq

/-- The library functions that the ledger calls. -/
structure Library where
  sha256 : List UInt8 → List UInt8
  hmacSha256 : List UInt8 → List UInt8 → List UInt8
  literals : LiteralPrinter
  /-- The text that serde gives a `DateTime<Utc>`. -/
  serializeInstant : ℤ → String
  /-- `to_rfc3339_opts(SecondsFormat::Secs, true)`. -/
  rfc3339Seconds : ℤ → String

section Canonical

variable (lit : LiteralPrinter)

mutual

/-- The characters of `canonical_value`. -/
def canonicalText : Value → List Char
  | .null => ['n', 'u', 'l', 'l']
  | .bool true => ['t', 'r', 'u', 'e']
  | .bool false => ['f', 'a', 'l', 's', 'e']
  | .number n => lit.number n
  | .string s => lit.string s
  | .array items => bracketed '[' ']' (canonicalItems items)
  | .object members => bracketed '{' '}' (canonicalMembers members)

def canonicalItems : List Value → List (List Char)
  | [] => []
  | v :: vs => canonicalText v :: canonicalItems vs

def canonicalMembers : List (String × Value) → List (List Char)
  | [] => []
  | (k, v) :: ms =>
    if v.isNull then canonicalMembers ms
    else (lit.string k ++ ':' :: canonicalText v) :: canonicalMembers ms

end

def canonicalValue (v : Value) : String := String.ofList (canonicalText lit v)

end Canonical

section Serialization

variable (lib : Library)

/-- `serde_json::to_value`: members in key order, and no field of an event can fail. -/
def AuditEvent.toValue (event : AuditEvent) : Except GovernanceError Value :=
  .ok (.object [("action", .string event.action), ("actor", .string event.actor),
    ("created_at", .string (lib.serializeInstant event.createdAt)),
    ("event_id", .string event.eventId), ("message", .string event.message),
    ("metadata", event.metadata),
    ("workflow_id", (event.workflowId.map Value.string).getD .null)])

def canonicalJson (value : Except GovernanceError Value) : Except GovernanceError String := do
  let value ← value
  pure (canonicalValue lib.literals value)

end Serialization

/-! The canonical text is the compact text of the value without its null members. -/

section CanonicalText

variable (lit : LiteralPrinter)

theorem canonicalItems_eq {items : List Value}
    (ih : ∀ v ∈ items, canonicalText lit v = compact lit v.stripNulls) :
    canonicalItems lit items = compactItems lit (stripItems items) := by
  induction items with
  | nil => rfl
  | cons v vs rest =>
    rw [canonicalItems, stripItems, compactItems, ih v List.mem_cons_self,
      rest fun w member => ih w (List.mem_cons_of_mem _ member)]

theorem canonicalMembers_eq {members : List (String × Value)}
    (ih : ∀ m ∈ members, canonicalText lit m.2 = compact lit m.2.stripNulls) :
    canonicalMembers lit members = compactMembers lit (stripMembers members) := by
  induction members with
  | nil => rfl
  | cons m ms rest =>
    have tail := rest fun n member => ih n (List.mem_cons_of_mem _ member)
    rw [canonicalMembers, stripMembers]
    split_ifs with isNull
    · exact tail
    · rw [compactMembers, ih m List.mem_cons_self, tail]

theorem canonicalText_eq (v : Value) : canonicalText lit v = compact lit v.stripNulls := by
  induction v using Value.induct with
  | null => rfl
  | bool b => cases b <;> rfl
  | number n => rfl
  | string s => rfl
  | array items ih =>
    rw [canonicalText, Value.stripNulls, compact, canonicalItems_eq lit ih]
  | object members ih =>
    rw [canonicalText, Value.stripNulls, compact, canonicalMembers_eq lit ih]

/-- The canonical text is a complete invariant up to null members. -/
theorem canonicalValue_eq_iff (v w : Value) :
    canonicalValue lit v = canonicalValue lit w ↔ v.stripNulls = w.stripNulls := by
  unfold canonicalValue
  rw [String.ofList_inj, canonicalText_eq, canonicalText_eq]
  exact (compact_injective lit).eq_iff

end CanonicalText

theorem stripNulls_eq_null {v : Value} : v.stripNulls = .null ↔ v = .null := by
  cases v <;> simp [Value.stripNulls]

theorem mem_keys_of_stripMembers {members : List (String × Value)} {k : String}
    (h : k ∈ (stripMembers members).map Prod.fst) : k ∈ members.map Prod.fst := by
  induction members with
  | nil => simp [stripMembers] at h
  | cons m ms ih =>
    simp only [stripMembers] at h
    split_ifs at h
    · exact List.mem_cons_of_mem _ (ih h)
    · rcases List.mem_cons.mp h with rfl | later
      · exact List.mem_cons_self
      · exact List.mem_cons_of_mem _ (ih later)

/-- Records with the same distinct fields lose their null members alike only when every field
agrees. -/
theorem stripMembers_eq_iff {ms ns : List (String × Value)}
    (keys : ms.map Prod.fst = ns.map Prod.fst) (distinct : (ms.map Prod.fst).Nodup) :
    stripMembers ms = stripMembers ns ↔
      ms.map (fun m => m.2.stripNulls) = ns.map (fun n => n.2.stripNulls) := by
  induction ms generalizing ns with
  | nil => simp [List.map_eq_nil_iff.mp keys.symm]
  | cons m ms ih =>
    cases ns with
    | nil => simp at keys
    | cons n ns =>
      obtain ⟨k, v⟩ := m
      obtain ⟨l, w⟩ := n
      simp only [List.map_cons, List.cons.injEq] at keys
      obtain ⟨rfl, keys⟩ := keys
      simp only [List.map_cons, List.nodup_cons] at distinct
      have rest := ih keys distinct.2
      have freshM : ∀ x, stripMembers ms ≠ (k, x) :: stripMembers ns := fun x same =>
        distinct.1 (mem_keys_of_stripMembers (by simp [same]))
      have freshN : ∀ x, (k, x) :: stripMembers ms ≠ stripMembers ns := fun x same =>
        distinct.1 (keys ▸ mem_keys_of_stripMembers (by simp [← same]))
      simp only [stripMembers, List.map_cons, List.cons.injEq]
      split_ifs with hv hw hw
      · simp [isNull_iff.mp hv, isNull_iff.mp hw, rest]
      · have other : v.stripNulls ≠ w.stripNulls := by
          rw [isNull_iff.mp hv]
          exact fun h => hw (isNull_iff.mpr (stripNulls_eq_null.mp h.symm))
        simp [freshM, other]
      · have other : v.stripNulls ≠ w.stripNulls := by
          rw [isNull_iff.mp hw]
          exact fun h => hv (isNull_iff.mpr (stripNulls_eq_null.mp h))
        simp [freshN, other]
      · simp [rest]

/-- The event of the crate's own signing test. -/
def sampleEvent : AuditEvent where
  eventId := "evt-001"
  action := "external_action_requested"
  actor := "system"
  message := "External action proposed"
  workflowId := some "wf-001"
  metadata := .object [("approval_id", .string "approval-1"), ("risk_level", .string "critical")]
  createdAt := 1767225600000000000

/-- An instant as so many strokes, before or after the epoch. -/
def strokes (t : ℤ) : String :=
  String.ofList (List.replicate t.toNat '+' ++ List.replicate (-t).toNat '-')

/-- A pair of byte strings as one, the first one's length in front. -/
def pairBytes (pair : List UInt8 × List UInt8) : List UInt8 :=
  List.replicate pair.1.length 1 ++ 0 :: (pair.1 ++ pair.2)

/-- Injective functions that have the real values on the sample event and its signature. -/
def sampleLibrary : Library where
  sha256 := pinned id (utf8 (canonicalValue plainPrinter (.object
      [("action", .string "external_action_requested"), ("actor", .string "system"),
        ("created_at", .string "2026-01-01T00:00:00Z"), ("event_id", .string "evt-001"),
        ("message", .string "External action proposed"), ("metadata", sampleEvent.metadata),
        ("workflow_id", .string "wf-001")])))
    [40, 109, 178, 42, 33, 162, 0, 123, 219, 126, 58, 90, 100, 221, 5, 164, 145, 248, 66, 64,
      1, 228, 219, 53, 77, 219, 36, 111, 176, 127, 240, 133]
  hmacSha256 key message := pinned pairBytes (utf8 "sample-runtime-key",
      utf8 "286db22a21a2007bdb7e3a5a64dd05a491f8424001e4db354ddb246fb07ff085")
    [46, 40, 30, 18, 232, 118, 236, 103, 55, 254, 21, 5, 118, 181, 213, 7, 23, 35, 225, 107,
      254, 34, 82, 59, 132, 95, 28, 144, 10, 49, 81, 86] (key, message)
  literals := plainPrinter
  serializeInstant t := if t = 1767225600000000000 then "2026-01-01T00:00:00Z" else strokes t
  rfc3339Seconds t := if t = 1767225600000000000 then "2026-01-01T00:00:00Z" else strokes t

private theorem strokes_ne (t : ℤ) : strokes t ≠ "2026-01-01T00:00:00Z" := by
  intro same
  have member : 'T' ∈ (strokes t).toList := same ▸ by decide
  simp [strokes] at member

private theorem strokes_injective : Function.Injective strokes := by
  intro a b same
  have texts := String.ofList_injective same
  have plus := congrArg (List.count '+') texts
  have minus := congrArg (List.count '-') texts
  simp only [List.count_append, List.count_replicate] at plus minus
  simp at plus minus
  omega

theorem sampleLibrary_instants : Function.Injective sampleLibrary.serializeInstant := by
  intro a b same
  simp only [sampleLibrary] at same
  split_ifs at same with ha hb hb
  · rw [ha, hb]
  · exact absurd same.symm (strokes_ne b)
  · exact absurd same (strokes_ne a)
  · exact strokes_injective same

private theorem replicate_prefix {m n : ℕ} {a b : List UInt8}
    (same : List.replicate m 1 ++ 0 :: a = List.replicate n 1 ++ 0 :: b) : m = n ∧ a = b := by
  induction m generalizing n with
  | zero => cases n <;> simp_all [List.replicate_succ]
  | succ m ih =>
    cases n with
    | zero => simp [List.replicate_succ] at same
    | succ n =>
      simp only [List.replicate_succ, List.cons_append, List.cons.injEq, true_and] at same
      obtain ⟨rfl, rest⟩ := ih same
      exact ⟨rfl, rest⟩

private theorem pairBytes_injective : Function.Injective pairBytes := by
  rintro ⟨k, m⟩ ⟨k', m'⟩ same
  obtain ⟨lengths, bytes⟩ := replicate_prefix same
  obtain ⟨rfl, rfl⟩ := List.append_inj bytes lengths
  rfl

theorem sampleLibrary_sha256 : Function.Injective sampleLibrary.sha256 :=
  pinned_injective Function.injective_id (by decide)

theorem sampleLibrary_hmacSha256 (k m k' m' : List UInt8)
    (same : sampleLibrary.hmacSha256 k m = sampleLibrary.hmacSha256 k' m') :
    k = k' ∧ m = m' := by
  have pair := pinned_injective pairBytes_injective (by decide) same
  exact ⟨congrArg Prod.fst pair, congrArg Prod.snd pair⟩

/-- The canonical text of a value determines it up to null members, and so the hash preimage of
an event determines the event, its metadata up to null members. -/
theorem canonical_complete (lib : Library)
    (instants_injective : Function.Injective lib.serializeInstant) :
    (∀ v w : Value, canonicalValue lib.literals v = canonicalValue lib.literals w ↔
      v.stripNulls = w.stripNulls) ∧
    (∀ e f : AuditEvent, canonicalJson lib (e.toValue lib) = canonicalJson lib (f.toValue lib) ↔
      e.eventId = f.eventId ∧ e.action = f.action ∧ e.actor = f.actor ∧
        e.message = f.message ∧ e.workflowId = f.workflowId ∧ e.createdAt = f.createdAt ∧
        e.metadata.stripNulls = f.metadata.stripNulls) := by
  refine ⟨canonicalValue_eq_iff lib.literals, fun e f => ?_⟩
  have workflow : ((e.workflowId.map Value.string).getD .null).stripNulls =
      ((f.workflowId.map Value.string).getD .null).stripNulls ↔ e.workflowId = f.workflowId := by
    cases e.workflowId <;> cases f.workflowId <;> simp [Value.stripNulls]
  simp only [canonicalJson, AuditEvent.toValue, ok_bind, pure_eq_ok, Except.ok.injEq]
  rw [canonicalValue_eq_iff, Value.stripNulls, Value.stripNulls, Value.object.injEq]
  refine (stripMembers_eq_iff ?_ ?_).trans ?_
  · rfl
  · simp
  · simp only [List.map_cons, List.map_nil, List.cons.injEq, workflow, Value.stripNulls,
      Value.string.injEq, instants_injective.eq_iff, and_true]
    tauto

/-- A null member is dropped inside an object and kept inside an array. -/
theorem canonical_complete_sample :
    canonicalValue plainPrinter (.object [("a", .null), ("b", .array [.null])]) =
      canonicalValue plainPrinter (.object [("b", .array [.null])]) ∧
    canonicalJson sampleLibrary (sampleEvent.toValue sampleLibrary) ≠
      canonicalJson sampleLibrary
        (AuditEvent.toValue sampleLibrary { sampleEvent with workflowId := none }) := by
  obtain ⟨values, events⟩ := canonical_complete sampleLibrary sampleLibrary_instants
  refine ⟨(values _ _).mpr (by decide), fun same => ?_⟩
  have fields := (events _ _).mp same
  exact absurd fields.2.2.2.2.1 (by decide)

end BusinessOs.Governance.Canonical
