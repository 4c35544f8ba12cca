/- Source: app/agents/department.py, app/services/departments.py, app/services/scheduler.py
   digest: The revenue signals of a department under interleaved sessions: what they count as long
     as no session reports from an older copy of the department. -/

import BusinessOs.App.RevenueBooks

set_option autoImplicit false
set_option relaxedAutoImplicit false

namespace BusinessOs.App.RevenueSignals

open BusinessOs.Lib BusinessOs.Lib.Execution BusinessOs.Lib.Interleaving BusinessOs.Lib.UnitOfWork
open BusinessOs.Lib.Json.Tree
open BusinessOs.App.Models BusinessOs.App.Workflows BusinessOs.App.Company
open BusinessOs.App.Sessions BusinessOs.App.Orchestrator BusinessOs.App.DepartmentAgent
open BusinessOs.App.DepartmentEffects BusinessOs.App.Lifecycle BusinessOs.App.RevenueBooks

section Events

variable {P : Type} (str : Value → String)

/-- The call whose next commit the event makes. -/
def committing (s : World P) : Event P → Option Call
  | .commit p =>
    match (s.phase p).call, (s.phase p).tasks with
    | some call, _ => some call
    | none, .runWorkflow workflow payload :: _ =>
      if workflow.supported then some ((s.phase p).enter s.db workflow payload) else none
    | none, _ => none
  | .call p plan other => (s.phase p).call.map fun call => call.start s.db str plan other
  | _ => none

/-- The outputs that the event reports for a department. -/
def reported (id : String) (s : World P) (e : Event P) : List Value :=
  match committing str s e with
  | some call => if call.department = some id then outputsIn call.segment else []
  | none => []

/-- A session that reports for the department has the signals that the row has by then. -/
def Prompt (id : String) (s : World P) (e : Event P) : Prop :=
  reported str id s e ≠ [] → ∀ call ∈ committing str s e, ∀ copy ∈ call.session.department,
    ∀ row ∈ s.db.department id, row.revenueSignals = copy.revenueSignals.loaded

/-- Prompt steps, with the outputs that they report written down behind those of before. -/
def Step [DecidableEq P] (id : String) (a : World P × List Value) (e : Event P)
    (b : World P × List Value) : Prop :=
  Prompt str id a.1 e ∧ Lifecycle.step str a.1 e = some b.1 ∧ b.2 = a.2 ++ reported str id a.1 e

end Events

structure Tidy (types : String → Option String) (process : Process) : Prop where
  departments : ∀ copy ∈ process.departments, Settled types copy
  call : ∀ call ∈ process.call, Fits types call

/-! What a step keeps, and what it adds to the books. -/

section Steps

variable {P : Type} {str : Value → String} {s t : World P} {e : Event P}
variable {db : CompanyDatabase} {process : Process} {call : Call}
variable {types : String → Option String}

/-- The types of the departments stay, and the books have what a prompt step reports. -/
def Accounts (str : Value → String) (s : World P) (e : Event P) (db : CompanyDatabase) : Prop :=
  typesOf db = typesOf s.db ∧ ∀ id, Prompt str id s e →
    books db id = (books s.db id).map (counted (reported str id s e))

theorem accounts_still (nothing : committing str s e = none)
    (same : ∀ id, books db id = books s.db id) : Accounts str s e db := by
  constructor
  · funext id
    rw [typesOf, same]
    rfl
  · intro id _
    rw [same, reported, nothing]
    exact Option.map_id'.symm

theorem advance_types (call : Call) (db : CompanyDatabase) :
    typesOf (call.advance db).session.db = typesOf db := by
  funext id
  rw [typesOf, advance_books, Option.map_map]
  apply Option.map_congr
  intro entry _
  rw [Function.comp_apply]
  split
  · rfl
  · split <;> rfl

theorem accounts_call (makes : committing str s e = some call)
    (writes : ∀ id, Current id s.db call → books db id = (books s.db id).map
      (counted (if call.department = some id then outputsIn call.segment else [])))
    (advance : db = (call.advance s.db).session.db) : Accounts str s e db := by
  have reports : ∀ id, reported str id s e =
      if call.department = some id then outputsIn call.segment else [] := by
    intro id
    rw [reported, makes]
  constructor
  · rw [advance, advance_types]
  · intro id prompt
    rw [reports]
    apply writes
    intro own some_ copy held row found
    refine prompt ?_ call makes copy held row found
    rwa [reports, if_pos own]

/-- A change of the status alone leaves the books. -/
theorem setStatus_books {next : CompanyDatabase} {departmentId : String}
    {status : DepartmentStatus} (table : next.departments = Table.update Department.id
      db.departments departmentId fun department => { department with status }) (id : String) :
    books next id = books db id := by
  unfold books CompanyDatabase.department
  rw [table]
  have keeps : ∀ row : Department, ({ row with status } : Department).id = row.id := fun _ => rfl
  by_cases own : id = departmentId
  · subst own
    rw [Table.get_update_self keeps, Option.map_map]
    rfl
  · rw [Table.get_update_of_ne keeps own]

theorem tidy_idle {tasks : List Task} : Tidy types { Process.idle with tasks } := by
  constructor
  · intro copy member
    cases member
  · intro call held
    cases held

theorem Tidy.get (tidy : Tidy (typesOf db) process) {id : String} {copy : DepartmentCopy}
    (held : process.get db id = some copy) : Settled (typesOf db) copy := by
  rcases Option.or_eq_some_iff.mp held with own | ⟨_, loaded⟩
  · exact tidy.departments copy (List.mem_of_find?_eq_some own)
  · obtain ⟨row, found, rfl⟩ := Option.map_eq_some_iff.mp loaded
    exact load_settled found

theorem Tidy.hold (tidy : Tidy types process) {copy : DepartmentCopy}
    (settled : Settled types copy) :
    ∀ other ∈ Lifecycle.hold process.departments copy, Settled types other := by
  intro other member
  rcases List.mem_cons.mp member with rfl | earlier
  · exact settled
  · exact tidy.departments other (List.mem_filter.mp earlier).1

theorem Tidy.enter (tidy : Tidy types process) (db : CompanyDatabase) (workflow : WorkflowCopy)
    (payload : Value) :
    Fits types (process.enter db workflow payload) := by
  refine ⟨?_, ?_, .inl rfl⟩
  · intro copy member
    obtain ⟨id, named, held⟩ := Option.bind_eq_some_iff.mp member
    have own : copy.id = id := by simpa using List.find?_some held
    refine ⟨?_, tidy.departments copy (List.mem_of_find?_eq_some held)⟩
    rw [own]
    exact named
  · intro id member
    simp [Process.enter, opening] at member

theorem Tidy.resume (tidy : Tidy types process) (fits : Fits types call) :
    Tidy types (process.resume call) := by
  unfold Process.resume
  split
  · refine ⟨?_, fun _ held => (by cases held)⟩
    intro copy member
    cases held : call.session.department with
    | none => exact tidy.departments copy (by simpa [held] using member)
    | some own =>
      have member : copy ∈ Lifecycle.hold process.departments own := by simpa [held] using member
      exact tidy.hold (fits.own own held).2 copy member
  · refine ⟨tidy.departments, ?_⟩
    intro other held
    obtain rfl : call = other := Option.some.inj held
    exact fits

/-- A step leaves a tidy session, and accounts for what it reports. -/
def Settles [DecidableEq P] (str : Value → String) (s : World P) (e : Event P) (t : World P) :
    Prop :=
  ∃ p db process, t = s.move p db process ∧ Accounts str s e db ∧ Tidy (typesOf s.db) process

variable [DecidableEq P]

theorem commit_settles {p : P} (tidy : ∀ p, Tidy (typesOf s.db) (s.phase p))
    (taken : Lifecycle.step str s (.commit p) = some t) : Settles str s (.commit p) t := by
  have own := tidy p
  simp only [Lifecycle.step] at taken
  split at taken
  · rename_i tasks call held
    split at taken
    · cases taken
    · obtain rfl := Option.some.inj taken
      obtain ⟨fits, writes⟩ := (own.call call held).advance
      refine ⟨p, _, _, rfl, accounts_call ?_ writes rfl, own.resume fits⟩
      simp only [committing, held]
  · rename_i write tasks call queue
    obtain rfl := Option.some.inj taken
    refine ⟨p, _, _, rfl, accounts_still ?_ ?_, own.departments, own.call⟩
    · simp only [committing, call, queue]
    · intro id
      cases write <;> rfl
  · rename_i workflow payload tasks call queue
    split at taken
    · rename_i supported
      obtain rfl := Option.some.inj taken
      obtain ⟨fits, writes⟩ := (own.enter s.db workflow payload).advance
      refine ⟨p, _, _, rfl, accounts_call ?_ writes rfl, own.departments, ?_⟩
      · simp only [committing, call, queue, if_pos supported]
      · intro other held
        obtain rfl := Option.some.inj held
        exact fits
    · rename_i unsupported
      obtain rfl := Option.some.inj taken
      refine ⟨p, _, _, rfl, accounts_still ?_ fun _ => rfl, own.departments, own.call⟩
      simp only [committing, call, queue, if_neg unsupported]
  · cases taken

theorem call_settles {p : P} {plan : Plan} {other : Behaviour}
    (tidy : ∀ p, Tidy (typesOf s.db) (s.phase p))
    (taken : Lifecycle.step str s (.call p plan other) = some t) :
    Settles str s (.call p plan other) t := by
  have own := tidy p
  simp only [Lifecycle.step] at taken
  split at taken
  · rename_i call held
    split at taken
    · rename_i ready
      obtain rfl := Option.some.inj taken
      obtain ⟨fits, writes⟩ := (own.call call held).start str plan ready.2.2
      refine ⟨p, _, _, rfl, accounts_call ?_ writes rfl, own.resume fits⟩
      simp only [committing, held]
      rfl
    · cases taken
  · cases taken

theorem iterate_settles {p : P} {id : String} {createdAt : ℤ}
    (tidy : ∀ p, Tidy (typesOf s.db) (s.phase p))
    (taken : Lifecycle.step str s (.iterate p id createdAt) = some t) :
    Settles str s (.iterate p id createdAt) t := by
  have own := tidy p
  simp only [Lifecycle.step] at taken
  split at taken
  · split at taken
    · obtain rfl := Option.some.inj taken
      exact ⟨p, _, _, rfl, accounts_still rfl fun _ => rfl, own.departments, own.call⟩
    · rename_i copy held
      split at taken
      · obtain rfl := Option.some.inj taken
        exact ⟨p, _, _, rfl, accounts_still rfl fun _ => rfl, own.hold (own.get held), own.call⟩
      · cases taken
  · cases taken

theorem step_settles (tidy : ∀ p, Tidy (typesOf s.db) (s.phase p))
    (taken : Lifecycle.step str s e = some t) : Settles str s e t := by
  cases e with
  | pause p departmentId =>
    simp only [Lifecycle.step] at taken
    split at taken
    · obtain ⟨department, found, rfl⟩ := Option.map_eq_some_iff.mp taken
      exact ⟨p, _, _, rfl, accounts_still rfl (setStatus_books rfl), tidy_idle⟩
    · cases taken
  | kill p departmentId =>
    simp only [Lifecycle.step] at taken
    split at taken
    · obtain ⟨department, found, rfl⟩ := Option.map_eq_some_iff.mp taken
      exact ⟨p, _, _, rfl, accounts_still rfl (setStatus_books rfl), tidy_idle⟩
    · cases taken
  | tick p now =>
    simp only [Lifecycle.step] at taken
    split at taken
    · obtain rfl := Option.some.inj taken
      exact ⟨p, _, _, rfl, accounts_still rfl fun _ => rfl, tidy_idle⟩
    · cases taken
  | pass p =>
    simp only [Lifecycle.step] at taken
    split at taken
    · obtain rfl := Option.some.inj taken
      exact ⟨p, _, _, rfl, accounts_still rfl fun _ => rfl, tidy_idle⟩
    · cases taken
  | request p departmentId id createdAt =>
    simp only [Lifecycle.step] at taken
    split at taken
    · obtain ⟨department, found, rfl⟩ := Option.map_eq_some_iff.mp taken
      refine ⟨p, _, _, rfl, accounts_still rfl fun _ => rfl, ?_, fun _ held => (by cases held)⟩
      intro copy member
      obtain rfl := List.mem_singleton.mp member
      obtain ⟨_, rfl⟩ := Table.get_mem found
      exact load_settled found
    · cases taken
  | create p creation runImmediately =>
    simp only [Lifecycle.step] at taken
    split at taken
    · obtain rfl := Option.some.inj taken
      exact ⟨p, _, _, rfl, accounts_still rfl fun _ => rfl, tidy_idle⟩
    · cases taken
  | iterate p id createdAt => exact iterate_settles tidy taken
  | commit p => exact commit_settles tidy taken
  | call p plan other => exact call_settles tidy taken

end Steps

/-! Runs. -/

section Tally

variable {departmentType : String} {signals output : Value} {outputs : List Value}

/-- What an output adds to a counter of the signals. -/
def gain (departmentType : String) (output : Value) (key : String) : UInt64 :=
  if departmentType = "sales" then
    if key = "lead_count" then countItems output "leads"
    else if key = "pipeline_value" then countItems output "leads" * 5000
    else 0
  else if departmentType = "content" then
    if key = "content_outputs" then countItems output "drafts" else 0
  else 0

/-- A counter with the outputs added to it. -/
def added (departmentType key : String) (count : UInt64) (outputs : List Value) : UInt64 :=
  outputs.foldl (fun count output => count + gain departmentType output key) count

def counted? (key : String) : Bool := key ∈ ["lead_count", "pipeline_value", "content_outputs"]

/-- A member of the signals, as `get` finds it. -/
def member (signals : Value) (key : String) : Option (String × Value) :=
  (members signals).find? fun m => m.1 == key

theorem raise_members (departmentType : String) (signals output : Value) :
    members (raise departmentType signals output) =
      if departmentType = "sales" then
        OrderedMap.insert "pipeline_value" (.number (.posInt
          (unsigned (members signals) "pipeline_value" + countItems output "leads" * 5000)))
          (OrderedMap.insert "lead_count" (.number (.posInt
            (unsigned (members signals) "lead_count" + countItems output "leads")))
            (members signals))
      else if departmentType = "content" then
        OrderedMap.insert "content_outputs" (.number (.posInt
          (unsigned (members signals) "content_outputs" + countItems output "drafts")))
          (members signals)
      else members signals := by
  have sorted := members_sorted signals
  by_cases sales : departmentType = "sales"
  · subst sales
    exact OrderedMap.ofList_of_sorted
      (OrderedMap.insert_sorted (OrderedMap.insert_sorted sorted))
  · rw [if_neg sales]
    by_cases content : departmentType = "content"
    · subst content
      exact OrderedMap.ofList_of_sorted (OrderedMap.insert_sorted sorted)
    · have same : raise departmentType signals output = .object (members signals) := by
        simp only [raise, departmentMetrics, sales, content, if_false]
        rfl
      rw [if_neg content, same]
      exact OrderedMap.ofList_of_sorted sorted

theorem raise_counter (key : String) : counter (raise departmentType signals output) key =
    counter signals key + gain departmentType output key := by
  rw [counter_members, counter_members, raise_members, gain]
  split
  · rw [unsigned_insert, unsigned_insert]
    by_cases value : "pipeline_value" = key
    · subst value
      rw [if_pos rfl, if_neg (by decide), if_pos rfl]
    · rw [if_neg value, if_neg (Ne.symm value)]
      by_cases leads : "lead_count" = key
      · subst leads
        rw [if_pos rfl, if_pos rfl]
      · rw [if_neg leads, if_neg (Ne.symm leads), UInt64.add_zero]
  · split
    · rw [unsigned_insert]
      by_cases drafts : "content_outputs" = key
      · subst drafts
        rw [if_pos rfl, if_pos rfl]
      · rw [if_neg drafts, if_neg (Ne.symm drafts), UInt64.add_zero]
    · rw [UInt64.add_zero]

theorem raise_member {key : String} (other : counted? key = false) :
    member (raise departmentType signals output) key = member signals key := by
  have apart : ∀ name ∈ ["lead_count", "pipeline_value", "content_outputs"], name ≠ key := by
    rintro name known rfl
    simp [counted?] at other known
    tauto
  unfold member
  rw [raise_members]
  split
  · rw [OrderedMap.find?_insert, OrderedMap.find?_insert, if_neg (apart _ (by simp)),
      if_neg (apart _ (by simp))]
  · split
    · rw [OrderedMap.find?_insert, if_neg (apart _ (by simp))]
    · rfl

theorem tally_counter (key : String) :
    counter (outputs.foldl (raise departmentType) signals) key =
      added departmentType key (counter signals key) outputs := by
  induction outputs generalizing signals with
  | nil => rfl
  | cons output outputs ih =>
    rw [List.foldl_cons, ih, raise_counter]
    rfl

theorem tally_member {key : String} (other : counted? key = false) :
    member (outputs.foldl (raise departmentType) signals) key = member signals key := by
  induction outputs generalizing signals with
  | nil => rfl
  | cons output outputs ih => rw [List.foldl_cons, ih, raise_member other]

variable {P : Type} [DecidableEq P] {str : Value → String} {id : String}
variable {start s : World P} {es : List (Event P)}

/-- The sessions stay tidy, and the books are the first ones with the outputs reported so far. -/
def Booked (id : String) (start : CompanyDatabase) (a : World P × List Value) : Prop :=
  (∀ p, Tidy (typesOf a.1.db) (a.1.phase p)) ∧
    books a.1.db id = (books start id).map (counted a.2)

theorem booked_step {db : CompanyDatabase} (a : World P × List Value) (e : Event P)
    (b : World P × List Value) (booked : Booked id db a) (step : Step str id a e b) :
    Booked id db b := by
  obtain ⟨prompt, taken, written⟩ := step
  obtain ⟨p, next, process, moved, ⟨types, accounts⟩, tidy⟩ := step_settles booked.1 taken
  have there : b.1.db = next := by
    rw [moved]
    rfl
  constructor
  · rw [there, types, moved]
    exact forall_move tidy fun q _ => booked.1 q
  · rw [there, accounts id prompt, booked.2, Option.map_map, written]
    apply Option.map_congr
    intro entry _
    exact (counted_append _ _ entry).symm

/-- Where every report is prompt, the signals of a department count exactly what was reported for it
since, whatever the other sessions do; no other member of the signals changes. -/
theorem signals_tally {row : Department} (closed : ∀ p, start.phase p = .idle)
    (found : start.db.department id = some row)
    (run : Run (Step str id) (start, []) es (s, outputs)) :
    ∃ next, s.db.department id = some next ∧ next.departmentType = row.departmentType ∧
      next.revenueSignals = outputs.foldl (raise row.departmentType) row.revenueSignals ∧
      (∀ key, counter next.revenueSignals key =
        added row.departmentType key (counter row.revenueSignals key) outputs) ∧
      ∀ key, counted? key = false →
        member next.revenueSignals key = member row.revenueSignals key := by
  have first : Booked id start.db (start, []) := by
    refine ⟨fun p => ?_, Option.map_id'.symm⟩
    rw [closed p]
    exact tidy_idle
  have booked := run.invariant booked_step first
  have last : books s.db id =
      some (row.departmentType, outputs.foldl (raise row.departmentType) row.revenueSignals) := by
    rw [booked.2, books, found]
    rfl
  obtain ⟨next, present, same⟩ := Option.map_eq_some_iff.mp last
  obtain ⟨type_, signals⟩ := Prod.mk.inj same
  refine ⟨next, present, type_, signals, fun key => ?_, fun key other => ?_⟩
  · rw [signals, tally_counter]
  · rw [signals, tally_member other]

end Tally

section Sample

inductive Desk
  | left | right
  deriving DecidableEq

def sampleText : Value → String := fun _ => "None"

instance (id : String) (s : World Desk) (e : Event Desk) :
    Decidable (Prompt sampleText id s e) :=
  inferInstanceAs (Decidable (_ ≠ _ → ∀ _ ∈ _, ∀ _ ∈ _, ∀ _ ∈ _, _ = _))

def sampleWorld : World Desk where
  db :=
    { toDatabase := .empty
      departments := [⟨"d", "Sales", "sales", .active, 1,
        .object [("lead_count", .number (.posInt 3))], .null⟩]
      agentInstances := []
      departmentSchedules := [] }
  phase := fun _ => .idle

def samplePlan : Plan where
  inspection := .object []
  eventId := "e"
  classify := fun _ => ⟨"low", false, []⟩
  ids := fun _ => ⟨"x", "p", "k", "h"⟩
  escalationId := "f"
  cut := none

/-- A run that is requested, up to its report. -/
def sampleRun (desk : Desk) (id : String) : List (Event Desk) :=
  .request desk "d" id 0 :: List.replicate 3 (.commit desk) ++
    .call desk samplePlan (.raises [] 0 "") :: List.replicate 9 (.commit desk)

/-- The steps of the sample, prompt or not, and those that are. -/
def anyStep (a : World Desk × List Value) (e : Event Desk) : Option (World Desk × List Value) :=
  (Lifecycle.step sampleText a.1 e).map fun t => (t, a.2 ++ reported sampleText "d" a.1 e)

def sampleStep (a : World Desk × List Value) (e : Event Desk) : Option (World Desk × List Value) :=
  if Prompt sampleText "d" a.1 e then anyStep a e else none

theorem sampleStep_step {a b : World Desk × List Value} {e : Event Desk}
    (taken : sampleStep a e = some b) : Step sampleText "d" a e b := by
  unfold sampleStep at taken
  split at taken
  · rename_i prompt
    obtain ⟨t, moved, rfl⟩ := Option.map_eq_some_iff.mp taken
    exact ⟨prompt, moved, rfl⟩
  · cases taken

def sampleAfter : World Desk × List Value :=
  ((sampleRun .left "w" ++ sampleRun .right "v").foldlM sampleStep (sampleWorld, [])).getD
    (sampleWorld, [])

/-- Two runs in turn, with two leads each. -/
theorem signals_tally_sample : ∃ next, sampleAfter.1.db.department "d" = some next ∧
    counters next.revenueSignals = [7, 20000, 0] := by
  have runs : ((sampleRun .left "w" ++ sampleRun .right "v").foldlM sampleStep
      (sampleWorld, [])).isSome := by decide +kernel
  obtain ⟨last, ran⟩ := Option.isSome_iff_exists.mp runs
  have after : last = sampleAfter := by
    rw [sampleAfter, ran]
    rfl
  have run : Run (Step sampleText "d") (sampleWorld, []) (sampleRun .left "w" ++
      sampleRun .right "v") (sampleAfter.1, sampleAfter.2) :=
    after ▸ (Run.of_foldlM ran).mono fun _ _ _ taken => sampleStep_step taken
  obtain ⟨next, present, _, _, counts, _⟩ := signals_tally (fun _ => rfl) rfl run
  refine ⟨next, present, ?_⟩
  simp only [counters, List.map_cons, List.map_nil, counts]
  decide +kernel

/-- The left run reports last, from the row that it has read before the right one's report. -/
def sampleOverlap : List (Event Desk) :=
  (sampleRun .left "w").dropLast ++ sampleRun .right "v" ++ [.commit .left]

/-- A report that is not prompt drops what was reported in between. -/
theorem reports_lost : ¬ ∀ (es : List (Event Desk)) (b : World Desk × List Value),
    Run (ofPartial anyStep) (sampleWorld, []) es b →
    (b.1.db.department "d").map (fun row => counter row.revenueSignals "lead_count") =
      some (added "sales" "lead_count" 3 b.2) := by
  intro law
  have runs : (sampleOverlap.foldlM anyStep (sampleWorld, [])).isSome := by decide +kernel
  obtain ⟨last, ran⟩ := Option.isSome_iff_exists.mp runs
  have tally := law _ _ (.of_foldlM ran)
  have lost : (sampleOverlap.foldlM anyStep (sampleWorld, [])).map (fun b =>
      ((b.1.db.department "d").map (fun row => counter row.revenueSignals "lead_count"),
        added "sales" "lead_count" 3 b.2)) = some (some 5, 7) := by decide +kernel
  rw [ran, Option.map_some, tally] at lost
  obtain ⟨held, reported⟩ := Prod.mk.inj (Option.some.inj lost)
  rw [reported] at held
  exact absurd held (by decide)

end Sample

end BusinessOs.App.RevenueSignals
