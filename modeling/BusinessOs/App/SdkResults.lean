/- Source: app/integrations/airbyte_runtime.py (serialize_sdk_result); app/rust_core.py;
     rust/src/bridge.rs (serialize_sdk_result, BridgeResponse)
   digest: The two layers that unwrap the envelope of a connector's result. -/

import BusinessOs.Lib.Json.Access

set_option autoImplicit false
set_option relaxedAutoImplicit false

namespace BusinessOs.App.SdkResults

open BusinessOs.Lib.Json.Tree

def envelopeKeys : List String := ["data", "meta", "status", "success"]

namespace Bridge

/-- `{"items": items, "data": items}`, in key order. -/
def listed (items : List Value) : Value :=
  .object [("data", .array items), ("items", .array items)]

def serializeSdkResult : Value → Value
  | .null => .object []
  | .object map =>
    match map.lookup "data" with
    | some data =>
      if map.all fun m => envelopeKeys.contains m.1 then
        match data with
        | .object obj => .object obj
        | .array items => listed items
        | other => .object [("data", other)]
      else .object map
    | none => .object map
  | .array items => listed items
  | other => .object [("value", other)]

/-- `BridgeResponse::SerializedValue`, with its tag beside its content. -/
def response (payload : Value) : Value :=
  .object [("kind", .string "serialized_value"),
    ("value", .object [("value", serializeSdkResult payload)])]

end Bridge

/-- `rust_core.serialize_sdk_result`; Python values are those of the JSON text. -/
def rustSerializeSdkResult (payload : Value) : Value :=
  let value := ((Bridge.response payload).get "value").getD .null
  let value := (value.get "value").getD value
  match value with
  | .object members => .object members
  | other => .object [("value", other)]

/-- What a connector returns: nothing, a model, an object with a `data` attribute that is a model or
not, or anything else. -/
inductive SdkResult
  | none
  | model (dump : Value)
  | holder (data : Value) (isModel : Bool)
  | other (value : Value)

def serializeSdkResult : SdkResult → Value
  | .none => .object []
  | .model (.object payload) =>
    let data := (payload.lookup "data").getD .null
    if data ≠ .null ∧ payload.all fun m => envelopeKeys.contains m.1 then
      match data with
      | .object obj => rustSerializeSdkResult (.object obj)
      | .array items => rustSerializeSdkResult (.array items)
      | data => rustSerializeSdkResult (.object [("data", data)])
    else rustSerializeSdkResult (.object payload)
  | .model payload => rustSerializeSdkResult (.object [("value", payload)])
  | .holder data isModel =>
    if isModel then rustSerializeSdkResult data
    else
      match data with
      | .array items => rustSerializeSdkResult (.array items)
      | .object obj => rustSerializeSdkResult (.object obj)
      | data => rustSerializeSdkResult (.object [("data", data)])
  | .other value => rustSerializeSdkResult value

/-- An object that carries this under `data` and nothing but an envelope's keys. -/
structure Envelope (members : List (String × Value)) (data : Value) : Prop where
  found : members.lookup "data" = some data
  keys : ∀ m ∈ members, m.1 ∈ envelopeKeys

/-- Neither an object nor an array. -/
def Scalar : Value → Prop
  | .object _ | .array _ => False
  | _ => True

/-- What an envelope is replaced by. -/
def content : Value → Value
  | .object obj => .object obj
  | .array items => Bridge.listed items
  | other => .object [("data", other)]

section Layers

variable {members inner : List (String × Value)} {data : Value}

theorem envelopeKeys_all : (members.all fun m => envelopeKeys.contains m.1) = true ↔
    ∀ m ∈ members, m.1 ∈ envelopeKeys := by
  simp only [List.all_eq_true, List.contains_iff_mem]

theorem serialize_envelope (envelope : Envelope members data) :
    Bridge.serializeSdkResult (.object members) = content data := by
  rw [Bridge.serializeSdkResult, envelope.found]
  simp only [envelopeKeys_all.mpr envelope.keys, if_true]
  cases data <;> rfl

theorem serialize_plain (plain : ∀ data, ¬Envelope members data) :
    Bridge.serializeSdkResult (.object members) = .object members := by
  rw [Bridge.serializeSdkResult]
  cases found : members.lookup "data" with
  | none => rfl
  | some data =>
    have other : ¬(members.all fun m => envelopeKeys.contains m.1) = true := fun all =>
      plain data ⟨found, envelopeKeys_all.mp all⟩
    exact if_neg other

/-- The bridge always answers with an object. -/
theorem serialize_isObject (payload : Value) :
    ∃ members, Bridge.serializeSdkResult payload = .object members := by
  cases payload with
  | object members =>
    by_cases wrapped : ∃ data, Envelope members data
    · obtain ⟨data, envelope⟩ := wrapped
      rw [serialize_envelope envelope]
      cases data <;> exact ⟨_, rfl⟩
    · exact ⟨members, serialize_plain (not_exists.mp wrapped)⟩
  | _ => exact ⟨_, rfl⟩

/-- The Python side takes the bridge's answer out of the response and adds nothing. -/
theorem rustSerializeSdkResult_eq (payload : Value) :
    rustSerializeSdkResult payload = Bridge.serializeSdkResult payload := by
  obtain ⟨members, answer⟩ := serialize_isObject payload
  have taken : (((Bridge.response payload).get "value").getD .null).get "value" =
      some (Bridge.serializeSdkResult payload) := rfl
  rw [rustSerializeSdkResult, taken, Option.getD_some, answer]

theorem sizeOf_lookup {key : String} (found : members.lookup key = some data) :
    sizeOf data < sizeOf members := by
  obtain ⟨before, after, rfl, _⟩ := List.lookup_eq_some_iff.mp found
  have inside : sizeOf (key, data) < sizeOf (before ++ (key, data) :: after) :=
    List.sizeOf_lt_of_mem (List.mem_append_right _ List.mem_cons_self)
  have own : sizeOf data < sizeOf (key, data) := by
    rw [Prod.mk.sizeOf_spec]
    omega
  exact own.trans inside

/-- An envelope is what it is unwrapped to only around a scalar that it has nothing beside. -/
theorem content_fixed_iff (envelope : Envelope members data) :
    content data = .object members ↔ Scalar data ∧ members = [("data", data)] := by
  cases data with
  | object obj =>
    refine iff_of_false (fun same => ?_) (fun scalar => scalar.1)
    have smaller := sizeOf_lookup envelope.found
    rw [← Value.object.inj same, Value.object.sizeOf_spec] at smaller
    omega
  | array items =>
    refine iff_of_false (fun same => ?_) (fun scalar => scalar.1)
    have listed : members = [("data", .array items), ("items", .array items)] :=
      (Value.object.inj same).symm
    have foreign : "items" ∈ envelopeKeys :=
      envelope.keys ("items", .array items) (by simp [listed])
    exact absurd foreign (by decide)
  | _ => simp [content, Scalar, eq_comm]

/-- The Python layer takes the envelope off an object before the bridge sees it. -/
theorem model_object (envelope : Envelope members (.object inner)) :
    serializeSdkResult (.model (.object members)) = Bridge.serializeSdkResult (.object inner) := by
  have taken : (.object inner : Value) ≠ .null ∧
      (members.all fun m => envelopeKeys.contains m.1) = true :=
    ⟨Value.noConfusion, envelopeKeys_all.mpr envelope.keys⟩
  rw [serializeSdkResult, envelope.found, Option.getD_some, if_pos taken]
  exact rustSerializeSdkResult_eq _

/-- Around anything else the two layers do what the bridge does. -/
theorem model_other (other : ∀ inner, ¬Envelope members (.object inner)) :
    serializeSdkResult (.model (.object members)) =
      Bridge.serializeSdkResult (.object members) := by
  by_cases wrapped : ∃ data, data ≠ .null ∧ Envelope members data
  · obtain ⟨data, some_, envelope⟩ := wrapped
    have single : Envelope [("data", data)] data :=
      ⟨rfl, List.forall_mem_singleton.mpr (List.mem_cons_self : "data" ∈ envelopeKeys)⟩
    rw [serializeSdkResult, envelope.found, Option.getD_some,
      if_pos ⟨some_, envelopeKeys_all.mpr envelope.keys⟩, serialize_envelope envelope]
    cases data with
    | object inner => exact absurd envelope (other inner)
    | array items => exact rustSerializeSdkResult_eq _
    | _ => exact (rustSerializeSdkResult_eq _).trans (serialize_envelope single)
  · have unwrapped : ¬((members.lookup "data").getD .null ≠ .null ∧
        (members.all fun m => envelopeKeys.contains m.1) = true) := by
      rintro ⟨some_, all⟩
      cases found : members.lookup "data" with
      | none => exact some_ (by rw [found, Option.getD_none])
      | some data =>
        rw [found, Option.getD_some] at some_
        exact wrapped ⟨data, some_, found, envelopeKeys_all.mp all⟩
    rw [serializeSdkResult, if_neg unwrapped]
    exact rustSerializeSdkResult_eq _

end Layers

/-- The result of a model is unwrapped once exactly when its `data` is not an envelope itself, apart
from one that is nothing but a scalar under `data`. -/
theorem unwrapped_once_iff (payload : List (String × Value)) :
    serializeSdkResult (.model (.object payload)) =
        Bridge.serializeSdkResult (.object payload) ↔
      ∀ inner data, Envelope payload (.object inner) → Envelope inner data →
        Scalar data ∧ inner = [("data", data)] := by
  by_cases wrapped : ∃ inner, Envelope payload (.object inner)
  · obtain ⟨inner, outer⟩ := wrapped
    rw [model_object outer, serialize_envelope outer]
    constructor
    · intro once inner' data outer' envelope
      obtain rfl : inner = inner' :=
        Value.object.inj (Option.some.inj (outer.found.symm.trans outer'.found))
      rw [serialize_envelope envelope] at once
      exact (content_fixed_iff envelope).mp once
    · intro only
      by_cases again : ∃ data, Envelope inner data
      · obtain ⟨data, envelope⟩ := again
        rw [serialize_envelope envelope]
        exact (content_fixed_iff envelope).mpr (only inner data outer envelope)
      · exact serialize_plain (not_exists.mp again)
  · have plain := not_exists.mp wrapped
    exact iff_of_true (model_other plain) fun inner _ outer => absurd outer (plain inner)

/-- A record whose only fields are `data` and `status` loses the latter. -/
theorem unwrapped_twice :
    let record : Value := .object [("data", .object [("id", .string "abc")]),
      ("status", .string "open")]
    let payload : List (String × Value) := [("data", record), ("status", .string "ok")]
    serializeSdkResult (.model (.object payload)) = .object [("id", .string "abc")] ∧
      Bridge.serializeSdkResult (.object payload) = record := by
  decide +kernel

end BusinessOs.App.SdkResults
