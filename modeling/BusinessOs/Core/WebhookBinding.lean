/- Source: rust/src/security.rs (verify_webhook_signature, verify_slack_request);
   rust/src/pipeline.rs (verify_request)
   digest: An accepted signature binds the timestamp and the body apart from each other. -/

import BusinessOs.Core.Security

set_option autoImplicit false
set_option relaxedAutoImplicit false

namespace BusinessOs.Core.WebhookBinding

open BusinessOs.Lib BusinessOs.Lib.Bytes BusinessOs.Lib.Chrono BusinessOs.Core.Security

/-- The clock reading less the timestamp is an `i64`. -/
def AgeInRange (now : ℤ) (timestamp : String) : Prop :=
  ∀ ts, MachineInt.parseI64 timestamp = some ts → MachineInt.InRange (now - ts)

section Window

variable {mode : MachineInt.Overflow} {service : SecurityService} {now : ℤ} {timestamp : String}

/-- Without an overflow the window is the exact one. -/
theorem window_exact (positive : 0 < now) (age : AgeInRange now timestamp)
    (accepted : service.isWithinReplayWindow mode now timestamp = .ok (.ok true)) :
    ∃ ts, MachineInt.parseI64 timestamp = some ts ∧ |now - ts| ≤ service.replayWindowSecs := by
  obtain ⟨ts, _, _, parsed, subtracted, absolute, bound⟩ := isWithinReplayWindow_accepted accepted
  have difference := age ts parsed
  obtain ⟨_, range⟩ := MachineInt.parseI64_eq parsed
  rw [MachineInt.subI64, MachineInt.ofExact_of_inRange difference] at subtracted
  obtain rfl := Except.ok.inj subtracted
  have distance : MachineInt.InRange |now - ts| := by
    unfold MachineInt.InRange at *
    have cases := abs_cases (now - ts)
    omega
  rw [MachineInt.absI64, MachineInt.ofExact_of_inRange distance] at absolute
  obtain rfl := Except.ok.inj absolute
  exact ⟨ts, parsed, bound⟩

end Window

/-- Equal concatenations split alike, when neither number is ten times the other. -/
theorem concatenation_binds {left left' right right' : List Char} {ts ts' : ℤ}
    (parsed : MachineInt.integer left = some ts) (parsed' : MachineInt.integer left' = some ts')
    (positive : 0 < ts) (positive' : 0 < ts') (close : ts' < 10 * ts) (close' : ts < 10 * ts')
    (same : left ++ right = left' ++ right') : left = left' ∧ right = right' := by
  rcases List.append_eq_append_iff.mp same with ⟨moved, rfl, rfl⟩ | ⟨moved, rfl, rfl⟩
  · by_cases none : moved = []
    · simp [none]
    · have grown := MachineInt.integer_append parsed positive none parsed'
      omega
  · by_cases none : moved = []
    · simp [none]
    · have grown := MachineInt.integer_append parsed' positive' none parsed
      omega

/-- Texts around a separator that neither left part contains split alike. -/
theorem separator_binds {left left' right right' : List Char} {separator : Char}
    (absent : separator ∉ left) (absent' : separator ∉ left')
    (same : left ++ separator :: right = left' ++ separator :: right') :
    left = left' ∧ right = right' := by
  rcases List.append_eq_append_iff.mp same with ⟨moved, rfl, rest⟩ | ⟨moved, rfl, rest⟩
  · cases moved with
    | nil => exact ⟨by simp, (List.cons.inj rest).2⟩
    | cons c cs =>
      obtain ⟨rfl, _⟩ := List.cons.inj rest
      exact absurd (List.mem_append_right _ List.mem_cons_self) absent'
  · cases moved with
    | nil => exact ⟨by simp, (List.cons.inj rest).2.symm⟩
    | cons c cs =>
      obtain ⟨rfl, _⟩ := List.cons.inj rest
      exact absurd (List.mem_append_right _ List.mem_cons_self) absent

theorem colon_not_mem {timestamp : String} {ts : ℤ}
    (parsed : MachineInt.parseI64 timestamp = some ts) :
    ':' ∉ timestamp.toList := by
  intro member
  obtain ⟨text, _⟩ := MachineInt.parseI64_eq parsed
  rcases MachineInt.integer_chars text _ member with plus | minus | digit
  · exact absurd plus (by decide)
  · exact absurd minus (by decide)
  · exact digit rfl

/-- Equal signatures under one key are made from equal texts. -/
theorem signature_binds {hmacSha256 : List UInt8 → List UInt8 → List UInt8}
    {key data data' : String}
    (message_injective : Function.Injective (hmacSha256 (utf8 key)))
    (same : "v0=" ++ computeHmacHex hmacSha256 key data =
      "v0=" ++ computeHmacHex hmacSha256 key data') : data = data' := by
  have texts := congrArg String.toList same
  simp only [String.toList_append, List.append_cancel_left_eq] at texts
  exact utf8_injective (message_injective (hexEncode_injective (String.toList_inj.mp texts)))

/-- One signature accepted twice was accepted for the same timestamp and the same body. -/
theorem accepted_signature_binds (hmacSha256 : List UInt8 → List UInt8 → List UInt8)
    (message_injective : ∀ key, Function.Injective (hmacSha256 key)) (mode : MachineInt.Overflow)
    (service : SecurityService) (nonneg : 0 ≤ service.replayWindowSecs) :
    (∀ (key timestamp timestamp' body body' signature : String) (now now' : ℤ),
      10 * (now - service.replayWindowSecs) > now' + service.replayWindowSecs →
      10 * (now' - service.replayWindowSecs) > now + service.replayWindowSecs →
      AgeInRange now timestamp → AgeInRange now' timestamp' →
      service.verifyRequest hmacSha256 mode now key timestamp body signature = .ok (.ok true) →
      service.verifyRequest hmacSha256 mode now' key timestamp' body' signature =
        .ok (.ok true) →
      timestamp = timestamp' ∧ body = body') ∧
    ∀ (timestamp timestamp' body body' signature : String) (now now' : ℤ),
      service.verifySlackRequest hmacSha256 mode now timestamp body signature = .ok (.ok true) →
      service.verifySlackRequest hmacSha256 mode now' timestamp' body' signature =
        .ok (.ok true) →
      timestamp = timestamp' ∧ body = body' := by
  constructor
  · intro key timestamp timestamp' body body' signature now now' clock clock' age age' first second
    obtain ⟨window, signed⟩ := verifyRequest_accepted first
    obtain ⟨window', signed'⟩ := verifyRequest_accepted second
    obtain ⟨ts, parsed, near⟩ := window_exact (by omega) age window
    obtain ⟨ts', parsed', near'⟩ := window_exact (by omega) age' window'
    have bounds := abs_le.mp near
    have bounds' := abs_le.mp near'
    have texts := congrArg String.toList
      (signature_binds (message_injective _) (signed.symm.trans signed'))
    rw [String.toList_append, String.toList_append] at texts
    obtain ⟨stamps, bodies⟩ := concatenation_binds (MachineInt.parseI64_eq parsed).1
      (MachineInt.parseI64_eq parsed').1 (by omega) (by omega) (by omega) (by omega) texts
    exact ⟨String.toList_inj.mp stamps, String.toList_inj.mp bodies⟩
  · intro timestamp timestamp' body body' signature now now' first second
    obtain ⟨window, secret, configured, signed⟩ := verifySlackRequest_accepted first
    obtain ⟨window', secret', configured', signed'⟩ := verifySlackRequest_accepted second
    obtain rfl := Option.some.inj (configured.symm.trans configured')
    obtain ⟨ts, _, _, parsed, _⟩ := isWithinReplayWindow_accepted window
    obtain ⟨ts', _, _, parsed', _⟩ := isWithinReplayWindow_accepted window'
    have texts := congrArg String.toList
      (signature_binds (message_injective _) (signed.symm.trans signed'))
    simp only [String.toList_append, List.append_assoc, List.append_cancel_left_eq] at texts
    obtain ⟨stamps, bodies⟩ := separator_binds (colon_not_mem parsed) (colon_not_mem parsed') texts
    exact ⟨String.toList_inj.mp stamps, String.toList_inj.mp bodies⟩

/-- An injective function that has the real value on the two messages signed below. -/
def sampleHmac (key message : List UInt8) : List UInt8 :=
  if key = utf8 "hook-secret" then
    pinned id (utf8 "17000000001x")
      [150, 165, 131, 250, 127, 242, 208, 176, 1, 144, 224, 44, 168, 218, 196, 188, 194, 175,
        190, 34, 187, 24, 241, 229, 173, 7, 75, 151, 53, 84, 171, 118] message
  else
    pinned id (utf8 "v0:1700000000:1:x")
      [177, 183, 129, 155, 145, 113, 92, 103, 26, 135, 38, 41, 156, 9, 60, 109, 173, 246, 219,
        242, 125, 29, 38, 228, 213, 94, 94, 61, 89, 58, 151, 102] message

def sampleService : SecurityService where
  adminApiKeyHash := ""
  slackSigningSecret := some "slack-secret"
  replayWindowSecs := 300

/-- With a digit moved over the boundary the webhook signature is refused, and with another
timestamp the Slack one. -/
theorem accepted_signature_binds_sample :
    sampleService.verifyRequest sampleHmac .wrapping 1700000010 "hook-secret" "17000000001" "x"
        "v0=96a583fa7ff2d0b00190e02ca8dac4bcc2afbe22bb18f1e5ad074b973554ab76" ≠ .ok (.ok true) ∧
    sampleService.verifySlackRequest sampleHmac .wrapping 1700000010 "1700000001" "x"
        "v0=b1b7819b91715c671a8726299c093c6dadf6dbf27d1d26e4d55e5e3d593a9766" ≠ .ok (.ok true) := by
  obtain ⟨webhook, slack⟩ := accepted_signature_binds sampleHmac
    (fun key => by
      unfold sampleHmac
      split_ifs
      · exact pinned_injective Function.injective_id (by decide)
      · exact pinned_injective Function.injective_id (by decide))
    .wrapping sampleService (by decide)
  have age : ∀ timestamp ts, MachineInt.parseI64 timestamp = some ts →
      MachineInt.InRange (1700000010 - ts) → AgeInRange 1700000010 timestamp := by
    intro timestamp ts parsed range other parsed'
    obtain rfl := Option.some.inj (parsed.symm.trans parsed')
    exact range
  constructor
  · intro moved
    have bound := webhook "hook-secret" "1700000000" "17000000001" "1x" "x" _ 1700000010
      1700000010 (by decide) (by decide) (age _ 1700000000 (by decide) (by decide))
      (age _ 17000000001 (by decide) (by decide)) (by decide +kernel) moved
    exact absurd bound.1 (by decide)
  · intro moved
    have bound := slack "1700000000" "1700000001" "1:x" "x" _ 1700000010 1700000010
      (by decide +kernel) moved
    exact absurd bound.1 (by decide)

end BusinessOs.Core.WebhookBinding
