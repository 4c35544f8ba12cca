/- Source: rust/src/security.rs; rust/src/pipeline.rs (verify_request)
   digest: Key checks, webhook and Slack signatures, and the replay window. -/

import BusinessOs.Lib.Bytes
import BusinessOs.Lib.MachineInt

set_option autoImplicit false
set_option relaxedAutoImplicit false

namespace BusinessOs.Core.Security

open BusinessOs.Lib BusinessOs.Lib.Bytes BusinessOs.Lib.Chrono

inductive SecurityError
  | invalidApiKey | expiredRequest | invalidSignature | missingSecret
  deriving DecidableEq, Repr

structure SecurityService where
  adminApiKeyHash : String
  slackSigningSecret : Option String
  /-- Seconds. -/
  replayWindowSecs : ℤ
  deriving DecidableEq, Repr

def constantTimeEq (a b : String) : Bool :=
  if (utf8 a).length ≠ (utf8 b).length then false
  else ((utf8 a).zip (utf8 b)).foldl (fun result p => result ||| (p.1 ^^^ p.2)) 0 == 0

section Keys

variable (sha256 : List UInt8 → List UInt8)

def hashKey (key : String) : String := hexEncode (sha256 (utf8 key))

def SecurityService.new (adminApiKey : String) (replayWindowSecs : ℤ) : SecurityService where
  adminApiKeyHash := hashKey sha256 adminApiKey
  slackSigningSecret := none
  replayWindowSecs

def SecurityService.withSlackSecret (service : SecurityService) (slackSecret : String) :
    SecurityService :=
  { service with slackSigningSecret := some slackSecret }

def SecurityService.verifyAdminApiKey (service : SecurityService) (headerValue : String) :
    Except SecurityError Bool :=
  if headerValue = "" then .ok false
  else .ok (constantTimeEq (hashKey sha256 headerValue) service.adminApiKeyHash)

def verifySharedSecret (provided expected : String) : Bool :=
  if expected = "" then false else constantTimeEq provided expected

end Keys

section Signatures

variable (hmacSha256 : List UInt8 → List UInt8 → List UInt8) (mode : MachineInt.Overflow)

def computeHmacHex (key data : String) : String :=
  hexEncode (hmacSha256 (utf8 key) (utf8 data))

def verifyWebhookSignature (secret timestamp body signature : String) :
    Except SecurityError Bool :=
  if secret = "" then .error .missingSecret
  else
    let expected := "v0=" ++ computeHmacHex hmacSha256 secret (timestamp ++ body)
    .ok (constantTimeEq expected signature)

/-- The outer layer is a panic of the calling thread. -/
def SecurityService.isWithinReplayWindow (service : SecurityService) (now : ℤ)
    (timestamp : String) : Except Panic (Except SecurityError Bool) :=
  match MachineInt.parseI64 timestamp with
  | none => pure (.error .expiredRequest)
  | some ts => do
    let age ← MachineInt.subI64 mode now ts
    let diff ← MachineInt.absI64 mode age
    pure (.ok (decide (diff ≤ service.replayWindowSecs)))

def SecurityService.verifySlackRequest (service : SecurityService) (now : ℤ)
    (timestamp body signature : String) : Except Panic (Except SecurityError Bool) := do
  let window ← service.isWithinReplayWindow mode now timestamp
  match window with
  | .error e => pure (.error e)
  | .ok false => pure (.error .expiredRequest)
  | .ok true =>
    match service.slackSigningSecret with
    | none => pure (.error .missingSecret)
    | some secret =>
      let sigBase := "v0:" ++ timestamp ++ ":" ++ body
      let expected := "v0=" ++ computeHmacHex hmacSha256 secret sigBase
      pure (.ok (constantTimeEq expected signature))

/-- `BusinessOS::verify_request`. -/
def SecurityService.verifyRequest (service : SecurityService) (now : ℤ)
    (key timestamp body signature : String) : Except Panic (Except SecurityError Bool) := do
  let window ← service.isWithinReplayWindow mode now timestamp
  match window with
  | .error e => pure (.error e)
  | .ok false => pure (.error .expiredRequest)
  | .ok true => pure (verifyWebhookSignature hmacSha256 key timestamp body signature)

end Signatures

/-- The constant-time comparison is equality. -/
theorem constantTimeEq_iff {a b : String} : constantTimeEq a b = true ↔ a = b := by
  unfold constantTimeEq
  rw [comparison_iff, utf8_injective.eq_iff]

/-- A shared secret is accepted exactly when it is the configured one, and none is configured
as the empty string. -/
theorem verifySharedSecret_iff {provided expected : String} :
    verifySharedSecret provided expected = true ↔ expected ≠ "" ∧ provided = expected := by
  unfold verifySharedSecret
  split_ifs with empty
  · simp [empty]
  · rw [constantTimeEq_iff]
    simp [empty]

/-- With an injective digest, the admin key is accepted exactly as it was given, if not empty. -/
theorem verifyAdminApiKey_iff {sha256 : List UInt8 → List UInt8}
    (sha256_injective : Function.Injective sha256) {adminApiKey headerValue : String}
    {replayWindowSecs : ℤ} :
    (SecurityService.new sha256 adminApiKey replayWindowSecs).verifyAdminApiKey sha256
        headerValue = .ok true ↔ headerValue ≠ "" ∧ headerValue = adminApiKey := by
  have hash_injective : Function.Injective (hashKey sha256) := fun a b same =>
    utf8_injective (sha256_injective (hexEncode_injective same))
  unfold SecurityService.verifyAdminApiKey SecurityService.new
  split_ifs with empty
  · simp [empty]
  · rw [Except.ok.injEq, constantTimeEq_iff, hash_injective.eq_iff]
    simp [empty]

section Accepted

variable {hmacSha256 : List UInt8 → List UInt8 → List UInt8} {mode : MachineInt.Overflow}
variable {service : SecurityService} {now : ℤ} {timestamp body signature : String}

/-- An accepted webhook signature is the one computed from the plain concatenation. -/
theorem verifyWebhookSignature_accepted {secret : String}
    (accepted : verifyWebhookSignature hmacSha256 secret timestamp body signature = .ok true) :
    signature = "v0=" ++ computeHmacHex hmacSha256 secret (timestamp ++ body) := by
  unfold verifyWebhookSignature at accepted
  split_ifs at accepted
  exact (constantTimeEq_iff.mp (Except.ok.inj accepted)).symm

theorem verifyRequest_accepted {key : String}
    (accepted : service.verifyRequest hmacSha256 mode now key timestamp body signature =
      .ok (.ok true)) :
    service.isWithinReplayWindow mode now timestamp = .ok (.ok true) ∧
      signature = "v0=" ++ computeHmacHex hmacSha256 key (timestamp ++ body) := by
  unfold SecurityService.verifyRequest at accepted
  cases window : service.isWithinReplayWindow mode now timestamp with
  | error p => simp [window] at accepted
  | ok verdict =>
    rw [window, ok_bind] at accepted
    match verdict, accepted with
    | .ok true, accepted =>
      exact ⟨rfl, verifyWebhookSignature_accepted (Except.ok.inj accepted)⟩

theorem verifySlackRequest_accepted
    (accepted : service.verifySlackRequest hmacSha256 mode now timestamp body signature =
      .ok (.ok true)) :
    service.isWithinReplayWindow mode now timestamp = .ok (.ok true) ∧
      ∃ secret, service.slackSigningSecret = some secret ∧
        signature = "v0=" ++
          computeHmacHex hmacSha256 secret ("v0:" ++ timestamp ++ ":" ++ body) := by
  unfold SecurityService.verifySlackRequest at accepted
  cases window : service.isWithinReplayWindow mode now timestamp with
  | error p => simp [window] at accepted
  | ok verdict =>
    rw [window, ok_bind] at accepted
    match verdict, accepted with
    | .ok true, accepted =>
      cases configured : service.slackSigningSecret with
      | none => simp [configured] at accepted
      | some secret =>
        simp only [configured, pure_eq_ok, Except.ok.injEq] at accepted
        exact ⟨rfl, secret, rfl, (constantTimeEq_iff.mp accepted).symm⟩

/-- A timestamp inside the window parses, and its age is computed without a panic. -/
theorem isWithinReplayWindow_accepted
    (accepted : service.isWithinReplayWindow mode now timestamp = .ok (.ok true)) :
    ∃ ts age diff, MachineInt.parseI64 timestamp = some ts ∧
      MachineInt.subI64 mode now ts = .ok age ∧
      MachineInt.absI64 mode age = .ok diff ∧ diff ≤ service.replayWindowSecs := by
  unfold SecurityService.isWithinReplayWindow at accepted
  cases parsed : MachineInt.parseI64 timestamp with
  | none => simp [parsed] at accepted
  | some ts =>
    simp only [parsed] at accepted
    cases subtracted : MachineInt.subI64 mode now ts with
    | error p => simp [subtracted] at accepted
    | ok age =>
      rw [subtracted, ok_bind] at accepted
      cases magnitude : MachineInt.absI64 mode age with
      | error p => simp [magnitude] at accepted
      | ok diff =>
        rw [magnitude, ok_bind] at accepted
        exact ⟨ts, age, diff, rfl, subtracted, magnitude,
          of_decide_eq_true (Except.ok.inj (Except.ok.inj accepted))⟩

end Accepted

end BusinessOs.Core.Security
