/- Source: crates/abos-governance-core/src/lib.rs (the signed audit ledger)
   digest: Which fields of a signed ledger entry its verification binds. -/

import BusinessOs.Governance.Canonical

set_option autoImplicit false
set_option relaxedAutoImplicit false

namespace BusinessOs.Governance.Ledger

open BusinessOs.Lib.Bytes BusinessOs.Lib.Chrono BusinessOs.Governance.Canonical

structure SignedLedgerEntry where
  eventHash : String
  signedAt : String
  keyId : String
  algorithm : String
  signature : String
  deriving DecidableEq, Repr

def ledgerSignatureAlgorithm : String := "hmac_sha256"

section Signing

variable (lib : Library)

def sha256Hex (bytes : List UInt8) : String := hexEncode (lib.sha256 bytes)

def auditEventHash (event : AuditEvent) : Except GovernanceError String := do
  let text ← canonicalJson lib (event.toValue lib)
  pure (sha256Hex lib (utf8 text))

/-- The signature covers the event's hash only. -/
def signAuditEvent (event : AuditEvent) (secret keyId : String) (now : ℤ) :
    Except GovernanceError SignedLedgerEntry :=
  if secret = "" then .error .missingSigningSecret
  else do
    let eventHash ← auditEventHash lib event
    pure
      { eventHash
        signedAt := lib.rfc3339Seconds now
        keyId
        algorithm := ledgerSignatureAlgorithm
        signature := hexEncode (lib.hmacSha256 (utf8 secret) (utf8 eventHash)) }

def constantTimeEq (left right : String) : Bool :=
  if (utf8 left).length ≠ (utf8 right).length then false
  else ((utf8 left).zip (utf8 right)).foldl (fun acc p => acc ||| (p.1 ^^^ p.2)) 0 == 0

def verifySignedAuditEvent (event : AuditEvent) (entry : SignedLedgerEntry) (secret : String)
    (now : ℤ) : Except GovernanceError Bool :=
  if entry.algorithm ≠ ledgerSignatureAlgorithm then .ok false
  else do
    let expected ← signAuditEvent lib event secret entry.keyId now
    pure (entry.eventHash == expected.eventHash &&
      constantTimeEq entry.signature expected.signature)

end Signing

/-- The constant-time comparison is equality. -/
theorem constantTimeEq_iff {left right : String} :
    constantTimeEq left right = true ↔ left = right := by
  unfold constantTimeEq
  rw [comparison_iff, utf8_injective.eq_iff]

section Verification

variable (lib : Library) (event : AuditEvent) (secret : String)

theorem auditEventHash_ok : ∃ hash, auditEventHash lib event = .ok hash := ⟨_, rfl⟩

/-- What verification compares: the algorithm, the hash and the signature. -/
theorem verify_ok_iff {keyId : String} {signedAt now : ℤ} {entry : SignedLedgerEntry}
    (signed : signAuditEvent lib event secret keyId signedAt = .ok entry)
    (other : SignedLedgerEntry) :
    verifySignedAuditEvent lib event other secret now = .ok true ↔
      other.eventHash = entry.eventHash ∧ other.algorithm = entry.algorithm ∧
        other.signature = entry.signature := by
  obtain ⟨hash, hashed⟩ := auditEventHash_ok lib event
  unfold signAuditEvent at signed
  split_ifs at signed with empty
  rw [hashed, ok_bind, pure_eq_ok] at signed
  obtain rfl := Except.ok.inj signed
  unfold verifySignedAuditEvent signAuditEvent
  rw [if_neg empty, hashed, ok_bind, pure_eq_ok, ok_bind, pure_eq_ok]
  split_ifs with algorithm
  · simp [algorithm]
  · simp [not_not.mp algorithm, constantTimeEq_iff]

end Verification

/-- A signed entry verifies, and so does exactly every entry that agrees with it on the hash, the
algorithm and the signature. -/
theorem verify_signed (lib : Library) (event : AuditEvent) (secret keyId : String)
    (signedAt now : ℤ) (nonempty : secret ≠ "") :
    ∃ entry, signAuditEvent lib event secret keyId signedAt = .ok entry ∧
      verifySignedAuditEvent lib event entry secret now = .ok true ∧
      ∀ other : SignedLedgerEntry,
        verifySignedAuditEvent lib event other secret now = .ok true ↔
          other.eventHash = entry.eventHash ∧ other.algorithm = entry.algorithm ∧
            other.signature = entry.signature := by
  obtain ⟨hash, hashed⟩ := auditEventHash_ok lib event
  have signed : ∃ entry, signAuditEvent lib event secret keyId signedAt = .ok entry := by
    unfold signAuditEvent
    rw [if_neg nonempty, hashed]
    exact ⟨_, rfl⟩
  obtain ⟨entry, signed⟩ := signed
  refine ⟨entry, signed, ?_, verify_ok_iff lib event secret signed⟩
  exact (verify_ok_iff lib event secret signed entry).mpr ⟨rfl, rfl, rfl⟩

/-- The entry that signing the sample event gives. -/
def sampleEntry : SignedLedgerEntry where
  eventHash := "286db22a21a2007bdb7e3a5a64dd05a491f8424001e4db354ddb246fb07ff085"
  signedAt := "2026-01-01T00:00:00Z"
  keyId := "local"
  algorithm := "hmac_sha256"
  signature := "2e281e12e876ec6737fe150576b5d5071723e16bfe22523b845f1c900a315156"

theorem sampleEntry_signed :
    signAuditEvent sampleLibrary sampleEvent "sample-runtime-key" "local" 1767225600000000000 =
      .ok sampleEntry := by
  decide +kernel

theorem verify_signed_sample :
    ∃ entry, signAuditEvent sampleLibrary sampleEvent "sample-runtime-key" "local"
        1767225600000000000 = .ok entry ∧
      verifySignedAuditEvent sampleLibrary sampleEvent entry "sample-runtime-key"
        1767225601000000000 = .ok true := by
  obtain ⟨entry, signed, verified, _⟩ := verify_signed sampleLibrary sampleEvent
    "sample-runtime-key" "local" 1767225600000000000 1767225601000000000 (by decide)
  exact ⟨entry, signed, verified⟩

/-- The signing time and the key id can be rewritten and the entry still verifies. -/
theorem unsigned_fields :
    ¬ ∀ lib : Library, Function.Injective lib.sha256 →
      (∀ k m k' m', lib.hmacSha256 k m = lib.hmacSha256 k' m' → k = k' ∧ m = m') →
      ∀ (event : AuditEvent) (secret keyId : String) (signedAt now : ℤ), secret ≠ "" →
        ∃ entry, signAuditEvent lib event secret keyId signedAt = .ok entry ∧
          verifySignedAuditEvent lib event entry secret now = .ok true ∧
          ∀ other : SignedLedgerEntry, other ≠ entry →
            verifySignedAuditEvent lib event other secret now ≠ .ok true := by
  intro claim
  obtain ⟨entry, signed, _, tampered⟩ := claim sampleLibrary sampleLibrary_sha256
    sampleLibrary_hmacSha256 sampleEvent "sample-runtime-key" "local" 1767225600000000000
    1767225601000000000 (by decide)
  obtain rfl := Except.ok.inj (sampleEntry_signed.symm.trans signed)
  refine tampered { sampleEntry with signedAt := "1970-01-01T00:00:00Z", keyId := "other" }
    (by decide) ?_
  exact (verify_ok_iff _ _ _ sampleEntry_signed _).mpr ⟨rfl, rfl, rfl⟩

end BusinessOs.Governance.Ledger
