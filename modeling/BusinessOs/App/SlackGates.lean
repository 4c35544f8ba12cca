/- Source: app/security.py (verify_slack_signature); rust/src/security.rs (verify_slack_request)
   digest: Which requests the two Slack gates accept, where they part, and what a signature that
     either of them accepts binds. -/

import BusinessOs.Core.ReplayWindow
import BusinessOs.Core.SkillBridge
import BusinessOs.Core.WebhookBinding
import Mathlib.Data.Rat.Floor

set_option autoImplicit false
set_option relaxedAutoImplicit false

namespace BusinessOs.App.SlackGates

open BusinessOs.Lib BusinessOs.Lib.Bytes BusinessOs.Lib.Chrono BusinessOs.Lib.MachineInt
open BusinessOs.Core BusinessOs.Core.Security BusinessOs.Core.SkillBridge
open BusinessOs.Core.WebhookBinding

/-- Digits with single underscores between them, read behind an accumulator; `open_` is whether an
underscore or the end may come next. -/
def grouped (acc : ℕ) (open_ : Bool) : List Char → Option ℕ
  | [] => if open_ then some acc else none
  | c :: cs =>
    match digitValue c with
    | some d => grouped (10 * acc + d) true cs
    | none => if c = '_' ∧ open_ then grouped acc false cs else none

def signed : List Char → Option ℤ
  | '+' :: cs => (grouped 0 false cs).map fun n : ℕ => (n : ℤ)
  | '-' :: cs => (grouped 0 false cs).map fun n : ℕ => -(n : ℤ)
  | cs => (grouped 0 false cs).map fun n : ℕ => (n : ℤ)

/-- Python's limit on the digits of a text that it reads as an integer. -/
def intMaxStrDigits : ℕ := 4300

def digitCount (text : String) : ℕ := text.toList.countP fun c => (digitValue c).isSome

/-- `int` of a header, whose text is Latin-1; `none` is the `ValueError`. Of ASCII it strips the C
locale's whitespace, without the four separators that `str.isspace` adds. -/
def int (text : String) : Option ℤ :=
  if intMaxStrDigits < digitCount text then none
  else signed (trimMatches isWhitespace text.toList)

/-- An integer that rounds to no float: its difference from the clock raises an `OverflowError`. -/
def overflows (k : ℤ) : Bool := decide (2 ^ 970 * (2 ^ 54 - 1) ≤ |k|)

/-- `bytes.decode("utf-8")`. -/
def decode (body : List UInt8) : Option String := String.fromUTF8? ⟨body.toArray⟩

def isAscii (text : String) : Bool := text.toList.all fun c => decide (c.toNat < 128)

/-- `hmac.compare_digest` of texts; `none` is the `TypeError` at a character that is not ASCII. -/
def compareDigest (a b : String) : Option Bool :=
  if isAscii a && isAscii b then some (a == b) else none

/-- The headers that the gate reads, and the body. -/
structure Request where
  timestamp : Option String
  signature : Option String
  body : List UInt8
  deriving DecidableEq

inductive Verdict
  | accepted | refused | raised
  deriving DecidableEq, Repr

section Gate

variable (hmacSha256 : List UInt8 → List UInt8 → List UInt8)

/-- The clock counts seconds. Near the window the difference from it is an exact float. -/
def verifySlackSignature (slackSigningSecret : Option String) (now : ℚ) (request : Request) :
    Verdict :=
  match slackSigningSecret with
  | none => .accepted
  | some secret =>
    if secret = "" then .accepted
    else match request.timestamp, request.signature with
      | some timestamp, some signature =>
        if timestamp = "" ∨ signature = "" then .refused
        else match int timestamp with
          | none => .raised
          | some ts =>
            if overflows ts then .raised
            else if 300 < |now - ts| then .refused
            else match decode request.body with
              | none => .raised
              | some body =>
                let digest := computeHmacHex hmacSha256 secret ("v0:" ++ timestamp ++ ":" ++ body)
                match compareDigest ("v0=" ++ digest) signature with
                | none => .raised
                | some true => .accepted
                | some false => .refused
      | _, _ => .refused

/-- The service of the engine that is configured like the gate. -/
def service (adminApiKeyHash secret : String) : SecurityService where
  adminApiKeyHash
  slackSigningSecret := some secret
  replayWindowSecs := 300

/-- The engine's clock counts whole seconds. -/
def EngineAccepts (mode : Overflow) (adminApiKeyHash secret : String) (now : ℚ)
    (timestamp body signature : String) : Prop :=
  (service adminApiKeyHash secret).verifySlackRequest hmacSha256 mode ⌊now⌋ timestamp body
    signature = .ok (.ok true)

def GateAccepts (secret : String) (now : ℚ) (timestamp body signature : String) : Prop :=
  verifySlackSignature hmacSha256 (some secret) now ⟨some timestamp, some signature, utf8 body⟩ =
    .accepted

end Gate

section Texts

variable {c : Char} {cs : List Char} {acc n : ℕ} {open_ : Bool} {k : ℤ} {text : String}

/-- Plain digits are read alike. -/
theorem grouped_decimal (plain : decimal acc cs = some n) (some_ : cs ≠ [] ∨ open_ = true) :
    grouped acc open_ cs = some n := by
  induction cs generalizing acc open_ with
  | nil =>
    obtain rfl := Option.some.inj plain
    have opened : open_ = true := some_.resolve_left fun none_ => none_ rfl
    rw [grouped, if_pos opened]
  | cons c cs ih =>
    obtain ⟨d, value, rest⟩ := Option.bind_eq_some_iff.mp plain
    rw [grouped, value]
    exact ih rest (.inr rfl)

theorem grouped_magnitude (plain : magnitude cs = some n) : grouped 0 false cs = some n := by
  obtain ⟨some_, value⟩ := magnitude_eq plain
  exact grouped_decimal value (.inl some_)

theorem signed_integer (plain : integer cs = some k) : signed cs = some k := by
  unfold integer at plain
  split at plain
  · obtain ⟨n, value, rfl⟩ := Option.map_eq_some_iff.mp plain
    rw [signed, grouped_magnitude value, Option.map_some]
  · obtain ⟨n, value, rfl⟩ := Option.map_eq_some_iff.mp plain
    rw [signed, grouped_magnitude value, Option.map_some]
  · rename_i plus minus
    obtain ⟨n, value, rfl⟩ := Option.map_eq_some_iff.mp plain
    rw [signed, grouped_magnitude value, Option.map_some]
    · exact plus
    · exact minus

theorem digitValue_isSome (digit : digitValue c ≠ none) : '0' ≤ c ∧ c ≤ '9' := by
  unfold digitValue at digit
  split_ifs at digit with range
  · exact range
  · exact absurd rfl digit

theorem isWhitespace_plain (plain : c = '+' ∨ c = '-' ∨ digitValue c ≠ none) :
    isWhitespace c = false := by
  rcases plain with rfl | rfl | digit
  · decide
  · decide
  · obtain ⟨low, high⟩ := digitValue_isSome digit
    have low : 48 ≤ c.toNat := low
    have high : c.toNat ≤ 57 := high
    unfold isWhitespace
    simp only [Bool.or_eq_false_iff, Bool.and_eq_false_iff, decide_eq_false_iff_not,
      beq_eq_false_iff_ne]
    omega

theorem trimMatches_self {p : Char → Bool} (none_ : ∀ c ∈ cs, p c = false) :
    trimMatches p cs = cs := by
  have front : cs.dropWhile p = cs := by
    rw [List.dropWhile_eq_self_iff]
    intro inside first
    rw [none_ _ (List.getElem_mem inside)] at first
    cases first
  rw [trimMatches, front, List.rdropWhile_eq_self_iff]
  intro some_ last
  rw [none_ _ (List.getLast_mem some_)] at last
  cases last

/-- Only what is trimmed away is lost. -/
theorem mem_trimMatches {p : Char → Bool} (member : c ∈ cs) (kept : p c = false) :
    c ∈ trimMatches p cs := by
  have behind : ∀ {ds : List Char}, c ∈ ds → c ∈ ds.dropWhile p := by
    intro ds there
    rw [← List.takeWhile_append_dropWhile (p := p) (l := ds), List.mem_append] at there
    rcases there with dropped | rest
    · rw [List.mem_takeWhile_imp dropped] at kept
      cases kept
    · exact rest
  rw [trimMatches, List.rdropWhile, List.mem_reverse]
  exact behind (List.mem_reverse.mpr (behind member))

theorem grouped_chars (read : grouped acc open_ cs = some n) :
    ∀ c ∈ cs, c = '_' ∨ digitValue c ≠ none := by
  induction cs generalizing acc open_ with
  | nil =>
    intro c member
    cases member
  | cons first cs ih =>
    rw [grouped] at read
    intro c member
    cases value : digitValue first with
    | some d =>
      rw [value] at read
      rcases List.mem_cons.mp member with rfl | later
      · right
        rw [value]
        exact Option.some_ne_none d
      · exact ih read c later
    | none =>
      rw [value] at read
      dsimp only at read
      split_ifs at read with underscore
      rcases List.mem_cons.mp member with rfl | later
      · exact .inl underscore.1
      · exact ih read c later

theorem signed_chars (read : signed cs = some k) :
    ∀ c ∈ cs, c = '+' ∨ c = '-' ∨ c = '_' ∨ digitValue c ≠ none := by
  intro c member
  unfold signed at read
  split at read
  · obtain ⟨n, value, _⟩ := Option.map_eq_some_iff.mp read
    rcases List.mem_cons.mp member with rfl | later
    · exact .inl rfl
    · exact .inr (.inr (grouped_chars value c later))
  · obtain ⟨n, value, _⟩ := Option.map_eq_some_iff.mp read
    rcases List.mem_cons.mp member with rfl | later
    · exact .inr (.inl rfl)
    · exact .inr (.inr (grouped_chars value c later))
  · obtain ⟨n, value, _⟩ := Option.map_eq_some_iff.mp read
    exact .inr (.inr (grouped_chars value c member))

/-- What the engine reads as an integer Python reads as the same one, up to its limit. -/
theorem int_of_parse (parsed : parseI64 text = some k) :
    int text = if intMaxStrDigits < digitCount text then none else some k := by
  obtain ⟨plain, _⟩ := parseI64_eq parsed
  have kept : trimMatches isWhitespace text.toList = text.toList :=
    trimMatches_self fun c member => isWhitespace_plain (integer_chars plain c member)
  rw [int, kept, signed_integer plain]

theorem parseI64_small (parsed : parseI64 text = some k) : overflows k = false := by
  obtain ⟨_, low, high⟩ := parseI64_eq parsed
  have wide : (2 : ℤ) ^ 63 < 2 ^ 970 * (2 ^ 54 - 1) :=
    (pow_lt_pow_right₀ (by decide) (by decide)).trans_le
      (le_mul_of_one_le_right (pow_nonneg (by decide) _) (by decide))
  have near : |k| ≤ 2 ^ 63 := abs_le.mpr ⟨by omega, by omega⟩
  exact decide_eq_false (not_le.mpr (near.trans_lt wide))

theorem int_colon (read : int text = some k) : ':' ∉ text.toList := by
  intro member
  unfold int at read
  split_ifs at read
  rcases signed_chars read _ (mem_trimMatches member (by decide)) with plus | minus | line | digit
  · exact absurd plus (by decide)
  · exact absurd minus (by decide)
  · exact absurd line (by decide)
  · exact digit rfl

theorem decode_utf8 (text : String) : decode (utf8 text) = some text := by
  have bytes : (⟨(utf8 text).toArray⟩ : ByteArray) = text.toByteArray := rfl
  rw [decode, bytes, String.fromUTF8?, dif_pos text.isValidUTF8]
  rfl

theorem hexEncode_ascii (bytes : List UInt8) : ∀ c ∈ (hexEncode bytes).toList, c.toNat < 128 := by
  have digits : ∀ n < 16, (hexDigit n).toNat < 128 := by decide
  intro c member
  rw [hexEncode, String.toList_ofList, List.mem_flatMap] at member
  obtain ⟨b, _, member⟩ := member
  have byte := UInt8.toNat_lt b
  rcases List.mem_cons.mp member with rfl | member
  · exact digits _ (by omega)
  · obtain rfl := List.mem_singleton.mp member
    exact digits _ (by omega)

theorem compareDigest_hex (bytes : List UInt8) (signature : String) :
    compareDigest ("v0=" ++ hexEncode bytes) signature = some true ↔
      signature = "v0=" ++ hexEncode bytes := by
  have plain : isAscii ("v0=" ++ hexEncode bytes) = true := by
    rw [isAscii, List.all_eq_true, String.toList_append]
    intro c member
    rw [decide_eq_true_eq]
    have version : ∀ letter ∈ ['v', '0', '='], letter.toNat < 128 := by simp
    rcases List.mem_append.mp member with first | later
    · exact version c first
    · exact hexEncode_ascii bytes c later
  unfold compareDigest
  rw [plain, Bool.true_and]
  constructor
  · intro same
    split_ifs at same
    exact (beq_iff_eq.mp (Option.some.inj same)).symm
  · rintro rfl
    rw [if_pos plain, beq_self_eq_true]

end Texts

section Acceptance

variable {hmacSha256 : List UInt8 → List UInt8 → List UInt8} {mode : Overflow}
variable {adminApiKeyHash secret timestamp body signature : String} {now : ℚ} {ts : ℤ}

/-- The signature of a timestamp and a body. -/
def expected (hmacSha256 : List UInt8 → List UInt8 → List UInt8) (secret timestamp body : String) :
    String :=
  "v0=" ++ computeHmacHex hmacSha256 secret ("v0:" ++ timestamp ++ ":" ++ body)

theorem expected_ne_empty : expected hmacSha256 secret timestamp body ≠ "" := by
  intro empty
  have texts := congrArg String.toList empty
  rw [expected, String.toList_append] at texts
  cases texts

theorem gateAccepts_iff (configured : secret ≠ "") :
    GateAccepts hmacSha256 secret now timestamp body signature ↔
      ∃ ts, timestamp ≠ "" ∧ int timestamp = some ts ∧ overflows ts = false ∧ |now - ts| ≤ 300 ∧
        signature = expected hmacSha256 secret timestamp body := by
  unfold GateAccepts verifySlackSignature
  dsimp only
  rw [if_neg configured]
  simp only [decode_utf8]
  constructor
  · intro accepted
    split_ifs at accepted with missing
    obtain ⟨given, _⟩ := not_or.mp missing
    cases read : int timestamp with
    | none =>
      rw [read] at accepted
      cases accepted
    | some ts =>
      rw [read] at accepted
      dsimp only at accepted
      split_ifs at accepted with huge late
      refine ⟨ts, given, rfl, Bool.eq_false_iff.mpr huge, not_lt.mp late, ?_⟩
      split at accepted
      · cases accepted
      · rename_i same
        exact (compareDigest_hex _ _).mp same
      · cases accepted
  · rintro ⟨ts, given, read, small, near, rfl⟩
    have present : ¬(timestamp = "" ∨ expected hmacSha256 secret timestamp body = "") :=
      not_or.mpr ⟨given, expected_ne_empty⟩
    have same := (compareDigest_hex (hmacSha256 (utf8 secret)
      (utf8 ("v0:" ++ timestamp ++ ":" ++ body))) _).mpr rfl
    rw [if_neg present, read]
    dsimp only
    rw [if_neg (Bool.eq_false_iff.mp small), if_neg (not_lt.mpr near)]
    show (match compareDigest (expected hmacSha256 secret timestamp body)
      (expected hmacSha256 secret timestamp body) with
      | none => Verdict.raised | some true => .accepted | some false => .refused) = .accepted
    have equal : compareDigest (expected hmacSha256 secret timestamp body)
      (expected hmacSha256 secret timestamp body) = some true := same
    rw [equal]

theorem engineAccepts_iff :
    EngineAccepts hmacSha256 mode adminApiKeyHash secret now timestamp body signature ↔
      (service adminApiKeyHash secret).isWithinReplayWindow mode ⌊now⌋ timestamp = .ok (.ok true) ∧
        signature = expected hmacSha256 secret timestamp body := by
  constructor
  · intro accepted
    obtain ⟨window, other, configured, same⟩ := verifySlackRequest_accepted accepted
    obtain rfl := Option.some.inj configured
    exact ⟨window, same⟩
  · rintro ⟨window, rfl⟩
    unfold EngineAccepts SecurityService.verifySlackRequest
    rw [window, ok_bind]
    show Except.ok (Except.ok (constantTimeEq (expected hmacSha256 secret timestamp body)
      (expected hmacSha256 secret timestamp body))) = _
    rw [constantTimeEq_iff.mpr rfl]

/-- What is near the clock is near its whole seconds. -/
theorem near_floor (near : |now - ts| ≤ 300) : |⌊now⌋ - ts| ≤ 300 := by
  obtain ⟨low, high⟩ := abs_le.mp near
  have before : ts - 300 ≤ ⌊now⌋ := by
    rw [Int.le_floor]
    push_cast
    linarith
  have after : ⌊now⌋ ≤ ts + 300 := by
    have floor := Int.floor_le now
    have bound : (⌊now⌋ : ℚ) ≤ ((ts + 300 : ℤ) : ℚ) := by
      push_cast
      linarith
    exact_mod_cast bound
  rw [abs_le]
  omega

theorem window_of_near (parsed : parseI64 timestamp = some ts) (near : |now - ts| ≤ 300) :
    (service adminApiKeyHash secret).isWithinReplayWindow mode ⌊now⌋ timestamp =
      .ok (.ok true) := by
  have close := near_floor near
  rw [ReplayWindow.isWithinReplayWindow_parsed parsed, distance_near (by omega)]
  show Except.ok (Except.ok (decide (|⌊now⌋ - ts| ≤ 300))) = _
  rw [decide_eq_true close]

/-- Either way an accepted timestamp has no separator in it, and the signature is as expected. -/
theorem accepted_parts (configured : secret ≠ "")
    (accepted : EngineAccepts hmacSha256 mode adminApiKeyHash secret now timestamp body signature ∨
      GateAccepts hmacSha256 secret now timestamp body signature) :
    ':' ∉ timestamp.toList ∧ signature = expected hmacSha256 secret timestamp body := by
  rcases accepted with engine | gate
  · obtain ⟨window, same⟩ := engineAccepts_iff.mp engine
    obtain ⟨ts, _, _, parsed, _⟩ := isWithinReplayWindow_accepted window
    exact ⟨colon_not_mem parsed, same⟩
  · obtain ⟨ts, _, read, _, _, same⟩ := (gateAccepts_iff configured).mp gate
    exact ⟨int_colon read, same⟩

end Acceptance

/-- With a configured secret, and the engine's window set to the five minutes of the gate: what the
engine accepts the gate accepts unless the timestamp is too long or, to the fraction of a second,
too far from the clock; what the gate accepts the engine accepts unless the timestamp is not plainly
written; and a signature that either of them accepts, at whatever time, has one timestamp and one
body. -/
theorem slack_gates (hmacSha256 : List UInt8 → List UInt8 → List UInt8) (mode : Overflow)
    (adminApiKeyHash secret : String) (configured : secret ≠ "") (now : ℚ)
    (timestamp body signature : String) :
    (EngineAccepts hmacSha256 mode adminApiKeyHash secret now timestamp body signature →
      (GateAccepts hmacSha256 secret now timestamp body signature ↔
        digitCount timestamp ≤ intMaxStrDigits ∧
          ∃ ts, parseI64 timestamp = some ts ∧ |now - ts| ≤ 300)) ∧
    (GateAccepts hmacSha256 secret now timestamp body signature →
      (EngineAccepts hmacSha256 mode adminApiKeyHash secret now timestamp body signature ↔
        (parseI64 timestamp).isSome)) ∧
    ((∀ key, Function.Injective (hmacSha256 key)) →
      ∀ (now' : ℚ) (timestamp' body' : String),
        EngineAccepts hmacSha256 mode adminApiKeyHash secret now timestamp body signature ∨
          GateAccepts hmacSha256 secret now timestamp body signature →
        EngineAccepts hmacSha256 mode adminApiKeyHash secret now' timestamp' body' signature ∨
          GateAccepts hmacSha256 secret now' timestamp' body' signature →
        timestamp = timestamp' ∧ body = body') := by
  refine ⟨?_, ?_, ?_⟩
  · intro engine
    obtain ⟨window, same⟩ := engineAccepts_iff.mp engine
    obtain ⟨ts, _, _, parsed, _⟩ := isWithinReplayWindow_accepted window
    have read := int_of_parse parsed
    rw [gateAccepts_iff configured]
    constructor
    · rintro ⟨other, _, taken, _, near, _⟩
      rw [taken] at read
      split_ifs at read with long
      obtain rfl := Option.some.inj read
      exact ⟨not_lt.mp long, other, parsed, near⟩
    · rintro ⟨short, other, again, near⟩
      obtain rfl := Option.some.inj (parsed.symm.trans again)
      rw [if_neg (not_lt.mpr short)] at read
      refine ⟨ts, ?_, read, parseI64_small parsed, near, same⟩
      rintro rfl
      have unread : parseI64 "" = none := by decide
      rw [unread] at parsed
      cases parsed
  · intro gate
    obtain ⟨ts, _, read, _, near, same⟩ := (gateAccepts_iff configured).mp gate
    rw [engineAccepts_iff]
    constructor
    · rintro ⟨window, _⟩
      obtain ⟨_, _, _, parsed, _⟩ := isWithinReplayWindow_accepted window
      rw [parsed]
      rfl
    · intro plain
      obtain ⟨other, parsed⟩ := Option.isSome_iff_exists.mp plain
      have taken := int_of_parse parsed
      rw [read] at taken
      split_ifs at taken
      obtain rfl := Option.some.inj taken
      exact ⟨window_of_near parsed near, same⟩
  · intro message_injective now' timestamp' body' first second
    obtain ⟨apart, signed⟩ := accepted_parts configured first
    obtain ⟨apart', signed'⟩ := accepted_parts configured second
    have texts := congrArg String.toList
      (signature_binds (message_injective _) (signed.symm.trans signed'))
    simp only [String.toList_append, List.append_assoc, List.append_cancel_left_eq] at texts
    obtain ⟨stamps, bodies⟩ := separator_binds apart apart' texts
    exact ⟨String.toList_inj.mp stamps, String.toList_inj.mp bodies⟩

def sampleSignature : String :=
  "v0=b1b7819b91715c671a8726299c093c6dadf6dbf27d1d26e4d55e5e3d593a9766"

/-- Half a second behind the window the engine still accepts and the gate does not; the two accept a
minute behind the timestamp. -/
theorem slack_gates_sample :
    EngineAccepts sampleHmac .checked "" "slack-secret" (3400000601 / 2) "1700000000" "1:x"
        sampleSignature ∧
      ¬GateAccepts sampleHmac "slack-secret" (3400000601 / 2) "1700000000" "1:x" sampleSignature ∧
      GateAccepts sampleHmac "slack-secret" 1700000060 "1700000000" "1:x" sampleSignature := by
  have late : EngineAccepts sampleHmac .checked "" "slack-secret" (3400000601 / 2) "1700000000"
      "1:x" sampleSignature := by
    unfold EngineAccepts
    decide +kernel
  have parsed : parseI64 "1700000000" = some 1700000000 := by decide
  refine ⟨late, ?_, ?_⟩
  · rw [(slack_gates sampleHmac .checked "" "slack-secret" (by decide) _ _ _ _).1 late]
    rintro ⟨_, ts, read, near⟩
    obtain rfl := Option.some.inj (parsed.symm.trans read)
    norm_num at near
  · have early : EngineAccepts sampleHmac .checked "" "slack-secret" 1700000060 "1700000000" "1:x"
        sampleSignature := by
      unfold EngineAccepts
      decide +kernel
    rw [(slack_gates sampleHmac .checked "" "slack-secret" (by decide) _ _ _ _).1 early]
    refine ⟨by decide, 1700000000, parsed, ?_⟩
    norm_num

end BusinessOs.App.SlackGates
