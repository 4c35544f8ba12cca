/- Source: rust/src/rate_limit.rs (RequestGuard)
   digest: The guard that checks a rate limit, and a circuit breaker where one is named. -/

import BusinessOs.Core.RateLimit.Bucket
import BusinessOs.Core.RateLimit.Breaker

set_option autoImplicit false
set_option relaxedAutoImplicit false

namespace BusinessOs.Core.RateLimit.Guard

open BusinessOs.Lib.Chrono BusinessOs.Core.RateLimit.Bucket BusinessOs.Core.RateLimit.Breaker

structure RequestGuard where
  rateLimiter : RateLimiter
  circuitBreakers : AList fun _ : String => CircuitBreaker

/-- The error of the check that failed; the source returns its text. -/
inductive GuardError
  | rateLimit (error : RateLimitError)
  | circuit (error : CircuitBreakerError)
  deriving DecidableEq

def RequestGuard.new (rateConfig : BucketConfig) : RequestGuard := ⟨.new rateConfig, ∅⟩

section Methods

variable (self : RequestGuard)

/-- The rate limit first, then the breaker, which reads the clock again. -/
def RequestGuard.check (key : String) (circuitName : Option String) (now later : ℤ) :
    Except Panic (RequestGuard × Except GuardError Unit) := do
  let (rateLimiter, result) ← self.rateLimiter.check key now
  let self := { self with rateLimiter }
  match result with
  | .error error => pure (self, .error (.rateLimit error))
  | .ok () =>
    match circuitName.bind fun name => (self.circuitBreakers.lookup name).map (Prod.mk name) with
    | none => pure (self, .ok ())
    | some (name, breaker) =>
      let (breaker, result) ← breaker.allowRequest later
      let self := { self with circuitBreakers := self.circuitBreakers.insert name breaker }
      pure (self, result.mapError GuardError.circuit)

def RequestGuard.registerCircuit (name : String) (config : CircuitBreakerConfig) :
    RequestGuard :=
  { self with circuitBreakers := self.circuitBreakers.insert name (.new name config) }

def RequestGuard.recordSuccess (circuitName : String) : RequestGuard :=
  match self.circuitBreakers.lookup circuitName with
  | none => self
  | some breaker =>
    { self with
      circuitBreakers := self.circuitBreakers.insert circuitName breaker.recordSuccess }

def RequestGuard.recordFailure (circuitName : String) (failedAt openedAt : ℤ) : RequestGuard :=
  match self.circuitBreakers.lookup circuitName with
  | none => self
  | some breaker =>
    { self with
      circuitBreakers :=
        self.circuitBreakers.insert circuitName (breaker.recordFailure failedAt openedAt) }

end Methods

end BusinessOs.Core.RateLimit.Guard
