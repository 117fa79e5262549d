import AuthStartpack.Redis.Commands
import Mathlib.Algebra.Order.Floor.Div

/-!
Owns the two scripts of `RedisRateLimitStore` and the limiter that uses them,
with the options that configure it. A script runs at one millisecond of server
time on the key as it finds it; numbers of Lua are natural numbers and integers,
which the magnitudes that occur keep exact.
-/

namespace AuthStartpack

/-! ### Options -/

/-- A `TimeSpan`, in ticks of 100 nanoseconds. -/
abbrev TimeSpan : Type := ℕ

def TimeSpan.ofSeconds (seconds : ℕ) : TimeSpan := 10000000 * seconds

/-- A permit limit and a window within the ranges that validation admits. -/
structure WindowOptions (largestLimit : ℕ) (shortest longest : TimeSpan) where
  permitLimit : ℕ
  window : TimeSpan
  permitLimit_range : 1 ≤ permitLimit ∧ permitLimit ≤ largestLimit
  window_range : shortest ≤ window ∧ window ≤ longest

structure RateLimitOptions where
  authStrict : WindowOptions 10000 (.ofSeconds 1) (.ofSeconds 86400)
  emailSendingIp : WindowOptions 10000 (.ofSeconds 60) (.ofSeconds 604800)
  emailSendingAccount : WindowOptions 10000 (.ofSeconds 60) (.ofSeconds 604800)
  registration : WindowOptions 10000 (.ofSeconds 60) (.ofSeconds 604800)
  general : WindowOptions 1000000 (.ofSeconds 1) (.ofSeconds 86400)
  generalSegmentsPerWindow : ℕ
  generalSegmentsPerWindow_range : 1 ≤ generalSegmentsPerWindow ∧ generalSegmentsPerWindow ≤ 60

/-- The values of options that no configuration sets. -/
def RateLimitOptions.defaults : RateLimitOptions where
  authStrict := ⟨10, .ofSeconds 60, by decide, by decide⟩
  emailSendingIp := ⟨5, .ofSeconds 3600, by decide, by decide⟩
  emailSendingAccount := ⟨3, .ofSeconds 3600, by decide, by decide⟩
  registration := ⟨5, .ofSeconds 3600, by decide, by decide⟩
  general := ⟨100, .ofSeconds 60, by decide, by decide⟩
  generalSegmentsPerWindow := 6
  generalSegmentsPerWindow_range := by decide

namespace RedisRateLimitStore

/-! ### Scripts -/

/-- What a script returns. -/
structure Reply where
  acquired : ℤ
  remaining : ℤ
  retry : ℤ
deriving DecidableEq, Repr

def fixedWindowScript (permits limit window now : ℕ) (key : Option (Redis.Key ℕ)) :
    Option (Redis.Key ℕ) × Reply :=
  let current := (Redis.get key).getD 0
  let acquired := (permits = 0 ∧ current < limit) ∨ (0 < permits ∧ current + permits ≤ limit)
  let counted : Option (Redis.Key ℕ) × ℕ :=
    if acquired ∧ 0 < permits then
      let key := Redis.incrBy permits key
      (if key.value = permits then Redis.pexpire now window (some key) else some key, key.value)
    else (key, current)
  let ttl := if Redis.pttl now counted.1 < 1 then (window : ℤ) else Redis.pttl now counted.1
  (counted.1, ⟨if acquired then 1 else 0, max 0 ((limit : ℤ) - counted.2),
    if acquired then 0 else ttl⟩)

/-- The variables of the loop over the fields of the hash. -/
structure Scan where
  key : Option (Redis.Key Redis.Hash)
  total : ℕ
  oldestSegment : ℕ

def Scan.visit (minimumSegment : ℤ) (scan : Scan) (entry : ℕ × ℕ) : Scan :=
  if (entry.1 : ℤ) < minimumSegment then { scan with key := Redis.hdel entry.1 scan.key }
  else
    { scan with
      total := scan.total + entry.2
      oldestSegment := if entry.1 < scan.oldestSegment then entry.1 else scan.oldestSegment }

def slidingWindowScript (permits limit window segments now : ℕ)
    (key : Option (Redis.Key Redis.Hash)) : Option (Redis.Key Redis.Hash) × Reply :=
  let segmentLength := window ⌈/⌉ segments
  let currentSegment := now / segmentLength
  let minimumSegment : ℤ := currentSegment - segments + 1
  let scan := (Redis.hgetall key).foldl (Scan.visit minimumSegment) ⟨key, 0, currentSegment⟩
  let acquired := (permits = 0 ∧ scan.total < limit) ∨ (0 < permits ∧ scan.total + permits ≤ limit)
  let counted : Option (Redis.Key Redis.Hash) × ℕ :=
    if acquired ∧ 0 < permits then
      (Redis.hincrby currentSegment permits scan.key, scan.total + permits)
    else (scan.key, scan.total)
  (Redis.pexpire now (window + segmentLength) counted.1,
    ⟨if acquired then 1 else 0, max 0 ((limit : ℤ) - counted.2),
      if acquired then 0 else max 1 (((scan.oldestSegment + segments) * segmentLength : ℕ) - now)⟩)

/-! ### Decisions -/

structure RedisRateLimitDecision where
  isAcquired : Bool
  remainingPermits : ℤ
  /-- In milliseconds. -/
  retryAfter : ℕ
deriving DecidableEq, Repr

def milliseconds (value : TimeSpan) : ℕ := max 1 (value ⌈/⌉ 10000)

def decision (reply : Reply) : RedisRateLimitDecision where
  isAcquired := reply.acquired = 1
  remainingPermits := reply.remaining
  retryAfter := (max 0 reply.retry).toNat

def acquireFixedWindowAsync (lag permitLimit permitCount : ℕ) (window : TimeSpan) (now : ℕ)
    (key : Option (Redis.Key ℕ)) : Option (Redis.Key ℕ) × RedisRateLimitDecision :=
  let result := fixedWindowScript permitCount permitLimit (milliseconds window) now
    (Redis.find lag now key)
  (result.1, decision result.2)

def acquireSlidingWindowAsync (lag permitLimit permitCount : ℕ) (window : TimeSpan)
    (segmentsPerWindow now : ℕ) (key : Option (Redis.Key Redis.Hash)) :
    Option (Redis.Key Redis.Hash) × RedisRateLimitDecision :=
  let result := slidingWindowScript permitCount permitLimit (milliseconds window)
    segmentsPerWindow now (Redis.find lag now key)
  (result.1, decision result.2)

end RedisRateLimitStore

end AuthStartpack
