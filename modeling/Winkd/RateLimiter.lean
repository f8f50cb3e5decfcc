import Mathlib.Logic.Function.Basic
import Mathlib.Data.Nat.Notation

/-!
# The rate limiter

`ratelimit.rs`: a window for each address, opened by the first request after the
last one ran out, and a count of the requests permitted in it.  Instants are
microseconds.
-/

namespace Winkd.Server

/-- An address, as `extract_ip` gives it. -/
abbrev IpAddr : Type := String

namespace RateLimiter

structure Entry where
  count : ℕ
  windowStart : ℕ
  deriving DecidableEq

end RateLimiter

structure RateLimiter where
  entries : IpAddr → Option RateLimiter.Entry
  limit : ℕ
  window : ℕ

namespace RateLimiter

/-- `RateLimiter::new(limit, window_secs)`. -/
def new (limit windowSecs : ℕ) : RateLimiter := ⟨fun _ => none, limit, windowSecs * 1000000⟩

/-- `RateLimiter::check` at the instant `now`: whether the request is permitted, and
the limiter afterwards. -/
def check (l : RateLimiter) (now : ℕ) (ip : IpAddr) : Bool × RateLimiter :=
  let entry := (l.entries ip).getD ⟨0, now⟩
  let entry := if now - entry.windowStart ≥ l.window then ⟨0, now⟩ else entry
  if entry.count ≥ l.limit then (false, { l with entries := Function.update l.entries ip (some entry) })
  else
    (true, { l with entries :=
      Function.update l.entries ip (some { entry with count := entry.count + 1 }) })

end RateLimiter
end Winkd.Server
