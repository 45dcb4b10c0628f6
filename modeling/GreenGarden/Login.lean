/-
GreenGarden/Login.lean

The login route and its limit on failures per email (`auth/router.py`,
`core/rate_limit.py`).

Logins run side by side and share the counters.  A login tests the limits one
by one, has the password checked, and counts a failure against every limit;
between any two of these others may go on, and time passes.  What the password
check says comes with the move, since it depends on the database and on the
password.  The storage is available, so only the parsing of the setting can
make the limit fail open.  The per-IP limit in front of the route is left out:
a login it turns away never starts.
-/
import GreenGarden.MovingWindow
import GreenGarden.Text

namespace GreenGarden

open RateLimit

/-- Key prefix, scope and digest of the email. -/
abbrev LoginKey := Text × Text × Text

/-- The settings, the storage and the library functions behind the limit; the
setting is `none` where `parse_many` raises. -/
structure LoginSite (σ : Type) where
  window : MovingWindow σ LoginKey
  enabled : Bool
  rateLimitLoginEmailFailures : Option (List RateLimitItem)
  lower : Text → Text
  sha256 : Text → Text

variable {ι σ : Type}

/-- The limits a login is held to. -/
def LoginSite.items (site : LoginSite σ) : List RateLimitItem :=
  if site.enabled then site.rateLimitLoginEmailFailures.getD [] else []

/-- Hashed so admin emails are never stored in the rate-limit backend. -/
def LoginSite.loginEmailIdentifiers (site : LoginSite σ) (email : Text) : LoginKey :=
  ("gg-rl".toList, "login-email".toList, site.sha256 (normalizeEmail site.lower email))

/-- Whole seconds until a moment, at least one. -/
def loginRetryAfter (now resetAt : ℕ) : ℕ := max 1 ((resetAt - now + 999999) / 1000000)

/-- How far a login has got. -/
inductive LoginPhase where
  | idle
  | testing (todo : List RateLimitItem)
  | checking (start : ℕ)
  | recording (start finish : ℕ) (todo : List RateLimitItem)
  | refused (start finish : ℕ)
  | rateLimited (retryAfter : ℕ)
  | loggedIn
  | broken
  deriving DecidableEq

/-- What the password check ends with: an admin, `InvalidCredentialsError` or
another exception. -/
inductive CheckOutcome where
  | authenticated
  | invalidCredentials
  | raised
  deriving DecidableEq

/-- Logins side by side, on one clock. -/
structure LoginState (ι σ : Type) where
  now : ℕ
  storage : σ
  phase : ι → LoginPhase

/-- Time passes, or a login goes on. -/
inductive LoginMove (ι : Type) where
  | tick (microseconds : ℕ)
  | step (i : ι) (outcome : CheckOutcome)

namespace LoginState

/-- A login goes over to a phase. -/
def enter [DecidableEq ι] (s : LoginState ι σ) (i : ι) (phase : LoginPhase) : LoginState ι σ :=
  { s with phase := Function.update s.phase i phase }

/-- Take a place of the limit for this email, if there is one. -/
def hit (site : LoginSite σ) (email : Text) (item : RateLimitItem) (s : LoginState ι σ) :
    LoginState ι σ :=
  { s with storage := site.window.hit s.storage item (site.loginEmailIdentifiers email) s.now }

/-- Where the password check leads. -/
def afterCheck (site : LoginSite σ) (start now : ℕ) : CheckOutcome → LoginPhase
  | .authenticated => .loggedIn
  | .invalidCredentials => .recording start now site.items
  | .raised => .broken

/-- One move; `emails` are the emails typed. -/
def next [DecidableEq ι] (site : LoginSite σ) (emails : ι → Text) (s : LoginState ι σ) :
    LoginMove ι → LoginState ι σ
  | .tick microseconds => { s with now := s.now + microseconds }
  | .step i outcome =>
      let key := site.loginEmailIdentifiers (emails i)
      match s.phase i with
      | .idle => s.enter i (.testing site.items)
      -- `ensure_login_email_allowed`
      | .testing (item :: todo) =>
          if site.window.test s.storage item key s.now then s.enter i (.testing todo)
          else s.enter i
            (.rateLimited (loginRetryAfter s.now (site.window.resetTime s.storage item key s.now)))
      -- `authenticate_admin`
      | .testing [] => s.enter i (.checking s.now)
      | .checking start => s.enter i (afterCheck site start s.now outcome)
      -- `record_login_email_failure`
      | .recording start finish (item :: todo) =>
          (s.hit site (emails i) item).enter i (.recording start finish todo)
      | .recording start finish [] => s.enter i (.refused start finish)
      | .refused _ _ | .rateLimited _ | .loggedIn | .broken => s

/-- Nobody has asked for anything yet; the counters are as they are. -/
def initial (now : ℕ) (storage : σ) : LoginState ι σ := ⟨now, storage, fun _ => .idle⟩

/-- The moves of a list, one after the other. -/
def run [DecidableEq ι] (site : LoginSite σ) (emails : ι → Text) (s : LoginState ι σ)
    (ms : List (LoginMove ι)) : LoginState ι σ := ms.foldl (next site emails) s

end LoginState

end GreenGarden
