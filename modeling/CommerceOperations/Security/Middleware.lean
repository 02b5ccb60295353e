/-
  The security middleware: authentication by API key, roles, and the rate limit.

  `dispatch` is the one entry point: it answers a request from the settings, the request and the
  buckets of the rate limit, and returns the buckets as they are afterwards.  The buckets are the
  only state, in memory and under one lock, so a sequence of requests is a fold over `dispatch`.

  The clock is monotonic.  Its readings are rationals here.  To take the window, a whole number of
  seconds, off a reading as large loses nothing in floating point either; off a smaller one it
  leaves a negative boundary, which no reading reaches.
-/
import Mathlib.Data.List.Infix
import CommerceOperations.Persistence.Session
import CommerceOperations.RateLimit.SlidingWindow

namespace CommerceOperations

/-- A reading of `time.monotonic`. -/
abbrev ClockTime := Rat

/-- What the middleware reads of the settings.  The two bounds are those the settings are validated
    with, so a limit of nothing cannot be configured. -/
structure SecuritySettings where
  apiAuthEnabled : Bool
  isProduction : Bool
  apiKeys : List (String × String)
  apiRoles : List (String × List String)
  rateLimitRequests : Nat
  rateLimitWindowSeconds : Nat
  rateLimitRequests_pos : 1 ≤ rateLimitRequests
  rateLimitWindowSeconds_pos : 1 ≤ rateLimitWindowSeconds

/-- What it reads of a request; `presented` is the `X-API-Key` header, empty if there is none, and
    `client` the host of the client address. -/
structure Request where
  path : String
  method : String
  presented : String
  client : Option String

/-- `self._requests`: for every key the times of the requests counted under it.  A `defaultdict` of
    empty queues is a function. -/
abbrev Buckets := String → List ClockTime

/-- What `dispatch` does with a request. -/
inductive Answer where
  /-- it is passed on, as a request of `principal` -/
  | passed (principal : Option String) (roles : List String)
  | denied (status : Nat) (detail : String) (headers : List (String × String))
  deriving DecidableEq

namespace SecurityMiddleware

/-- `_authenticate`: the first identity whose key has the digest of the one presented, with its
    roles.  An empty key authenticates nobody. -/
def authenticate [Digests] (settings : SecuritySettings) (request : Request) :
    Option String × List String :=
  if request.presented = "" then (none, [])
  else
    match settings.apiKeys.find? fun key =>
      Digests.sha256 request.presented = Digests.sha256 key.2 with
    | some (identity, _) => (some identity, (settings.apiRoles.lookup identity).getD [])
    | none => (none, [])

/-- `_authorized`: an administrator may do anything; the metrics are for administrators; reading is
    for all three roles; deciding an approval is for approvers; everything else is for operators. -/
def authorized (request : Request) (roles : List String) : Bool :=
  if "admin" ∈ roles then true
  else if request.path = "/metrics" then false
  else if request.method ∈ ["GET", "HEAD", "OPTIONS"] then
    roles.any fun role => role ∈ ["viewer", "operator", "approver"]
  else if "/approvals/".toList <:+: request.path.toList ∧
      ("/approve".toList <:+ request.path.toList ∨ "/reject".toList <:+ request.path.toList) then
    "approver" ∈ roles
  else "operator" ∈ roles

/-- `_within_limit`, at the time `now`: drop what has left the window, then count.  A refused
    request is not counted. -/
def withinLimit (settings : SecuritySettings) (key : String) (now : ClockTime)
    (requests : Buckets) : Bool × Buckets :=
  let boundary := now - settings.rateLimitWindowSeconds
  let bucket := SlidingWindow.prune boundary (requests key)
  if settings.rateLimitRequests ≤ bucket.length then (false, Function.update requests key bucket)
  else (true, Function.update requests key (bucket ++ [now]))

/-- `identity or request.client.host if request.client else "unknown"`: the conditional binds last,
    and an empty identity is none.  So the identity is looked at only where there is a client
    address. -/
def bucketKey (identity : Option String) (client : Option String) : String :=
  match client with
  | some host => if identity.getD "" ≠ "" then identity.getD "" else host
  | none => "unknown"

/-- `dispatch`, at the time `now`: the two probes pass at once, then authentication, authorization
    and the rate limit, in this order.  A request that is turned away for its key or its roles is
    not counted. -/
def dispatch [Digests] (settings : SecuritySettings) (request : Request) (now : ClockTime)
    (requests : Buckets) : Answer × Buckets :=
  if request.path ∈ ["/health", "/ready"] then (.passed none [], requests)
  else
    let (identity, roles) := authenticate settings request
    let authRequired := settings.apiAuthEnabled || settings.isProduction
    if authRequired ∧ identity = none then (.denied 401 "Authentication required" [], requests)
    else if authRequired ∧ ¬authorized request roles then
      (.denied 403 "Insufficient permissions" [], requests)
    else
      let (within, requests) := withinLimit settings (bucketKey identity request.client) now requests
      if within then
        (.passed (some (if identity.getD "" ≠ "" then identity.getD "" else "anonymous")) roles,
          requests)
      else (.denied 429 "Rate limit exceeded" [("Retry-After", "1")], requests)

end SecurityMiddleware

end CommerceOperations
