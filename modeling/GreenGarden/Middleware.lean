/-
GreenGarden/Middleware.lean

The middleware that `main.py` puts around the routes: request ids and the
last-resort 500 (`core/request_context.py`), metrics (`core/metrics.py`), rate
limits (`core/rate_limit.py`) and security headers (`core/security_headers.py`).

Everything is stated of an arbitrary application inside, in the sense of
`GreenGarden/Asgi.lean`.  What an application inside notes (`AppMark`) and what
the metrics note (`Mark`) are apart, so no route can touch the gauges.  Times
are not modelled; of the histogram only the number of its observations.
-/
import GreenGarden.Asgi

namespace GreenGarden

open Asgi

/-- What of an ASGI scope is read. -/
structure HttpScope where
  /-- `scope["type"] == "http"`. -/
  isHttp : Bool
  path : Raw
  rootPath : Raw
  method : Raw
  headers : Headers

/-! ### Request ids -/

/-- The header with the id of a request. -/
def requestIdHeader : Raw := "x-request-id".toList

/-- `[A-Za-z0-9._-]`. -/
def isRequestIdChar (c : Char) : Bool := c.isAlphanum || c = '.' || c = '_' || c = '-'

/-- `_VALID_REQUEST_ID.match`, whose `$` also stands before a line feed at the
end. -/
def validRequestId (value : Raw) : Bool :=
  let line := if value.getLast? = some '\n' then value.dropLast else value
  decide (1 ≤ line.length ∧ line.length ≤ 128) && line.all isRequestIdChar

/-- The id that the caller supplied, or a fresh one. -/
def requestId (scope : HttpScope) (fresh : Raw) : Raw :=
  match scope.headers.find? fun e => e.1 = requestIdHeader with
  | none => fresh
  | some (_, incoming) => if validRequestId incoming then incoming else fresh

/-- What an application inside the middleware notes: the route that it
dispatched to, and exceptions that a handler answered. -/
inductive AppMark where
  | route (template : Raw)
  | exception (typeName handler : Raw)

/-- The body of the standard 500. -/
def internalErrorBody : Raw :=
  ("\x7b\"status_code\":500,\"error_code\":5000," ++
    "\"message\":\"Internal server error\",\"error\":null\x7d").toList

/-- The headers of a JSON response. -/
def jsonHeaders (body : Raw) : Headers :=
  [("content-length".toList, Nat.toDigits 10 body.length),
    ("content-type".toList, "application/json".toList)]

variable {ρ : Type}

/-- `unhandled_exception_handler` and its response; nothing of the exception
but the name of its type is kept. -/
def unhandledExceptionHandler (typeName : Raw) : Process AppMark ρ :=
  .mark (.exception typeName "unhandled".toList)
    (respond 500 (jsonHeaders internalErrorBody) internalErrorBody)

/-- `RequestContextMiddleware`. -/
def requestContext (scope : HttpScope) (fresh : Raw) (app : Process AppMark ρ) :
    Process AppMark ρ :=
  if !scope.isHttp then app
  else (app.guarded unhandledExceptionHandler false).amend fun headers =>
    headers ++ [(requestIdHeader, requestId scope fresh)]

/-! ### Rate limits -/

/-- What `async_check_limits` makes of a request. -/
inductive LimitCheck where
  /-- The limiter is off, or the route is exempt, or no headers are due. -/
  | passed
  | failed (e : Raised)
  | refused (headers : Headers) (body : Raw)
  | counted (inject : Headers → Headers)

/-- `RateLimitMiddleware`. -/
def rateLimit (scope : HttpScope) (check : LimitCheck) (app : Process AppMark ρ) :
    Process AppMark ρ :=
  if !scope.isHttp then app
  else
    match check with
    | .passed => app
    | .failed e => .raise e
    | .refused headers body =>
        .mark (.exception "RATE_LIMITED".toList "rate_limit".toList) (respond 429 headers body)
    | .counted inject => app.amend inject

/-! ### Metrics -/

/-- A mark of the application, or a step of the metrics. -/
inductive Mark where
  | app (mark : AppMark)
  | begin (method : Raw)
  | settle (method route : Raw) (status : ℕ) (streaming : Bool)

/-- Where the metrics are read. -/
def metricsPath : Raw := "/metrics".toList

/-- The label of a request that no route takes. -/
def unmatchedRoute : Raw := "__unmatched__".toList

/-- Paths that are not counted. -/
def excludedPaths : List Raw := [metricsPath, "/health".toList]

/-- The methods with a label of their own. -/
def knownMethods : List Raw :=
  ["GET".toList, "POST".toList, "PUT".toList, "PATCH".toList, "DELETE".toList, "HEAD".toList,
    "OPTIONS".toList]

/-- The label of a method; all unknown ones share one. -/
def methodLabel (scope : HttpScope) : Raw :=
  if scope.method ∈ knownMethods then scope.method else "OTHER".toList

/-- What is remembered of a request until it ends. -/
structure Watched where
  route : Option Raw
  statusCode : ℕ
  streaming : Bool
  deriving DecidableEq

/-- Nothing has been sent; a request that sends nothing counts as a 500. -/
def Watched.initial : Watched := ⟨none, 500, false⟩

/-- `send_wrapper`. -/
def Watched.see (w : Watched) : Message → Watched
  | .start status headers =>
      { w with
        statusCode := status
        streaming := w.streaming || headers.any fun e =>
          e.1.map Char.toLower = "content-type".toList &&
            "text/event-stream".toList.isPrefixOf e.2 }
  | _ => w

/-- `_route_template`. -/
def Watched.routeLabel (w : Watched) : Raw :=
  match w.route with
  | none => unmatchedRoute
  | some template => if template.isEmpty then unmatchedRoute else template

/-- The `finally` block. -/
def Watched.settle (method : Raw) (w : Watched) : Mark :=
  .settle method w.routeLabel w.statusCode w.streaming

/-- Follow a request to its end. -/
def watch (method : Raw) (w : Watched) : Process AppMark ρ → Process Mark ρ
  | .ret => .mark (w.settle method) .ret
  | .raise e => .mark (w.settle method) (.raise e)
  | .send m next => .send m fun r => watch method (w.see m) (next r)
  | .receive next => .receive fun x => watch method w (next x)
  | .mark (.route template) next =>
      .mark (.app (.route template)) (watch method { w with route := some template } next)
  | .mark (.exception typeName handler) next =>
      .mark (.app (.exception typeName handler)) (watch method w next)

/-- Whether the request is counted. -/
def HttpScope.counted (scope : HttpScope) : Bool :=
  scope.isHttp && !excludedPaths.contains scope.path

/-- `PrometheusMiddleware`. -/
def prometheus (scope : HttpScope) (app : Process AppMark ρ) : Process Mark ρ :=
  if scope.counted then
    .mark (.begin (methodLabel scope)) (watch (methodLabel scope) .initial app)
  else app.mapMark .app

/-- The labelled series of the metrics. -/
inductive Series where
  | inProgress (method : Raw)
  | requests (method route : Raw) (status : ℕ)
  | durations (method route : Raw)
  | exceptions (typeName handler : Raw)
  deriving DecidableEq

/-- What a mark adds to the series. -/
def Mark.adds : Mark → Series → ℤ
  | .begin method, series => if series = .inProgress method then 1 else 0
  | .settle method route status streaming, series =>
      if series = .inProgress method then -1
      else if series = .requests method route status then 1
      else if series = .durations method route ∧ streaming = false then 1
      else 0
  | .app (.exception typeName handler), series =>
      if series = .exceptions typeName handler then 1 else 0
  | .app (.route _), _ => 0

/-! ### Security headers -/

/-- `MutableHeaders.setdefault`. -/
def setDefault (name value : Raw) (headers : Headers) : Headers :=
  let key := name.map Char.toLower
  if headers.any fun e => e.1 = key then headers else headers ++ [(key, value)]

/-- The policy of the API. -/
def apiCsp : Raw :=
  "default-src 'none'; frame-ancestors 'none'; base-uri 'none'; form-action 'none'".toList

/-- The policy of the documentation pages. -/
def docsCsp : Raw := List.intercalate "; ".toList
  ["default-src 'none'".toList,
    "script-src 'self' 'unsafe-inline' https://cdn.jsdelivr.net".toList,
    "style-src 'self' 'unsafe-inline' https://cdn.jsdelivr.net https://fonts.googleapis.com".toList,
    "font-src https://fonts.gstatic.com".toList,
    "img-src 'self' data: https://fastapi.tiangolo.com https://cdn.jsdelivr.net".toList,
    "connect-src 'self'".toList,
    "worker-src 'self' blob:".toList,
    "frame-ancestors 'none'".toList,
    "base-uri 'self'".toList,
    "form-action 'self'".toList]

/-- The documentation pages. -/
def docsPaths : List Raw := ["/docs".toList, "/docs/oauth2-redirect".toList, "/redoc".toList]

/-- The headers of every response. -/
def baseHeaders : Headers :=
  [("X-Content-Type-Options".toList, "nosniff".toList), ("X-Frame-Options".toList, "DENY".toList),
    ("Referrer-Policy".toList, "no-referrer".toList),
    ("Cross-Origin-Resource-Policy".toList, "same-origin".toList)]

/-- `str.removeprefix`. -/
def removePrefix (start text : Raw) : Raw :=
  if start.isPrefixOf text then text.drop start.length else text

/-- The policy of a path. -/
def contentSecurityPolicy (scope : HttpScope) : Raw :=
  if docsPaths.contains (removePrefix scope.rootPath scope.path) then docsCsp else apiCsp

/-- The headers that every response gets. -/
def securityHeaders (scope : HttpScope) : Headers :=
  baseHeaders ++ [("Content-Security-Policy".toList, contentSecurityPolicy scope)]

/-- The security headers, except those that are there already. -/
def addSecurityHeaders (scope : HttpScope) (headers : Headers) : Headers :=
  (securityHeaders scope).foldl (fun headers e => setDefault e.1 e.2 headers) headers

/-- `SecurityHeadersMiddleware`. -/
def secured {μ : Type} (scope : HttpScope) (app : Process μ ρ) : Process μ ρ :=
  if !scope.isHttp then app else app.amend (addSecurityHeaders scope)

/-! ### What stands around a route -/

/-- The middleware between CORS and the routes. -/
def innerStack (scope : HttpScope) (fresh : Raw) (check : LimitCheck) (app : Process AppMark ρ) :
    Process Mark ρ :=
  prometheus scope (requestContext scope fresh (rateLimit scope check app))

/-! ### What the metrics leave of a run -/

/-- What an application notes, as the metrics hand it on. -/
def liftAct : Act AppMark ρ → Act Mark ρ
  | .sent m failure => .sent m failure
  | .received x => .received x
  | .marked e => .marked (.app e)

/-- What is remembered after one act. -/
def Watched.after (w : Watched) : Act AppMark ρ → Watched
  | .sent m _ => w.see m
  | .marked (.route template) => { w with route := some template }
  | _ => w

/-- What has been seen after all of these acts. -/
def Watched.afterAll (w : Watched) (acts : List (Act AppMark ρ)) : Watched :=
  acts.foldl Watched.after w

theorem marks_lift (acts : List (Act AppMark ρ)) :
    marks (acts.map liftAct) = (marks acts).map Mark.app := by
  induction acts with
  | nil => rfl
  | cons a acts ih =>
    cases a with
    | sent m failure => exact ih
    | received x => exact ih
    | marked e =>
      show Mark.app e :: marks (acts.map liftAct) = _
      rw [ih]
      rfl

/-- Outside the metrics an application ends as it does inside. -/
theorem ended_mapMark {μ ν : Type} (f : μ → ν) (p : Process μ ρ) :
    (p.mapMark f).ended = p.ended := by
  cases p <;> rfl

theorem advance_mapMark (p : Process AppMark ρ) (r : Reply ρ) :
    (p.mapMark Mark.app).advance r =
      (p.advance r).map fun e => (liftAct e.1, e.2.mapMark Mark.app) := by
  cases p with
  | ret => rfl
  | raise e => rfl
  | send m next => cases r <;> rfl
  | receive next => cases r <;> rfl
  | mark e next => rfl

theorem run_mapMark (p : Process AppMark ρ) (rs : List (Reply ρ)) :
    (p.mapMark Mark.app).run rs
      = ((p.run rs).1.map liftAct, (p.run rs).2.mapMark Mark.app) := by
  induction rs generalizing p with
  | nil => simp
  | cons r rs ih =>
    have hstep := advance_mapMark p r
    rcases h : p.advance r with - | ⟨a, q⟩
    · rw [h] at hstep
      rw [Process.run_cons_none hstep, Process.run_cons_none h, ih]
    · rw [h] at hstep
      rw [Process.run_cons_some hstep, Process.run_cons_some h, ih]
      rfl

/-- Until it ends, a request that is watched goes on as it would anyway. -/
theorem advance_watch {method : Raw} {w : Watched} {p : Process AppMark ρ} (h : p.ended = false)
    (r : Reply ρ) : (watch method w p).advance r =
      (p.advance r).map fun e => (liftAct e.1, watch method (w.after e.1) e.2) := by
  cases p with
  | ret => cases h
  | raise e => cases h
  | send m next => cases r <;> rfl
  | receive next => cases r <;> rfl
  | mark e next => cases e <;> rfl

theorem watch_of_ended {method : Raw} {w : Watched} {p : Process AppMark ρ}
    (h : p.ended = true) :
    watch method w p = .mark (w.settle method) (p.mapMark Mark.app) := by
  cases p with
  | ret => rfl
  | raise e => rfl
  | send m next => cases h
  | receive next => cases h
  | mark e next => cases h

/-- **A watched run** is the run, and after its end, however it ended, one mark
that settles it. -/
theorem run_watch (method : Raw) (w : Watched) (p : Process AppMark ρ) (rs : List (Reply ρ)) :
    (watch method w p).run rs
        = ((p.run rs).1.map liftAct, watch method (w.afterAll (p.run rs).1) (p.run rs).2) ∨
    (p.run rs).2.ended = true ∧ (watch method w p).run rs
        = ((p.run rs).1.map liftAct ++ [.marked ((w.afterAll (p.run rs).1).settle method)],
          (p.run rs).2.mapMark Mark.app) := by
  induction rs generalizing p w with
  | nil =>
    refine .inl ?_
    simp [Watched.afterAll]
  | cons r rs ih =>
    rcases hend : p.ended with - | -
    · have hstep : (watch method w p).advance r =
          (p.advance r).map fun e => (liftAct e.1, watch method (w.after e.1) e.2) :=
        advance_watch hend r
      rcases h : p.advance r with - | ⟨a, q⟩
      · rw [h] at hstep
        rw [Process.run_cons_none hstep, Process.run_cons_none h]
        exact ih w p
      · rw [h] at hstep
        rw [Process.run_cons_some hstep, Process.run_cons_some h]
        rcases ih (w.after a) q with heq | ⟨hended, heq⟩
        · refine .inl ?_
          dsimp only
          rw [heq]
          rfl
        · refine .inr ⟨hended, ?_⟩
          dsimp only
          rw [heq]
          rfl
    · refine .inr ?_
      rw [Process.run_of_ended hend, watch_of_ended hend]
      refine ⟨hend, ?_⟩
      rw [Process.run_cons_some rfl, Process.run_of_ended (by rw [ended_mapMark, hend])]
      rfl

end GreenGarden
