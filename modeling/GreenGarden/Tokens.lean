/-
GreenGarden/Tokens.lean

Signing in (`core/security.py`, `core/cookies.py`, `features/auth`): signed
tokens in HttpOnly cookies, and no session on the server.

`TokenLibrary` is what comes from elsewhere: PyJWT under the server's key and
algorithm, and reading a UUID back from its text.  A token that was signed
here is decoded to what was put into it, from its `iat` to its `exp`, both in
whole seconds; nothing is said of other texts.

Each route takes the `admins` table as its SELECT sees it and the readings of
the clock it makes.  An answer is the result with the cookies it sets; a
failure sets none.  What only goes to the log is left out.
-/
import GreenGarden.Lockout
import GreenGarden.Knowledge

namespace GreenGarden

/-- The two kinds of tokens. -/
inductive TokenType where
  | access | refresh
  deriving DecidableEq

/-- The value in the claim `type`. -/
def TokenType.value : TokenType → Text
  | .access => "access".toList
  | .refresh => "refresh".toList

/-- The claims of a token; times are in seconds. -/
structure Claims where
  sub : Text
  type : Text
  iat : ℤ
  exp : ℤ
  jti : Text

/-- What `decode_token` looks at in a decoded token. -/
structure TokenPayload where
  sub : Option Text
  type : Option Text

/-- A moment within the lifetime of a token. -/
def Claims.Valid (c : Claims) (now : Instant) : Prop :=
  c.iat * 1000000 ≤ now ∧ now < c.exp * 1000000

instance (c : Claims) (now : Instant) : Decidable (c.Valid now) :=
  inferInstanceAs (Decidable (c.iat * 1000000 ≤ now ∧ now < c.exp * 1000000))

/-- `jwt.encode`, `jwt.decode` (`none` where it raises) and `uuid.UUID`. -/
structure TokenLibrary where
  encode : Claims → Text
  decode : Instant → Text → Option TokenPayload
  readUuid : Text → Option UUID
  encode_ne_nil : ∀ c, encode c ≠ []
  decode_encode : ∀ now c,
    decode now (encode c) = if c.Valid now then some ⟨some c.sub, some c.type⟩ else none
  readUuid_uuidText : ∀ id, readUuid (uuidText id) = some id

/-- The settings and libraries behind signing in. -/
structure AuthSite where
  tokens : TokenLibrary
  verifyPassword : Text → Text → Bool
  lower : Text → Text
  accessTokenExpireMinutes : ℤ
  refreshTokenExpireDays : ℤ
  authAccessCookieName : Text
  authRefreshCookieName : Text
  authCookiePath : Text
  authCookieDomain : Option Text
  authCookieSecure : Bool
  authCookieSamesite : Text

/-- Why a caller is turned away; both are a `401`. -/
inductive AuthError where
  | invalidCredentials
  | invalidToken
  deriving DecidableEq

namespace AuthSite

variable (site : AuthSite)

/-! ### Tokens -/

/-- How long a token lives, in microseconds. -/
def lifetime : TokenType → ℤ
  | .access => site.accessTokenExpireMinutes * 60 * 1000000
  | .refresh => site.refreshTokenExpireDays * 86400 * 1000000

/-- Datetimes among the claims lose their microseconds. -/
def claims (subject : UUID) (tokenType : TokenType) (now : Instant) (jti : Text) : Claims where
  sub := uuidText subject
  type := tokenType.value
  iat := now / 1000000
  exp := (now + site.lifetime tokenType) / 1000000
  jti := jti

/-- Create a signed JWT with minimal claims. -/
def createToken (subject : UUID) (tokenType : TokenType) (now : Instant) (jti : Text) : Text :=
  site.tokens.encode (site.claims subject tokenType now jti)

/-- The payload, unless the token is invalid, of another type or without subject. -/
def decodeToken (now : Instant) (token : Text) (expected : TokenType) : Option TokenPayload := do
  let payload ← site.tokens.decode now token
  if payload.type ≠ some expected.value then none
  else if payload.sub.getD [] = [] then none
  else some payload

/-! ### Admins -/

/-- Look an admin up by email; emails are stored normalized. -/
def getAdminByEmail (db : AdminDb) (email : Text) : Option (UUID × Admin) :=
  let normalized := normalizeEmail site.lower email
  db.admins.find? fun admin => admin.email = normalized

/-- Verify credentials for an active admin. -/
def authenticateAdmin (db : AdminDb) (email password : Text) :
    Except AuthError UUID :=
  match site.getAdminByEmail db email with
  | none => .error .invalidCredentials
  | some (id, admin) =>
      if !admin.isActive then .error .invalidCredentials
      else if !site.verifyPassword password admin.passwordHash then .error .invalidCredentials
      else .ok id

/-- The active admin that a token of the expected type names. -/
def resolveAdminFromToken (db : AdminDb) (now : Instant) (token : Text)
    (expected : TokenType) : Except AuthError UUID :=
  match (site.decodeToken now token expected).bind fun payload =>
      site.tokens.readUuid (payload.sub.getD []) with
  | none => .error .invalidToken
  | some id =>
      match db.admins.get id with
      | none => .error .invalidToken
      | some admin => if !admin.isActive then .error .invalidToken else .ok id

/-! ### Cookies -/

end AuthSite

/-- What tells a browser's cookies apart. -/
structure CookieKey where
  name : Text
  path : Text
  domain : Option Text
  deriving DecidableEq

/-- A `Set-Cookie` header; `maxAge` is in seconds. -/
structure SetCookie where
  key : CookieKey
  value : Text
  maxAge : ℤ
  httpOnly : Bool
  secure : Bool
  samesite : Text

namespace AuthSite

variable (site : AuthSite)

/-- What a browser tells a cookie of this name apart by. -/
def cookieKey (name : Text) : CookieKey := ⟨name, site.authCookiePath, site.authCookieDomain⟩

/-- A cookie for the site's path and domain, out of reach of scripts. -/
def setCookie (name value : Text) (maxAge : ℤ) : SetCookie :=
  ⟨site.cookieKey name, value, maxAge, true, site.authCookieSecure, site.authCookieSamesite⟩

/-- A cookie of no age is deleted. -/
def deleteCookie (name : Text) : SetCookie := site.setCookie name [] 0

/-- The cookie of an access token. -/
def setAccessCookie (accessToken : Text) : List SetCookie :=
  [site.setCookie site.authAccessCookieName accessToken (site.accessTokenExpireMinutes * 60)]

/-- The cookies of both tokens. -/
def setAuthCookies (accessToken refreshToken : Text) : List SetCookie :=
  site.setAccessCookie accessToken ++
    [site.setCookie site.authRefreshCookieName refreshToken (site.refreshTokenExpireDays * 86400)]

/-- Both cookies are deleted. -/
def clearAuthCookies : List SetCookie :=
  [site.deleteCookie site.authAccessCookieName, site.deleteCookie site.authRefreshCookieName]

/-! ### Routes -/

/-- The cookies of a request, by name. -/
abbrev Cookies := Text → Option Text

/-- What a route answers. -/
structure Answer where
  result : Except AuthError (Option UUID)
  cookies : List SetCookie

/-- A failure sets no cookies. -/
def Answer.failed (e : AuthError) : Answer := ⟨.error e, []⟩

/-- `request.cookies.get(name)`, which must not be empty. -/
def cookie (cookies : Cookies) (name : Text) : Except AuthError Text :=
  match cookies name with
  | none | some [] => .error .invalidToken
  | some (c :: token) => .ok (c :: token)

/-- `POST /auth/login`, behind the limits. -/
def login (db : AdminDb) (email password : Text) (accessAt refreshAt : Instant)
    (accessJti refreshJti : Text) : Answer :=
  match site.authenticateAdmin db email password with
  | .error e => .failed e
  | .ok id =>
      ⟨.ok (some id),
        site.setAuthCookies (site.createToken id .access accessAt accessJti)
          (site.createToken id .refresh refreshAt refreshJti)⟩

/-- `POST /auth/refresh`. -/
def refresh (db : AdminDb) (cookies : Cookies) (decodedAt issuedAt : Instant)
    (jti : Text) : Answer :=
  match cookie cookies site.authRefreshCookieName with
  | .error e => .failed e
  | .ok token =>
      match site.resolveAdminFromToken db decodedAt token .refresh with
      | .error e => .failed e
      | .ok id => ⟨.ok none, site.setAccessCookie (site.createToken id .access issuedAt jti)⟩

/-- `POST /auth/logout`. -/
def logout : Answer := ⟨.ok none, site.clearAuthCookies⟩

/-- `get_current_admin`, which stands before every protected route. -/
def getCurrentAdmin (db : AdminDb) (cookies : Cookies) (now : Instant) :
    Except AuthError UUID :=
  match cookie cookies site.authAccessCookieName with
  | .error e => .error e
  | .ok token => site.resolveAdminFromToken db now token .access

/-- A protected route, up to the work it is for. -/
def protectedRoute (db : AdminDb) (cookies : Cookies) (now : Instant) : Answer :=
  ⟨(site.getCurrentAdmin db cookies now).map some, []⟩

/-! ### What a token of this server is good for -/

variable {site} {db : AdminDb} {id : UUID} {type expected : TokenType}
variable {now at_ : Instant} {jti : Text}

theorem TokenType.value_injective : Function.Injective TokenType.value := by
  intro a b h
  cases a <;> cases b <;> first | rfl | (exact absurd h (by decide))

theorem uuidText_ne_nil (id : UUID) : uuidText id ≠ [] := by
  intro h
  have hlength := congrArg List.length h
  simp [uuidText] at hlength

instance (db : AdminDb) (id : UUID) : Decidable (IsActiveAdmin db id) :=
  inferInstanceAs (Decidable (∃ admin ∈ db.admins.get id, admin.isActive = true))

/-- When a token issued at `at_` is good. -/
def GoodAt (site : AuthSite) (type : TokenType) (at_ now : Instant) : Prop :=
  at_ / 1000000 * 1000000 ≤ now ∧ now < (at_ + site.lifetime type) / 1000000 * 1000000

instance (site : AuthSite) (type : TokenType) (at_ now : Instant) :
    Decidable (site.GoodAt type at_ now) :=
  inferInstanceAs (Decidable (_ ∧ _))

theorem decode_createToken :
    site.decodeToken now (site.createToken id type at_ jti) expected =
      if type = expected ∧ site.GoodAt type at_ now then
        some ⟨some (uuidText id), some type.value⟩ else none := by
  have hsub : (some (uuidText id)).getD [] ≠ [] := uuidText_ne_nil id
  rw [decodeToken, createToken, site.tokens.decode_encode]
  by_cases hgood : site.GoodAt type at_ now
  · rw [if_pos (show (site.claims id type at_ jti).Valid now from hgood)]
    show (if some type.value ≠ some expected.value then none
      else if (some (uuidText id)).getD [] = [] then none else some _) = _
    by_cases htype : type = expected
    · subst htype
      rw [if_neg (fun h => h rfl), if_neg hsub, if_pos ⟨rfl, hgood⟩]
      rfl
    · have hne : some type.value ≠ some expected.value :=
        fun h => htype (TokenType.value_injective (Option.some.inj h))
      rw [if_pos hne, if_neg fun h => htype h.1]
  · rw [if_neg (show ¬ (site.claims id type at_ jti).Valid now from hgood),
      if_neg fun h => hgood h.2]
    rfl

/-- **A token of this server** names the admin it was issued for, while it is
good, for its own purpose, and as long as the admin is active. -/
theorem resolve_createToken :
    site.resolveAdminFromToken db now (site.createToken id type at_ jti) expected =
      if type = expected ∧ site.GoodAt type at_ now ∧ IsActiveAdmin db id then .ok id
      else .error .invalidToken := by
  rw [resolveAdminFromToken, decode_createToken]
  by_cases hgood : type = expected ∧ site.GoodAt type at_ now
  · rw [if_pos hgood]
    obtain ⟨rfl, htime⟩ := hgood
    show (match site.tokens.readUuid (uuidText id) with
      | none => _
      | some id => _) = _
    rw [site.tokens.readUuid_uuidText]
    show (match db.admins.get id with
      | none => _
      | some admin => _) = _
    rcases hget : db.admins.get id with - | admin
    · simp [IsActiveAdmin, hget]
    · rcases hactive : admin.isActive <;> simp [IsActiveAdmin, hget, hactive, htime]
  · rw [if_neg hgood, if_neg fun h => hgood ⟨h.1, h.2.1⟩]
    rfl

/-- A text that is not decoded names nobody. -/
theorem resolve_of_decode_none {token : Text} (h : site.tokens.decode now token = none) :
    site.resolveAdminFromToken db now token expected = .error .invalidToken := by
  rw [resolveAdminFromToken, decodeToken, h]
  rfl

theorem cookie_eq_ok {cookies : Cookies} {name token : Text} :
    cookie cookies name = .ok token ↔ cookies name = some token ∧ token ≠ [] := by
  rw [cookie]
  split
  · simp [*]
  · rename_i h
    rw [h]
    constructor
    · intro h
      cases h
    · rintro ⟨h, hne⟩
      exact absurd (Option.some.inj h).symm hne
  · rename_i c text h
    rw [h]
    constructor
    · intro h
      cases h
      exact ⟨rfl, List.cons_ne_nil _ _⟩
    · rintro ⟨h, -⟩
      rw [Option.some.inj h]

theorem createToken_ne_nil : site.createToken id type at_ jti ≠ [] := site.tokens.encode_ne_nil _

end AuthSite

/-! ### A token library to try things with -/

/-- A text with its end marked. -/
def marked (text : Text) : Text := text.flatMap (fun c => ['x', c]) ++ ['.']

theorem marked_cons (c : Char) (text : Text) : marked (c :: text) = 'x' :: c :: marked text := by
  simp [marked]

theorem marked_append_inj {text text' rest rest' : Text}
    (h : marked text ++ rest = marked text' ++ rest') : text = text' ∧ rest = rest' := by
  induction text generalizing text' with
  | nil =>
    cases text' with
    | nil => exact ⟨rfl, (List.cons.inj h).2⟩
    | cons c text' =>
      rw [marked_cons] at h
      exact absurd (List.cons.inj h).1 (by decide)
  | cons c text ih =>
    rw [marked_cons] at h
    cases text' with
    | nil => exact absurd (List.cons.inj h).1 (by decide)
    | cons c' text' =>
      rw [marked_cons] at h
      obtain ⟨hc, htail⟩ := List.cons.inj (List.cons.inj h).2
      obtain ⟨rfl, hrest⟩ := ih htail
      obtain rfl := hc
      exact ⟨rfl, hrest⟩

/-- A number as so many digits. -/
def tally (n : ℤ) : Text := List.replicate (Equiv.intEquivNat n) '1'

theorem tally_injective : Function.Injective tally := by
  intro m n h
  have hlength := congrArg List.length h
  rw [tally, tally, List.length_replicate, List.length_replicate] at hlength
  exact Equiv.intEquivNat.injective hlength

/-- Claims in clear, nothing signed. -/
def plainToken (c : Claims) : Text :=
  marked c.sub ++ (marked c.type ++ (marked (tally c.iat) ++ (marked (tally c.exp) ++ c.jti)))

theorem plainToken_injective : Function.Injective plainToken := by
  intro c c' h
  obtain ⟨hsub, h⟩ := marked_append_inj h
  obtain ⟨htype, h⟩ := marked_append_inj h
  obtain ⟨hiat, h⟩ := marked_append_inj h
  obtain ⟨hexp, hjti⟩ := marked_append_inj h
  cases c
  cases c'
  obtain rfl : _ = _ := hsub
  obtain rfl : _ = _ := htype
  obtain rfl := tally_injective hiat
  obtain rfl := tally_injective hexp
  obtain rfl : _ = _ := hjti
  rfl

/-- Tokens that are the claims themselves, under an injective code. -/
noncomputable def plainTokens : TokenLibrary where
  encode := plainToken
  decode now token := (Function.partialInv plainToken token).bind fun c =>
    if c.Valid now then some ⟨some c.sub, some c.type⟩ else none
  readUuid := Function.partialInv uuidText
  encode_ne_nil c h := by
    have hlength := congrArg List.length h
    simp [plainToken, marked] at hlength
  decode_encode now c := by
    rw [Function.partialInv_left plainToken_injective]
    rfl
  readUuid_uuidText := Function.partialInv_left uuidText_injective

/-- The default settings. -/
noncomputable def plainSite : AuthSite where
  tokens := plainTokens
  verifyPassword password hash := password == hash
  lower := id
  accessTokenExpireMinutes := 30
  refreshTokenExpireDays := 7
  authAccessCookieName := "gg_access_token".toList
  authRefreshCookieName := "gg_refresh_token".toList
  authCookiePath := "/".toList
  authCookieDomain := none
  authCookieSecure := false
  authCookieSamesite := "lax".toList

/-- One admin, whose hash is the password. -/
def oneAdmin : AdminDb where
  admins := Table.empty.insert 1 ⟨"An".toList, "an@shop.vn".toList, "secret12".toList, true⟩

end GreenGarden
