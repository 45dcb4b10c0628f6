/-
GreenGarden/Sessions.lean

Signed-in browsers, and what somebody else can do with a token.

The server keeps no sessions: what a browser may do is written in the cookies
it holds.  `Browsers` is that protocol, any number of browsers side by side,
each with a cookie jar; an answer may be lost on the way.  `Desk` is what it
is for: a table with one session for each browser, which a sign-in opens, a
refresh extends and a sign-out closes, and no token anywhere.  `answers_eq` is
the refinement: both give the same answers on every run.

Outside a browser anything may be presented.  `Unforged` says what a signature
is for: a text that the server decodes is one that it has issued.  Then a
request that is let through goes back to a password that was checked for the
same admin, at most one refresh before (`request_goes_back`).

The requests of one browser do not overlap; those of different browsers do.
-/
import GreenGarden.Tokens

namespace GreenGarden

/-! ### Cookie jars -/

/-- The cookies of a browser, with the moment up to which each is kept. -/
abbrev Jar := CookieKey → Option (Text × Instant)

namespace Jar

/-- No cookie. -/
def empty : Jar := fun _ => none

/-- A `Set-Cookie` header that arrives at `now`. -/
def store (jar : Jar) (now : Instant) (header : SetCookie) : Jar :=
  Function.update jar header.key
    (if header.maxAge ≤ 0 then none else some (header.value, now + header.maxAge * 1000000))

/-- The headers of a response, one after the other. -/
def storeAll (jar : Jar) (now : Instant) (headers : List SetCookie) : Jar :=
  headers.foldl (fun jar header => jar.store now header) jar

/-- The cookies that are sent at `now`. -/
def sent (site : AuthSite) (jar : Jar) (now : Instant) : AuthSite.Cookies := fun name =>
  (jar (site.cookieKey name)).bind fun entry => if now < entry.2 then some entry.1 else none

end Jar

/-! ### Browsers -/

/-- What a browser does, with the moment it sends the request, the table as
the request's SELECT sees it, the clock of the server, and the moment the
answer arrives, if it does. -/
inductive BrowserAction where
  | login (db : AdminDb) (email password : Text) (accessAt refreshAt : Instant)
      (accessJti refreshJti : Text)
  | refresh (db : AdminDb) (sentAt decodedAt issuedAt : Instant) (jti : Text)
  | logout
  | request (db : AdminDb) (sentAt now : Instant)

/-- A browser acts, and receives the answer at some time or never. -/
structure BrowserMove (ι : Type) where
  browser : ι
  action : BrowserAction
  receivedAt : Option Instant

variable {ι : Type} [DecidableEq ι]

/-- What the server answers to a browser with this jar. -/
def AuthSite.answer (site : AuthSite) (jar : Jar) : BrowserAction → AuthSite.Answer
  | .login db email password accessAt refreshAt accessJti refreshJti =>
      site.login db email password accessAt refreshAt accessJti refreshJti
  | .refresh db sentAt decodedAt issuedAt jti =>
      site.refresh db (jar.sent site sentAt) decodedAt issuedAt jti
  | .logout => site.logout
  | .request db sentAt now => site.protectedRoute db (jar.sent site sentAt) now

/-- The jars after a move. -/
def AuthSite.browse (site : AuthSite) (jars : ι → Jar) (move : BrowserMove ι) : ι → Jar :=
  match move.receivedAt with
  | none => jars
  | some now =>
      Function.update jars move.browser
        ((jars move.browser).storeAll now (site.answer (jars move.browser) move.action).cookies)

/-- What the server answers to the moves of a run, in their order. -/
def AuthSite.answers (site : AuthSite) (jars : ι → Jar) :
    List (BrowserMove ι) → List (Except AuthError (Option UUID))
  | [] => []
  | move :: moves =>
      (site.answer (jars move.browser) move.action).result ::
        site.answers (site.browse jars move) moves

/-! ### Sessions -/

/-- A right that lasts: it was given at `at_` and reached the browser at
`receivedAt`. -/
structure Grant where
  at_ : Instant
  receivedAt : Instant

/-- A grant that a request sent at `sentAt` and looked at at `now` may use. -/
def Grant.Good (site : AuthSite) (type : TokenType) (grant : Grant) (sentAt now : Instant) : Prop :=
  0 < site.lifetime type ∧ sentAt < grant.receivedAt + site.lifetime type ∧
    site.GoodAt type grant.at_ now

instance (site : AuthSite) (type : TokenType) (grant : Grant) (sentAt now : Instant) :
    Decidable (grant.Good site type sentAt now) :=
  inferInstanceAs (Decidable (_ ∧ _ ∧ _))

/-- What the server would keep of a browser that has signed in. -/
structure SignedIn where
  admin : UUID
  access : Grant
  refresh : Grant

/-- One session for each browser. -/
abbrev Desk (ι : Type) := ι → Option SignedIn

/-- The grant of a token type. -/
def SignedIn.grant (session : SignedIn) : TokenType → Grant
  | .access => session.access
  | .refresh => session.refresh

/-- The admin whose session may be used. -/
def SignedIn.user (site : AuthSite) (session : Option SignedIn) (db : AdminDb) (type : TokenType)
    (sentAt now : Instant) : Except AuthError UUID :=
  match session with
  | none => .error .invalidToken
  | some session =>
      if (session.grant type).Good site type sentAt now ∧ IsActiveAdmin db session.admin then
        .ok session.admin
      else .error .invalidToken

/-- What is answered to a browser with this session. -/
def SignedIn.answer (site : AuthSite) (session : Option SignedIn) :
    BrowserAction → Except AuthError (Option UUID)
  | .login db email password _ _ _ _ => (site.authenticateAdmin db email password).map some
  | .refresh db sentAt decodedAt _ _ =>
      (SignedIn.user site session db .refresh sentAt decodedAt).map fun _ => none
  | .logout => .ok none
  | .request db sentAt now => (SignedIn.user site session db .access sentAt now).map some

/-- The session after an answer that arrived at `now`. -/
def SignedIn.next (site : AuthSite) (session : Option SignedIn) (now : Instant) :
    BrowserAction → Option SignedIn
  | .login db email password accessAt refreshAt _ _ =>
      match site.authenticateAdmin db email password with
      | .error _ => session
      | .ok id => some ⟨id, ⟨accessAt, now⟩, ⟨refreshAt, now⟩⟩
  | .refresh db sentAt decodedAt issuedAt _ =>
      match SignedIn.user site session db .refresh sentAt decodedAt with
      | .error _ => session
      | .ok _ => session.map fun session => { session with access := ⟨issuedAt, now⟩ }
  | .logout => none
  | .request .. => session

/-- The sessions after a move. -/
def Desk.serve (site : AuthSite) (desk : Desk ι) (move : BrowserMove ι) : Desk ι :=
  match move.receivedAt with
  | none => desk
  | some now =>
      Function.update desk move.browser
        (SignedIn.next site (desk move.browser) now move.action)

/-- What is answered to the moves of a run. -/
def Desk.answers (site : AuthSite) (desk : Desk ι) :
    List (BrowserMove ι) → List (Except AuthError (Option UUID))
  | [] => []
  | move :: moves =>
      SignedIn.answer site (desk move.browser) move.action ::
        Desk.answers site (desk.serve site move) moves

/-! ### The jar of a session -/

variable {site : AuthSite}

/-- The cookie holds a token with this purpose, for this admin, given by this
grant. -/
def HoldsToken (site : AuthSite) (entry : Option (Text × Instant)) (id : UUID) (type : TokenType)
    (grant : Grant) : Prop :=
  ∃ jti, entry = if site.lifetime type ≤ 0 then none
    else some (site.createToken id type grant.at_ jti, grant.receivedAt + site.lifetime type)

/-- The jar is what the session has left in it. -/
def Keeps (site : AuthSite) (jar : Jar) : Option SignedIn → Prop
  | none => jar (site.cookieKey site.authAccessCookieName) = none ∧
      jar (site.cookieKey site.authRefreshCookieName) = none
  | some session =>
      HoldsToken site (jar (site.cookieKey site.authAccessCookieName)) session.admin .access
        session.access ∧
      HoldsToken site (jar (site.cookieKey site.authRefreshCookieName)) session.admin .refresh
        session.refresh

/-- Two names for two cookies. -/
def AuthSite.TwoCookies (site : AuthSite) : Prop :=
  site.authAccessCookieName ≠ site.authRefreshCookieName

/-- The name of the cookie for tokens with a purpose. -/
def AuthSite.cookieName (site : AuthSite) : TokenType → Text
  | .access => site.authAccessCookieName
  | .refresh => site.authRefreshCookieName

/-- Whom the cookies name, for a purpose. -/
def AuthSite.identify (site : AuthSite) (db : AdminDb) (cookies : AuthSite.Cookies)
    (type : TokenType) (now : Instant) : Except AuthError UUID :=
  match AuthSite.cookie cookies (site.cookieName type) with
  | .error e => .error e
  | .ok token => site.resolveAdminFromToken db now token type

theorem refresh_eq (db : AdminDb) (cookies : AuthSite.Cookies) (decodedAt issuedAt : Instant)
    (jti : Text) :
    site.refresh db cookies decodedAt issuedAt jti =
      match site.identify db cookies .refresh decodedAt with
      | .error e => AuthSite.Answer.failed e
      | .ok id => ⟨.ok none, site.setAccessCookie (site.createToken id .access issuedAt jti)⟩ := by
  have hname : site.cookieName .refresh = site.authRefreshCookieName := rfl
  rw [AuthSite.refresh, AuthSite.identify, hname]
  cases AuthSite.cookie cookies site.authRefreshCookieName <;> rfl

theorem AuthSite.TwoCookies.cookieKey_ne (h : site.TwoCookies) :
    site.cookieKey site.authAccessCookieName ≠ site.cookieKey site.authRefreshCookieName :=
  fun heq => h (congrArg CookieKey.name heq)

/-- A cookie that holds a token names its admin exactly as long as the grant
is good. -/
theorem identify_of_holds {jar : Jar} {id : UUID} {type : TokenType} {grant : Grant}
    (h : HoldsToken site (jar (site.cookieKey (site.cookieName type))) id type grant) (db : AdminDb)
    (sentAt now : Instant) :
    site.identify db (jar.sent site sentAt) type now =
      if grant.Good site type sentAt now ∧ IsActiveAdmin db id then .ok id
      else .error .invalidToken := by
  obtain ⟨jti, hentry⟩ := h
  -- the cookie is not sent
  have gone : jar.sent site sentAt (site.cookieName type) = none →
      ¬ (0 < site.lifetime type ∧ sentAt < grant.receivedAt + site.lifetime type) →
      site.identify db (jar.sent site sentAt) type now =
        if grant.Good site type sentAt now ∧ IsActiveAdmin db id then .ok id
        else .error .invalidToken := by
    intro hsent hnot
    rw [AuthSite.identify, AuthSite.cookie, hsent, if_neg fun h => hnot ⟨h.1.1, h.1.2.1⟩]
  by_cases hlife : site.lifetime type ≤ 0
  · rw [if_pos hlife] at hentry
    apply gone
    · rw [Jar.sent, hentry]
      rfl
    · exact fun h => absurd h.1 (not_lt.mpr hlife)
  rw [if_neg hlife] at hentry
  by_cases hsent : sentAt < grant.receivedAt + site.lifetime type
  · have hcookie : AuthSite.cookie (jar.sent site sentAt) (site.cookieName type)
        = .ok (site.createToken id type grant.at_ jti) := by
      rw [AuthSite.cookie_eq_ok, Jar.sent, hentry]
      exact ⟨if_pos hsent, AuthSite.createToken_ne_nil⟩
    rw [AuthSite.identify, hcookie]
    show site.resolveAdminFromToken db now _ type = _
    rw [AuthSite.resolve_createToken]
    have hgood : (type = type ∧ site.GoodAt type grant.at_ now ∧ IsActiveAdmin db id) ↔
        grant.Good site type sentAt now ∧ IsActiveAdmin db id :=
      ⟨fun h => ⟨⟨not_le.mp hlife, hsent, h.2.1⟩, h.2.2⟩, fun h => ⟨rfl, h.1.2.2, h.2⟩⟩
    exact if_congr hgood rfl rfl
  · apply gone
    · rw [Jar.sent, hentry]
      exact if_neg hsent
    · exact fun h => hsent h.2

/-- A jar that was cleared names nobody. -/
theorem identify_of_none {jar : Jar} {type : TokenType}
    (h : jar (site.cookieKey (site.cookieName type)) = none) (db : AdminDb)
    (sentAt now : Instant) :
    site.identify db (jar.sent site sentAt) type now = .error .invalidToken := by
  rw [AuthSite.identify, AuthSite.cookie, Jar.sent, h]
  rfl

/-- The cookies name the admin whose session may be used. -/
theorem Keeps.identify {jar : Jar} {session : Option SignedIn} (h : Keeps site jar session)
    (db : AdminDb) (type : TokenType) (sentAt now : Instant) :
    site.identify db (jar.sent site sentAt) type now =
      SignedIn.user site session db type sentAt now := by
  cases session with
  | none =>
    cases type with
    | access => exact identify_of_none h.1 db sentAt now
    | refresh => exact identify_of_none h.2 db sentAt now
  | some session =>
    cases type with
    | access => exact identify_of_holds h.1 db sentAt now
    | refresh => exact identify_of_holds h.2 db sentAt now

/-- Only a session names somebody, and its own admin. -/
theorem SignedIn.user_eq_ok {session : Option SignedIn} {db : AdminDb} {type : TokenType}
    {sentAt now : Instant} {id : UUID}
    (h : SignedIn.user site session db type sentAt now = .ok id) :
    ∃ s, session = some s ∧ s.admin = id := by
  cases session with
  | none => cases h
  | some s =>
    rw [SignedIn.user] at h
    split at h
    · exact ⟨s, rfl, Except.ok.inj h⟩
    · cases h

/-- The answer depends on the session only. -/
theorem Keeps.answer {jar : Jar} {session : Option SignedIn} (h : Keeps site jar session)
    (action : BrowserAction) :
    (site.answer jar action).result = SignedIn.answer site session action := by
  cases action with
  | login db email password accessAt refreshAt accessJti refreshJti =>
    show (site.login db email password accessAt refreshAt accessJti refreshJti).result = _
    rw [AuthSite.login, SignedIn.answer]
    cases site.authenticateAdmin db email password <;> rfl
  | logout => rfl
  | refresh db sentAt decodedAt issuedAt jti =>
    show (site.refresh db (jar.sent site sentAt) decodedAt issuedAt jti).result = _
    rw [SignedIn.answer, ← h.identify db .refresh sentAt decodedAt, refresh_eq]
    cases site.identify db (jar.sent site sentAt) .refresh decodedAt <;> rfl
  | request db sentAt now =>
    show (site.getCurrentAdmin db (jar.sent site sentAt) now).map some = _
    rw [SignedIn.answer, ← h.identify db .access sentAt now]
    rfl

/-- Nothing is left after a sign-out. -/
theorem keeps_clear (jar : Jar) (now : Instant) (hnames : site.TwoCookies) :
    Keeps site (jar.storeAll now site.clearAuthCookies) none := by
  have hstore : jar.storeAll now site.clearAuthCookies =
      Function.update (Function.update jar (site.cookieKey site.authAccessCookieName) none)
        (site.cookieKey site.authRefreshCookieName) none := rfl
  rw [hstore]
  refine ⟨?_, Function.update_self _ _ _⟩
  rw [Function.update_of_ne hnames.cookieKey_ne, Function.update_self]

/-- A cookie that has just arrived. -/
theorem holds_store {id : UUID} {type : TokenType} {at_ now : Instant} (jti : Text) :
    HoldsToken site (if site.lifetime type ≤ 0 then none
      else some (site.createToken id type at_ jti, now + site.lifetime type)) id type ⟨at_, now⟩ :=
  ⟨jti, rfl⟩

/-- The age of a cookie is the lifetime of its token. -/
theorem store_setCookie (jar : Jar) (now : Instant) (name value : Text) (type : TokenType)
    {maxAge : ℤ} (hage : maxAge * 1000000 = site.lifetime type) :
    jar.store now (site.setCookie name value maxAge) =
      Function.update jar (site.cookieKey name)
        (if site.lifetime type ≤ 0 then none else some (value, now + site.lifetime type)) := by
  have hiff : maxAge ≤ 0 ↔ site.lifetime type ≤ 0 := by omega
  show Function.update jar (site.cookieKey name)
    (if maxAge ≤ 0 then none else some (value, now + maxAge * 1000000)) = _
  simp only [hiff, hage]

theorem storeAll_setAccessCookie (jar : Jar) (now : Instant) (token : Text) :
    jar.storeAll now (site.setAccessCookie token) =
      Function.update jar (site.cookieKey site.authAccessCookieName)
        (if site.lifetime .access ≤ 0 then none else some (token, now + site.lifetime .access)) :=
  store_setCookie jar now _ token .access rfl

theorem storeAll_setAuthCookies (jar : Jar) (now : Instant) (accessToken refreshToken : Text) :
    jar.storeAll now (site.setAuthCookies accessToken refreshToken) =
      Function.update (Function.update jar (site.cookieKey site.authAccessCookieName)
          (if site.lifetime .access ≤ 0 then none
            else some (accessToken, now + site.lifetime .access)))
        (site.cookieKey site.authRefreshCookieName)
        (if site.lifetime .refresh ≤ 0 then none
          else some (refreshToken, now + site.lifetime .refresh)) := by
  show Jar.store (jar.storeAll now (site.setAccessCookie accessToken)) now _ = _
  rw [storeAll_setAccessCookie, store_setCookie _ _ _ _ .refresh rfl]

/-- What arrives keeps the jar in step with the session. -/
theorem Keeps.next {jar : Jar} {session : Option SignedIn} (h : Keeps site jar session)
    (hnames : site.TwoCookies) (now : Instant) (action : BrowserAction) :
    Keeps site (jar.storeAll now (site.answer jar action).cookies)
      (SignedIn.next site session now action) := by
  cases action with
  | login db email password accessAt refreshAt accessJti refreshJti =>
    show Keeps site (jar.storeAll now
      (site.login db email password accessAt refreshAt accessJti refreshJti).cookies) _
    rw [AuthSite.login, SignedIn.next]
    rcases site.authenticateAdmin db email password with e | id
    · exact h
    · show Keeps site (jar.storeAll now (site.setAuthCookies _ _)) (some _)
      rw [storeAll_setAuthCookies]
      constructor
      · rw [Function.update_of_ne hnames.cookieKey_ne, Function.update_self]
        exact holds_store accessJti
      · rw [Function.update_self]
        exact holds_store refreshJti
  | refresh db sentAt decodedAt issuedAt jti =>
    have hidentify := h.identify db .refresh sentAt decodedAt
    show Keeps site (jar.storeAll now
      (site.refresh db (jar.sent site sentAt) decodedAt issuedAt jti).cookies) _
    rw [refresh_eq, SignedIn.next, hidentify]
    rcases huser : SignedIn.user site session db .refresh sentAt decodedAt with e | id
    · exact h
    · -- the token is for the admin of the session
      obtain ⟨session, rfl, rfl⟩ := SignedIn.user_eq_ok huser
      show Keeps site (jar.storeAll now (site.setAccessCookie _))
        (some { session with access := ⟨issuedAt, now⟩ })
      rw [storeAll_setAccessCookie]
      constructor
      · rw [Function.update_self]
        exact holds_store jti
      · rw [Function.update_of_ne hnames.cookieKey_ne.symm]
        exact h.2
  | logout => exact keeps_clear jar now hnames
  | request db sentAt now => exact h

/-- **No session is kept, and none is missed**: on every run of any browsers,
side by side and with answers lost on the way, signed cookies give exactly the
answers that one session for each browser would. -/
theorem answers_eq (hnames : site.TwoCookies) (moves : List (BrowserMove ι)) :
    site.answers (fun _ => Jar.empty) moves = Desk.answers site (fun _ => none) moves := by
  suffices hrun : ∀ (jars : ι → Jar) (desk : Desk ι), (∀ i, Keeps site (jars i) (desk i)) →
      site.answers jars moves = Desk.answers site desk moves from
    hrun _ _ fun _ => ⟨rfl, rfl⟩
  induction moves with
  | nil =>
    intro _ _ _
    rfl
  | cons move moves ih =>
    intro jars desk hkeeps
    rw [AuthSite.answers, Desk.answers, (hkeeps move.browser).answer move.action]
    refine congrArg _ (ih _ _ fun i => ?_)
    rw [AuthSite.browse, Desk.serve]
    rcases move.receivedAt with - | now
    · exact hkeeps i
    · rcases eq_or_ne i move.browser with rfl | hi
      · simp only [Function.update_self]
        exact (hkeeps _).next hnames now move.action
      · simp only [Function.update_of_ne hi]
        exact hkeeps i

theorem answers_eq_plain :
    plainSite.answers (ι := Bool) (fun _ => Jar.empty)
        [⟨true, .login oneAdmin "an@shop.vn".toList "secret12".toList 0 0 [] [], some 1⟩,
          ⟨true, .request oneAdmin 2 3, none⟩, ⟨false, .request oneAdmin 2 3, none⟩] =
      [.ok (some 1), .ok (some 1), .error .invalidToken] := by
  rw [answers_eq (show plainSite.authAccessCookieName ≠ plainSite.authRefreshCookieName by decide)]
  rfl

/-! ### Tokens in other hands -/

/-- A request with the cookies it comes with, whoever sends it. -/
inductive AuthCall where
  | login (db : AdminDb) (email password : Text) (accessAt refreshAt : Instant)
      (accessJti refreshJti : Text)
  | refresh (db : AdminDb) (cookies : AuthSite.Cookies) (decodedAt issuedAt : Instant) (jti : Text)
  | logout
  | request (db : AdminDb) (cookies : AuthSite.Cookies) (now : Instant)

namespace AuthCall

/-- What the site answers to a call. -/
def answer (site : AuthSite) : AuthCall → AuthSite.Answer
  | login db email password accessAt refreshAt accessJti refreshJti =>
      site.login db email password accessAt refreshAt accessJti refreshJti
  | refresh db cookies decodedAt issuedAt jti => site.refresh db cookies decodedAt issuedAt jti
  | logout => site.logout
  | request db cookies now => site.protectedRoute db cookies now

/-- The text that a call wants to be decoded. -/
def presented (site : AuthSite) : AuthCall → Option Text
  | refresh _ cookies _ _ _ => cookies site.authRefreshCookieName
  | request _ cookies _ => cookies site.authAccessCookieName
  | login .. | logout => none

/-- The cookies that a call sets, without their flags. -/
def sets (site : AuthSite) (call : AuthCall) : List Text :=
  (call.answer site).cookies.map SetCookie.value

end AuthCall

/-- What is decoded was issued before. -/
def Unforged (site : AuthSite) (calls : List AuthCall) : Prop :=
  ∀ before call after, calls = before ++ call :: after →
    ∀ token ∈ call.presented site, ∀ now, site.tokens.decode now token ≠ none →
      ∃ earlier ∈ before, token ∈ earlier.sets site

theorem Unforged.before {calls before after : List AuthCall} (h : Unforged site calls)
    (hsplit : calls = before ++ after) : Unforged site before := by
  intro front call back hfront
  refine h front call (back ++ after) ?_
  rw [hsplit, hfront, List.append_assoc, List.cons_append]

theorem authenticateAdmin_eq_ok {db : AdminDb} {email password : Text} {id : UUID} :
    site.authenticateAdmin db email password = .ok id ↔
      ∃ admin, site.getAdminByEmail db email = some (id, admin) ∧ admin.isActive = true ∧
        site.verifyPassword password admin.passwordHash = true := by
  rw [AuthSite.authenticateAdmin]
  constructor
  · intro h
    split at h
    · cases h
    · rename_i id' admin hfound
      split at h
      · cases h
      · rename_i hactive
        split at h
        · cases h
        · rename_i hverify
          cases h
          exact ⟨admin, hfound, by simpa using hactive, by simpa using hverify⟩
  · rintro ⟨admin, hfound, hactive, hverify⟩
    rw [hfound]
    simp [hactive, hverify]

/-- Who is named presents a token that is decoded. -/
theorem identify_eq_ok {db : AdminDb} {cookies : AuthSite.Cookies} {type : TokenType}
    {now : Instant} {id : UUID} (h : site.identify db cookies type now = .ok id) :
    ∃ token, cookies (site.cookieName type) = some token ∧ token ≠ [] ∧
      site.resolveAdminFromToken db now token type = .ok id ∧
      site.tokens.decode now token ≠ none := by
  rw [AuthSite.identify] at h
  rcases hcookie : AuthSite.cookie cookies (site.cookieName type) with e | token
  · rw [hcookie] at h
    cases h
  · rw [hcookie] at h
    obtain ⟨hsome, hne⟩ := AuthSite.cookie_eq_ok.mp hcookie
    refine ⟨token, hsome, hne, h, fun hnone => ?_⟩
    have hfailed : site.resolveAdminFromToken db now token type = .error .invalidToken :=
      AuthSite.resolve_of_decode_none hnone
    change site.resolveAdminFromToken db now token type = .ok id at h
    rw [hfailed] at h
    cases h

/-- What a call sets is an empty cookie, or a token for the admin it knows. -/
theorem mem_sets {call : AuthCall} {token : Text} (h : token ∈ call.sets site) :
    token = [] ∨
    (∃ db email password accessAt refreshAt accessJti refreshJti id,
      call = .login db email password accessAt refreshAt accessJti refreshJti ∧
      site.authenticateAdmin db email password = .ok id ∧
      (token = site.createToken id .access accessAt accessJti ∨
        token = site.createToken id .refresh refreshAt refreshJti)) ∨
    (∃ db cookies decodedAt issuedAt jti id,
      call = .refresh db cookies decodedAt issuedAt jti ∧
      site.identify db cookies .refresh decodedAt = .ok id ∧
      token = site.createToken id .access issuedAt jti) := by
  cases call with
  | login db email password accessAt refreshAt accessJti refreshJti =>
    right; left
    change token ∈ (site.login db email password accessAt refreshAt accessJti
      refreshJti).cookies.map SetCookie.value at h
    rw [AuthSite.login] at h
    rcases hauth : site.authenticateAdmin db email password with e | id
    · rw [hauth] at h
      cases h
    · rw [hauth] at h
      refine ⟨db, email, password, accessAt, refreshAt, accessJti, refreshJti, id, rfl, hauth, ?_⟩
      simpa [AuthSite.setAuthCookies, AuthSite.setAccessCookie, AuthSite.setCookie] using h
  | refresh db cookies decodedAt issuedAt jti =>
    right; right
    change token ∈ (site.refresh db cookies decodedAt issuedAt jti).cookies.map
      SetCookie.value at h
    rw [refresh_eq] at h
    rcases hid : site.identify db cookies .refresh decodedAt with e | id
    · rw [hid] at h
      cases h
    · rw [hid] at h
      refine ⟨db, cookies, decodedAt, issuedAt, jti, id, rfl, hid, ?_⟩
      simpa [AuthSite.setAccessCookie, AuthSite.setCookie] using h
  | logout =>
    left
    change token ∈ site.clearAuthCookies.map SetCookie.value at h
    simpa [AuthSite.clearAuthCookies, AuthSite.deleteCookie, AuthSite.setCookie] using h
  | request db cookies now => cases h

/-- A token of this server that names somebody was issued for its admin, for
this purpose, and is still good. -/
theorem resolve_createToken_ok {db : AdminDb} {now at_ : Instant} {id id' : UUID}
    {type expected : TokenType} {jti : Text}
    (h : site.resolveAdminFromToken db now (site.createToken id' type at_ jti) expected = .ok id) :
    id' = id ∧ type = expected ∧ site.GoodAt type at_ now ∧ IsActiveAdmin db id := by
  rw [AuthSite.resolve_createToken] at h
  split at h
  · rename_i hgood
    obtain rfl := Except.ok.inj h
    exact ⟨rfl, hgood⟩
  · cases h

/-- A refresh that names somebody goes back to a sign-in. -/
theorem refresh_goes_back {before after : List AuthCall} {db : AdminDb}
    {cookies : AuthSite.Cookies} {decodedAt issuedAt : Instant} {jti : Text} {id : UUID}
    (h : Unforged site (before ++ .refresh db cookies decodedAt issuedAt jti :: after))
    (hid : site.identify db cookies .refresh decodedAt = .ok id) :
    IsActiveAdmin db id ∧
    ∃ front back db' email password accessAt refreshAt accessJti refreshJti,
      before = front ++ .login db' email password accessAt refreshAt accessJti refreshJti :: back ∧
      site.authenticateAdmin db' email password = .ok id ∧
      site.GoodAt .refresh refreshAt decodedAt := by
  obtain ⟨token, hcookie, hne, hresolve, hdecode⟩ := identify_eq_ok hid
  obtain ⟨call, hcall, hset⟩ := h _ _ _ rfl token hcookie decodedAt hdecode
  obtain ⟨front, back, rfl⟩ := List.append_of_mem hcall
  rcases mem_sets hset with rfl | ⟨db', email, password, accessAt, refreshAt, accessJti,
    refreshJti, id', rfl, hauth, rfl | rfl⟩ | ⟨db', cookies', decodedAt', issuedAt', jti', id', rfl,
    -, rfl⟩
  · exact absurd rfl hne
  · obtain ⟨-, htype, -⟩ := resolve_createToken_ok hresolve
    cases htype
  · obtain ⟨rfl, -, hgood, hactive⟩ := resolve_createToken_ok hresolve
    exact ⟨hactive, front, back, db', email, password, accessAt, refreshAt, accessJti, refreshJti,
      rfl, hauth, hgood⟩
  · obtain ⟨-, htype, -⟩ := resolve_createToken_ok hresolve
    cases htype

/-- A token of the one kind names nobody where the other is asked for. -/
theorem resolve_other_kind {db : AdminDb} {now at_ : Instant} {id : UUID}
    {type expected : TokenType} {jti : Text} (h : type ≠ expected) :
    site.resolveAdminFromToken db now (site.createToken id type at_ jti) expected =
      .error .invalidToken := by
  rw [AuthSite.resolve_createToken, if_neg fun hgood => h hgood.1]

/-- **A request that is let through goes back to a password.**  Whoever
presents what: if nothing is forged, the caller is active now, and a sign-in
before checked a password of the same admin; its access token is still good,
or its refresh token was, when a refresh in between, by then active, issued an
access token that is.  No token that the site issues, to whomever and whenever,
passes where one of the other kind is asked for. -/
theorem request_goes_back {before after : List AuthCall} {db : AdminDb}
    {cookies : AuthSite.Cookies} {now : Instant} {id : UUID}
    (h : Unforged site (before ++ .request db cookies now :: after))
    (hid : site.getCurrentAdmin db cookies now = .ok id) :
    IsActiveAdmin db id ∧
    (∀ (db' : AdminDb) (now' at_ : Instant) (id' : UUID) (type expected : TokenType) (jti : Text),
      type ≠ expected →
        site.resolveAdminFromToken db' now' (site.createToken id' type at_ jti) expected =
          .error .invalidToken) ∧
    ∃ front back db' email password accessAt refreshAt accessJti refreshJti,
      before = front ++ .login db' email password accessAt refreshAt accessJti refreshJti :: back ∧
      (∃ admin, site.getAdminByEmail db' email = some (id, admin) ∧ admin.isActive = true ∧
        site.verifyPassword password admin.passwordHash = true) ∧
      (site.GoodAt .access accessAt now ∨
        ∃ db'' cookies' decodedAt issuedAt jti,
          .refresh db'' cookies' decodedAt issuedAt jti ∈ back ∧ IsActiveAdmin db'' id ∧
          site.GoodAt .refresh refreshAt decodedAt ∧ site.GoodAt .access issuedAt now) := by
  have hother : ∀ (db' : AdminDb) (now' at_ : Instant) (id' : UUID) (type expected : TokenType)
      (jti : Text), type ≠ expected →
        site.resolveAdminFromToken db' now' (site.createToken id' type at_ jti) expected =
          .error .invalidToken := fun _ _ _ _ _ _ _ hkind => resolve_other_kind hkind
  have hidentify : site.identify db cookies .access now = .ok id := hid
  obtain ⟨token, hcookie, hne, hresolve, hdecode⟩ := identify_eq_ok hidentify
  obtain ⟨call, hcall, hset⟩ := h _ _ _ rfl token hcookie now hdecode
  obtain ⟨front, back, rfl⟩ := List.append_of_mem hcall
  rcases mem_sets hset with rfl | ⟨db', email, password, accessAt, refreshAt, accessJti,
    refreshJti, id', rfl, hauth, rfl | rfl⟩ | ⟨db', cookies', decodedAt, issuedAt, jti, id', rfl,
    hrefresh, rfl⟩
  · exact absurd rfl hne
  · -- the access token of the sign-in itself
    obtain ⟨rfl, -, hgood, hactive⟩ := resolve_createToken_ok hresolve
    exact ⟨hactive, hother, front, back, db', email, password, accessAt, refreshAt, accessJti,
      refreshJti, rfl, authenticateAdmin_eq_ok.mp hauth, .inl hgood⟩
  · obtain ⟨-, htype, -⟩ := resolve_createToken_ok hresolve
    cases htype
  · -- an access token of a refresh, which goes back to a sign-in itself
    obtain ⟨rfl, -, hgood, hactive⟩ := resolve_createToken_ok hresolve
    have hfront : Unforged site (front ++ .refresh db' cookies' decodedAt issuedAt jti :: back) :=
      h.before rfl
    obtain ⟨hthen, front', back', db₁, email, password, accessAt, refreshAt, accessJti, refreshJti,
      rfl, hauth, hgood'⟩ := refresh_goes_back hfront hrefresh
    refine ⟨hactive, hother, front',
      back' ++ .refresh db' cookies' decodedAt issuedAt jti :: back, db₁, email, password,
      accessAt, refreshAt, accessJti, refreshJti, ?_, authenticateAdmin_eq_ok.mp hauth,
      .inr ⟨db', cookies', decodedAt, issuedAt, jti, ?_, hthen, hgood', hgood⟩⟩
    · rw [List.append_assoc, List.cons_append]
    · exact List.mem_append_right _ List.mem_cons_self

/-- A sign-in, and a request with its access token. -/
noncomputable def signInAndAsk : List AuthCall :=
  [.login oneAdmin "an@shop.vn".toList "secret12".toList 0 0 [] [],
    .request oneAdmin (fun _ => some (plainSite.createToken 1 .access 0 [])) 5]

theorem request_goes_back_plain :
    Unforged plainSite signInAndAsk ∧
    plainSite.getCurrentAdmin oneAdmin
        (fun _ => some (plainSite.createToken 1 .access 0 [])) 5 = .ok 1 ∧
    IsActiveAdmin oneAdmin 1 ∧
    plainSite.resolveAdminFromToken oneAdmin 5 (plainSite.createToken 1 .refresh 0 []) .access =
      .error .invalidToken := by
  have hunforged : Unforged plainSite signInAndAsk := by
    intro before call after hsplit token htoken now _
    rcases before with - | ⟨first, before⟩
    · obtain ⟨hcall, -⟩ := List.cons.inj hsplit
      rw [← hcall] at htoken
      cases htoken
    · obtain ⟨hfirst, hrest⟩ := List.cons.inj hsplit
      refine ⟨first, List.mem_cons_self, ?_⟩
      rw [← hfirst]
      rcases before with - | ⟨second, before⟩
      · obtain ⟨hcall, -⟩ := List.cons.inj hrest
        rw [← hcall] at htoken
        obtain rfl := Option.some.inj htoken
        exact List.mem_cons_self
      · obtain ⟨-, hrest⟩ := List.cons.inj hrest
        exact absurd hrest.symm (by simp)
  have hid : plainSite.getCurrentAdmin oneAdmin
      (fun _ => some (plainSite.createToken 1 .access 0 [])) 5 = .ok 1 := by
    have hcookie : AuthSite.cookie (fun _ => some (plainSite.createToken 1 .access 0 []))
        plainSite.authAccessCookieName = .ok (plainSite.createToken 1 .access 0 []) :=
      AuthSite.cookie_eq_ok.mpr ⟨rfl, AuthSite.createToken_ne_nil⟩
    rw [AuthSite.getCurrentAdmin, hcookie]
    show plainSite.resolveAdminFromToken oneAdmin 5 _ .access = _
    rw [AuthSite.resolve_createToken]
    rfl
  have hsplit : Unforged plainSite ([_] ++ .request oneAdmin
      (fun _ => some (plainSite.createToken 1 .access 0 [])) 5 :: []) := hunforged
  obtain ⟨hactive, hother, -⟩ := request_goes_back hsplit hid
  exact ⟨hunforged, hid, hactive, hother oneAdmin 5 0 1 .refresh .access [] (by decide)⟩

end GreenGarden
