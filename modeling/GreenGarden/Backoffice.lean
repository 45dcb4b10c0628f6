/-
GreenGarden/Backoffice.lean

The rest of what writes to the database of the site: the admins' notification
inbox (`notifications/service.py`) and the customer reviews
(`reviews/service.py` and its public routes), next to the shop.

Both use rows of the shop: a notification is written by a checkout, and a
review may be about a plant.  So the database of the site is the shop's with
the reviews beside it, and the requests of the shop run in it as they are
(`inSite`).

`mark_all_notifications_read` is one UPDATE statement.  At READ COMMITTED it
finds its rows in the database as of its start, takes their locks one by one
in the order its scan meets them, and looks at each row again once it has the
lock: a row that somebody else marked meanwhile no longer meets the condition
and is not counted.
-/
import GreenGarden.Embedding
import GreenGarden.Observing
import GreenGarden.Guarantee
import GreenGarden.SlugForm
import GreenGarden.Listings

namespace GreenGarden

open Transaction

/-! ### Rows -/

/-- Where a review stands with the administrators. -/
inductive ReviewStatus where
  | pending | approved | rejected
  deriving DecidableEq

/-- A rating column: the check constraint keeps it between 1 and 5. -/
abbrev Rating := {stars : ℤ // 1 ≤ stars ∧ stars ≤ 5}

/-- Customer review, moderated before publish.  Without a plant it is about
the whole shop. -/
structure Review where
  plantId : Option UUID
  name : Text
  rating : Rating
  content : Text
  status : ReviewStatus
  createdAt : Instant
  deriving DecidableEq

/-- The shop and the reviews. -/
structure SiteDb where
  shop : Db
  reviews : Table UUID Review

/-- What a transaction of the site can lock. -/
inductive SiteKey where
  | shop (key : Key)
  | review (id : UUID)
  deriving DecidableEq

/-- How a request to the site can fail. -/
inductive SiteError where
  | shop (e : Error)
  | unprocessable
  | notificationNotFound
  | reviewNotFound
  | reviewsRating
  | reviewsPrimaryKey
  | reviewsPlant
  deriving DecidableEq

/-- What a transaction takes from outside: what the shop takes, and the order
in which a scan of a table meets its rows. -/
structure SiteOutside where
  shop : Outside
  scan : List UUID → List UUID
  scan_perm : ∀ ids, (scan ids).Perm ids

/-- The body of one transaction of the site. -/
abbrev SiteSession := Tx SiteDb SiteKey SiteOutside SiteError

/-- Where the shop lies in the site. -/
def inSite : Embedding Db Key Outside Error SiteDb SiteKey SiteOutside SiteError where
  get := SiteDb.shop
  put shop s := { s with shop := shop }
  key := .shop
  answer := SiteOutside.shop
  error := .shop
  get_put _ _ := rfl
  key_injective _ _ h := SiteKey.shop.inj h

/-! ### The inbox -/

/-- Mark one notification in the table. -/
def Notification.read (notification : Notification) : Notification :=
  { notification with isRead := true }

/-- The UPDATE that marks one notification as read. -/
def stageRead (id : UUID) (s : SiteDb) : SiteDb :=
  { s with shop :=
    { s.shop with notifications := s.shop.notifications.modify id Notification.read } }

/-- Load a notification. -/
def getNotification (id : UUID) : SiteSession Notification := do
  match ← Tx.query fun s => s.shop.notifications.get id with
  | none => Tx.fail .notificationNotFound
  | some notification => return notification

/-- No UPDATE goes out for a row that was loaded as read. -/
def markNotificationRead (id : UUID) : SiteSession UUID := do
  let notification ← getNotification id
  Tx.whenElse (notification.isRead = false)
    (do
      Tx.acquire (.shop (.notification id))
      Tx.stage (stageRead id))
    ()
  return id

/-- The row is there and unread. -/
def isUnread (s : SiteDb) (id : UUID) : Bool :=
  (s.shop.notifications.get id).any fun notification => !notification.isRead

/-- The rows that the UPDATE found, one after the other; returns how many it
changed. -/
def markEach : List UUID → SiteSession ℕ
  | [] => return 0
  | id :: ids => do
      Tx.acquire (.shop (.notification id))
      let unread ← Tx.query fun s => isUnread s id
      let here ← Tx.whenElse (unread = true)
        (do
          Tx.stage (stageRead id)
          return 1)
        0
      let later ← markEach ids
      return here + later

/-- Mark every unread notification as read.  Returns how many rows changed. -/
def markAllNotificationsRead : SiteSession ℕ := do
  let scan ← Tx.outside SiteOutside.scan
  let unread ← Tx.query fun s => s.shop.notifications.keys.filter (isUnread s)
  markEach (scan unread)

/-! ### Submitting and moderating reviews -/

/-- Public storefront submission. -/
structure ReviewCreate extends BotSignals where
  name : Text
  rating : ℤ
  content : Text
  deriving DecidableEq

/-- A text field: bounded as it was sent, not empty once it is stripped. -/
def stripRequired (maxLength : ℕ) (value : Text) : Option Text :=
  if 1 ≤ value.length ∧ value.length ≤ maxLength then
    let stripped := strip value
    if stripped = [] then none else some stripped
  else none

/-- The schema: what reaches the route, if anything does. -/
def ReviewCreate.validate (sent : ReviewCreate) : Option ReviewCreate := do
  let name ← stripRequired 255 sent.name
  let content ← stripRequired 5000 sent.content
  if sent.rating < 1 ∨ 5 < sent.rating then none
  else if sent.website.any fun website => 255 < website.length then none
  else some { sent with name := name, content := content }

/-- `ck_reviews_rating_range`. -/
def storeRating (rating : ℤ) : Except SiteError Rating :=
  if h : 1 ≤ rating ∧ rating ≤ 5 then .ok ⟨rating, h⟩ else .error .reviewsRating

/-- Always stored as `pending` until an admin moderates. -/
def createReview (name : Text) (rating : ℤ) (content : Text) (plantId : Option UUID) :
    SiteSession UUID := do
  let outside ← Tx.outside SiteOutside.shop
  -- the INSERT: a generated key, the check constraint and the foreign key
  Tx.acquire (.review outside.uuid)
  let clash ← Tx.query fun s => (s.reviews.get outside.uuid).isSome
  Tx.failIf (clash = true) .reviewsPrimaryKey
  let rating ← Tx.ofExcept (storeRating rating)
  let known ← Tx.query fun s => plantId.all fun id => (s.shop.plants.get id).isSome
  Tx.failIf (known = false) .reviewsPlant
  Tx.stage fun s =>
    { s with
      reviews := s.reviews.insert outside.uuid
        ⟨plantId, name, rating, content, .pending, outside.now⟩ }
  return outside.uuid

/-- Load a review. -/
def getReview (id : UUID) : SiteSession Review := do
  match ← Tx.query fun s => s.reviews.get id with
  | none => Tx.fail .reviewNotFound
  | some review => return review

/-- Nothing is written for a review that was loaded with that status. -/
def setReviewStatus (id : UUID) (status : ReviewStatus) : SiteSession UUID := do
  let review ← getReview id
  Tx.whenElse (status ≠ review.status)
    (do
      Tx.acquire (.review id)
      Tx.stage fun s =>
        { s with reviews := s.reviews.modify id fun review => { review with status := status } })
    ()
  return id

/-- What the schema and the bot check leave of a submission. -/
def admitReview (sent : ReviewCreate) : Except SiteError ReviewCreate :=
  match sent.validate with
  | none => .error .unprocessable
  | some payload =>
      match verifyBotSignals payload.toBotSignals with
      | .error e => .error (.shop e)
      | .ok () => .ok payload

/-- A visitor's review of the shop. -/
def postPublicReview (sent : ReviewCreate) : SiteSession UUID := do
  let payload ← Tx.ofExcept (admitReview sent)
  createReview payload.name payload.rating payload.content none

/-- A visitor's review of the active plant with this slug. -/
def postPublicPlantReview (casing : Casing) (slug : Text) (sent : ReviewCreate) :
    SiteSession UUID := do
  let payload ← Tx.ofExcept (admitReview sent)
  let (plantId, _) ← (getActivePlantOr404 casing slug).into inSite
  createReview payload.name payload.rating payload.content (some plantId)

/-! ### Listing reviews -/

/-- `shop` = website-wide reviews, `plant` = reviews of any plant. -/
inductive ReviewScope where
  | shop | plant
  deriving DecidableEq

/-- The filters of `list_reviews`. -/
structure ReviewFilters where
  search : Option Text
  status : Option ReviewStatus
  plantId : Option UUID
  scope : Option ReviewScope

/-- `_apply_filters` of reviews. -/
def ReviewFilters.apply (locale : DbLocale) (filters : ReviewFilters) (review : Review) : Bool :=
  (match filters.search with
    | none => true
    | some [] => true
    | some search =>
        locale.ilike review.name (searchPattern search) ||
          locale.ilike review.content (searchPattern search)) &&
  filters.status.all (fun status => review.status = status) &&
  filters.plantId.all (fun id => review.plantId = some id) &&
  (match filters.scope with
    | none => true
    | some .shop => review.plantId.isNone
    | some .plant => review.plantId.isSome)

/-- `ORDER BY created_at DESC, id`. -/
def newestReview (a b : UUID × Review) : Prop :=
  b.2.createdAt < a.2.createdAt ∨ a.2.createdAt = b.2.createdAt ∧ a.1 ≤ b.1

instance (a b : UUID × Review) : Decidable (newestReview a b) :=
  inferInstanceAs (Decidable (_ ∨ _ ∧ _))

/-- The reviews that the filters let through. -/
def filteredReviews (locale : DbLocale) (filters : ReviewFilters) (s : SiteDb) :
    List (UUID × Review) :=
  s.reviews.entries.filter fun row => filters.apply locale row.2

/-- The total and the page come from two queries. -/
def listReviews (locale : DbLocale) (page pageSize : ℕ) (filters : ReviewFilters) :
    SiteSession (Page (UUID × Review)) := do
  let total ← Tx.query fun s => (filteredReviews locale filters s).length
  let items ← Tx.query fun s =>
    ((filteredReviews locale filters s).insertionSort newestReview |>.drop
      ((page - 1) * pageSize)).take pageSize
  return ⟨items, total⟩

/-- `a / b` of two integers with `1 ≤ a / b < 2 ^ 53`: the nearest double, ties
to the even one, as a significand over a power of two. -/
def trueDiv (a b : ℤ) : ℤ × ℕ :=
  let places := 52 - (a / b).toNat.log2
  (Decimal.roundHalfEven (a * 2 ^ places) b, places)

/-- `round(x, 1)` of a double, in tenths: what the double is exactly decides,
so 4.35, which lies below its name, becomes 4.3 and 4.45 becomes 4.5. -/
def roundTenths (x : ℤ × ℕ) : ℤ := Decimal.roundHalfEven (x.1 * 10) (2 ^ x.2)

/-- The average is in tenths of a star. -/
structure ReviewSummary where
  averageRating : ℤ
  totalReviews : ℕ
  ratingDistribution : Rating → ℕ

/-- The summary of no reviews. -/
def ReviewSummary.empty : ReviewSummary := ⟨0, 0, fun _ => 0⟩

/-- One row of the grouped query, with the `rating_sum` of the rows so far. -/
def ReviewSummary.add (sofar : ReviewSummary × ℤ) (row : Rating × ℕ) : ReviewSummary × ℤ :=
  ({ sofar.1 with
      totalReviews := sofar.1.totalReviews + row.2
      ratingDistribution := Function.update sofar.1.ratingDistribution row.1 row.2 },
    sofar.2 + row.1 * row.2)

/-- The average, once the rows are through. -/
def ReviewSummary.close (sofar : ReviewSummary × ℤ) : ReviewSummary :=
  if sofar.1.totalReviews = 0 then sofar.1
  else { sofar.1 with averageRating := roundTenths (trueDiv sofar.2 sofar.1.totalReviews) }

/-- `SELECT rating, count(*) ... GROUP BY rating`. -/
def groupRatings (ratings : List Rating) : List (Rating × ℕ) :=
  ratings.dedup.map fun rating => (rating, ratings.countP fun other => other = rating)

/-- Average, count, and star distribution of approved reviews. -/
def getReviewSummary (locale : DbLocale) (plantId : Option UUID) (scope : Option ReviewScope) :
    SiteSession ReviewSummary := do
  let rows ← Tx.query fun s =>
    groupRatings ((filteredReviews locale ⟨none, some .approved, plantId, scope⟩ s).map
      fun row => row.2.rating)
  return .close (rows.foldl ReviewSummary.add (.empty, 0))

/-- Storefront card — approved reviews only, no moderation fields. -/
structure PublicReviewListItem where
  id : UUID
  name : Text
  rating : Rating
  content : Text
  createdAt : Instant
  deriving DecidableEq

/-- What the storefront shows of a row. -/
def publicItem (row : UUID × Review) : PublicReviewListItem :=
  ⟨row.1, row.2.name, row.2.rating, row.2.content, row.2.createdAt⟩

/-- A page of reviews with the number of them all and the summary. -/
structure PublicReviewListResponse where
  items : List PublicReviewListItem
  total : ℕ
  summary : ReviewSummary

/-- One page of approved reviews, and the summary of the same reviews. -/
def publicReviewPage (locale : DbLocale) (page pageSize : ℕ) (plantId : Option UUID)
    (scope : Option ReviewScope) : SiteSession PublicReviewListResponse := do
  let listed ← listReviews locale page pageSize ⟨none, some .approved, plantId, scope⟩
  let summary ← getReviewSummary locale plantId scope
  return ⟨listed.items.map publicItem, listed.total, summary⟩

/-- The page of the shop's own reviews. -/
def getPublicReviews (locale : DbLocale) (page pageSize : ℕ) :
    SiteSession PublicReviewListResponse :=
  publicReviewPage locale page pageSize none (some .shop)

/-- The page of the active plant with this slug. -/
def getPublicPlantReviews (locale : DbLocale) (casing : Casing) (slug : Text)
    (page pageSize : ℕ) : SiteSession PublicReviewListResponse := do
  let (plantId, _) ← (getActivePlantOr404 casing slug).into inSite
  publicReviewPage locale page pageSize (some plantId) none

/-! ### The site -/

/-- What can be asked of the site. -/
inductive SiteRequest where
  | shop (request : Request)
  | markNotificationRead (id : UUID)
  | markAllNotificationsRead
  | postPublicReview (sent : ReviewCreate)
  | postPublicPlantReview (slug : Text) (sent : ReviewCreate)
  | setReviewStatus (id : UUID) (status : ReviewStatus)
  | getPublicReviews (page pageSize : ℕ)
  | getPublicPlantReviews (slug : Text) (page pageSize : ℕ)

/-- What the site answers with. -/
inductive SiteReply where
  | shop (reply : Reply)
  | row (id : UUID)
  | updated (n : ℕ)
  | reviews (response : PublicReviewListResponse)

/-- What the deployment of the site fixes. -/
structure SiteDeployment where
  shop : Deployment
  locale : DbLocale
  casing : Casing

/-- One request, as a transaction of the site. -/
def SiteRequest.body (site : SiteDeployment) : SiteRequest → SiteSession SiteReply
  | .shop request => do
      let reply ← (request.body site.shop).into inSite
      return .shop reply
  | .markNotificationRead id => do
      let id ← GreenGarden.markNotificationRead id
      return .row id
  | .markAllNotificationsRead => do
      let n ← GreenGarden.markAllNotificationsRead
      return .updated n
  | .postPublicReview sent => do
      let id ← GreenGarden.postPublicReview sent
      return .row id
  | .postPublicPlantReview slug sent => do
      let id ← GreenGarden.postPublicPlantReview site.casing slug sent
      return .row id
  | .setReviewStatus id status => do
      let id ← GreenGarden.setReviewStatus id status
      return .row id
  | .getPublicReviews page pageSize => do
      let response ← GreenGarden.getPublicReviews site.locale page pageSize
      return .reviews response
  | .getPublicPlantReviews slug page pageSize => do
      let response ← GreenGarden.getPublicPlantReviews site.locale site.casing slug page pageSize
      return .reviews response

/-- A family of requests to the site running side by side. -/
def wholeSite {ι : Type} (site : SiteDeployment) (requests : ι → SiteRequest) :
    Workload ι SiteDb SiteKey SiteOutside SiteError SiteReply where
  body i := (requests i).body site
  token _ := []

end GreenGarden
