/-
GreenGarden/SiteWide.lean

What the requests of the site can do to one another, and the contract of the
whole site.

`SiteChange` is to the site what `Change` is to the shop: notifications and
reviews are written under their row locks, none ever goes away, and of a row
that is there only one column ever changes: a notification may become read,
a review may get another status.  A request of the shop, carried over, keeps
its own triple (`wp_into`) and respects this.
-/
import GreenGarden.Backoffice

namespace GreenGarden

open Transaction

/-! ### Interference -/

/-- The same notification, maybe read since. -/
structure Notification.Later (n n' : Notification) : Prop where
  type : n'.type = n.type
  title : n'.title = n.title
  message : n'.message = n.message
  entityId : n'.entityId = n.entityId
  isRead : n.isRead = true → n'.isRead = true

theorem Notification.Later.refl (n : Notification) : n.Later n :=
  ⟨rfl, rfl, rfl, rfl, id⟩

theorem Notification.Later.trans {n n' n'' : Notification} (h : n.Later n') (h' : n'.Later n'') :
    n.Later n'' :=
  ⟨h'.type.trans h.type, h'.title.trans h.title, h'.message.trans h.message,
    h'.entityId.trans h.entityId, fun hr => h'.isRead (h.isRead hr)⟩

theorem Notification.later_read (n : Notification) : n.Later n.read :=
  ⟨rfl, rfl, rfl, rfl, fun _ => rfl⟩

/-- The columns a review is submitted with. -/
def Review.submitted (review : Review) : Review := { review with status := .pending }

/-- Every notification stays, as itself or as read. -/
def NotificationsStay (d d' : Db) : Prop :=
  ∀ id n, d.notifications.get id = some n →
    ∃ n', d'.notifications.get id = some n' ∧ n.Later n'

theorem NotificationsStay.refl (d : Db) : NotificationsStay d d :=
  fun _ n hn => ⟨n, hn, .refl n⟩

theorem NotificationsStay.trans {d d' d'' : Db} (h : NotificationsStay d d')
    (h' : NotificationsStay d' d'') : NotificationsStay d d'' := by
  intro id n hn
  obtain ⟨n', hn', hl⟩ := h id n hn
  obtain ⟨n'', hn'', hl'⟩ := h' id n' hn'
  exact ⟨n'', hn'', hl.trans hl'⟩

/-- The site went from `s` to `s'` under the locks `k`. -/
structure SiteChange (k : Set SiteKey) (s s' : SiteDb) : Prop where
  shop : Change false (inSite.locks k) s.shop s'.shop
  notifications : NotificationsStay s.shop s'.shop
  review : ∀ id, .review id ∉ k → s'.reviews.get id = s.reviews.get id
  reviews : ∀ id r, s.reviews.get id = some r →
    ∃ r', s'.reviews.get id = some r' ∧ r'.submitted = r.submitted

namespace SiteChange

variable {k k' : Set SiteKey} {s s' s'' : SiteDb}

theorem refl (s : SiteDb) : SiteChange k s s where
  shop := .refl s.shop
  notifications := .refl s.shop
  review _ _ := rfl
  reviews _ r h := ⟨r, h, rfl⟩

theorem trans (h₁ : SiteChange k s s') (h₂ : SiteChange k s' s'') : SiteChange k s s'' where
  shop := h₁.shop.trans h₂.shop
  notifications := h₁.notifications.trans h₂.notifications
  review id h := (h₂.review id h).trans (h₁.review id h)
  reviews id r h := by
    obtain ⟨r', hr', hs⟩ := h₁.reviews id r h
    obtain ⟨r'', hr'', hs'⟩ := h₂.reviews id r' hr'
    exact ⟨r'', hr'', hs'.trans hs⟩

/-- More locks allow more changes. -/
theorem mono (h : SiteChange k s s') (hk : k ⊆ k') : SiteChange k' s s' where
  shop := h.shop.mono (Set.preimage_mono hk)
  notifications := h.notifications
  review id hid := h.review id fun hm => hid (hk hm)
  reviews := h.reviews

/-- A change of the shop alone. -/
theorem of_shop (hreviews : s'.reviews = s.reviews)
    (hshop : Change false (inSite.locks k) s.shop s'.shop)
    (hnotes : NotificationsStay s.shop s'.shop) : SiteChange k s s' where
  shop := hshop
  notifications := hnotes
  review id _ := by rw [hreviews]
  reviews id r h := ⟨r, by rw [hreviews, h], rfl⟩

/-- A change of the reviews alone. -/
theorem of_reviews (hshop : s'.shop = s.shop)
    (review : ∀ id, .review id ∉ k → s'.reviews.get id = s.reviews.get id)
    (reviews : ∀ id r, s.reviews.get id = some r →
      ∃ r', s'.reviews.get id = some r' ∧ r'.submitted = r.submitted) : SiteChange k s s' where
  shop := by
    rw [hshop]
    exact .refl _
  notifications := by
    rw [hshop]
    exact .refl _
  review := review
  reviews := reviews

end SiteChange

/-- What others may do to a transaction of the site. -/
def siteRely : Rely SiteKey SiteDb SiteOutside where
  rel h s s' := SiteChange hᶜ s s'
  answers _ := True
  refl _ s := .refl s
  trans h₁ h₂ := h₁.trans h₂
  anti hsub h := h.mono (Set.compl_subset_compl.mpr hsub)

/-- The shop sees the interference it allows. -/
theorem siteRely_shop (h : Set SiteKey) (s s' : SiteDb) (hs : siteRely.rel h s s') :
    lockScope.rely.rel (inSite.locks h) s.shop s'.shop :=
  ⟨hs.shop, trivial⟩

/-! ### What a shop request does to the notifications -/

/-- A commit of the shop places an order, or leaves the inbox alone. -/
theorem Request.notifications_cases {S : Scope} {site : Deployment} {request : Request}
    {reply : Reply} {h : Set Key} {b : List (Db → Db)} {d : Db}
    (hp : request.post S site reply h b d) :
    (∃ draft now id order, request.draft? = some draft ∧ reply = .row id ∧
      Placed S now draft id order h d (flush b d)) ∨
    request.draft? = none ∧ (flush b d).notifications = d.notifications := by
  cases request with
  | createOrder draft =>
    obtain ⟨id, hr, now, ⟨order, hplaced⟩, -⟩ := hp
    exact .inl ⟨draft, now, id, order, rfl, hr, hplaced⟩
  | postStorefrontOrder payload =>
    obtain ⟨id, hr, now, ⟨order, hplaced⟩, -⟩ := hp
    exact .inl ⟨payload.draft, now, id, order, rfl, hr, hplaced⟩
  | updateOrderStatus id target =>
    obtain ⟨_, -, rfl | ⟨-, seen, old, order, hm⟩, -⟩ := hp
    · exact .inr ⟨rfl, rfl⟩
    · exact .inr ⟨rfl, hm.notifications⟩
  | processSepayWebhook payload =>
    obtain ⟨status, -, hw, -⟩ := hp
    cases status with
    | none =>
      obtain ⟨rfl, -⟩ := hw
      exact .inr ⟨rfl, rfl⟩
    | some status =>
      obtain ⟨tid, amount, orderId, hs⟩ := hw
      exact .inr ⟨rfl, hs.notifications⟩
  | createPlant | updatePlant | setPlantStatus =>
    obtain ⟨_, -, he, -⟩ := hp
    exact .inr ⟨rfl, he.notifications⟩
  | createCustomer | updateCustomer | setCustomerStatus =>
    obtain ⟨_, -, he, -⟩ := hp
    exact .inr ⟨rfl, he.notifications⟩

/-- Raising a notification leaves the others. -/
theorem Noted.stay {draft : OrderDraft} {h : Set Key} {d : Db} {id : UUID} {number : Text}
    {writes : Table UUID Notification → Table UUID Notification}
    (hn : Noted draft h d id number writes) {nid : UUID} {n : Notification}
    (hget : d.notifications.get nid = some n) : (writes d.notifications).get nid = some n := by
  cases hn with
  | silent => exact hget
  | queued => exact Table.get_insert_of_get hget

theorem Request.notificationsStay {S : Scope} {site : Deployment} {request : Request}
    {reply : Reply} {h : Set Key} {b : List (Db → Db)} {d : Db}
    (hp : request.post S site reply h b d) : NotificationsStay d (flush b d) := by
  intro id n hn
  refine ⟨n, ?_, .refl n⟩
  rcases Request.notifications_cases hp with ⟨draft, now, oid, order, -, -, hplaced⟩ | ⟨-, hsame⟩
  · obtain ⟨writes, hnoted, hwrites⟩ := hplaced.notifications
    rw [hwrites]
    exact hnoted.stay hn
  · rw [hsame, hn]

/-! ### Marking -/

/-- Some rows of the inbox marked as read. -/
def markRead (ids : List UUID) (t : Table UUID Notification) : Table UUID Notification :=
  ids.foldl (fun t id => t.modify id Notification.read) t

theorem markRead_concat (ids : List UUID) (id : UUID) (t : Table UUID Notification) :
    markRead (ids ++ [id]) t = (markRead ids t).modify id Notification.read := by
  simp [markRead]

theorem get_markRead (ids : List UUID) (t : Table UUID Notification) (id : UUID) :
    (markRead ids t).get id =
      (t.get id).map fun n => if id ∈ ids then n.read else n := by
  induction ids generalizing t with
  | nil => simp [markRead]
  | cons i ids ih =>
    show (markRead ids (t.modify i Notification.read)).get id = _
    rw [ih]
    rcases eq_or_ne id i with rfl | hne
    · rw [Table.get_modify_self, Option.map_map]
      congr 1
      funext n
      by_cases hmem : id ∈ ids <;> simp [hmem, Notification.read]
    · rw [Table.get_modify_of_ne _ hne]
      simp [hne]

/-- The staged writes mark these rows and touch nothing else. -/
def StagesRead (ids : List UUID) (b : List (SiteDb → SiteDb)) : Prop :=
  ∀ s, flush b s
    = { s with shop := { s.shop with notifications := markRead ids s.shop.notifications } }

theorem stagesRead_nil : StagesRead [] [] := fun _ => rfl

theorem StagesRead.concat {ids : List UUID} {b : List (SiteDb → SiteDb)} (hb : StagesRead ids b)
    (id : UUID) : StagesRead (ids ++ [id]) (stageRead id :: b) := by
  intro s
  rw [flush_cons, hb, markRead_concat]
  rfl

/-- Marking rows is a change under their locks. -/
theorem StagesRead.change {ids : List UUID} {b : List (SiteDb → SiteDb)} (hb : StagesRead ids b)
    {h : Set SiteKey} (hids : ∀ id ∈ ids, .shop (.notification id) ∈ h) (s : SiteDb) :
    SiteChange h s (flush b s) := by
  have hget := fun id => get_markRead ids s.shop.notifications id
  rw [hb]
  refine .of_shop rfl ?_ fun id n hn => ?_
  · exact
      { plant := fun _ _ => rfl
        plants := fun _ h => h
        customer := fun _ _ => rfl
        customers := fun _ h => h
        phone := fun _ _ h => h
        order := fun _ _ => rfl
        orders := fun _ o h => ⟨o, h, rfl⟩
        numbers := fun _ => rfl
        status := fun _ _ o _ h => ⟨o, h, rfl⟩
        notification := fun id hid => by
          have hnot : id ∉ ids := fun hmem => hid (hids id hmem)
          show (markRead ids s.shop.notifications).get id = _
          rw [hget]
          simp [hnot]
        transaction := fun _ _ => rfl
        provider := fun _ _ h => h
        recorded := fun _ h => h }
  · refine ⟨if id ∈ ids then n.read else n, ?_, ?_⟩
    · show (markRead ids s.shop.notifications).get id = _
      rw [hget, hn, Option.map_some]
    · split
      · exact n.later_read
      · exact .refl n

theorem isUnread_eq_true {s : SiteDb} {id : UUID} :
    isUnread s id = true ↔ ∃ n, s.shop.notifications.get id = some n ∧ n.isRead = false := by
  rw [isUnread, Option.any_eq_true]
  simp

/-! ### Triples -/

/-- What marking one notification commits. -/
def MarkPost (id : UUID) (h : Set SiteKey) (b : List (SiteDb → SiteDb)) (s : SiteDb) : Prop :=
  (∃ ids, (ids = [] ∨ ids = [id]) ∧ StagesRead ids b ∧
    ∀ i ∈ ids, SiteKey.shop (.notification i) ∈ h) ∧
  ∃ n, (flush b s).shop.notifications.get id = some n ∧ n.isRead = true

/-- What marking all of them commits: `n` rows, each unread until then. -/
def MarkAllPost (n : ℕ) (h : Set SiteKey) (b : List (SiteDb → SiteDb)) (s : SiteDb) : Prop :=
  ∃ ids, ids.Nodup ∧ n = ids.length ∧ StagesRead ids b ∧
    ∀ i ∈ ids, SiteKey.shop (.notification i) ∈ h ∧ isUnread s i = true

/-- A review that was submitted: pending, as the payload has it, about a plant
or about the shop. -/
structure Submitted (sent : ReviewCreate) (aboutPlant : Bool) (review : Review) (s : SiteDb) :
    Prop where
  payload : ∃ payload, admitReview sent = .ok payload ∧ review.name = payload.name ∧
    review.rating = payload.rating ∧ review.content = payload.content
  status : review.status = .pending
  plant : (aboutPlant = false ∧ review.plantId = none) ∨ (aboutPlant = true ∧
    ∃ id, review.plantId = some id ∧ (s.shop.plants.get id).isSome)

/-- What a submission commits. -/
def SubmitPost (sent : ReviewCreate) (aboutPlant : Bool) (id : UUID) (h : Set SiteKey)
    (b : List (SiteDb → SiteDb)) (s : SiteDb) : Prop :=
  .review id ∈ h ∧ s.reviews.get id = none ∧ ∃ review, Submitted sent aboutPlant review s ∧
    flush b s = { s with reviews := s.reviews.insert id review }

/-- What a moderation commits. -/
def ModeratePost (id : UUID) (status : ReviewStatus) (h : Set SiteKey)
    (b : List (SiteDb → SiteDb)) (s : SiteDb) : Prop :=
  b = [] ∨ (.review id ∈ h ∧
    flush b s
      = { s with reviews := s.reviews.modify id fun review => { review with status := status } })

/-- What a request of the site commits. -/
def SiteRequest.post (site : SiteDeployment) :
    SiteRequest → SiteReply → Set SiteKey → List (SiteDb → SiteDb) → SiteDb → Prop
  | .shop request, reply, h, b, s => ∃ r b', reply = .shop r ∧ b = b'.map inSite.onPart ∧
      request.post lockScope site.shop r (inSite.locks h) b' s.shop
  | .markNotificationRead id, reply, h, b, s => reply = .row id ∧ MarkPost id h b s
  | .markAllNotificationsRead, reply, h, b, s => ∃ n, reply = .updated n ∧ MarkAllPost n h b s
  | .postPublicReview sent, reply, h, b, s => ∃ id, reply = .row id ∧ SubmitPost sent false id h b s
  | .postPublicPlantReview _ sent, reply, h, b, s =>
      ∃ id, reply = .row id ∧ SubmitPost sent true id h b s
  | .setReviewStatus id status, reply, h, b, s => reply = .row id ∧ ModeratePost id status h b s
  | .getPublicReviews _ _, reply, _, b, _ => ∃ response, reply = .reviews response ∧ b = []
  | .getPublicPlantReviews _ _ _, reply, _, b, _ => ∃ response, reply = .reviews response ∧ b = []

/-- A locked notification is as it was. -/
theorem siteRely.notification {h : Set SiteKey} {s s' : SiteDb} (hd : siteRely.rel h s s')
    {id : UUID} (hid : SiteKey.shop (.notification id) ∈ h) :
    s'.shop.notifications.get id = s.shop.notifications.get id :=
  hd.shop.notification id fun hnot => hnot hid

theorem siteRely.isUnread {h : Set SiteKey} {s s' : SiteDb} (hd : siteRely.rel h s s')
    {id : UUID} (hid : SiteKey.shop (.notification id) ∈ h)
    (hun : GreenGarden.isUnread s id = true) : GreenGarden.isUnread s' id = true := by
  rwa [GreenGarden.isUnread, siteRely.notification hd hid]

/-- A locked review is as it was. -/
theorem siteRely.review {h : Set SiteKey} {s s' : SiteDb} (hd : siteRely.rel h s s')
    {id : UUID} (hid : SiteKey.review id ∈ h) : s'.reviews.get id = s.reviews.get id :=
  hd.review id fun hnot => hnot hid

section Triples

variable {β : Type} {F : SiteError → SiteDb → Prop} {h : Set SiteKey}
variable {b : List (SiteDb → SiteDb)} {s : SiteDb}
variable {Q : β → Set SiteKey → List (SiteDb → SiteDb) → SiteDb → Prop}

/-- The rows of an UPDATE, one after the other: those that are still unread
once they are locked are marked and counted. -/
theorem wp_markEach {ids done : List UUID} {g : ℕ → SiteSession β}
    (hnd : (done ++ ids).Nodup) (hb : StagesRead done b)
    (hdone : ∀ i ∈ done, SiteKey.shop (.notification i) ∈ h ∧ isUnread s i = true)
    (hg : ∀ more h' b' s', (done ++ more).Nodup → StagesRead (done ++ more) b' →
      (∀ i ∈ done ++ more, SiteKey.shop (.notification i) ∈ h' ∧ isUnread s' i = true) →
      wp siteRely F (g more.length) Q h' b' s') :
    wp siteRely F (markEach ids >>= g) Q h b s := by
  induction ids generalizing done h b s g with
  | nil =>
    rw [List.append_nil] at hnd
    have hend := hg [] h b s
    rw [List.append_nil] at hend
    exact hend hnd hb hdone
  | cons id ids ih =>
    have hfresh : id ∉ done := fun hmem =>
      List.disjoint_of_nodup_append hnd hmem List.mem_cons_self
    simp only [markEach, bind_assoc, pure_bind]
    refine wp_acquire fun s₁ hs₁ => wp_query fun s₂ hs₂ => ?_
    have hsub := Set.subset_insert (SiteKey.shop (.notification id)) h
    have hs₁₂ := siteRely.trans hs₁ (siteRely.anti hsub hs₂)
    have hdone₂ : ∀ i ∈ done, SiteKey.shop (.notification i) ∈
        insert (SiteKey.shop (.notification id)) h ∧ isUnread s₂ i = true :=
      fun i hi => ⟨.inr (hdone i hi).1, siteRely.isUnread hs₁₂ (hdone i hi).1 (hdone i hi).2⟩
    -- the row as the statement sees it: its own writes are on other rows
    have hsame : isUnread (flush b s₂) id = isUnread s₂ id := by
      rw [hb, isUnread, isUnread]
      show ((markRead done s₂.shop.notifications).get id).any _ = _
      rw [get_markRead]
      simp [hfresh]
    rw [hsame]
    refine wp_whenElse (fun hun => ?_) fun _ => ?_
    · rw [bind_assoc]
      refine wp_stage ?_
      rw [pure_bind]
      refine ih (by simpa using hnd) (hb.concat id) ?_ ?_
      · intro i hi
        rcases List.mem_append.mp hi with hi | hi
        · exact hdone₂ i hi
        · rw [List.mem_singleton.mp hi]
          exact ⟨.inl rfl, hun⟩
      · intro more h' b' s' hnd' hb' hmarked
        rw [List.append_assoc] at hnd' hb' hmarked
        rw [Nat.add_comm]
        exact hg (id :: more) h' b' s' hnd' hb' hmarked
    · refine ih (hnd.sublist (by simp)) hb hdone₂ ?_
      intro more h' b' s' hnd' hb' hmarked
      rw [Nat.zero_add]
      exact hg more h' b' s' hnd' hb' hmarked

theorem wp_markAllNotificationsRead :
    wp siteRely F markAllNotificationsRead (Stable siteRely fun n h b s => MarkAllPost n h b s)
      h [] s := by
  rw [markAllNotificationsRead]
  refine wp_outside fun v _ => wp_query fun s₁ _ => ?_
  have hnd : (v.scan ((flush [] s₁).shop.notifications.keys.filter
      (isUnread (flush [] s₁)))).Nodup :=
    (v.scan_perm _).nodup_iff.mpr (s₁.shop.notifications.nodup.filter _)
  rw [← bind_pure (markEach _)]
  refine wp_markEach (by simpa using hnd) stagesRead_nil (by simp) ?_
  intro more h' b' s' hnd' hb' hmarked
  refine wp_pure fun s'' hs'' => ⟨more, hnd', rfl, hb', fun i hi => ?_⟩
  exact ⟨(hmarked i hi).1, siteRely.isUnread hs'' (hmarked i hi).1 (hmarked i hi).2⟩

theorem wp_markNotificationRead (id : UUID) :
    wp siteRely (fun _ _ => True) (markNotificationRead id)
      (Stable siteRely fun row h b s => row = id ∧ MarkPost id h b s) h [] s := by
  rw [markNotificationRead, getNotification, bind_assoc]
  refine wp_query fun s₁ _ => ?_
  rw [flush_nil]
  rcases hget : s₁.shop.notifications.get id with - | n
  · exact wp_fail trivial
  rw [pure_bind]
  -- the row stays, as itself or as read
  have stays : ∀ {h' : Set SiteKey} {s' : SiteDb}, siteRely.rel h' s₁ s' →
      ∃ n', s'.shop.notifications.get id = some n' ∧ n.Later n' :=
    fun hs' => hs'.notifications id n hget
  refine wp_whenElse (fun _ => ?_) fun hread => ?_
  · rw [bind_assoc]
    refine wp_acquire fun s₂ hs₂ => wp_stage (wp_pure fun s₃ hs₃ => ⟨rfl, ?_, ?_⟩)
    · exact ⟨[id], .inr rfl, stagesRead_nil.concat id, by simp⟩
    · obtain ⟨n₂, hn₂, hl₂⟩ := stays hs₂
      obtain ⟨n₃, hn₃, -⟩ := hs₃.notifications id n₂ hn₂
      refine ⟨n₃.read, ?_, rfl⟩
      rw [stagesRead_nil.concat id]
      show (markRead [id] s₃.shop.notifications).get id = _
      rw [get_markRead, hn₃]
      simp
  · refine wp_pure fun s₂ hs₂ => ⟨rfl, ⟨[], .inl rfl, stagesRead_nil, by simp⟩, ?_⟩
    obtain ⟨n₂, hn₂, hl₂⟩ := stays hs₂
    exact ⟨n₂, hn₂, hl₂.isRead (by simpa using hread)⟩

/-- A submission stores what the payload says. -/
theorem wp_createReview {sent payload : ReviewCreate} {aboutPlant : Bool} {plantId : Option UUID}
    (hpayload : admitReview sent = .ok payload)
    (hplant : (aboutPlant = false ∧ plantId = none) ∨ (aboutPlant = true ∧
      ∃ id, plantId = some id)) :
    wp siteRely (fun _ _ => True)
      (createReview payload.name payload.rating payload.content plantId)
      (Stable siteRely fun id h b s => SubmitPost sent aboutPlant id h b s) h [] s := by
  rw [createReview]
  refine wp_outside fun v _ => wp_acquire fun s₁ _ => wp_query fun s₂ _ => ?_
  refine wp_failIf (fun _ => trivial) fun hfree => ?_
  refine wp_ofExcept (fun _ _ => trivial) fun rating hrating => wp_query fun s₃ hs₃ => ?_
  refine wp_failIf (fun _ => trivial) fun hknown => wp_stage (wp_pure fun s₄ hs₄ => ?_)
  have hmem : SiteKey.review v.shop.uuid ∈ insert (SiteKey.review v.shop.uuid) h := .inl rfl
  refine ⟨hmem, ?_, _, ⟨⟨payload, hpayload, rfl, ?_, rfl⟩, rfl, ?_⟩, rfl⟩
  · rw [siteRely.review hs₄ hmem, siteRely.review hs₃ hmem]
    simpa using hfree
  · show rating.1 = payload.rating
    unfold storeRating at hrating
    split at hrating
    · rw [← Except.ok.inj hrating]
    · cases hrating
  · rcases hplant with ⟨habout, rfl⟩ | ⟨habout, id, rfl⟩
    · exact .inl ⟨habout, rfl⟩
    · have hplant : (s₃.shop.plants.get id).isSome := by
        rw [Bool.not_eq_false, Option.all_some] at hknown
        exact hknown
      exact .inr ⟨habout, id, rfl, hs₄.shop.plants id hplant⟩

theorem wp_setReviewStatus (id : UUID) (status : ReviewStatus) :
    wp siteRely (fun _ _ => True) (setReviewStatus id status)
      (Stable siteRely fun row h b s => row = id ∧ ModeratePost id status h b s) h [] s := by
  rw [setReviewStatus, getReview, bind_assoc]
  refine wp_query fun s₁ _ => ?_
  rcases hget : (flush [] s₁).reviews.get id with - | review
  · exact wp_fail trivial
  rw [pure_bind]
  refine wp_whenElse (fun _ => ?_) fun _ => wp_pure fun _ _ => ⟨rfl, .inl rfl⟩
  rw [bind_assoc]
  exact wp_acquire fun s₂ _ => wp_stage (wp_pure fun s₃ _ => ⟨rfl, .inr ⟨.inl rfl, rfl⟩⟩)

/-- A triple of the shop, in the site. -/
theorem wp_inSite {α : Type} {t : Session α} {F : Error → Db → Prop}
    {P : α → Set Key → List (Db → Db) → Db → Prop}
    (ht : wp lockScope.rely F t P (inSite.locks h) [] s.shop) :
    wp siteRely (fun _ _ => True) (t.into inSite)
      (fun a h b s => ∃ b', b = b'.map inSite.onPart ∧ P a (inSite.locks h) b' s.shop) h [] s :=
  wp_into inSite siteRely_shop (fun _ _ => trivial) (fun _ _ _ => trivial) ht

/-- A lookup of a plant by its slug stages nothing. -/
theorem wp_getActivePlantOr404 {casing : Casing} {slug : Text} {g : UUID × Plant → SiteSession β}
    (hg : ∀ found h' s', wp siteRely (fun _ _ => True) (g found) Q h' [] s') :
    wp siteRely (fun _ _ => True) ((getActivePlantOr404 casing slug).into inSite >>= g)
      Q h [] s := by
  have hlookup : wp lockScope.rely (fun _ _ => True) (getActivePlantOr404 casing slug)
      (fun _ _ b _ => b = []) (inSite.locks h) [] s.shop := by
    rw [getActivePlantOr404, getPlantBySlug]
    refine wp_query fun d₁ _ => ?_
    split
    · exact wp_pure rfl
    · refine wp_query fun d₂ _ => ?_
      split
      · exact wp_pure rfl
      · trivial
  refine wp_bind (wp_mono (fun _ _ _ => trivial) (fun found h' b' s' hq => ?_)
    (wp_inSite hlookup))
  obtain ⟨b, rfl, rfl⟩ := hq
  exact hg found h' s'

theorem wp_publicReviewPage {locale : DbLocale} {page pageSize : ℕ} {plantId : Option UUID}
    {scope : Option ReviewScope} :
    wp siteRely (fun _ _ => True) (publicReviewPage locale page pageSize plantId scope)
      (fun _ _ b _ => b = []) h [] s := by
  rw [publicReviewPage, listReviews, bind_assoc]
  refine wp_query fun s₁ _ => ?_
  rw [bind_assoc]
  refine wp_query fun s₂ _ => ?_
  rw [pure_bind, getReviewSummary, bind_assoc]
  exact wp_query fun s₃ _ => wp_pure rfl

/-- Hand on what a body returns. -/
theorem wp_reply {α : Type} {t : SiteSession α} {g : α → SiteReply}
    {P : α → Set SiteKey → List (SiteDb → SiteDb) → SiteDb → Prop}
    {P' : SiteReply → Set SiteKey → List (SiteDb → SiteDb) → SiteDb → Prop}
    (himp : ∀ a h b s, P a h b s → P' (g a) h b s)
    (ht : wp siteRely (fun _ _ => True) t (Stable siteRely P) h [] s) :
    wp siteRely (fun _ _ => True) (t >>= fun a => pure (g a)) (Stable siteRely P') h [] s :=
  wp_bind (wp_mono (fun _ _ _ => trivial)
    (fun a h b _ hq => wp_pure fun s' hs' => himp a h b s' (hq s' hs')) ht)

/-- **Every request of the site meets its triple.** -/
theorem SiteRequest.triple (site : SiteDeployment) (request : SiteRequest) :
    wp siteRely (fun _ _ => True) (request.body site) (Stable siteRely (request.post site))
      ∅ [] s := by
  cases request with
  | shop request =>
    have hshop := @Request.triple lockScope site.shop s.shop request trivial
    have hnone : {k | k ∈ if lockScope.serialized = true then request.token else []} =
        inSite.locks ∅ := by
      ext k
      simp [lockScope]
    rw [hnone] at hshop
    refine wp_bind (wp_mono (fun _ _ _ => trivial) (fun r h b s₁ hq => ?_) (wp_inSite hshop))
    obtain ⟨b', rfl, hq⟩ := hq
    exact wp_pure fun s₂ hs₂ => ⟨r, b', rfl, rfl, hq s₂.shop (siteRely_shop h s₁ s₂ hs₂)⟩
  | markNotificationRead id =>
    exact wp_reply (fun a h b s hp => ⟨by rw [hp.1], hp.2⟩) (wp_markNotificationRead id)
  | markAllNotificationsRead =>
    exact wp_reply (fun n h b s hp => ⟨n, rfl, hp⟩) wp_markAllNotificationsRead
  | postPublicReview sent =>
    refine wp_reply (fun id h b s hp => ⟨id, rfl, hp⟩) ?_
    rw [GreenGarden.postPublicReview]
    refine wp_ofExcept (fun _ _ => trivial) fun payload hpayload => ?_
    exact wp_createReview hpayload (.inl ⟨rfl, rfl⟩)
  | postPublicPlantReview slug sent =>
    refine wp_reply (fun id h b s hp => ⟨id, rfl, hp⟩) ?_
    rw [GreenGarden.postPublicPlantReview]
    refine wp_ofExcept (fun _ _ => trivial) fun payload hpayload => ?_
    refine wp_getActivePlantOr404 fun found h' s' => ?_
    exact wp_createReview hpayload (.inr ⟨rfl, found.1, rfl⟩)
  | setReviewStatus id status =>
    exact wp_reply (fun a h b s hp => ⟨by rw [hp.1], hp.2⟩) (wp_setReviewStatus id status)
  | getPublicReviews page pageSize =>
    refine wp_reply (P := fun _ _ b _ => b = []) (fun r h b s hp => ⟨r, rfl, hp⟩) ?_
    exact wp_mono (fun _ _ _ => trivial) (fun _ _ _ _ hb _ _ => hb) wp_publicReviewPage
  | getPublicPlantReviews slug page pageSize =>
    refine wp_reply (P := fun _ _ b _ => b = []) (fun r h b s hp => ⟨r, rfl, hp⟩) ?_
    rw [GreenGarden.getPublicPlantReviews]
    refine wp_getActivePlantOr404 fun found h' s' => ?_
    exact wp_mono (fun _ _ _ => trivial) (fun _ _ _ _ hb _ _ => hb) wp_publicReviewPage

end Triples

/-! ### The contract -/

/-- What a submission does to the reviews. -/
theorem SubmitPost.change {sent : ReviewCreate} {aboutPlant : Bool} {id : UUID} {h : Set SiteKey}
    {b : List (SiteDb → SiteDb)} {s : SiteDb} (hp : SubmitPost sent aboutPlant id h b s) :
    SiteChange h s (flush b s) := by
  obtain ⟨hid, hnew, review, -, hflush⟩ := hp
  rw [hflush]
  refine .of_reviews rfl (fun rid hrid => ?_) fun rid r hr => ?_
  · have hne : rid ≠ id := by
      rintro rfl
      exact hrid hid
    show (s.reviews.insert id review).get rid = _
    rw [Table.get_insert hnew, if_neg hne]
  · exact ⟨r, Table.get_insert_of_get hr, rfl⟩

/-- What a moderation does to the reviews. -/
theorem ModeratePost.change {id : UUID} {status : ReviewStatus} {h : Set SiteKey}
    {b : List (SiteDb → SiteDb)} {s : SiteDb} (hp : ModeratePost id status h b s) :
    SiteChange h s (flush b s) := by
  rcases hp with rfl | ⟨hid, hflush⟩
  · exact .refl s
  rw [hflush]
  refine .of_reviews rfl (fun rid hrid => ?_) fun rid r hr => ?_
  · have hne : rid ≠ id := by
      rintro rfl
      exact hrid hid
    exact Table.get_modify_of_ne _ hne _
  · rcases eq_or_ne rid id with rfl | hne
    · refine ⟨{ r with status := status }, ?_, rfl⟩
      show (s.reviews.modify rid _).get rid = _
      rw [Table.get_modify_self, hr, Option.map_some]
    · refine ⟨r, ?_, rfl⟩
      show (s.reviews.modify id _).get rid = _
      rw [Table.get_modify_of_ne _ hne, hr]

/-- Whatever a request commits is a change under the locks it holds. -/
theorem SiteRequest.post_change {site : SiteDeployment} {request : SiteRequest}
    {reply : SiteReply} {h : Set SiteKey} {b : List (SiteDb → SiteDb)} {s : SiteDb}
    (hp : request.post site reply h b s) : SiteChange h s (flush b s) := by
  cases request with
  | shop request =>
    obtain ⟨r, b, -, rfl, hpost⟩ := hp
    have hshop : (flush (b.map inSite.onPart) s).shop = flush b s.shop := inSite.get_flush b s
    refine .of_shop (inSite.flush_frame (fun _ _ => rfl) b s) ?_ ?_
    · rw [hshop]
      exact Request.post_change hpost
    · rw [hshop]
      exact Request.notificationsStay hpost
  | markNotificationRead id =>
    obtain ⟨-, ⟨ids, -, hb, hids⟩, -⟩ := hp
    exact hb.change hids s
  | markAllNotificationsRead =>
    obtain ⟨n, -, ids, -, -, hb, hids⟩ := hp
    exact hb.change (fun i hi => (hids i hi).1) s
  | postPublicReview sent =>
    obtain ⟨id, -, hpost⟩ := hp
    exact hpost.change
  | postPublicPlantReview slug sent =>
    obtain ⟨id, -, hpost⟩ := hp
    exact hpost.change
  | setReviewStatus id status => exact hp.2.change
  | getPublicReviews | getPublicPlantReviews =>
    obtain ⟨_, -, rfl⟩ := hp
    exact .refl s

/-- **The contract of the site**, for any family of requests. -/
def siteContract {ι : Type} (site : SiteDeployment) (requests : ι → SiteRequest) :
    Contract (wholeSite site requests) where
  rely := siteRely
  inv _ := True
  post i := (requests i).post site
  error _ _ _ := True
  answers _ := trivial
  triple i s _ := by
    have hnone : {k : SiteKey | k ∈ (wholeSite site requests).token i} = ∅ := by
      ext k
      simp [wholeSite]
    rw [hnone]
    exact (requests i).triple site
  keeps _ _ _ _ _ _ _ := trivial
  respects i reply h _ b s hp _ hdisj :=
    (SiteRequest.post_change hp).mono (Set.subset_compl_iff_disjoint_right.mpr hdisj)

section Runs

variable {ι : Type} [DecidableEq ι] (site : SiteDeployment) (requests : ι → SiteRequest)
variable (start : SiteDb) (ms : ℕ → Move ι SiteOutside)

/-- The site after `n` moves. -/
abbrev siteRun (n : ℕ) : State ι SiteDb SiteKey SiteOutside SiteError SiteReply :=
  trace (wholeSite site requests) start ms n

/-- One move: nothing is committed, or one request is. -/
theorem siteRun_step (n : ℕ) :
    ((siteRun site requests start ms (n + 1)).db = (siteRun site requests start ms n).db ∧
      (siteRun site requests start ms (n + 1)).result =
        (siteRun site requests start ms n).result) ∨
    ∃ i reply h b,
      (requests i).post site reply h b (siteRun site requests start ms n).db ∧
      (siteRun site requests start ms (n + 1)).db
        = flush b (siteRun site requests start ms n).db ∧
      (siteRun site requests start ms (n + 1)).result
        = Function.update (siteRun site requests start ms n).result i (some reply) := by
  rcases trace_step (wholeSite site requests) start ms n with hsame | ⟨i, reply, b, hc⟩
  · exact .inl hsame
  · have good := (siteContract site requests).good_trace (d := start) trivial ms n
    exact .inr ⟨i, reply, _, b, good.post hc.1, hc.db, hc.result⟩

/-- A later database of the site comes after an earlier one. -/
theorem siteRun_change {m n : ℕ} (hmn : m ≤ n) :
    SiteChange Set.univ (siteRun site requests start ms m).db
      (siteRun site requests start ms n).db := by
  have h := (siteContract site requests).rely_trace trivial ms hmn (d := start)
  exact h.mono (Set.subset_univ _)

end Runs

end GreenGarden
