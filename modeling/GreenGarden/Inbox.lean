/-
GreenGarden/Inbox.lean

The admins' inbox, with everything else that happens on the site going on.

Every order of the storefront is announced by one notification, written in the
order's own transaction, and an order an admin entered by none.  A notification
keeps its text for ever and is only ever read more.

Admins mark notifications one by one and all at once, side by side.  What "mark
all" reports is what it changed: its counts, over all admins, add up to the
notifications that became read, up to those that were marked by themselves.
And it leaves nothing behind that was there when it began (`cleared`).
-/
import GreenGarden.Moderation

namespace GreenGarden

open Transaction

/-! ### Counting what is read -/

/-- The notifications of a table that are read. -/
def readCount (t : Table UUID Notification) : ℤ :=
  (t.rows.map fun n => if n.isRead = true then (1 : ℤ) else 0).sum

theorem readCount_insert {t : Table UUID Notification} {id : UUID} (hnew : t.get id = none)
    {n : Notification} (hn : n.isRead = false) : readCount (t.insert id n) = readCount t := by
  rw [readCount, Table.rows_insert hnew, List.map_append, List.sum_append]
  simp [readCount, hn]

theorem readCount_modify {t : Table UUID Notification} {id : UUID} {n : Notification}
    (hn : t.get id = some n) : readCount (t.modify id Notification.read)
      = readCount t + if n.isRead = true then 0 else 1 := by
  rw [readCount, Table.sum_modify t hn]
  show readCount t - _ + 1 = _
  split <;> ring

/-- Marking rows that are unread counts each of them. -/
theorem readCount_markRead {ids : List UUID} (hnd : ids.Nodup) {t : Table UUID Notification}
    (hunread : ∀ id ∈ ids, ∃ n, t.get id = some n ∧ n.isRead = false) :
    readCount (markRead ids t) = readCount t + ids.length := by
  induction ids generalizing t with
  | nil => simp [markRead]
  | cons id ids ih =>
    obtain ⟨hnot, hnd⟩ := List.nodup_cons.mp hnd
    obtain ⟨n, hn, hread⟩ := hunread id List.mem_cons_self
    have hrest : ∀ i ∈ ids, ∃ n, (t.modify id Notification.read).get i = some n ∧
        n.isRead = false := by
      intro i hi
      have hne : i ≠ id := by
        rintro rfl
        exact hnot hi
      rw [Table.get_modify_of_ne _ hne]
      exact hunread i (List.mem_cons_of_mem _ hi)
    show readCount (markRead ids (t.modify id Notification.read)) = _
    rw [ih hnd hrest, readCount_modify hn, hread, List.length_cons]
    push_cast
    ring

/-- Marking one row counts it, if it was unread. -/
theorem readCount_one {id : UUID} (t : Table UUID Notification) :
    readCount t ≤ readCount (markRead [id] t) ∧
      readCount (markRead [id] t) ≤ readCount t + 1 := by
  show readCount t ≤ readCount (t.modify id Notification.read) ∧
    readCount (t.modify id Notification.read) ≤ readCount t + 1
  rcases hn : t.get id with - | n
  · have hsame : readCount (t.modify id Notification.read) = readCount t := by
      have hrows := Table.map_rows_modify t id Notification.read
        (fun n => if n.isRead = true then (1 : ℤ) else 0) fun r hr => by
          rw [hn] at hr
          cases hr
      rw [readCount, hrows, readCount]
    rw [hsame]
    exact ⟨le_refl _, by omega⟩
  · rw [readCount_modify hn]
    split <;> omega

/-! ### Commits -/

/-- The order a request places, with its draft, if it places one. -/
def SiteRequest.draft? : SiteRequest → Option OrderDraft
  | .shop request => request.draft?
  | _ => none

/-- What a mark-all reports. -/
def SiteReply.count : SiteReply → ℤ
  | .updated n => n
  | _ => 0

/-- What marking one notification may add. -/
def SiteRequest.marksOne : SiteRequest → ℤ
  | .markNotificationRead _ => 1
  | _ => 0

/-- What a commit does to the inbox: it places an order, marks rows or leaves
it alone. -/
theorem SiteRequest.inbox_cases {site : SiteDeployment} {request : SiteRequest}
    {reply : SiteReply} {h : Set SiteKey} {b : List (SiteDb → SiteDb)} {s : SiteDb}
    (hp : request.post site reply h b s) :
    (∃ draft now id order, request.draft? = some draft ∧ reply = .shop (.row id) ∧
      ∃ k, Placed lockScope now draft id order k s.shop (flush b s).shop) ∨
    request.draft? = none ∧
      ∃ ids, (flush b s).shop.notifications = markRead ids s.shop.notifications ∧
        readCount s.shop.notifications + reply.count
          ≤ readCount (flush b s).shop.notifications ∧
        readCount (flush b s).shop.notifications
          ≤ readCount s.shop.notifications + reply.count + request.marksOne := by
  -- commits that leave the inbox alone and report nothing
  have alone : request.draft? = none → (flush b s).shop.notifications = s.shop.notifications →
      reply.count = 0 → request.marksOne = 0 → request.draft? = none ∧
      ∃ ids, (flush b s).shop.notifications = markRead ids s.shop.notifications ∧
        readCount s.shop.notifications + reply.count
          ≤ readCount (flush b s).shop.notifications ∧
        readCount (flush b s).shop.notifications
          ≤ readCount s.shop.notifications + reply.count + request.marksOne := by
    intro hnone hsame hcount hone
    refine ⟨hnone, [], hsame, ?_, ?_⟩
    · rw [hsame, hcount, Int.add_zero]
    · rw [hsame, hcount, hone]
      omega
  cases request with
  | shop request =>
    obtain ⟨r, b, rfl, rfl, hpost⟩ := hp
    have hshop : (flush (b.map inSite.onPart) s).shop = flush b s.shop := inSite.get_flush b s
    rcases Request.notifications_cases hpost with ⟨draft, now, id, order, hdraft, rfl, hplaced⟩ |
      ⟨hnone, hsame⟩
    · exact .inl ⟨draft, now, id, order, hdraft, rfl, _, by rw [hshop]; exact hplaced⟩
    · exact .inr (alone hnone (by rw [hshop, hsame]) rfl rfl)
  | markNotificationRead id =>
    obtain ⟨rfl, ⟨ids, hids, hb, -⟩, -⟩ := hp
    refine .inr ⟨rfl, ids, by rw [hb], ?_⟩
    rw [hb]
    show readCount s.shop.notifications + 0 ≤ readCount (markRead ids s.shop.notifications) ∧
      readCount (markRead ids s.shop.notifications) ≤ readCount s.shop.notifications + 0 + 1
    rcases hids with rfl | rfl
    · exact ⟨by show _ ≤ readCount s.shop.notifications; omega,
        by show readCount s.shop.notifications ≤ _; omega⟩
    · have h := @readCount_one id s.shop.notifications
      omega
  | markAllNotificationsRead =>
    obtain ⟨n, rfl, ids, hnd, rfl, hb, hids⟩ := hp
    have hcount := readCount_markRead hnd (t := s.shop.notifications)
      fun i hi => isUnread_eq_true.mp (hids i hi).2
    refine .inr ⟨rfl, ids, by rw [hb], ?_⟩
    rw [hb]
    show readCount s.shop.notifications + ids.length
        ≤ readCount (markRead ids s.shop.notifications) ∧
      readCount (markRead ids s.shop.notifications)
        ≤ readCount s.shop.notifications + ids.length + 0
    omega
  | postPublicReview sent =>
    obtain ⟨id, rfl, -, -, review, -, hflush⟩ := hp
    exact .inr (alone rfl (by rw [hflush]) rfl rfl)
  | postPublicPlantReview slug sent =>
    obtain ⟨id, rfl, -, -, review, -, hflush⟩ := hp
    exact .inr (alone rfl (by rw [hflush]) rfl rfl)
  | setReviewStatus id status =>
    obtain ⟨rfl, rfl | ⟨-, hflush⟩⟩ := hp
    · exact .inr (alone rfl rfl rfl rfl)
    · exact .inr (alone rfl (by rw [hflush]) rfl rfl)
  | getPublicReviews | getPublicPlantReviews =>
    obtain ⟨_, rfl, rfl⟩ := hp
    exact .inr (alone rfl rfl rfl rfl)

/-! ### What the inbox tells -/

/-- A notification is about its order, and quotes its number. -/
def Announces (db : Db) (n : Notification) : Prop :=
  ∃ order name, db.orders.get n.entityId = some order ∧ n.type = .newOrder ∧
    n.title = "New order".toList ∧
    n.message = "Order ".toList ++ order.orderNumber ++ " from ".toList ++ name

theorem Announces.step {k : Set Key} {d d' : Db} {n n' : Notification} (ha : Announces d n)
    (hl : n.Later n') (hd : Change false k d d') : Announces d' n' := by
  obtain ⟨order, name, horder, htype, htitle, hmessage⟩ := ha
  obtain ⟨order', horder', hplaced⟩ := hd.orders _ _ horder
  refine ⟨order', name, by rw [hl.entityId, horder'], hl.type.trans htype,
    hl.title.trans htitle, ?_⟩
  have hnumber : order'.placed.orderNumber = order.placed.orderNumber := by rw [hplaced]
  change order'.orderNumber = order.orderNumber at hnumber
  rw [hl.message, hmessage, hnumber]

/-- The notification `id` is about the order `oid`. -/
def Names (t : Table UUID Notification) (oid id : UUID) : Prop :=
  ∃ n, t.get id = some n ∧ n.entityId = oid

theorem names_markRead {ids : List UUID} {t : Table UUID Notification} {oid id : UUID} :
    Names (markRead ids t) oid id ↔ Names t oid id := by
  rw [Names, Names, get_markRead]
  rcases t.get id with - | n
  · simp
  · by_cases hmem : id ∈ ids <;> simp [hmem, Notification.read]

theorem names_insert {t : Table UUID Notification} {noteId : UUID} (hnew : t.get noteId = none)
    {n : Notification} {oid id : UUID} :
    Names (t.insert noteId n) oid id ↔ Names t oid id ∨ id = noteId ∧ oid = n.entityId := by
  rw [Names, Names, Table.get_insert hnew]
  rcases eq_or_ne id noteId with rfl | hne
  · rw [if_pos rfl, hnew]
    simp [eq_comm]
  · simp [hne]

/-- What holds of the inbox after a run from `start` to `s`. -/
structure InboxKept {ι : Type} (requests : ι → SiteRequest) (start s : SiteDb)
    (result : ι → Option SiteReply) : Prop where
  placed : ∀ i draft oid, (requests i).draft? = some draft →
    result i = some (.shop (.row oid)) → (s.shop.orders.get oid).isSome
  once : ∀ i j oid, (requests i).draft?.isSome → (requests j).draft?.isSome →
    result i = some (.shop (.row oid)) → result j = some (.shop (.row oid)) → i = j
  announced : ∀ i draft oid, (requests i).draft? = some draft → draft.source = .storefront →
    result i = some (.shop (.row oid)) →
    ∃! id, start.shop.notifications.get id = none ∧ Names s.shop.notifications oid id
  told : ∀ id n, s.shop.notifications.get id = some n →
    start.shop.notifications.get id = none → Announces s.shop n ∧
      ∃ i draft, (requests i).draft? = some draft ∧ draft.source = .storefront ∧
        result i = some (.shop (.row n.entityId))

/-- The notifications that became read are those that were counted by
marking all, and at most one more for each that was marked by itself. -/
def Counted {ι : Type} (requests : ι → SiteRequest) (start s : SiteDb)
    (result : ι → Option SiteReply) : Prop :=
  ∃ done : Finset ι, (∀ i, i ∈ done ↔ (result i).isSome) ∧
    readCount start.shop.notifications + ∑ i ∈ done, (result i).elim 0 SiteReply.count
      ≤ readCount s.shop.notifications ∧
    readCount s.shop.notifications ≤ readCount start.shop.notifications +
      ∑ i ∈ done, ((result i).elim 0 SiteReply.count + (requests i).marksOne)

/-- What marking one notification adds is never negative. -/
theorem SiteRequest.marksOne_nonneg (request : SiteRequest) : 0 ≤ request.marksOne := by
  cases request <;> simp [SiteRequest.marksOne]

/-- What an order does to the inbox. -/
structure Notified (start d d' : Db) (draft : OrderDraft) (oid : UUID) (number : Text) : Prop where
  announced : draft.source = .storefront →
    ∃! id, start.notifications.get id = none ∧ Names d'.notifications oid id
  others : ∀ {oid'}, oid' ≠ oid → ∀ id,
    Names d'.notifications oid' id ↔ Names d.notifications oid' id
  known : ∀ id n, d'.notifications.get id = some n → d.notifications.get id = some n ∨
    draft.source = .storefront ∧ n.entityId = oid ∧ n.title = "New order".toList ∧
      n.type = .newOrder ∧ ∃ name, n.message
        = "Order ".toList ++ number ++ " from ".toList ++ name

/-- An order marks nothing. -/
theorem Placed.readCount {S : Scope} {now : Instant} {draft : OrderDraft} {oid : UUID}
    {order : Order} {k : Set Key} {d d' : Db} (hp : Placed S now draft oid order k d d') :
    GreenGarden.readCount d'.notifications = GreenGarden.readCount d.notifications := by
  obtain ⟨writes, hnoted, hnotes⟩ := hp.notifications
  rw [hnotes]
  cases hnoted with
  | silent => rfl
  | queued hsource hid hnew => exact readCount_insert hnew rfl

theorem Placed.notified {S : Scope} {now : Instant} {draft : OrderDraft} {oid : UUID}
    {order : Order} {k : Set Key} {start d d' : Db}
    (hp : Placed S now draft oid order k d d')
    (hunnamed : ∀ id, start.notifications.get id = none → ¬ Names d.notifications oid id)
    (hstart : NotificationsStay start d) : Notified start d d' draft oid order.orderNumber := by
  obtain ⟨writes, hnoted, hnotes⟩ := hp.notifications
  cases hnoted with
  | silent hsource =>
    have hsame : d'.notifications = d.notifications := hnotes
    refine ⟨fun hstorefront => ?_, fun _ id => by rw [hsame], fun id n hn => ?_⟩
    · rw [hsource] at hstorefront
      cases hstorefront
    · exact .inl (by rwa [hsame] at hn)
  | @queued noteId name hsource hid hnew =>
    have hfresh : start.notifications.get noteId = none := by
      rcases hget : start.notifications.get noteId with - | n
      · rfl
      · obtain ⟨n', hn', -⟩ := hstart noteId n hget
        rw [hnew] at hn'
        cases hn'
    refine ⟨fun _ => ⟨noteId, ⟨hfresh, ?_⟩, ?_⟩, fun hne id => ?_, fun id n hn => ?_⟩
    · rw [hnotes, names_insert hnew]
      exact .inr ⟨rfl, rfl⟩
    · rintro id ⟨hidfresh, hnames⟩
      rw [hnotes, names_insert hnew] at hnames
      rcases hnames with hold | ⟨rfl, -⟩
      · exact absurd hold (hunnamed id hidfresh)
      · rfl
    · rw [hnotes, names_insert hnew]
      exact ⟨fun h => h.resolve_right fun h => hne h.2, .inl⟩
    · rw [hnotes, Table.get_insert hnew] at hn
      split at hn
      · obtain rfl := Option.some.inj hn
        exact .inr ⟨hsource, rfl, rfl, rfl, name, rfl⟩
      · exact .inl hn

section Commit

variable {ι : Type} [DecidableEq ι] {site : SiteDeployment} {requests : ι → SiteRequest}
variable {start s : SiteDb} {result : ι → Option SiteReply} {i : ι} {reply : SiteReply}
variable {h : Set SiteKey} {b : List (SiteDb → SiteDb)}

/-- The counts after a commit. -/
theorem Counted.commit (hk : Counted requests start s result) (hnone : result i = none)
    (hlow : readCount s.shop.notifications + reply.count
      ≤ readCount (flush b s).shop.notifications)
    (hhigh : readCount (flush b s).shop.notifications
      ≤ readCount s.shop.notifications + reply.count + (requests i).marksOne) :
    Counted requests start (flush b s) (Function.update result i (some reply)) := by
  obtain ⟨done, hdone, hl, hu⟩ := hk
  have hnot : i ∉ done := fun hi => by
    rw [hdone, hnone] at hi
    cases hi
  have hold : ∀ j ∈ done, Function.update result i (some reply) j = result j := by
    intro j hj
    refine Function.update_of_ne ?_ _ _
    rintro rfl
    exact hnot hj
  have hsum : ∀ f : ι → ℤ, (∑ j ∈ done, ((Function.update result i (some reply) j).elim 0
      SiteReply.count + f j)) = ∑ j ∈ done, ((result j).elim 0 SiteReply.count + f j) :=
    fun f => Finset.sum_congr rfl fun j hj => by rw [hold j hj]
  have hsum₀ : (∑ j ∈ done, (Function.update result i (some reply) j).elim 0 SiteReply.count)
      = ∑ j ∈ done, (result j).elim 0 SiteReply.count :=
    Finset.sum_congr rfl fun j hj => by rw [hold j hj]
  refine ⟨insert i done, fun j => ?_, ?_, ?_⟩
  · rw [Finset.mem_insert, hdone]
    rcases eq_or_ne j i with rfl | hj
    · simp
    · simp [hj]
  · rw [Finset.sum_insert hnot, Function.update_self, hsum₀]
    show _ + (reply.count + _) ≤ _
    omega
  · rw [Finset.sum_insert hnot, Function.update_self, hsum]
    show _ ≤ _ + (reply.count + _ + _)
    omega

/-- What earlier requests have placed and announced stays so. -/
theorem InboxKept.commit (hk : InboxKept requests start s result)
    (hstart : SiteChange Set.univ start s) (hp : (requests i).post site reply h b s)
    (hnone : result i = none) :
    InboxKept requests start (flush b s) (Function.update result i (some reply)) := by
  have hchange := SiteRequest.post_change hp
  have hstays := hchange.notifications
  have hne : ∀ {j r}, result j = some r → j ≠ i := by
    rintro j r hj rfl
    rw [hnone] at hj
    cases hj
  have hplaced : ∀ j draft oid, (requests j).draft? = some draft →
      result j = some (.shop (.row oid)) → ((flush b s).shop.orders.get oid).isSome := by
    intro j draft oid hj hr
    obtain ⟨order, ho⟩ := Option.isSome_iff_exists.mp (hk.placed j draft oid hj hr)
    obtain ⟨order', ho', -⟩ := hchange.shop.orders oid order ho
    rw [ho']
    rfl
  -- a notification of before, as it is after the commit
  have htold : ∀ id n n', s.shop.notifications.get id = some n →
      (flush b s).shop.notifications.get id = some n' →
      start.shop.notifications.get id = none → Announces (flush b s).shop n' ∧
      ∃ j draft, (requests j).draft? = some draft ∧ draft.source = .storefront ∧
        Function.update result i (some reply) j = some (.shop (.row n'.entityId)) := by
    intro id n n' hn hn' hfresh
    obtain ⟨hann, j, draft, hj, hsource, hr⟩ := hk.told id n hn hfresh
    obtain ⟨n₁, hn₁, hl⟩ := hstays id n hn
    rw [hn'] at hn₁
    obtain rfl := Option.some.inj hn₁
    refine ⟨hann.step hl hchange.shop, j, draft, hj, hsource, ?_⟩
    rw [Function.update_of_ne (hne hr), hr, hl.entityId]
  rcases SiteRequest.inbox_cases hp with
    ⟨draft, now, oid, order, hi, rfl, k, horder⟩ | ⟨hi, ids, hnotes, -, -⟩
  · -- an order: its id is new, so nobody has placed it and nothing is about it
    have hnew : s.shop.orders.get oid = none := horder.fresh
    have hother : ∀ j draft', (requests j).draft? = some draft' →
        result j ≠ some (.shop (.row oid)) := by
      intro j draft' hj hr
      have hsome := hk.placed j draft' oid hj hr
      rw [hnew] at hsome
      cases hsome
    have hunnamed : ∀ id, start.shop.notifications.get id = none →
        ¬ Names s.shop.notifications oid id := by
      rintro id hfresh ⟨n, hn, rfl⟩
      obtain ⟨⟨o, -, ho, -⟩, -⟩ := hk.told id n hn hfresh
      rw [hnew] at ho
      cases ho
    have hgot : (flush b s).shop.orders.get oid = some order := by
      rw [horder.orders, Table.get_insert_self hnew]
    have hinbox := horder.notified hunnamed hstart.notifications
    refine ⟨fun j draft' oid' hj hr => ?_, fun j j' oid' hj hj' hr hr' => ?_,
      fun j draft' oid' hj hsource hr => ?_, fun id n hn hfresh => ?_⟩
    · rcases eq_or_ne j i with rfl | hji
      · rw [Function.update_self] at hr
        cases hr
        rw [hgot]
        rfl
      · rw [Function.update_of_ne hji] at hr
        exact hplaced j draft' oid' hj hr
    · obtain ⟨draft₁, hdraft₁⟩ := Option.isSome_iff_exists.mp hj
      obtain ⟨draft₂, hdraft₂⟩ := Option.isSome_iff_exists.mp hj'
      rcases eq_or_ne j i with rfl | hji
      · rcases eq_or_ne j' j with rfl | hj'j
        · rfl
        · rw [Function.update_self] at hr
          cases hr
          rw [Function.update_of_ne hj'j] at hr'
          exact absurd hr' (hother j' draft₂ hdraft₂)
      · rw [Function.update_of_ne hji] at hr
        rcases eq_or_ne j' i with rfl | hj'i
        · rw [Function.update_self] at hr'
          cases hr'
          exact absurd hr (hother j draft₁ hdraft₁)
        · rw [Function.update_of_ne hj'i] at hr'
          exact hk.once j j' oid' hj hj' hr hr'
    · rcases eq_or_ne j i with rfl | hji
      · rw [Function.update_self] at hr
        cases hr
        rw [hi] at hj
        cases hj
        exact hinbox.announced hsource
      · rw [Function.update_of_ne hji] at hr
        have hne : oid' ≠ oid := by
          rintro rfl
          exact hother j draft' hj hr
        simp only [hinbox.others hne]
        exact hk.announced j draft' oid' hj hsource hr
    · rcases hinbox.known id n hn with hold | ⟨hsource, hentity, htitle, htype, name, hmessage⟩
      · exact htold id n n hold hn hfresh
      · refine ⟨⟨order, name, by rw [hentity, hgot], htype, htitle, hmessage⟩, i, draft, hi,
          hsource, ?_⟩
        rw [Function.update_self, hentity]
  · -- no order: the same notifications, some of them read
    have hnames : ∀ oid id, Names (flush b s).shop.notifications oid id ↔
        Names s.shop.notifications oid id := by
      intro oid id
      rw [hnotes]
      exact names_markRead
    have places : ∀ j, (requests j).draft?.isSome → j ≠ i := by
      rintro j hj rfl
      rw [hi] at hj
      cases hj
    refine ⟨fun j draft oid hj hr => ?_, fun j j' oid hj hj' hr hr' => ?_,
      fun j draft oid hj hsource hr => ?_, fun id n hn hfresh => ?_⟩
    · rw [Function.update_of_ne (places j (by rw [hj]; rfl))] at hr
      exact hplaced j draft oid hj hr
    · rw [Function.update_of_ne (places j hj)] at hr
      rw [Function.update_of_ne (places j' hj')] at hr'
      exact hk.once j j' oid hj hj' hr hr'
    · rw [Function.update_of_ne (places j (by rw [hj]; rfl))] at hr
      simp only [hnames]
      exact hk.announced j draft oid hj hsource hr
    · rcases hget : s.shop.notifications.get id with - | n₀
      · rw [hnotes, get_markRead, hget] at hn
        cases hn
      · exact htold id n₀ n hget hn hfresh

end Commit

/-! ### Nothing is left behind -/

section Clearing

variable {β : Type} {H : SiteDb → Prop} {s₀ s : SiteDb} {h : Set SiteKey}
variable {b : List (SiteDb → SiteDb)}
variable {Q : β → Set SiteKey → List (SiteDb → SiteDb) → SiteDb → Prop}

/-- The notification is marked by `ids`, or was found read. -/
def Done (H : SiteDb → Prop) (ids : List UUID) (id : UUID) : Prop :=
  id ∈ ids ∨ ∃ s n, H s ∧ s.shop.notifications.get id = some n ∧ n.isRead = true

theorem Done.mono {ids ids' : List UUID} {id : UUID} (hd : Done H ids id) (hsub : ids ⊆ ids') :
    Done H ids' id :=
  hd.imp (fun hmem => hsub hmem) fun hread => hread

/-- A notification of `s₀` that does not count as unread is done. -/
theorem done_of_not_unread (hH : ∀ s, H s → NotificationsStay s₀.shop s.shop) (hs : H s)
    {ids : List UUID} (hb : StagesRead ids b) {id : UUID}
    (hid : (s₀.shop.notifications.get id).isSome) (hread : isUnread (flush b s) id = false) :
    Done H ids id := by
  obtain ⟨n₀, hn₀⟩ := Option.isSome_iff_exists.mp hid
  obtain ⟨n, hn, -⟩ := hH s hs id n₀ hn₀
  by_cases hmem : id ∈ ids
  · exact .inl hmem
  · refine .inr ⟨s, n, hs, hn, ?_⟩
    rw [hb, isUnread] at hread
    change ((markRead ids s.shop.notifications).get id).any _ = false at hread
    rw [get_markRead, hn] at hread
    simpa [hmem] using hread

theorem seen_markEach (hH : ∀ s, H s → NotificationsStay s₀.shop s.shop) {ids done : List UUID}
    {g : ℕ → SiteSession β} (hs : H s) (hb : StagesRead done b)
    (hg : ∀ n more h' b' s', H s' → StagesRead (done ++ more) b' →
      (∀ id ∈ ids, (s₀.shop.notifications.get id).isSome → Done H (done ++ more) id) →
      wp (Rely.within H) (fun _ _ => True) (g n) Q h' b' s') :
    wp (Rely.within H) (fun _ _ => True) (markEach ids >>= g) Q h b s := by
  induction ids generalizing done h b s g with
  | nil =>
    have hend := hg 0 [] h b s hs
    rw [List.append_nil] at hend
    exact hend hb (by simp)
  | cons id ids ih =>
    simp only [markEach, bind_assoc, pure_bind]
    refine wp_acquire fun s₁ hs₁ => wp_query fun s₂ hs₂ => ?_
    have hHs₂ := hs₂ (hs₁ hs)
    refine wp_whenElse (fun _ => ?_) fun hread => ?_
    · rw [bind_assoc]
      refine wp_stage ?_
      rw [pure_bind]
      refine ih hHs₂ (hb.concat id) fun n more h' b' s' hs' hb' hdone => ?_
      rw [List.append_assoc] at hb' hdone
      refine hg (1 + n) (id :: more) h' b' s' hs' hb' fun i hi hsome => ?_
      rcases List.mem_cons.mp hi with rfl | hi
      · exact .inl (by simp)
      · exact hdone i hi hsome
    · refine ih hHs₂ hb fun n more h' b' s' hs' hb' hdone => ?_
      refine hg (0 + n) more h' b' s' hs' hb' fun i hi hsome => ?_
      rcases List.mem_cons.mp hi with rfl | hi
      · have hfound := done_of_not_unread hH hHs₂ hb hsome (Bool.eq_false_iff.mpr hread)
        exact hfound.mono (List.subset_append_left _ _)
      · exact hdone i hi hsome

/-- Marking all: what was there is marked, or was found read. -/
theorem seen_markAllNotificationsRead (hH : ∀ s, H s → NotificationsStay s₀.shop s.shop)
    (hs : H s) :
    wp (Rely.within H) (fun _ _ => True) markAllNotificationsRead
      (fun _ _ b _ => ∃ ids, StagesRead ids b ∧
        ∀ id, (s₀.shop.notifications.get id).isSome → Done H ids id) h [] s := by
  rw [markAllNotificationsRead]
  refine wp_outside fun v _ => wp_query fun s₁ hs₁ => ?_
  rw [flush_nil, ← bind_pure (markEach _)]
  refine seen_markEach hH (hs₁ hs) stagesRead_nil ?_
  intro n more h' b' s' hs' hb' hdone
  refine wp_pure ⟨more, hb', fun id hsome => ?_⟩
  by_cases hfound : id ∈ v.scan (s₁.shop.notifications.keys.filter (isUnread s₁))
  · exact hdone id hfound hsome
  · -- the scan has met every unread row
    refine (done_of_not_unread hH (hs₁ hs) stagesRead_nil hsome ?_).mono (List.nil_subset _)
    obtain ⟨n₀, hn₀⟩ := Option.isSome_iff_exists.mp hsome
    obtain ⟨n₁, hn₁, -⟩ := hH s₁ (hs₁ hs) id n₀ hn₀
    rw [(v.scan_perm _).mem_iff, List.mem_filter, not_and, Bool.not_eq_true] at hfound
    refine hfound (List.mem_map.mpr ⟨(id, n₁), Table.get_eq_some.mp hn₁, rfl⟩)

end Clearing

section Runs

variable {ι : Type} [DecidableEq ι] (site : SiteDeployment) (requests : ι → SiteRequest)
variable (start : SiteDb) (ms : ℕ → Move ι SiteOutside)

theorem inboxKept_run (n : ℕ) :
    InboxKept requests start (siteRun site requests start ms n).db
      (siteRun site requests start ms n).result := by
  have h := (siteContract site requests).invariant (d := start) trivial
    (fun s result => SiteChange Set.univ start s ∧ InboxKept requests start s result)
    ⟨.refl start, by simp, by simp, by simp, ?_⟩ ?_ ms n
  · exact h.2
  · intro id n hn hnone
    rw [hnone] at hn
    cases hn
  · intro i reply h b s result _ hp hnone hs
    exact ⟨hs.1.trans ((SiteRequest.post_change hp).mono (Set.subset_univ _)),
      hs.2.commit hs.1 hp hnone⟩

theorem counted_run (n : ℕ) :
    Counted requests start (siteRun site requests start ms n).db
      (siteRun site requests start ms n).result := by
  refine (siteContract site requests).invariant (d := start) trivial
    (fun s result => Counted requests start s result) ⟨∅, by simp, by simp, by simp⟩ ?_ ms n
  intro i reply h b s result _ hp hnone hs
  rcases SiteRequest.inbox_cases hp with
    ⟨draft, now, oid, order, hi, rfl, k, horder⟩ | ⟨hi, ids, hnotes, hlow, hhigh⟩
  · have hpos := (requests i).marksOne_nonneg
    refine hs.commit hnone ?_ ?_
    · rw [horder.readCount]
      show readCount s.shop.notifications + 0 ≤ _
      omega
    · rw [horder.readCount]
      show _ ≤ readCount s.shop.notifications + 0 + _
      omega
  · exact hs.commit hnone hlow hhigh

variable {site requests start ms}

/-- A notification that was read at some time is read for ever. -/
theorem read_stays {m n : ℕ} (hmn : m ≤ n) {id : UUID} {note : Notification}
    (hnote : (siteRun site requests start ms m).db.shop.notifications.get id = some note)
    (hread : note.isRead = true) :
    ∃ note', (siteRun site requests start ms n).db.shop.notifications.get id = some note' ∧
      note'.isRead = true := by
  obtain ⟨note', hnote', hl⟩ :=
    (siteRun_change site requests start ms hmn).notifications id note hnote
  exact ⟨note', hnote', hl.isRead hread⟩

/-- Marking one notification leaves it read for ever. -/
theorem marked_run {n : ℕ} {i : ι} {id : UUID} {reply : SiteReply}
    (hi : requests i = .markNotificationRead id)
    (hres : (siteRun site requests start ms n).result i = some reply) :
    ∃ note, (siteRun site requests start ms n).db.shop.notifications.get id = some note ∧
      note.isRead = true := by
  obtain ⟨k, b, hkn, hc⟩ := exists_commit hres
  have good := (siteContract site requests).good_trace (d := start) trivial ms k
  have hpost : (requests i).post site reply _ b (siteRun site requests start ms k).db :=
    good.post hc.1
  rw [hi] at hpost
  obtain ⟨-, -, note, hnote, hread⟩ := hpost
  refine read_stays (m := k + 1) hkn ?_ hread
  rw [siteRun, hc.db]
  exact hnote

/-- Marking all leaves nothing unread that was there when it began. -/
theorem cleared_run {m n : ℕ} {i : ι} {reply : SiteReply}
    (hi : requests i = .markAllNotificationsRead)
    (hidle : (siteRun site requests start ms m).status i = .idle)
    (hres : (siteRun site requests start ms n).result i = some reply) {id : UUID}
    {note : Notification}
    (hnote : (siteRun site requests start ms m).db.shop.notifications.get id = some note) :
    ∃ note', (siteRun site requests start ms n).db.shop.notifications.get id = some note' ∧
      note'.isRead = true := by
  obtain ⟨k, b, hkn, hc⟩ := exists_commit hres
  have hmk : m ≤ k := by
    by_contra hlt
    have hstays := result_stays (not_le.mp hlt) (by rw [hc.result, Function.update_self])
    simp [State.result, hidle] at hstays
  -- the databases between the start of the request and its commit
  let H : SiteDb → Prop := fun s =>
    ∃ j, m ≤ j ∧ j ≤ k ∧ s = (siteRun site requests start ms j).db
  have hH : ∀ s, H s → NotificationsStay (siteRun site requests start ms m).db.shop s.shop := by
    rintro s ⟨j, hmj, -, rfl⟩
    exact (siteRun_change site requests start ms hmj).notifications
  obtain ⟨ids, hb, hdone⟩ := observed (H := H)
    (Q := fun _ b => ∃ ids, StagesRead ids b ∧ ∀ id,
      ((siteRun site requests start ms m).db.shop.notifications.get id).isSome → Done H ids id)
    hidle hmk (fun j hmj hjk => ⟨j, hmj, hjk, rfl⟩) (fun s hs => by
      show wp _ _ ((requests i).body site) _ _ _ _
      rw [hi]
      exact wp_bind (wp_mono (fun _ _ _ => trivial) (fun _ _ _ _ hq => hq)
        (seen_markAllNotificationsRead hH hs))) hc
  rcases hdone id (by rw [hnote]; rfl) with hmem | ⟨s, found, ⟨j, hmj, hjk, rfl⟩, hfound, hread⟩
  · obtain ⟨note', hnote', -⟩ :=
      (siteRun_change site requests start ms hmk).notifications id note hnote
    have hread : (siteRun site requests start ms (k + 1)).db.shop.notifications.get id
        = some note'.read := by
      rw [siteRun, hc.db, hb]
      show (markRead ids _).get id = _
      rw [get_markRead, hnote', Option.map_some, if_pos hmem]
    exact read_stays hkn hread rfl
  · exact read_stays (hjk.trans hkn.le) hfound hread

/-- **Every storefront order is announced once**, in every state of every run:
notifications stay and keep their text, each committed checkout has exactly
one new notification, and every new notification is about an order that was
placed from the storefront, whose number it quotes. -/
theorem orders_announced (site : SiteDeployment) (requests : ι → SiteRequest) (start : SiteDb)
    (ms : ℕ → Move ι SiteOutside) (n : ℕ) :
    (∀ m ≤ n, NotificationsStay (siteRun site requests start ms m).db.shop
      (siteRun site requests start ms n).db.shop) ∧
      InboxKept requests start (siteRun site requests start ms n).db
        (siteRun site requests start ms n).result :=
  ⟨fun _ hmn => (siteRun_change site requests start ms hmn).notifications,
    inboxKept_run site requests start ms n⟩

/-- **Marking adds up**, in every state of every run: the counts that
mark-alls have reported add up to what became read, up to one for each
notification that was marked by itself; one that was marked is read; and
whatever was there when a mark-all began is read once it has reported. -/
theorem marking_adds_up (site : SiteDeployment) (requests : ι → SiteRequest) (start : SiteDb)
    (ms : ℕ → Move ι SiteOutside) (n : ℕ) :
    Counted requests start (siteRun site requests start ms n).db
      (siteRun site requests start ms n).result ∧
    (∀ i id reply, requests i = .markNotificationRead id →
      (siteRun site requests start ms n).result i = some reply →
      ∃ note, (siteRun site requests start ms n).db.shop.notifications.get id = some note ∧
        note.isRead = true) ∧
    ∀ m i reply, requests i = .markAllNotificationsRead →
      (siteRun site requests start ms m).status i = .idle →
      (siteRun site requests start ms n).result i = some reply →
      ∀ id note, (siteRun site requests start ms m).db.shop.notifications.get id = some note →
        ∃ note', (siteRun site requests start ms n).db.shop.notifications.get id = some note' ∧
          note'.isRead = true :=
  ⟨counted_run site requests start ms n, fun _ _ _ hi hres => marked_run hi hres,
    fun _ _ _ hi hidle hres _ _ hnote => cleared_run hi hidle hres hnote⟩

end Runs

end GreenGarden
