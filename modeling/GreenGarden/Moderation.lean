/-
GreenGarden/Moderation.lean

Moderating reviews, with everything else that happens on the site going on.

A review keeps what it was submitted with, and its status is the one it began
with or the target of a moderation that has committed.  A moderation reads the
review without a lock and writes only if the status differs from what it read,
so its commit need not be the moment it took effect; what holds all the same is
that moderations which agree are obeyed (`settled`).

A public page is put together from several queries, and a review may be
rejected before the response is out.  But every card on every page was an
approved review when the page was read (`shown`), and so was approved before
the run or by a moderation that had committed.
-/
import GreenGarden.SiteWide

namespace GreenGarden

open Transaction

/-! ### Commits -/

/-- What a request submits, and whether it is about a plant. -/
def SiteRequest.submission? : SiteRequest → Option (ReviewCreate × Bool)
  | .postPublicReview sent => some (sent, false)
  | .postPublicPlantReview _ sent => some (sent, true)
  | _ => none

/-- A commit stores a review, gives one a status or leaves the reviews alone. -/
theorem SiteRequest.reviews_cases {site : SiteDeployment} {request : SiteRequest}
    {reply : SiteReply} {h : Set SiteKey} {b : List (SiteDb → SiteDb)} {s : SiteDb}
    (hp : request.post site reply h b s) :
    (∃ sent aboutPlant id review, request.submission? = some (sent, aboutPlant) ∧
      reply = .row id ∧ s.reviews.get id = none ∧ Submitted sent aboutPlant review s ∧
      (flush b s).reviews = s.reviews.insert id review) ∨
    request.submission? = none ∧
      ((flush b s).reviews = s.reviews ∨ ∃ id status, request = .setReviewStatus id status ∧
        reply = .row id ∧ (flush b s).reviews =
          s.reviews.modify id fun review => { review with status := status }) := by
  cases request with
  | shop request =>
    obtain ⟨r, b, -, rfl, -⟩ := hp
    exact .inr ⟨rfl, .inl (inSite.flush_frame (fun _ _ => rfl) b s)⟩
  | markNotificationRead id =>
    obtain ⟨-, ⟨ids, -, hb, -⟩, -⟩ := hp
    exact .inr ⟨rfl, .inl (by rw [hb])⟩
  | markAllNotificationsRead =>
    obtain ⟨n, -, ids, -, -, hb, -⟩ := hp
    exact .inr ⟨rfl, .inl (by rw [hb])⟩
  | postPublicReview sent =>
    obtain ⟨id, hr, -, hnew, review, hsub, hflush⟩ := hp
    exact .inl ⟨sent, false, id, review, rfl, hr, hnew, hsub, by rw [hflush]⟩
  | postPublicPlantReview slug sent =>
    obtain ⟨id, hr, -, hnew, review, hsub, hflush⟩ := hp
    exact .inl ⟨sent, true, id, review, rfl, hr, hnew, hsub, by rw [hflush]⟩
  | setReviewStatus id status =>
    obtain ⟨hr, rfl | ⟨-, hflush⟩⟩ := hp
    · exact .inr ⟨rfl, .inl rfl⟩
    · exact .inr ⟨rfl, .inr ⟨id, status, rfl, hr, by rw [hflush]⟩⟩
  | getPublicReviews | getPublicPlantReviews =>
    obtain ⟨_, -, rfl⟩ := hp
    exact .inr ⟨rfl, .inl rfl⟩

/-- A plant that is there stays there. -/
theorem Submitted.step {sent : ReviewCreate} {aboutPlant : Bool} {review : Review}
    {s s' : SiteDb} (hs : Submitted sent aboutPlant review s) {k : Set SiteKey}
    (hd : SiteChange k s s') : Submitted sent aboutPlant review s' where
  payload := hs.payload
  status := hs.status
  plant := by
    rcases hs.plant with h | ⟨habout, id, hid, hplant⟩
    · exact .inl h
    · exact .inr ⟨habout, id, hid, hd.shop.plants id hplant⟩

section Runs

variable {ι : Type}

/-- What has become of the submissions. -/
structure Accepted (requests : ι → SiteRequest) (start s : SiteDb)
    (result : ι → Option SiteReply) : Prop where
  stored : ∀ i sent aboutPlant id, (requests i).submission? = some (sent, aboutPlant) →
    result i = some (.row id) → start.reviews.get id = none ∧
      ∃ r, s.reviews.get id = some r ∧ Submitted sent aboutPlant r.submitted s
  distinct : ∀ i j id, (requests i).submission?.isSome → (requests j).submission?.isSome →
    result i = some (.row id) → result j = some (.row id) → i = j
  only : ∀ id, (s.reviews.get id).isSome → (start.reviews.get id).isSome ∨
    ∃ i, (requests i).submission?.isSome ∧ result i = some (.row id)

variable [DecidableEq ι] {site : SiteDeployment} {requests : ι → SiteRequest}

theorem Accepted.commit {start s : SiteDb} {result : ι → Option SiteReply} {i : ι}
    {reply : SiteReply} {h : Set SiteKey} {b : List (SiteDb → SiteDb)}
    (ha : Accepted requests start s result)
    (hstart : SiteChange Set.univ start s)
    (hp : (requests i).post site reply h b s) (hnone : result i = none) :
    Accepted requests start (flush b s) (Function.update result i (some reply)) := by
  have hchange := SiteRequest.post_change hp
  have hne : ∀ {j r}, result j = some r → j ≠ i := by
    rintro j r hj rfl
    rw [hnone] at hj
    cases hj
  -- the earlier submissions
  have earlier : ∀ j sent aboutPlant id, (requests j).submission? = some (sent, aboutPlant) →
      result j = some (.row id) → start.reviews.get id = none ∧
        ∃ r, (flush b s).reviews.get id = some r ∧
          Submitted sent aboutPlant r.submitted (flush b s) := by
    intro j sent aboutPlant id hj hr
    obtain ⟨hnew, r, hget, hsub⟩ := ha.stored j sent aboutPlant id hj hr
    obtain ⟨r', hget', hsame⟩ := hchange.reviews id r hget
    exact ⟨hnew, r', hget', hsame ▸ hsub.step hchange⟩
  rcases SiteRequest.reviews_cases hp with
    ⟨sent, aboutPlant, id, review, hi, rfl, hnew, hsub, hflush⟩ | ⟨hi, hkeys⟩
  · have hgot : (flush b s).reviews.get id = some review := by
      rw [hflush, Table.get_insert_self hnew]
    have hfresh : start.reviews.get id = none := by
      rcases hget : start.reviews.get id with - | r
      · rfl
      · obtain ⟨r', hr', -⟩ := hstart.reviews id r hget
        rw [hnew] at hr'
        cases hr'
    have other : ∀ j, (requests j).submission?.isSome → result j ≠ some (.row id) := by
      intro j hj hr
      obtain ⟨⟨sent', about'⟩, hsent⟩ := Option.isSome_iff_exists.mp hj
      obtain ⟨-, r, hget, -⟩ := ha.stored j sent' about' id hsent hr
      rw [hnew] at hget
      cases hget
    refine ⟨fun j sent' about' id' hj hr => ?_, fun j j' id' hj hj' hr hr' => ?_,
      fun id' hsome => ?_⟩
    · rcases eq_or_ne j i with rfl | hji
      · rw [Function.update_self] at hr
        cases hr
        rw [hi] at hj
        cases hj
        refine ⟨hfresh, review, hgot, ?_⟩
        have hsame : review.submitted = review := by rw [Review.submitted, ← hsub.status]
        rw [hsame]
        exact hsub.step hchange
      · rw [Function.update_of_ne hji] at hr
        exact earlier j sent' about' id' hj hr
    · rcases eq_or_ne j i with rfl | hji
      · rcases eq_or_ne j' j with rfl | hj'
        · rfl
        · rw [Function.update_self] at hr
          cases hr
          rw [Function.update_of_ne hj'] at hr'
          exact absurd hr' (other j' ‹_›)
      · rw [Function.update_of_ne hji] at hr
        rcases eq_or_ne j' i with rfl | hj'i
        · rw [Function.update_self] at hr'
          cases hr'
          exact absurd hr (other j hj)
        · rw [Function.update_of_ne hj'i] at hr'
          exact ha.distinct j j' id' hj hj' hr hr'
    · rw [hflush, Table.get_insert hnew] at hsome
      split at hsome
      · rename_i heq
        exact .inr ⟨i, by rw [hi]; rfl, by rw [Function.update_self, heq]⟩
      · rcases ha.only id' hsome with h | ⟨j, hj, hr⟩
        · exact .inl h
        · exact .inr ⟨j, hj, by rw [Function.update_of_ne (hne hr), hr]⟩
  · -- no submission: the keys are the same
    have hsame : ∀ id, ((flush b s).reviews.get id).isSome → (s.reviews.get id).isSome := by
      intro id hsome
      rcases hkeys with heq | ⟨rid, status, -, -, heq⟩
      · rwa [heq] at hsome
      · rw [heq, Table.get_modify] at hsome
        split at hsome <;> simpa using hsome
    have submits : ∀ j, (requests j).submission?.isSome → j ≠ i := by
      rintro j hj rfl
      rw [hi] at hj
      cases hj
    refine ⟨fun j sent' about' id' hj hr => ?_, fun j j' id' hj hj' hr hr' => ?_,
      fun id' hsome => ?_⟩
    · rw [Function.update_of_ne (submits j (by rw [hj]; rfl))] at hr
      exact earlier j sent' about' id' hj hr
    · rw [Function.update_of_ne (submits j hj)] at hr
      rw [Function.update_of_ne (submits j' hj')] at hr'
      exact ha.distinct j j' id' hj hj' hr hr'
    · rcases ha.only id' (hsame id' hsome) with h | ⟨j, hj, hr⟩
      · exact .inl h
      · exact .inr ⟨j, hj, by rw [Function.update_of_ne (hne hr), hr]⟩

variable {start : SiteDb} {ms : ℕ → Move ι SiteOutside} {n : ℕ}

theorem accepted_run (site : SiteDeployment) (requests : ι → SiteRequest) (start : SiteDb)
    (ms : ℕ → Move ι SiteOutside) (n : ℕ) :
    Accepted requests start (siteRun site requests start ms n).db
      (siteRun site requests start ms n).result := by
  have h := (siteContract site requests).invariant (d := start) trivial
    (fun s result => SiteChange Set.univ start s ∧ Accepted requests start s result)
    ⟨.refl start, by simp, by simp, fun id hid => .inl hid⟩ ?_ ms n
  · exact h.2
  · intro i reply h b s result _ hp hnone hs
    exact ⟨hs.1.trans ((SiteRequest.post_change hp).mono (Set.subset_univ _)),
      hs.2.commit hs.1 hp hnone⟩

/-- A moderation of `id` with this status has committed. -/
def Moderated (requests : ι → SiteRequest) (result : ι → Option SiteReply) (id : UUID)
    (status : ReviewStatus) : Prop :=
  ∃ i, requests i = .setReviewStatus id status ∧ result i = some (.row id)

/-- Where the status of a review comes from, in one commit. -/
theorem SiteRequest.status_cases {request : SiteRequest} {reply : SiteReply} {h : Set SiteKey}
    {b : List (SiteDb → SiteDb)} {s : SiteDb} (hp : request.post site reply h b s)
    {id : UUID} {r : Review} (hr : (flush b s).reviews.get id = some r) :
    (∃ r', s.reviews.get id = some r' ∧ r.status = r'.status) ∨
    (s.reviews.get id = none ∧ r.status = .pending) ∨
    request = .setReviewStatus id r.status ∧ reply = .row id := by
  rcases SiteRequest.reviews_cases hp with
    ⟨sent, aboutPlant, rid, review, -, -, hnew, hsub, hflush⟩ | ⟨-, heq | ⟨rid, status, hreq,
      hreply, heq⟩⟩
  · rw [hflush, Table.get_insert hnew] at hr
    split at hr
    · rename_i heq
      obtain rfl := Option.some.inj hr
      exact .inr (.inl ⟨heq ▸ hnew, hsub.status⟩)
    · exact .inl ⟨r, hr, rfl⟩
  · rw [heq] at hr
    exact .inl ⟨r, hr, rfl⟩
  · rw [heq] at hr
    rcases eq_or_ne id rid with rfl | hne
    · rw [Table.get_modify_self] at hr
      obtain ⟨r', -, rfl⟩ := Option.map_eq_some_iff.mp hr
      exact .inr (.inr ⟨hreq, hreply⟩)
    · rw [Table.get_modify_of_ne _ hne] at hr
      exact .inl ⟨r, hr, rfl⟩

/-- Where the status of a review comes from, since an earlier moment. -/
theorem status_origin {k : ℕ} (hkn : k ≤ n) {id : UUID} {r : Review}
    (hr : (siteRun site requests start ms n).db.reviews.get id = some r) :
    (∃ r', (siteRun site requests start ms k).db.reviews.get id = some r' ∧
      r.status = r'.status) ∨
    ((siteRun site requests start ms k).db.reviews.get id = none ∧ r.status = .pending) ∨
    Moderated requests (siteRun site requests start ms n).result id r.status := by
  induction n, hkn using Nat.le_induction generalizing r with
  | base => exact .inl ⟨r, hr, rfl⟩
  | succ n hkn ih =>
    -- what holds already stays
    have later : ∀ {status : ReviewStatus},
        Moderated requests (siteRun site requests start ms n).result id status →
        Moderated requests (siteRun site requests start ms (n + 1)).result id status := by
      rintro status ⟨i, hi, hres⟩
      exact ⟨i, hi, result_stays (Nat.le_succ n) hres⟩
    have before : ∀ {r₁ : Review},
        (siteRun site requests start ms n).db.reviews.get id = some r₁ → r.status = r₁.status →
        (∃ r', (siteRun site requests start ms k).db.reviews.get id = some r' ∧
          r.status = r'.status) ∨
        ((siteRun site requests start ms k).db.reviews.get id = none ∧ r.status = .pending) ∨
        Moderated requests (siteRun site requests start ms (n + 1)).result id r.status := by
      intro r₁ hr₁ hsame
      rw [hsame]
      rcases ih hr₁ with h | h | h
      · exact .inl h
      · exact .inr (.inl h)
      · exact .inr (.inr (later h))
    rcases siteRun_step site requests start ms n with ⟨hdb, -⟩ | ⟨i, reply, h, b, hpost, hdb, hres⟩
    · rw [hdb] at hr
      exact before hr rfl
    · rw [hdb] at hr
      rcases SiteRequest.status_cases hpost hr with ⟨r₁, hr₁, hsame⟩ | ⟨hnone, hpending⟩ |
        ⟨hreq, rfl⟩
      · exact before hr₁ hsame
      · -- it was not there just before, so not at `k` either
        refine .inr (.inl ⟨?_, hpending⟩)
        rcases hget : (siteRun site requests start ms k).db.reviews.get id with - | r₀
        · rfl
        · obtain ⟨r₁, hr₁, -⟩ := (siteRun_change site requests start ms hkn).reviews id r₀ hget
          rw [hnone] at hr₁
          cases hr₁
      · refine .inr (.inr ⟨i, hreq, ?_⟩)
        rw [hres, Function.update_self]

/-! ### What a request has looked at -/

/-- A moderation has seen the review, and that it has the status already if it
writes nothing. -/
theorem seen_setReviewStatus {H : SiteDb → Prop} {id : UUID} {status : ReviewStatus}
    {h : Set SiteKey} {s : SiteDb} (hs : H s) :
    wp (Rely.within H) (fun _ _ => True) (setReviewStatus id status)
      (fun row _ b _ => row = id ∧
        ((∃ s', H s' ∧ ∃ r, s'.reviews.get id = some r ∧ r.status = status) ∨
          ((∃ s', H s' ∧ (s'.reviews.get id).isSome) ∧ ∀ s, (flush b s).reviews =
            s.reviews.modify id fun review => { review with status := status })))
      h [] s := by
  rw [setReviewStatus, getReview, bind_assoc]
  refine wp_query fun s₁ hs₁ => ?_
  rw [flush_nil]
  rcases hget : s₁.reviews.get id with - | review
  · exact wp_fail trivial
  rw [pure_bind]
  refine wp_whenElse (fun _ => ?_) fun hsame => ?_
  · rw [bind_assoc]
    refine wp_acquire fun s₂ _ => wp_stage (wp_pure ⟨rfl, .inr ⟨⟨s₁, hs₁ hs, ?_⟩, ?_⟩⟩)
    · rw [hget]
      rfl
    · exact fun s => rfl
  · exact wp_pure ⟨rfl, .inl ⟨s₁, hs₁ hs, review, hget, (not_not.mp hsame).symm⟩⟩

/-- Every card is an approved review of one database, about `plantId`. -/
def CardsOf (H : SiteDb → Prop) (plantId : Option UUID) (response : PublicReviewListResponse) :
    Prop :=
  ∃ s, H s ∧ ∀ item ∈ response.items, ∃ r, s.reviews.get item.id = some r ∧
    item = publicItem (item.id, r) ∧ r.status = .approved ∧ r.plantId = plantId

theorem seen_publicReviewPage {H : SiteDb → Prop} {locale : DbLocale} {page pageSize : ℕ}
    {plantId : Option UUID} {scope : Option ReviewScope}
    (hscope : plantId = none → scope = some .shop) {h : Set SiteKey} {s : SiteDb} (hs : H s) :
    wp (Rely.within H) (fun _ _ => True) (publicReviewPage locale page pageSize plantId scope)
      (fun response _ _ _ => CardsOf H plantId response) h [] s := by
  rw [publicReviewPage, listReviews, bind_assoc]
  refine wp_query fun s₁ hs₁ => ?_
  rw [bind_assoc]
  refine wp_query fun s₂ hs₂ => ?_
  rw [pure_bind, getReviewSummary, bind_assoc]
  refine wp_query fun s₃ _ => wp_pure ⟨s₂, hs₂ (hs₁ hs), fun item hitem => ?_⟩
  obtain ⟨row, hrow, rfl⟩ := List.mem_map.mp hitem
  have hmem := List.mem_of_mem_drop (List.mem_of_mem_take hrow)
  rw [List.mem_insertionSort, filteredReviews, List.mem_filter] at hmem
  obtain ⟨hentry, hpass⟩ := hmem
  refine ⟨row.2, Table.get_eq_some.mpr hentry, rfl, ?_⟩
  simp only [ReviewFilters.apply, Bool.and_eq_true] at hpass
  refine ⟨by simpa using hpass.1.1.2, ?_⟩
  rcases plantId with - | pid
  · rw [hscope rfl] at hpass
    simpa using hpass.2
  · simpa using hpass.1.2

/-- The active plant that `slug` resolves to: one that carries it in `d`, or
else one that used it before in `d'`, which the second query sees. -/
def resolvesTo (casing : Casing) (slug : Text) (d d' : Db) : Option (UUID × Plant) :=
  (d.plants.find? fun p => p.slug = normalizeSlug casing slug && p.shown true).or
    ((usedBefore d' (normalizeSlug casing slug)).find? fun e => e.2.shown true)

/-- A lookup by slug has seen its plant. -/
theorem seen_getActivePlantOr404 {β : Type} {H : SiteDb → Prop} {casing : Casing} {slug : Text}
    {g : UUID × Plant → SiteSession β} {h : Set SiteKey} {s : SiteDb}
    {Q : β → Set SiteKey → List (SiteDb → SiteDb) → SiteDb → Prop} (hs : H s)
    (hg : ∀ found s₁ s₂ s', H s₁ → H s₂ → resolvesTo casing slug s₁.shop s₂.shop = some found →
      H s' → wp (Rely.within H) (fun _ _ => True) (g found) Q h [] s') :
    wp (Rely.within H) (fun _ _ => True) ((getActivePlantOr404 casing slug).into inSite >>= g)
      Q h [] s := by
  rw [getActivePlantOr404, getPlantBySlug, Tx.into_bind, Tx.into_query, bind_assoc]
  refine wp_query fun s₁ hs₁ => ?_
  split
  · rename_i found hfound
    have hnow : s₁.shop.plants.find? (fun p =>
        p.slug = normalizeSlug casing slug && p.shown true) = some found := hfound
    exact hg found s₁ s₁ s₁ (hs₁ hs) (hs₁ hs) (by rw [resolvesTo, hnow]; rfl) (hs₁ hs)
  · rename_i hnone
    have hnow : s₁.shop.plants.find? (fun p =>
        p.slug = normalizeSlug casing slug && p.shown true) = none := hnone
    rw [Tx.into_bind, Tx.into_query, bind_assoc]
    refine wp_query fun s₂ hs₂ => ?_
    split
    · rename_i found hfound
      have hbefore : (usedBefore s₂.shop (normalizeSlug casing slug)).find?
          (fun e => e.2.shown true) = some found := hfound
      exact hg found s₁ s₂ s₂ (hs₁ hs) (hs₂ (hs₁ hs))
        (by rw [resolvesTo, hnow, hbefore]; rfl) (hs₂ (hs₁ hs))
    · trivial

/-- What a request has looked at, if it is a moderation or a public page. -/
def SiteRequest.Saw (site : SiteDeployment) (H : SiteDb → Prop) :
    SiteRequest → SiteReply → List (SiteDb → SiteDb) → Prop
  | .setReviewStatus id status, reply, b => reply = .row id ∧
      ((∃ s, H s ∧ ∃ r, s.reviews.get id = some r ∧ r.status = status) ∨
        ((∃ s, H s ∧ (s.reviews.get id).isSome) ∧ ∀ s, (flush b s).reviews =
          s.reviews.modify id fun review => { review with status := status }))
  | .getPublicReviews _ _, reply, _ => ∃ response, reply = .reviews response ∧
      CardsOf H none response
  | .getPublicPlantReviews slug _ _, reply, _ => ∃ response, reply = .reviews response ∧
      ∃ found s₁ s₂, H s₁ ∧ H s₂ ∧ resolvesTo site.casing slug s₁.shop s₂.shop = some found ∧
        CardsOf H (some found.1) response
  | _, reply, _ => ∀ response, reply ≠ .reviews response

theorem SiteRequest.saw (site : SiteDeployment) (request : SiteRequest) {H : SiteDb → Prop}
    {h : Set SiteKey} {s : SiteDb} (hs : H s) :
    wp (Rely.within H) (fun _ _ => True) (request.body site)
      (fun reply _ b _ => request.Saw site H reply b) h [] s := by
  -- a request of another kind: whatever it returns, it is not a page
  have other : ∀ {α : Type} {t : SiteSession α} {g : α → SiteReply},
      (∀ a response, g a ≠ .reviews response) →
      wp (Rely.within H) (fun _ _ => True) (t >>= fun a => pure (g a))
        (fun reply _ _ _ => ∀ response, reply ≠ .reviews response) h [] s := by
    intro α t g hg
    exact wp_bind (wp_always (fun _ _ => trivial) fun a _ _ _ => hg a)
  cases request with
  | shop request => exact other (by simp)
  | markNotificationRead id => exact other (by simp)
  | markAllNotificationsRead => exact other (by simp)
  | postPublicReview sent => exact other (by simp)
  | postPublicPlantReview slug sent => exact other (by simp)
  | setReviewStatus id status =>
    refine wp_bind (wp_mono (fun _ _ _ => trivial) (fun row _ b _ hq => ?_)
      (seen_setReviewStatus hs))
    exact ⟨by rw [hq.1], hq.2⟩
  | getPublicReviews page pageSize =>
    refine wp_bind (wp_mono (fun _ _ _ => trivial) (fun response _ b _ hq => ⟨response, rfl, hq⟩)
      (seen_publicReviewPage (fun _ => rfl) hs))
  | getPublicPlantReviews slug page pageSize =>
    show wp _ _ (GreenGarden.getPublicPlantReviews site.locale site.casing slug page pageSize
      >>= _) _ _ _ _
    rw [GreenGarden.getPublicPlantReviews, bind_assoc]
    refine seen_getActivePlantOr404 hs fun found s₁ s₂ s' hs₁ hs₂ hfound hs' => ?_
    refine wp_bind (wp_mono (fun _ _ _ => trivial)
      (fun response _ b _ hq => ⟨response, rfl, found, s₁, s₂, hs₁, hs₂, hfound, hq⟩)
      (seen_publicReviewPage (fun hnone => by cases hnone) hs'))

/-- One of the databases of the run so far. -/
def Past (site : SiteDeployment) (requests : ι → SiteRequest) (start : SiteDb)
    (ms : ℕ → Move ι SiteOutside) (n : ℕ) (s : SiteDb) : Prop :=
  ∃ k ≤ n, s = (siteRun site requests start ms k).db

/-- What a committed request has looked at was there before its commit. -/
theorem saw_past {i : ι} {reply : SiteReply}
    (hi : (siteRun site requests start ms n).result i = some reply) :
    ∃ k b, k < n ∧ (siteRun site requests start ms (k + 1)).db
        = flush b (siteRun site requests start ms k).db ∧
      (requests i).Saw site (Past site requests start ms k) reply b := by
  obtain ⟨k, b, hkn, hc⟩ := exists_commit hi
  refine ⟨k, b, hkn, hc.db, ?_⟩
  exact observed (m := 0) (H := Past site requests start ms k)
    (Q := fun reply b => (requests i).Saw site (Past site requests start ms k) reply b) rfl
    (Nat.zero_le k) (fun j _ hjk => ⟨j, hjk, rfl⟩) (fun s hs => (requests i).saw site hs) hc

/-! ### The site under moderation -/

/-- What the page is about that this request asks for, none for the shop: the
plant that its slug resolves to in databases of the run. -/
def SiteRequest.PageAbout (site : SiteDeployment) (dbs : ℕ → SiteDb) (n : ℕ) :
    SiteRequest → Option UUID → Prop
  | .getPublicReviews _ _, plantId => plantId = none
  | .getPublicPlantReviews slug _ _, plantId => ∃ k ≤ n, ∃ l ≤ n, ∃ found,
      resolvesTo site.casing slug (dbs k).shop (dbs l).shop = some found ∧ plantId = some found.1
  | _, _ => False

/-- What moderation guarantees of the first `n` steps of a run through `dbs`,
with these results after them. -/
structure WellModerated (site : SiteDeployment) (requests : ι → SiteRequest) (dbs : ℕ → SiteDb)
    (n : ℕ) (result : ι → Option SiteReply) : Prop where
  accepted : Accepted requests (dbs 0) (dbs n) result
  kept : ∀ m ≤ n, ∀ id r, (dbs m).reviews.get id = some r →
    ∃ r', (dbs n).reviews.get id = some r' ∧ r'.submitted = r.submitted
  origin : ∀ id r, (dbs n).reviews.get id = some r →
    r.status = (((dbs 0).reviews.get id).map Review.status).getD .pending ∨
      Moderated requests result id r.status
  settled : ∀ id status, Moderated requests result id status →
    (∀ status', Moderated requests result id status' → status' = status) →
    ∃ r, (dbs n).reviews.get id = some r ∧ r.status = status
  shown : ∀ i response, result i = some (.reviews response) → ∃ plantId : Option UUID,
    (requests i).PageAbout site dbs n plantId ∧
    ∀ item ∈ response.items, ∃ r, (dbs n).reviews.get item.id = some r ∧
      item = publicItem (item.id, r) ∧ r.plantId = plantId ∧
      (((dbs 0).reviews.get item.id).map Review.status = some .approved ∨
        Moderated requests result item.id .approved)

/-- The status of a review, traced back to the start. -/
theorem origin_run {k : ℕ} (hkn : k ≤ n) {id : UUID} {r : Review}
    (hr : (siteRun site requests start ms k).db.reviews.get id = some r) :
    r.status = ((start.reviews.get id).map Review.status).getD .pending ∨
      Moderated requests (siteRun site requests start ms n).result id r.status := by
  rcases status_origin (Nat.zero_le k) hr with ⟨r', hr', hsame⟩ | ⟨hnone, hpending⟩ | ⟨i, hi, hres⟩
  · have hstart : start.reviews.get id = some r' := hr'
    rw [hstart]
    exact .inl hsame
  · have hstart : start.reviews.get id = none := hnone
    rw [hstart]
    exact .inl hpending
  · exact .inr ⟨i, hi, result_stays hkn hres⟩

/-- Moderations that agree are obeyed. -/
theorem settled_run {id : UUID} {status : ReviewStatus}
    (hmod : Moderated requests (siteRun site requests start ms n).result id status)
    (hagree : ∀ status',
      Moderated requests (siteRun site requests start ms n).result id status' →
      status' = status) :
    ∃ r, (siteRun site requests start ms n).db.reviews.get id = some r ∧ r.status = status := by
  -- from the moment a review has the status it keeps it
  have keeps : ∀ {k : ℕ} {r : Review}, k ≤ n →
      (siteRun site requests start ms k).db.reviews.get id = some r → r.status = status →
      ∃ r', (siteRun site requests start ms n).db.reviews.get id = some r' ∧
        r'.status = status := by
    intro k r hkn hr hstatus
    obtain ⟨r', hr', -⟩ := (siteRun_change site requests start ms hkn).reviews id r hr
    refine ⟨r', hr', ?_⟩
    rcases status_origin hkn hr' with ⟨r₁, hr₁, hsame⟩ | ⟨hnone, -⟩ | hmod'
    · rw [hr] at hr₁
      rw [hsame, ← Option.some.inj hr₁, hstatus]
    · rw [hr] at hnone
      cases hnone
    · exact hagree _ hmod'
  obtain ⟨i, hi, hres⟩ := hmod
  obtain ⟨k, b, hkn, hdb, hsaw⟩ := saw_past hres
  rw [hi] at hsaw
  obtain ⟨-, ⟨s, ⟨j, hjk, rfl⟩, r, hr, hstatus⟩ | ⟨⟨s, ⟨j, hjk, rfl⟩, hsome⟩, hwrite⟩⟩ := hsaw
  · exact keeps (hjk.trans hkn.le) hr hstatus
  · -- the review was there when it was read, so it is there when it is written
    obtain ⟨r, hr⟩ := Option.isSome_iff_exists.mp hsome
    obtain ⟨r', hr', -⟩ := (siteRun_change site requests start ms hjk).reviews id r hr
    refine keeps hkn (r := { r' with status := status }) ?_ rfl
    rw [hdb, hwrite, Table.get_modify_self, hr', Option.map_some]

/-- **The site is well moderated** in every state of every run: whatever
shoppers, customers and admins do side by side, a review stays as it was
submitted from the moment it is there, has a status somebody gave it, and no
visitor is shown a review that nobody approved or one of another plant. -/
theorem well_moderated (site : SiteDeployment) (requests : ι → SiteRequest) (start : SiteDb)
    (ms : ℕ → Move ι SiteOutside) (n : ℕ) :
    WellModerated site requests (fun m => (siteRun site requests start ms m).db) n
      (siteRun site requests start ms n).result where
  accepted := accepted_run site requests start ms n
  kept _ hm := (siteRun_change site requests start ms hm).reviews
  origin _ _ hr := origin_run le_rfl hr
  settled _ _ hmod hagree := settled_run hmod hagree
  shown := by
    intro i response hres
    obtain ⟨k, b, hkn, -, hsaw⟩ := saw_past hres
    -- a card of a database of the past
    have card : ∀ {plantId : Option UUID},
        CardsOf (Past site requests start ms k) plantId response → ∀ item ∈ response.items,
          ∃ r, (siteRun site requests start ms n).db.reviews.get item.id = some r ∧
            item = publicItem (item.id, r) ∧ r.plantId = plantId ∧
          ((start.reviews.get item.id).map Review.status = some .approved ∨
            Moderated requests (siteRun site requests start ms n).result item.id .approved) := by
      rintro plantId ⟨s, ⟨j, hjk, rfl⟩, hcards⟩ item hitem
      obtain ⟨r, hr, hitem, happroved, hplant⟩ := hcards item hitem
      have hjn := hjk.trans hkn.le
      obtain ⟨r', hr', hsame⟩ := (siteRun_change site requests start ms hjn).reviews _ r hr
      obtain ⟨hp, hname, hrating, hcontent, -, hcreated⟩ := Review.mk.inj hsame
      refine ⟨r', hr', ?_, hp.trans hplant, ?_⟩
      · rw [hitem]
        simp only [publicItem, hname, hrating, hcontent, hcreated]
      · rw [← happroved]
        rcases origin_run hjn hr with horigin | hmod
        · refine .inl ?_
          rcases hget : start.reviews.get item.id with - | r₀
          · rw [hget, happroved] at horigin
            cases horigin
          · rw [horigin, hget]
            rfl
        · exact .inr hmod
    cases hi : requests i with
    | getPublicReviews page pageSize =>
      rw [hi] at hsaw
      obtain ⟨response', hreply, hcards⟩ := hsaw
      obtain rfl := SiteReply.reviews.inj hreply
      exact ⟨none, rfl, card hcards⟩
    | getPublicPlantReviews slug page pageSize =>
      rw [hi] at hsaw
      obtain ⟨response', hreply, found, -, -, ⟨j, hj, rfl⟩, ⟨l, hl, rfl⟩, hfound, hcards⟩ := hsaw
      obtain rfl := SiteReply.reviews.inj hreply
      exact ⟨some found.1,
        ⟨j, hj.trans hkn.le, l, hl.trans hkn.le, found, hfound, rfl⟩, card hcards⟩
    | setReviewStatus id status =>
      rw [hi] at hsaw
      cases hsaw.1
    | _ =>
      rw [hi] at hsaw
      exact absurd rfl (hsaw response)

end Runs

end GreenGarden
