/-
GreenGarden/ReviewPages.lean

Reading the public reviews page by page (`_public_review_page`), with nobody
writing meanwhile.

Reviews are listed newest first and those of one moment by their ids, so the
pages never overlap, never leave one out and come in one order.  Next to each
page stands a summary that is counted by another query; the two agree, and the
stars add up.  The average is a quotient of doubles rounded to one decimal; it
is a nearest tenth all the same (`averageOf_spec`).
-/
import GreenGarden.Backoffice

namespace GreenGarden

open Transaction

/-- The pages of a list, one after the other. -/
theorem Paging.flatMap_pages {α : Type} (l : List α) {size : ℕ} (hsize : 0 < size) :
    (List.range (Paging.pageCount l.length size)).flatMap
      (fun k => (l.drop (k * size)).take size) = l := by
  have hfirst : ∀ n, (List.range n).flatMap (fun k => (l.drop (k * size)).take size)
      = l.take (n * size) := by
    intro n
    induction n with
    | zero => simp
    | succ n ih =>
      rw [List.range_succ, List.flatMap_append, ih, List.flatMap_singleton, Nat.succ_mul,
        List.take_add]
  rw [hfirst, List.take_of_length_le]
  -- one page more would begin at the end
  by_contra hlt
  exact (lt_irrefl _) ((Paging.lt_pageCount_iff hsize).mpr (not_le.mp hlt))

/-! ### The summary -/

/-- The five ratings. -/
def allRatings : List Rating :=
  [⟨1, by decide⟩, ⟨2, by decide⟩, ⟨3, by decide⟩, ⟨4, by decide⟩, ⟨5, by decide⟩]

theorem mem_allRatings (rating : Rating) : rating ∈ allRatings := by
  obtain ⟨stars, hlow, hhigh⟩ := rating
  have hcases : stars = 1 ∨ stars = 2 ∨ stars = 3 ∨ stars = 4 ∨ stars = 5 := by omega
  rcases hcases with rfl | rfl | rfl | rfl | rfl <;> simp [allRatings]

/-- The loop over the grouped rows. -/
theorem foldl_add (rows : List (Rating × ℕ)) (hrows : (rows.map Prod.fst).Nodup)
    (sofar : ReviewSummary × ℤ) :
    (rows.foldl ReviewSummary.add sofar).1.averageRating = sofar.1.averageRating ∧
    (rows.foldl ReviewSummary.add sofar).1.totalReviews
        = sofar.1.totalReviews + (rows.map Prod.snd).sum ∧
    (rows.foldl ReviewSummary.add sofar).2
        = sofar.2 + (rows.map fun row => (row.1 : ℤ) * row.2).sum ∧
    (∀ row ∈ rows, (rows.foldl ReviewSummary.add sofar).1.ratingDistribution row.1 = row.2) ∧
    ∀ rating ∉ rows.map Prod.fst, (rows.foldl ReviewSummary.add sofar).1.ratingDistribution rating
        = sofar.1.ratingDistribution rating := by
  induction rows generalizing sofar with
  | nil => simp
  | cons row rows ih =>
    rw [List.map_cons, List.nodup_cons] at hrows
    obtain ⟨haverage, htotal, hsum, hin, hout⟩ := ih hrows.2 (ReviewSummary.add sofar row)
    refine ⟨?_, ?_, ?_, fun row' hrow' => ?_, fun rating hrating => ?_⟩
    · rw [List.foldl_cons, haverage]
      rfl
    · rw [List.foldl_cons, htotal, List.map_cons, List.sum_cons, ← Nat.add_assoc]
      rfl
    · rw [List.foldl_cons, hsum, List.map_cons, List.sum_cons, ← Int.add_assoc]
      rfl
    · rcases List.mem_cons.mp hrow' with rfl | hrow'
      · rw [List.foldl_cons, hout _ hrows.1]
        exact Function.update_self _ _ _
      · exact hin row' hrow'
    · rw [List.map_cons, List.mem_cons, not_or] at hrating
      rw [List.foldl_cons, hout _ hrating.2]
      exact Function.update_of_ne hrating.1 _ _

/-- The summary of some ratings. -/
def summaryOf (ratings : List Rating) : ReviewSummary :=
  .close ((groupRatings ratings).foldl ReviewSummary.add (.empty, 0))

/-- How often a rating was given. -/
def ratingCount (ratings : List Rating) (rating : Rating) : ℕ :=
  ratings.countP fun other => other = rating

/-- The stars of some ratings together. -/
def ratingSum (ratings : List Rating) : ℤ := (ratings.map Subtype.val).sum

/-- The average that stands beside some ratings, in tenths: 0 without any. -/
def averageOf (ratings : List Rating) : ℤ :=
  if ratings.length = 0 then 0 else roundTenths (trueDiv (ratingSum ratings) ratings.length)

theorem summaryOf_eq (ratings : List Rating) :
    (summaryOf ratings).totalReviews = ratings.length ∧
    (summaryOf ratings).averageRating = averageOf ratings ∧
    ∀ rating, (summaryOf ratings).ratingDistribution rating = ratingCount ratings rating := by
  have hkeys : (groupRatings ratings).map Prod.fst = ratings.dedup := by
    rw [groupRatings, List.map_map]
    exact List.map_id _
  obtain ⟨haverage, htotal, hsum, hin, hout⟩ := foldl_add (groupRatings ratings)
    (by rw [hkeys]; exact ratings.nodup_dedup) (.empty, 0)
  -- what the loop ends with
  have hcount : ((groupRatings ratings).foldl ReviewSummary.add (.empty, 0)).1.totalReviews
      = ratings.length := by
    rw [htotal, groupRatings, List.map_map]
    exact (Nat.zero_add _).trans (List.sum_map_count_dedup_eq_length ratings)
  have hstars : ((groupRatings ratings).foldl ReviewSummary.add (.empty, 0)).2
      = ratingSum ratings := by
    have hdedup : ∀ f : Rating → ℤ, (ratings.dedup.map f).sum = ∑ r ∈ ratings.toFinset, f r := by
      intro f
      have hset : ratings.toFinset = ratings.dedup.toFinset := by
        ext r
        simp
      rw [hset, List.sum_toFinset f ratings.nodup_dedup]
    rw [hsum, groupRatings, List.map_map, hdedup, ratingSum, Finset.sum_list_map_count]
    refine (Int.zero_add _).trans (Finset.sum_congr rfl fun r _ => ?_)
    rw [nsmul_eq_mul, mul_comm]
    rfl
  have hdistribution : ∀ rating,
      ((groupRatings ratings).foldl ReviewSummary.add (.empty, 0)).1.ratingDistribution rating
        = ratingCount ratings rating := by
    intro rating
    by_cases hmem : rating ∈ ratings
    · have hrow : (rating, ratingCount ratings rating) ∈ groupRatings ratings :=
        List.mem_map.mpr ⟨rating, List.mem_dedup.mpr hmem, rfl⟩
      exact hin _ hrow
    · have hzero : ratingCount ratings rating = 0 := by
        rw [ratingCount, List.countP_eq_zero]
        rintro other hother heq
        rw [decide_eq_true_eq] at heq
        exact hmem (heq ▸ hother)
      rw [hout _ (by rwa [hkeys, List.mem_dedup]), hzero]
      rfl
  rw [summaryOf, ReviewSummary.close, averageOf, hcount, hstars]
  split
  · exact ⟨hcount, haverage, hdistribution⟩
  · exact ⟨hcount, rfl, hdistribution⟩

theorem sum_ratingCount (ratings : List Rating) :
    (allRatings.map (ratingCount ratings)).sum = ratings.length := by
  induction ratings with
  | nil => rfl
  | cons rating ratings ih =>
    have hstep : ∀ star, ratingCount (rating :: ratings) star
        = ratingCount ratings star + if rating = star then 1 else 0 := by
      intro star
      simp [ratingCount, List.countP_cons]
    have hone : (allRatings.map fun star => if rating = star then 1 else 0).sum = 1 := by
      have hmem := mem_allRatings rating
      simp only [allRatings, List.mem_cons, List.not_mem_nil, or_false] at hmem
      rcases hmem with rfl | rfl | rfl | rfl | rfl <;> rfl
    rw [List.map_congr_left fun star _ => hstep star, List.sum_map_add, ih, hone, List.length_cons]

theorem ratingSum_bounds (ratings : List Rating) :
    (ratings.length : ℤ) ≤ ratingSum ratings ∧ ratingSum ratings ≤ 5 * (ratings.length : ℤ) := by
  induction ratings with
  | nil => simp [ratingSum]
  | cons rating ratings ih =>
    obtain ⟨stars, hlow, hhigh⟩ := rating
    rw [ratingSum] at ih ⊢
    rw [List.map_cons, List.sum_cons, List.length_cons]
    push_cast
    omega

/-- Two roundings of a quotient between 1 and 5 leave it there. -/
theorem roundTenths_trueDiv_bounds {a b : ℤ} (hb : 0 < b) (hlow : b ≤ a) (hhigh : a ≤ 5 * b) :
    10 ≤ roundTenths (trueDiv a b) ∧ roundTenths (trueDiv a b) ≤ 50 := by
  rw [roundTenths, trueDiv]
  dsimp only
  set e : ℤ := 2 ^ (52 - (a / b).toNat.log2) with he
  have hpos : 0 < e := by positivity
  have hfloor : e ≤ Decimal.roundHalfEven (a * e) b :=
    Decimal.le_roundHalfEven hb (by rw [mul_comm]; exact mul_le_mul_of_nonneg_right hlow hpos.le)
  have hceil : Decimal.roundHalfEven (a * e) b ≤ 5 * e := by
    refine Decimal.roundHalfEven_le hb ?_
    calc a * e ≤ 5 * b * e := mul_le_mul_of_nonneg_right hhigh hpos.le
      _ = 5 * e * b := by ring
  exact ⟨Decimal.le_roundHalfEven hpos (by omega), Decimal.roundHalfEven_le hpos (by omega)⟩

/-- Of few enough reviews the average comes out as a nearest tenth, although it
is rounded twice. -/
theorem roundTenths_trueDiv_near {a b : ℤ} (hb : 0 < b) (hlow : b ≤ a) (hhigh : a ≤ 5 * b)
    (hfew : 10 * b < 2 ^ 50) : 2 * |roundTenths (trueDiv a b) * b - 10 * a| ≤ b := by
  -- the quotient is below 8, so the double has 50 binary places at least
  have hquotient : (a / b).toNat < 8 := by
    have hle : a / b ≤ 5 := Int.ediv_le_of_le_mul hb hhigh
    omega
  have hone : (a / b).toNat ≠ 0 := by
    have hge : 1 ≤ a / b := (Int.le_ediv_iff_mul_le hb).mpr (by omega)
    omega
  have hlog : (a / b).toNat.log2 < 3 := (Nat.log2_lt hone).mpr hquotient
  rw [roundTenths, trueDiv]
  dsimp only
  set e : ℤ := 2 ^ (52 - (a / b).toNat.log2) with he
  have hplaces : 2 ^ 50 ≤ e := pow_le_pow_right₀ (by norm_num) (by omega)
  have hpos : 0 < e := by positivity
  set m := Decimal.roundHalfEven (a * e) b with hm
  set t := Decimal.roundHalfEven (m * 10) e with ht
  have hfirst : 2 * |m * b - a * e| ≤ b := Decimal.abs_roundHalfEven_sub_le (a * e) hb
  have hsecond : 2 * |t * e - m * 10| ≤ e := Decimal.abs_roundHalfEven_sub_le (m * 10) hpos
  have hboth : 2 * |t * b - 10 * a| * e ≤ b * e + 10 * b := by
    calc 2 * |t * b - 10 * a| * e
        = 2 * |(t * e - m * 10) * b + 10 * (m * b - a * e)| := by
          rw [mul_assoc, ← abs_of_pos hpos, ← abs_mul, abs_of_pos hpos]
          ring_nf
      _ ≤ 2 * (|(t * e - m * 10) * b| + |10 * (m * b - a * e)|) :=
          mul_le_mul_of_nonneg_left (abs_add_le _ _) (by norm_num)
      _ = 2 * |t * e - m * 10| * b + 10 * (2 * |m * b - a * e|) := by
          rw [abs_mul, abs_mul, abs_of_pos hb, abs_of_pos (by norm_num : (0 : ℤ) < 10)]
          ring
      _ ≤ e * b + 10 * b :=
          add_le_add (mul_le_mul_of_nonneg_right hsecond hb.le)
            (mul_le_mul_of_nonneg_left hfirst (by norm_num))
      _ = b * e + 10 * b := by rw [mul_comm e b]
  have hstrict : 2 * |t * b - 10 * a| * e < (b + 1) * e := by
    calc 2 * |t * b - 10 * a| * e ≤ b * e + 10 * b := hboth
      _ < b * e + e := by omega
      _ = (b + 1) * e := by ring
  exact Int.lt_add_one_iff.mp (lt_of_mul_lt_mul_right hstrict hpos.le)

/-- The average of some ratings lies among them, and is a nearest tenth unless
there are astronomically many. -/
theorem averageOf_spec (ratings : List Rating) :
    (ratings ≠ [] → 10 ≤ averageOf ratings ∧ averageOf ratings ≤ 50) ∧
    (10 * ratings.length < 2 ^ 50 →
      2 * |averageOf ratings * ratings.length - 10 * ratingSum ratings| ≤ ratings.length) := by
  obtain ⟨hlow, hhigh⟩ := ratingSum_bounds ratings
  rcases Nat.eq_zero_or_pos ratings.length with hzero | hpos
  · rw [List.length_eq_zero_iff.mp hzero]
    simp [averageOf, ratingSum]
  · have hb : (0 : ℤ) < ratings.length := by exact_mod_cast hpos
    rw [averageOf, if_neg hpos.ne']
    exact ⟨fun _ => roundTenths_trueDiv_bounds hb hlow hhigh,
      fun hfew => roundTenths_trueDiv_near hb hlow hhigh (by exact_mod_cast hfew)⟩

/-! ### The pages -/

/-- What a visitor reads, page by page. -/
structure PagesAgree (approved : List (UUID × Review)) (pageSize : ℕ)
    (answer : ℕ → PublicReviewListResponse) : Prop where
  all : ((List.range (Paging.pageCount (answer 1).total pageSize)).flatMap fun k =>
    (answer (k + 1)).items).Perm (approved.map publicItem)
  newest : ((List.range (Paging.pageCount (answer 1).total pageSize)).flatMap fun k =>
    (answer (k + 1)).items).Pairwise fun a b =>
      b.createdAt < a.createdAt ∨ a.createdAt = b.createdAt ∧ a.id < b.id
  total : ∀ page, (answer page).total = approved.length ∧
    (answer page).summary.totalReviews = (answer page).total
  stars : ∀ page rating, (answer page).summary.ratingDistribution rating =
    approved.countP fun row => row.2.rating = rating
  sum : ∀ page, (allRatings.map (answer page).summary.ratingDistribution).sum =
    (answer page).total
  average : ∀ page, (answer page).summary.averageRating =
    averageOf (approved.map fun row => row.2.rating)
  range : approved ≠ [] → ∀ page, 10 ≤ (answer page).summary.averageRating ∧
    (answer page).summary.averageRating ≤ 50
  nearest : 10 * approved.length < 2 ^ 50 → ∀ page,
    2 * |(answer page).summary.averageRating * approved.length -
      10 * ratingSum (approved.map fun row => row.2.rating)| ≤ approved.length

/-- The approved reviews of a plant, or of the shop. -/
def approvedReviews (s : SiteDb) (plantId : Option UUID) : List (UUID × Review) :=
  s.reviews.entries.filter fun row => row.2.status = .approved && row.2.plantId = plantId

/-- The filters of the two public pages. -/
theorem filteredReviews_approved (locale : DbLocale) (s : SiteDb) {plantId : Option UUID}
    {scope : Option ReviewScope}
    (hscope : plantId = none ∧ scope = some .shop ∨ plantId ≠ none ∧ scope = none) :
    filteredReviews locale ⟨none, some .approved, plantId, scope⟩ s
      = approvedReviews s plantId := by
  refine List.filter_congr fun row _ => ?_
  rcases hscope with ⟨rfl, rfl⟩ | ⟨hsome, rfl⟩
  · rcases hp : row.2.plantId with - | pid <;> simp [ReviewFilters.apply, hp]
  · obtain ⟨pid, rfl⟩ := Option.ne_none_iff_exists'.mp hsome
    simp [ReviewFilters.apply]

instance : Std.Total newestReview where
  total a b := by
    simp only [newestReview]
    rcases lt_trichotomy a.2.createdAt b.2.createdAt with h | h | h
    · exact .inr (.inl h)
    · rcases le_total a.1 b.1 with hid | hid
      · exact .inl (.inr ⟨h, hid⟩)
      · exact .inr (.inr ⟨h.symm, hid⟩)
    · exact .inl (.inl h)

instance : IsTrans (UUID × Review) newestReview where
  trans a b c hab hbc := by
    rcases hab with hab | ⟨hab, hid⟩ <;> rcases hbc with hbc | ⟨hbc, hid'⟩
    · exact .inl (lt_trans hbc hab)
    · exact .inl (hbc ▸ hab)
    · exact .inl (hab ▸ hbc)
    · exact .inr ⟨hab.trans hbc, hid.trans hid'⟩

/-- A page of the listing next to its summary. -/
def pageOf (approved : List (UUID × Review)) (page pageSize : ℕ) : PublicReviewListResponse where
  items := (((approved.insertionSort newestReview).drop ((page - 1) * pageSize)).take
    pageSize).map publicItem
  total := approved.length
  summary := summaryOf (approved.map fun row => row.2.rating)

theorem runAlone_publicReviewPage (locale : DbLocale) (vs : ℕ → SiteOutside) (s : SiteDb)
    (page pageSize : ℕ) {plantId : Option UUID} {scope : Option ReviewScope}
    (hscope : plantId = none ∧ scope = some .shop ∨ plantId ≠ none ∧ scope = none) (n : ℕ) :
    alone vs (publicReviewPage locale page pageSize plantId scope) n [] s
      = (.ok (pageOf (approvedReviews s plantId) page pageSize), s) := by
  rw [← filteredReviews_approved locale s hscope]
  rfl

/-- The pages of reviews with distinct ids agree with one another and with
their summaries. -/
theorem pagesAgree {approved : List (UUID × Review)} (hids : (approved.map Prod.fst).Nodup)
    {pageSize : ℕ} (hsize : 0 < pageSize) :
    PagesAgree approved pageSize fun page => pageOf approved page pageSize := by
  have hcards : ((List.range (Paging.pageCount approved.length pageSize)).flatMap fun k =>
      (pageOf approved (k + 1) pageSize).items)
      = (approved.insertionSort newestReview).map publicItem := by
    have hlength : (approved.insertionSort newestReview).length = approved.length :=
      List.length_insertionSort _ _
    have hpages := Paging.flatMap_pages (approved.insertionSort newestReview) hsize
    rw [hlength] at hpages
    have hmap := congrArg (List.map publicItem) hpages
    rw [List.map_flatMap] at hmap
    exact hmap
  obtain ⟨htotal, haverage, hstars⟩ := summaryOf_eq (approved.map fun row => row.2.rating)
  obtain ⟨hrange, hnearest⟩ := averageOf_spec (approved.map fun row => row.2.rating)
  have hlen : (approved.map fun row => row.2.rating).length = approved.length := List.length_map _
  rw [hlen] at hnearest
  refine ⟨?_, ?_, fun page => ⟨rfl, ?_⟩, fun page rating => ?_, fun page => ?_,
    fun page => haverage, fun hne page => ?_, fun hfew page => ?_⟩
  · show List.Perm (List.flatMap _ (List.range (Paging.pageCount approved.length pageSize))) _
    rw [hcards]
    exact (List.perm_insertionSort newestReview approved).map publicItem
  · show List.Pairwise _ (List.flatMap _ (List.range (Paging.pageCount approved.length pageSize)))
    rw [hcards, List.pairwise_map]
    have hne : (approved.insertionSort newestReview).Pairwise fun a b => a.1 ≠ b.1 := by
      rw [← List.pairwise_map (f := Prod.fst) (R := fun a b : UUID => a ≠ b)]
      exact ((List.perm_insertionSort newestReview approved).map Prod.fst).nodup_iff.mpr hids
    refine ((List.pairwise_insertionSort newestReview approved).and hne).imp ?_
    rintro a b ⟨hlater | ⟨hsame, hid⟩, hne⟩
    · exact .inl hlater
    · exact .inr ⟨hsame, lt_of_le_of_ne hid hne⟩
  · exact htotal.trans hlen
  · show (summaryOf _).ratingDistribution rating = _
    rw [hstars, ratingCount, List.countP_map]
    rfl
  · show (allRatings.map (summaryOf _).ratingDistribution).sum = approved.length
    rw [List.map_congr_left fun star _ => hstars star, sum_ratingCount, hlen]
  · show 10 ≤ (summaryOf _).averageRating ∧ (summaryOf _).averageRating ≤ 50
    rw [haverage]
    exact hrange (mt List.map_eq_nil_iff.mp hne)
  · show 2 * |(summaryOf _).averageRating * _ - _| ≤ _
    rw [haverage]
    exact hnearest hfew

theorem nodup_approvedReviews (s : SiteDb) (plantId : Option UUID) :
    ((approvedReviews s plantId).map Prod.fst).Nodup :=
  s.reviews.nodup.sublist (List.filter_sublist.map Prod.fst)

/-- A lookup that finds a plant goes on with it. -/
theorem alone_getActivePlantOr404 {β : Type} {casing : Casing} {slug : Text} {s : SiteDb}
    {found : UUID × Plant} {vs : ℕ → Outside} {vs' : ℕ → SiteOutside}
    (hfound : (runAlone vs (getActivePlantOr404 casing slug) s.shop).1 = .ok found)
    (g : UUID × Plant → SiteSession β) (n : ℕ) :
    alone vs' ((getActivePlantOr404 casing slug).into inSite >>= g) n [] s
      = alone vs' (g found) n [] s := by
  rw [getActivePlantOr404, getPlantBySlug] at hfound ⊢
  rw [runAlone, alone_query, flush_nil] at hfound
  rw [Tx.into_bind, Tx.into_query, bind_assoc, alone_query, flush_nil]
  rw [show inSite.get s = s.shop from rfl]
  rcases hnow : s.shop.plants.find? fun p =>
    p.slug = normalizeSlug casing slug && p.shown true with - | row
  · rw [hnow] at hfound
    rw [alone_query, flush_nil] at hfound
    show alone vs' (Tx.into inSite (Tx.query _ >>= _) >>= g) n [] s = _
    rw [Tx.into_bind, Tx.into_query, bind_assoc, alone_query, flush_nil]
    rw [show inSite.get s = s.shop from rfl]
    rcases hbefore : (usedBefore s.shop (normalizeSlug casing slug)).find?
      fun e => e.2.shown true with - | row
    · rw [hbefore] at hfound
      cases hfound
    · rw [hbefore] at hfound ⊢
      rw [Except.ok.inj hfound]
      rfl
  · rw [hnow] at hfound
    rw [Except.ok.inj hfound]
    rfl

/-- **The public review pages agree.**  While nobody writes, reading the pages
of the shop or of a plant one after the other gives every approved review
once, newest first, and the counts and the average beside each page are those
of exactly these reviews. -/
theorem public_pages_agree (locale : DbLocale) (casing : Casing) (vs : ℕ → SiteOutside)
    (s : SiteDb) {pageSize : ℕ} (hsize : 0 < pageSize) :
    (∃ answer, (∀ page, runAlone vs (getPublicReviews locale page pageSize) s
        = (.ok (answer page), s)) ∧ PagesAgree (approvedReviews s none) pageSize answer) ∧
    ∀ slug pid plant, (runAlone (fun n => (vs n).shop) (getActivePlantOr404 casing slug) s.shop).1
        = .ok (pid, plant) →
      ∃ answer, (∀ page, runAlone vs (getPublicPlantReviews locale casing slug page pageSize) s
          = (.ok (answer page), s)) ∧
        PagesAgree (approvedReviews s (some pid)) pageSize answer := by
  refine ⟨⟨_, fun page => ?_, pagesAgree (nodup_approvedReviews s none) hsize⟩,
    fun slug pid plant hfound => ⟨_, fun page => ?_,
      pagesAgree (nodup_approvedReviews s (some pid)) hsize⟩⟩
  · exact runAlone_publicReviewPage locale vs s page pageSize (.inl ⟨rfl, rfl⟩) 0
  · rw [runAlone, getPublicPlantReviews, alone_getActivePlantOr404 hfound]
    exact runAlone_publicReviewPage locale vs s page pageSize (.inr ⟨by simp, rfl⟩) 0

/-- Two approved reviews of the shop, one that waits and one of a plant. -/
def SiteDb.reviewed : SiteDb where
  shop := Db.ferns
  reviews := (((Table.empty.insert 1
    ⟨none, "An".toList, ⟨5, by decide⟩, "Lovely.".toList, .approved, 10⟩).insert 2
    ⟨none, "Binh".toList, ⟨3, by decide⟩, "Slow.".toList, .approved, 20⟩).insert 3
    ⟨none, "Chi".toList, ⟨1, by decide⟩, "Spam.".toList, .pending, 30⟩).insert 4
    ⟨some 7, "Dung".toList, ⟨4, by decide⟩, "Green.".toList, .approved, 40⟩

/-- What a transaction of the site takes from outside at noon. -/
def siteAtNoon (uuid : UUID) : SiteOutside := ⟨atNoon uuid, id, fun _ => .refl _⟩

theorem public_pages_agree_reviewed :
    (∃ answer, (∀ page, runAlone (fun _ => siteAtNoon 9) (getPublicReviews cLocale page 1)
        .reviewed = (.ok (answer page), .reviewed)) ∧
      PagesAgree (approvedReviews .reviewed none) 1 answer) ∧
    ∃ answer, (∀ page, runAlone (fun _ => siteAtNoon 9)
        (getPublicPlantReviews cLocale asciiCasing "Fern".toList page 1) .reviewed
          = (.ok (answer page), .reviewed)) ∧
      PagesAgree (approvedReviews .reviewed (some 7)) 1 answer := by
  obtain ⟨hshop, hplant⟩ := public_pages_agree cLocale asciiCasing (fun _ => siteAtNoon 9)
    .reviewed Nat.one_pos
  exact ⟨hshop, hplant "Fern".toList 7 fern rfl⟩

end GreenGarden
