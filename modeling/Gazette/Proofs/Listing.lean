import Gazette.Proofs.Instant
import Gazette.Proofs.Selection
import Gazette.Proofs.Writing
import Gazette.Store.Listing
import Mathlib.Data.Prod.Lex
import Mathlib.Order.WithBot

/-!
# Listings of posts

What a listing shows is told without joins, queries and texts. It is the stored posts that the
filter lets through, each once, from the newest instant to the oldest, up to the limit.
-/
namespace Gazette
open Store Text

variable {s : Store} {filter : PostFilter} {order : PostOrder} {a b : PostRow}

/-- Whether an order puts one post before another. The newer comes first, what has no instant
comes last, and the greater id goes before the lesser. -/
def PostOrder.Puts (order : PostOrder) (a b : PostRow) : Prop :=
  match orderKey order a, orderKey order b with
  | some x, some y => y.IsBefore x ∨ x = y ∧ b.id < a.id
  | some _, none => True
  | none, some _ => False
  | none, none => b.id < a.id

/-- The posts that a filter asks for, in its order. -/
structure PostFilter.Lists (filter : PostFilter) (s : Store) (rows : List PostRow) : Prop where
  mem_iff : ∀ row, row ∈ rows ↔ row ∈ s.posts ∧ filter.Selects s row
  nodup : rows.Nodup
  sorted : rows.Pairwise filter.order.Puts

def PostFilter.cut {α : Type} (filter : PostFilter) (list : List α) : List α :=
  filter.limit.elim list fun limit => list.take limit

structure PostRow.WellTimed (row : PostRow) : Prop where
  created : row.createdAt.HasPlainYear
  published : ∀ t, row.publishedDate = some t → t.HasPlainYear

instance (row : PostRow) : Decidable row.WellTimed :=
  decidable_of_iff (row.createdAt.HasPlainYear ∧ ∀ t ∈ row.publishedDate.toList, t.HasPlainYear)
    ⟨fun h => ⟨h.1, fun t ht => h.2 t (Option.mem_toList.2 ht)⟩,
      fun h => ⟨h.1, fun t ht => h.2 t (Option.mem_toList.1 ht)⟩⟩

structure Store.Shows (s : Store) (row : PostRow) (view : PostView) : Prop where
  post : s.postOf row = .ok view.post
  author : (s.users.row? row.authorId).map (·.username) = some view.authorUsername
  category : view.category =
    (row.categoryId.bind (s.categories.row? ·)).map fun category => ⟨category.slug, category.name⟩
  tags : view.tags = (s.tagsOf row.id).map fun tag => ⟨tag.slug, tag.name⟩
  comments : view.commentCount = s.approvedCount row.id

/-- What a listing compares of a post: the stored text of its instant and then its id. -/
def listingKey (order : PostOrder) (row : PostRow) : WithBot String ×ₗ String :=
  toLex ((orderKey order row).elim ⊥ fun t => (t.storedText : WithBot String), row.id)

theorem isNewestFirst_iff :
    isNewestFirst (orderKey order a, a.id) (orderKey order b, b.id) = true ↔
      listingKey order b ≤ listingKey order a := by
  unfold isNewestFirst listingKey
  rw [Prod.Lex.toLex_le_toLex]
  cases orderKey order a with
  | none => cases orderKey order b <;> simp
  | some x =>
      cases orderKey order b with
      | none => simp
      | some y => simp [@eq_comm _ x.storedText]

theorem PostRow.WellTimed.orderKey (h : a.WellTimed) {t : Timestamp}
    (ht : Store.orderKey order a = some t) : t.HasPlainYear := by
  cases order with
  | created => exact Option.some.inj ht ▸ h.created
  | published => exact h.published t ht

/-- Among well formed instants the stored texts put posts in the order of the instants. -/
theorem puts_iff (ha : a.WellTimed) (hb : b.WellTimed) :
    order.Puts a b ↔ listingKey order b < listingKey order a := by
  unfold PostOrder.Puts listingKey
  rw [Prod.Lex.toLex_lt_toLex]
  cases hx : orderKey order a with
  | none => cases hy : orderKey order b <;> simp
  | some x =>
      cases hy : orderKey order b with
      | none => simp
      | some y =>
          have hbefore := Timestamp.storedText_lt_iff (hb.orderKey hy) (ha.orderKey hx)
          have hsame := Timestamp.storedText_inj (hb.orderKey hy) (ha.orderKey hx)
          simp [hbefore, hsame, @eq_comm _ x]

theorem PostFilter.Lists.unique (htimed : ∀ row ∈ s.posts, row.WellTimed)
    {rows others : List PostRow} (h : filter.Lists s rows) (hothers : filter.Lists s others) :
    rows = others := by
  have hperm : rows.Perm others := by
    rw [List.perm_ext_iff_of_nodup h.nodup hothers.nodup]
    intro row
    rw [h.mem_iff, hothers.mem_iff]
  refine hperm.eq_of_pairwise ?_ h.sorted hothers.sorted
  intro x y hx hy hxy hyx
  have htimedx := htimed x ((h.mem_iff x).1 hx).1
  have htimedy := htimed y ((hothers.mem_iff y).1 hy).1
  exact absurd ((puts_iff htimedx htimedy).1 hxy) ((puts_iff htimedy htimedx).1 hyx).asymm

namespace PostQuery

theorem compare_order (query : PostQuery) (value : Option String) (condition : Nat → Condition) :
    (query.compare value condition).order = query.order := by
  cases value <;> rfl

theorem compare_limit (query : PostQuery) (value : Option String) (condition : Nat → Condition) :
    (query.compare value condition).limit = query.limit := by
  cases value <;> rfl

theorem ofFilter_order (filter : PostFilter) : (ofFilter filter).order = filter.order := by
  unfold ofFilter
  dsimp only
  split <;> simp only [compare_order]

theorem ofFilter_limit (filter : PostFilter) : (ofFilter filter).limit = filter.limit := by
  unfold ofFilter
  dsimp only
  split <;> simp only [compare_limit]

def sorted (query : PostQuery) (s : Store) : List JoinedPost :=
  (s.joinedPosts.filter (query.selects s)).mergeSort fun a b =>
    isNewestFirst (orderKey query.order a.row, a.row.id) (orderKey query.order b.row, b.row.id)

theorem answer_eq (filter : PostFilter) (s : Store) :
    (ofFilter filter).answer s = filter.cut ((ofFilter filter).sorted s) := by
  rw [answer, ofFilter_limit, PostFilter.cut]
  cases filter.limit <;> rfl

theorem mem_sorted {query : PostQuery} {joined : JoinedPost} :
    joined ∈ query.sorted s ↔ joined ∈ s.joinedPosts ∧ query.selects s joined = true :=
  (List.mergeSort_perm _ _).mem_iff.trans List.mem_filter

theorem pairwise_sorted (query : PostQuery) (s : Store) :
    (query.sorted s).Pairwise fun a b =>
      listingKey query.order b.row ≤ listingKey query.order a.row := by
  refine (List.pairwise_mergeSort ?_ ?_ _).imp isNewestFirst_iff.1
  · intro a b c hab hbc
    rw [isNewestFirst_iff] at *
    exact hbc.trans hab
  · intro a b
    rw [Bool.or_eq_true, isNewestFirst_iff, isNewestFirst_iff]
    exact le_total _ _

theorem nodup_ids_sorted (h : s.Sound) (query : PostQuery) :
    ((query.sorted s).map (·.row.id)).Nodup := by
  have hsublist : ((s.joinedPosts.filter (query.selects s)).map (·.row)).Sublist s.posts := by
    rw [← rows_joinedPosts h]
    exact List.filter_sublist.map _
  have hids := h.post_ids.sublist (hsublist.map PostRow.id)
  rw [List.map_map] at hids
  exact ((List.mergeSort_perm _ _).map _).nodup_iff.2 hids

/-- What a query selects, in its order, is what the filter asks for. -/
theorem lists_sorted (h : s.Sound) (htimed : ∀ row ∈ s.posts, row.WellTimed)
    (filter : PostFilter) : filter.Lists s (((ofFilter filter).sorted s).map (·.row)) := by
  have hjoins : ∀ joined ∈ (ofFilter filter).sorted s, s.Joins joined :=
    fun joined hjoined => joins_of_mem h (mem_sorted.1 hjoined).1
  have hids := nodup_ids_sorted h (ofFilter filter)
  constructor
  · intro row
    rw [List.mem_map]
    constructor
    · rintro ⟨joined, hjoined, rfl⟩
      exact ⟨(hjoins joined hjoined).row,
        (filter.selects_iff h (hjoins joined hjoined)).1 (mem_sorted.1 hjoined).2⟩
    · rintro ⟨hrow, hselects⟩
      rw [← rows_joinedPosts h] at hrow
      obtain ⟨joined, hjoined, rfl⟩ := List.mem_map.1 hrow
      have hselected := (filter.selects_iff h (joins_of_mem h hjoined)).2 hselects
      exact ⟨joined, mem_sorted.2 ⟨hjoined, hselected⟩, rfl⟩
  · refine List.Nodup.of_map PostRow.id ?_
    rwa [List.map_map]
  · rw [List.pairwise_map]
    refine ((pairwise_sorted _ s).and (List.pairwise_map.1 hids)).imp_of_mem ?_
    rintro a b ha hb ⟨hle, hid⟩
    have htimeda := htimed a.row (hjoins a ha).row
    have htimedb := htimed b.row (hjoins b hb).row
    rw [puts_iff htimeda htimedb, ← ofFilter_order filter]
    refine hle.lt_of_ne fun hkey => hid ?_
    exact (congrArg Prod.snd (toLex.injective hkey)).symm

end PostQuery

theorem Store.shows_of_viewOf {joined : JoinedPost} {view : PostView} (hjoins : s.Joins joined)
    (h : s.viewOf joined = .ok view) : s.Shows joined.row view := by
  rw [viewOf_eq] at h
  cases hpost : s.postOf joined.row with
  | error e =>
      rw [hpost] at h
      cases h
  | ok post =>
      rw [hpost] at h
      cases h
      exact ⟨hpost, by rw [hjoins.author]; rfl, by rw [hjoins.category], rfl, rfl⟩

theorem Store.findView?_ok (h : s.Sound) {slug : String} {view : PostView}
    (hfind : s.findView? slug = .ok (some view)) :
    ∃ row ∈ s.posts, row.slug = slug ∧ s.Shows row view := by
  rw [findView?] at hfind
  cases hjoined : s.joinedPosts.find? fun joined => joined.row.slug == slug with
  | none =>
      rw [hjoined] at hfind
      cases hfind
  | some joined =>
      have hjoins := joins_of_mem h (List.mem_of_find?_eq_some hjoined)
      rw [hjoined, Option.mapM_some] at hfind
      cases hview : s.viewOf joined with
      | error e =>
          rw [hview] at hfind
          cases hfind
      | ok shown =>
          rw [hview] at hfind
          cases hfind
          exact ⟨joined.row, hjoins.row, by simpa using List.find?_some hjoined,
            shows_of_viewOf hjoins hview⟩

theorem Store.Shows.unique {row : PostRow} {view other : PostView} (h : s.Shows row view)
    (hother : s.Shows row other) : view = other := by
  have hpost := Except.ok.inj (h.post.symm.trans hother.post)
  have hauthor := Option.some.inj (h.author.symm.trans hother.author)
  have hcategory := h.category.trans hother.category.symm
  have htags := h.tags.trans hother.tags.symm
  have hcomments := h.comments.trans hother.comments.symm
  cases view
  cases other
  simp_all

theorem Store.findView?_of_shows (hs : s.Sound) {row : PostRow} {view : PostView}
    (hrow : row ∈ s.posts) (h : s.Shows row view) :
    s.findView? view.post.slug = .ok (some view) := by
  obtain ⟨joined, hfind, rfl⟩ := exists_joined_at hs hrow
  obtain ⟨shown, hshown, -⟩ := viewOf_ok joined h.post
  have hjoins := joins_of_mem hs (List.mem_of_find?_eq_some hfind)
  obtain rfl := h.unique (shows_of_viewOf hjoins hshown)
  have hslug : view.post.slug = joined.row.slug := by rw [(postOf_ok.1 h.post).2.2]
  rw [findView?, hslug, hfind, Option.mapM_some, hshown]
  rfl

theorem exists_mapM_eq_ok {α β : Type} {f : α → Except StoreError β} {R : α → β → Prop}
    (list : List α) (h : ∀ a ∈ list, ∃ b, f a = .ok b ∧ R a b) :
    ∃ results, list.mapM f = .ok results ∧ List.Forall₂ R list results := by
  induction list with
  | nil => exact ⟨[], rfl, .nil⟩
  | cons a rest ih =>
      obtain ⟨b, hb, hR⟩ := h a List.mem_cons_self
      obtain ⟨results, hrest, hall⟩ := ih fun a ha => h a (List.mem_cons_of_mem _ ha)
      refine ⟨b :: results, ?_, .cons hR hall⟩
      rw [List.mapM_cons, hb, hrest]
      rfl

theorem PostFilter.cut_map {α β : Type} (filter : PostFilter) (f : α → β) (list : List α) :
    filter.cut (list.map f) = (filter.cut list).map f := by
  unfold cut
  cases filter.limit with
  | none => rfl
  | some limit => exact List.map_take.symm

theorem PostFilter.mem_of_mem_cut {α : Type} {list : List α} {a : α} (h : a ∈ filter.cut list) :
    a ∈ list := by
  unfold cut at h
  cases hlimit : filter.limit with
  | none => rwa [hlimit] at h
  | some limit =>
      rw [hlimit] at h
      exact List.mem_of_mem_take h

/-- A listing with a limit that fits shows each post that the query selects. -/
theorem Store.listPosts_eq (filter : PostFilter) (s : Store)
    (hlimit : ∀ limit, filter.limit = some limit → limit < 2 ^ 63) :
    s.listPosts filter =
      (filter.cut ((PostQuery.ofFilter filter).sorted s)).mapM fun joined => s.viewOf joined := by
  have hsmall : (PostQuery.ofFilter filter).limit.any (greatestLimit < ·) = false := by
    rw [PostQuery.ofFilter_limit]
    cases hcase : filter.limit with
    | none => rfl
    | some limit => exact decide_eq_false (Nat.not_lt.2 (Nat.le_pred_of_lt (hlimit limit hcase)))
  rw [listPosts]
  simp only [hsmall, PostQuery.answer_eq]
  rfl

theorem Store.exists_shows (h : s.Sound) (hread : ∀ row ∈ s.posts, Readable row)
    {joined : JoinedPost} (hjoined : joined ∈ filter.cut ((PostQuery.ofFilter filter).sorted s)) :
    ∃ view, s.viewOf joined = .ok view ∧ s.Shows joined.row view := by
  have hjoins := joins_of_mem h (PostQuery.mem_sorted.1 (PostFilter.mem_of_mem_cut hjoined)).1
  obtain ⟨post, hpost⟩ := exists_postOf.2 (hread joined.row hjoins.row)
  obtain ⟨view, hview, -⟩ := viewOf_ok joined hpost
  exact ⟨view, hview, shows_of_viewOf hjoins hview⟩

theorem Store.exists_listPosts (filter : PostFilter) (h : s.Sound)
    (hread : ∀ row ∈ s.posts, Readable row)
    (hlimit : ∀ limit, filter.limit = some limit → limit < 2 ^ 63) :
    ∃ views, s.listPosts filter = .ok views := by
  rw [listPosts_eq filter s hlimit]
  obtain ⟨views, hviews, -⟩ := exists_mapM_eq_ok _ fun _ => exists_shows h hread
  exact ⟨views, hviews⟩

theorem Store.listPosts_ok (filter : PostFilter) (h : s.Sound)
    (hread : ∀ row ∈ s.posts, Readable row) (htimed : ∀ row ∈ s.posts, row.WellTimed)
    (hlimit : ∀ limit, filter.limit = some limit → limit < 2 ^ 63) :
    ∃ rows views, filter.Lists s rows ∧ s.listPosts filter = .ok views ∧
      List.Forall₂ s.Shows (filter.cut rows) views := by
  obtain ⟨views, hviews, hshows⟩ := exists_mapM_eq_ok _ fun _ => exists_shows h hread
  refine ⟨_, views, PostQuery.lists_sorted h htimed filter, ?_, ?_⟩
  · rw [listPosts_eq filter s hlimit]
    exact hviews
  · rw [PostFilter.cut_map, List.forall₂_map_left_iff]
    exact hshows

theorem Text.nonBlank?_eq_some {text value : String} :
    nonBlank? text = some value ↔ trim text = value ∧ value ≠ "" := by
  unfold nonBlank?
  split
  · rename_i hblank
    have hempty := (trim_eq_empty_iff text).2 hblank
    simp [hempty, eq_comm]
  · rename_i hfull
    have hfull := mt (trim_eq_empty_iff text).1 hfull
    constructor
    · intro h
      obtain rfl := Option.some.inj h
      exact ⟨rfl, hfull⟩
    · rintro ⟨rfl, -⟩
      rfl

theorem PostStatus.ofWord?_eq_some {word : String} {status : PostStatus} :
    ofWord? word = some status ↔ word = status.word :=
  ⟨fun h => (word_of_ofWord? h).symm, fun h => h ▸ ofWord?_word status⟩

/-- Whether a filter has the conditions that are given as texts, and no others. -/
structure PostFilter.Reads (filter : PostFilter) (category author tag status : Option String) :
    Prop where
  category : ∀ slug, filter.categorySlug = some slug ↔
    ∃ text, category = some text ∧ trim text = slug ∧ slug ≠ ""
  author : ∀ id, filter.authorId = some id ↔ ∃ text, author = some text ∧ trim text = id ∧ id ≠ ""
  tag : ∀ slug, filter.tagSlug = some slug ↔ ∃ text, tag = some text ∧ trim text = slug ∧ slug ≠ ""
  status : ∀ s, filter.status = some s ↔ ∃ text, status = some text ∧ trim text = s.word
  publishedOnly : filter.publishedOnly = false
  order : filter.order = .created
  limit : filter.limit = none

theorem PostFilter.ofParams_reads (category author tag status : Option String) :
    (ofParams category author tag status).Reads category author tag status where
  category slug := by simp [ofParams, Option.bind_eq_some_iff, nonBlank?_eq_some]
  author id := by simp [ofParams, Option.bind_eq_some_iff, nonBlank?_eq_some]
  tag slug := by simp [ofParams, Option.bind_eq_some_iff, nonBlank?_eq_some]
  status s := by simp [ofParams, Option.bind_eq_some_iff, PostStatus.ofWord?_eq_some]
  publishedOnly := rfl
  order := rfl
  limit := rfl

namespace Api
open StoreProcedure Api.Action Exchange

theorem listCategoryPosts_ok {category : Category} {slug : String} {views : List PostView}
    (hfind : s.findCategoryAt? slug = some category)
    (hviews : s.listPosts { filter with categorySlug := some category.slug } = .ok views) :
    (listCategoryPosts slug filter).outcome s = (.ok views, s) := by
  unfold listCategoryPosts readCategory
  rw [(found_look_reads _).then_ok]
  exact ⟨category, found_look_ok.2 ⟨hfind, rfl⟩, lookOr_ok.2 ⟨hviews, rfl⟩⟩

theorem postFilter_ok {x : Exchange} (h : x.postFilter.outcome s = (.ok filter, s)) :
    ∃ category author tag status, PostFilter.ofParams category author tag status = filter := by
  obtain ⟨fields, -, hfilter⟩ := outcome_then_pure_ok.1 h
  exact ⟨_, _, _, _, hfilter⟩

/-- The route to the posts of a category answers with the listing for this category. -/
theorem perform_listCategoryPosts [Libraries] {x : Exchange} {raw slug : String}
    {views : List PostView} (hraw : parameter? raw = some slug)
    (hfilter : x.postFilter.outcome s = (.ok filter, s))
    (hcategory : ∃ category ∈ s.categories, category.slug = slug)
    (hviews : s.listPosts { filter with categorySlug := some slug } = .ok views) :
    (x.perform (.listCategoryPosts raw)).outcome s =
      (.ok (.json 200 (.array (views.map PostView.toJson))), s) := by
  have hfound : (s.findCategoryAt? slug).isSome := by
    obtain ⟨category, hmem, hslug⟩ := hcategory
    exact List.find?_isSome.2 ⟨category, hmem, beq_iff_eq.2 hslug⟩
  obtain ⟨category, hfind⟩ := Option.isSome_iff_exists.1 hfound
  have hslug : category.slug = slug := by simpa using List.find?_some hfind
  refine parameter_then_ok.2 ⟨slug, hraw, ?_⟩
  rw [x.postFilter_reads.then_ok]
  refine ⟨filter, hfilter, ?_⟩
  exact outcome_then_pure_ok.2 ⟨views, listCategoryPosts_ok hfind (hslug ▸ hviews), rfl⟩

end Api

/-- Whatever was asked of a fresh database, a listing shows the posts that its filter asks for, a
filter asks for what it reads from the texts, and the posts of a category are those that the filter
with this category lists. -/
theorem Call.posts_listed [Libraries] (calls : List Call)
    (hrun : Call.run calls Database.fresh.store = s) (hread : ∀ row ∈ s.posts, Readable row)
    (htimed : ∀ row ∈ s.posts, row.WellTimed) :
    (∀ filter : PostFilter, (∀ limit, filter.limit = some limit → limit < 2 ^ 63) →
      ∃ rows views, filter.Lists s rows ∧ (∀ others, filter.Lists s others → others = rows) ∧
        s.listPosts filter = .ok views ∧ List.Forall₂ s.Shows (filter.cut rows) views) ∧
    (∀ category author tag status,
      (PostFilter.ofParams category author tag status).Reads category author tag status) ∧
    ∀ (x : Api.Exchange) raw slug filter, Api.Exchange.parameter? raw = some slug →
      x.postFilter.outcome s = (.ok filter, s) → (∃ category ∈ s.categories, category.slug = slug) →
        ∃ views, s.listPosts { filter with categorySlug := some slug } = .ok views ∧
          (x.perform (.listCategoryPosts raw)).outcome s =
            (.ok (.json 200 (.array (views.map PostView.toJson))), s) := by
  have hsound : s.Sound := hrun ▸ Call.run_keeps_sound calls Database.sound_fresh
  refine ⟨fun filter hlimit => ?_, PostFilter.ofParams_reads, ?_⟩
  · obtain ⟨rows, views, hlists, hviews, hshows⟩ := listPosts_ok filter hsound hread htimed hlimit
    exact ⟨rows, views, hlists, fun others hothers => hothers.unique htimed hlists, hviews, hshows⟩
  · intro x raw slug filter hraw hfilter hcategory
    obtain ⟨category, author, tag, status, rfl⟩ := Api.postFilter_ok hfilter
    obtain ⟨-, views, -, hviews, -⟩ := listPosts_ok
      { PostFilter.ofParams category author tag status with categorySlug := some slug }
      hsound hread htimed nofun
    exact ⟨views, hviews, Api.perform_listCategoryPosts hraw hfilter hcategory hviews⟩

attribute [local instance] Libraries.bare

namespace Sample

def shelf : List Call :=
  start ++ [
    .request (request 5 "p1" .post "/api/posts" "\x7b\"title\":\"First\"\x7d"),
    .request (request 6 "p2" .post "/api/posts" "\x7b\"title\":\"Second\"\x7d")]

def shelved : Store :=
  Call.run shelf Database.fresh.store

end Sample

/-- A listing of at most one of the two posts is there and shows what stands first. -/
theorem Call.newest_listed :
    (∀ row ∈ Sample.shelved.posts, Readable row) ∧ (∀ row ∈ Sample.shelved.posts, row.WellTimed) ∧
      ∃ rows views, PostFilter.Lists { limit := some 1 } Sample.shelved rows ∧
        Sample.shelved.listPosts { limit := some 1 } = .ok views ∧
          List.Forall₂ Sample.shelved.Shows (rows.take 1) views := by
  have hread : ∀ row ∈ Sample.shelved.posts, Readable row := by decide +kernel
  have htimed : ∀ row ∈ Sample.shelved.posts, row.WellTimed := by decide +kernel
  obtain ⟨rows, views, hlists, -, hviews, hshows⟩ :=
    (posts_listed Sample.shelf rfl hread htimed).1 { limit := some 1 } (by decide)
  exact ⟨hread, htimed, rows, views, hlists, hviews, hshows⟩

end Gazette
