import Gazette.Proofs.Readback
import Mathlib.Data.List.Pairwise
import Mathlib.Data.List.Perm.Basic

/-!
# Views and what they show

A listing, the view of a post and the post itself are read by queries of their own, and so are the
comments on one post and on all of them. They say the same of whatever is stored. Comments stand in
the order of the texts that their instants are stored as. From the year 0 to the year 9999 that
is from the oldest to the newest, and a comment from a later year comes first.
-/
namespace Gazette
open Store

namespace Store

/-- Whether a view shows what can be read in other ways: the view and the post itself, the approved
comments, and the tags, the category and the author that the post names. -/
structure Agrees (s : Store) (view : PostView) : Prop where
  atSlug : s.findView? view.post.slug = .ok (some view)
  withId : s.findPost? view.post.id = .ok (some view.post)
  comments : view.commentCount = (s.listComments (some view.post.id) false).length
  tags : List.Forall₂
    (fun id ref => ∃ tag, s.tags.row? id = some tag ∧ ref = ⟨tag.slug, tag.name⟩)
    view.post.tagIds view.tags
  category_none : view.category = none ↔ view.post.categoryId = none
  category : ∀ id, view.post.categoryId = some id →
    ∃ category, s.categories.row? id = some category ∧
      view.category = some ⟨category.slug, category.name⟩
  author : ∃ user, s.users.row? view.post.authorId = some user ∧
    view.authorUsername = user.username

structure ReadsAgree (s : Store) : Prop where
  views : ∀ filter views, s.listPosts filter = .ok views → ∀ view ∈ views, s.Agrees view
  comments : ∀ includeUnapproved, (s.listComments none includeUnapproved).Perm
    (s.posts.flatMap fun row => s.listComments (some row.id) includeUnapproved)
  approved : ∀ postId,
    s.listComments postId false = (s.listComments postId true).filter (·.comment.isApproved)

end Store

/-- Whether a comment is from an earlier instant than another, or from the same with a lesser id. -/
def Comment.IsOlder (a b : Comment) : Prop :=
  a.createdAt.IsBefore b.createdAt ∨ a.createdAt = b.createdAt ∧ a.id < b.id

/-- What comments are ordered by: the stored text of the instant, and then the id. -/
def Comment.sortKey (comment : Comment) : String ×ₗ String :=
  toLex (comment.createdAt.storedText, comment.id)

/-- Whether comments are listed from the oldest to the newest. -/
def Store.OldestFirst (s : Store) : Prop :=
  ∀ postId includeUnapproved, (s.listComments postId includeUnapproved).Pairwise fun a b =>
    a.comment.IsOlder b.comment

namespace Store
variable {s : Store} {filter : PostFilter} {row : PostRow} {view : PostView}
  {views : List PostView} {postId : Option String} {includeUnapproved : Bool}

def commentsOn (postId : Option String) (includeUnapproved : Bool) (s : Store) : List Comment :=
  s.comments.filter fun comment =>
    postId.all (· == comment.postId) && (comment.isApproved || includeUnapproved)

def sortedComments (postId : Option String) (includeUnapproved : Bool) (s : Store) :
    List Comment :=
  (s.commentsOn postId includeUnapproved).mergeSort fun a b =>
    isNewestFirst (some b.createdAt, b.id) (some a.createdAt, a.id)

/-- What is listed of a comment, if its author is there. -/
def commentView? (s : Store) (comment : Comment) : Option CommentView :=
  (s.users.row? comment.authorId).map fun author => ⟨comment, author.username⟩

theorem listComments_eq (postId : Option String) (includeUnapproved : Bool) (s : Store) :
    s.listComments postId includeUnapproved =
      (s.sortedComments postId includeUnapproved).filterMap s.commentView? := rfl

theorem perm_sortedComments (postId : Option String) (includeUnapproved : Bool) (s : Store) :
    (s.sortedComments postId includeUnapproved).Perm (s.commentsOn postId includeUnapproved) :=
  List.mergeSort_perm _ _

theorem comment_of_commentView? {comment : Comment} {shown : CommentView}
    (h : s.commentView? comment = some shown) : shown.comment = comment := by
  obtain ⟨author, -, rfl⟩ := Option.map_eq_some_iff.1 h
  rfl

theorem exists_commentView? (hs : s.Sound) {comment : Comment} (h : comment ∈ s.comments) :
    ∃ shown, s.commentView? comment = some shown := by
  obtain ⟨author, hauthor⟩ := Table.exists_row?_of_has (hs.comment_author comment h)
  exact ⟨⟨comment, author.username⟩, by rw [commentView?, hauthor]; rfl⟩

/-- What is listed is listed of stored comments, and none of them is left out. -/
theorem map_filterMap_commentView? (hs : s.Sound) {comments : List Comment}
    (h : ∀ comment ∈ comments, comment ∈ s.comments) :
    (comments.filterMap s.commentView?).map (·.comment) = comments := by
  induction comments with
  | nil => rfl
  | cons comment comments ih =>
      obtain ⟨hhere, hlater⟩ := List.forall_mem_cons.1 h
      obtain ⟨shown, hshown⟩ := exists_commentView? hs hhere
      rw [List.filterMap_cons_some hshown, List.map_cons, comment_of_commentView? hshown, ih hlater]

theorem mem_comments_of_sorted {comment : Comment}
    (h : comment ∈ s.sortedComments postId includeUnapproved) : comment ∈ s.comments :=
  (List.mem_filter.1 ((perm_sortedComments _ _ _).mem_iff.1 h)).1

theorem map_comment_listComments (hs : s.Sound) (postId : Option String)
    (includeUnapproved : Bool) :
    (s.listComments postId includeUnapproved).map (·.comment) =
      s.sortedComments postId includeUnapproved :=
  map_filterMap_commentView? hs fun _ => mem_comments_of_sorted

theorem approvedCount_eq (hs : s.Sound) (id : String) :
    s.approvedCount id = (s.listComments (some id) false).length := by
  have hlength := congrArg List.length (map_comment_listComments hs (some id) false)
  rw [List.length_map, (perm_sortedComments _ _ _).length_eq] at hlength
  rw [hlength, approvedCount, List.countP_eq_length_filter, commentsOn]
  congr 1
  refine List.filter_congr fun comment _ => ?_
  simp [Bool.beq_comm]

theorem olderFirst_iff {a b : Comment} :
    isNewestFirst (some b.createdAt, b.id) (some a.createdAt, a.id) = true ↔
      a.sortKey ≤ b.sortKey := by
  unfold isNewestFirst Comment.sortKey
  rw [Prod.Lex.toLex_le_toLex]
  simp [@eq_comm _ b.createdAt.storedText]

theorem nodup_commentsOn (hs : s.Sound) (postId : Option String) (includeUnapproved : Bool) :
    ((s.commentsOn postId includeUnapproved).map (·.id)).Nodup :=
  hs.comment_ids.sublist (List.filter_sublist.map _)

theorem pairwise_sortedComments (hs : s.Sound) (postId : Option String)
    (includeUnapproved : Bool) :
    (s.sortedComments postId includeUnapproved).Pairwise fun a b => a.sortKey < b.sortKey := by
  have hsorted : (s.sortedComments postId includeUnapproved).Pairwise fun a b =>
      a.sortKey ≤ b.sortKey := by
    refine (List.pairwise_mergeSort ?_ ?_ _).imp fun {a b} h => olderFirst_iff.1 h
    · intro a b c hab hbc
      rw [olderFirst_iff] at *
      exact hab.trans hbc
    · intro a b
      rw [Bool.or_eq_true, olderFirst_iff, olderFirst_iff]
      exact le_total _ _
  have hids := ((perm_sortedComments postId includeUnapproved s).map Comment.id).nodup_iff.2
    (nodup_commentsOn hs postId includeUnapproved)
  refine (hsorted.and (List.pairwise_map.1 hids)).imp ?_
  rintro a b ⟨hab, hne⟩
  exact hab.lt_of_ne fun hkey => hne (congrArg Prod.snd (toLex.injective hkey))

/-- To leave out what is not approved changes nothing about the others. -/
theorem sortedComments_approved (hs : s.Sound) (postId : Option String) :
    s.sortedComments postId false = (s.sortedComments postId true).filter (·.isApproved) := by
  have hchosen : s.commentsOn postId false = (s.commentsOn postId true).filter (·.isApproved) := by
    rw [commentsOn, commentsOn, List.filter_filter]
    refine List.filter_congr fun comment _ => ?_
    simp [Bool.and_comm]
  have hperm : (s.sortedComments postId false).Perm
      ((s.sortedComments postId true).filter (·.isApproved)) :=
    (perm_sortedComments _ _ _).trans
      (hchosen ▸ ((perm_sortedComments postId true s).symm.filter _))
  refine hperm.eq_of_pairwise (fun a b _ _ hab hba => absurd hab hba.asymm)
    (pairwise_sortedComments hs postId false) ?_
  exact (pairwise_sortedComments hs postId true).filter _

theorem listComments_approved (hs : s.Sound) (postId : Option String) :
    s.listComments postId false =
      (s.listComments postId true).filter (·.comment.isApproved) := by
  rw [listComments_eq, listComments_eq, sortedComments_approved hs, List.filter_filterMap,
    List.filterMap_filter]
  refine List.filterMap_congr fun comment _ => ?_
  cases hshown : s.commentView? comment with
  | none => simp
  | some shown =>
      have hsame := comment_of_commentView? hshown
      cases happroved : comment.isApproved <;> simp [Option.filter, hsame, happroved]

theorem perm_commentsOn (hs : s.Sound) (includeUnapproved : Bool) :
    (s.commentsOn none includeUnapproved).Perm
      (s.posts.flatMap fun row => s.commentsOn (some row.id) includeUnapproved) := by
  have hnodup : ∀ postId, (s.commentsOn postId includeUnapproved).Nodup := fun postId =>
    (nodup_commentsOn hs postId includeUnapproved).of_map _
  rw [List.perm_ext_iff_of_nodup (hnodup none)]
  · intro comment
    simp only [commentsOn, List.mem_flatMap, List.mem_filter, Option.all_none, Option.all_some,
      Bool.true_and, Bool.and_eq_true, beq_iff_eq]
    constructor
    · rintro ⟨hmem, hchosen⟩
      obtain ⟨row, hrow⟩ := Table.exists_row?_of_has (hs.comment_post comment hmem)
      obtain ⟨hrow, hid⟩ := (Table.row?_eq_some_iff hs.post_ids).1 hrow
      exact ⟨row, hrow, hmem, hid, hchosen⟩
    · rintro ⟨row, -, hmem, -, hchosen⟩
      exact ⟨hmem, hchosen⟩
  · refine List.nodup_flatMap.2 ⟨fun row _ => hnodup _, ?_⟩
    refine (List.pairwise_map.1 hs.post_ids).imp fun {a b} hne => ?_
    intro comment ha hb
    simp only [commentsOn, List.mem_filter, Option.all_some, Bool.and_eq_true, beq_iff_eq] at ha hb
    exact hne (ha.2.1.trans hb.2.1.symm)

theorem perm_listComments (hs : s.Sound) (includeUnapproved : Bool) :
    (s.listComments none includeUnapproved).Perm
      (s.posts.flatMap fun row => s.listComments (some row.id) includeUnapproved) := by
  have hsorted : (s.posts.flatMap fun row => s.commentsOn (some row.id) includeUnapproved).Perm
      (s.posts.flatMap fun row => s.sortedComments (some row.id) includeUnapproved) :=
    List.Perm.flatMap_left _ fun row _ => (perm_sortedComments _ _ _).symm
  have hall := ((perm_sortedComments none includeUnapproved s).trans
    ((perm_commentsOn hs includeUnapproved).trans hsorted)).filterMap s.commentView?
  rwa [List.filterMap_flatMap] at hall

/-- Comments are listed from the oldest to the newest exactly if the stored texts of the instants
are in the order of the instants. -/
theorem oldestFirst_iff (hs : s.Sound) :
    s.OldestFirst ↔
      ∀ a ∈ s.comments, ∀ b ∈ s.comments, a.sortKey < b.sortKey → a.IsOlder b := by
  have hpairs : ∀ postId includeUnapproved,
      ((s.listComments postId includeUnapproved).Pairwise fun a b =>
        a.comment.IsOlder b.comment) ↔
          (s.sortedComments postId includeUnapproved).Pairwise Comment.IsOlder := by
    intro postId includeUnapproved
    rw [← map_comment_listComments hs, List.pairwise_map]
  unfold OldestFirst
  simp only [hpairs]
  constructor
  · intro hordered a ha b hb hkey
    have hmem : ∀ comment ∈ s.comments, comment ∈ s.sortedComments none true := fun c hc =>
      (perm_sortedComments _ _ _).mem_iff.2 (by simp [commentsOn, hc])
    have hsorted := pairwise_sortedComments hs none true
    -- Of two comments the one with the lesser key stands first, as no key is less both ways.
    have hforward : (s.sortedComments none true).Pairwise fun a b =>
        a.sortKey < b.sortKey → a.IsOlder b := by
      refine (hordered none true).imp ?_
      exact fun holder _ => holder
    have hbackward : (s.sortedComments none true).Pairwise (flip fun a b =>
        a.sortKey < b.sortKey → a.IsOlder b) :=
      hsorted.imp fun hlt hflip => absurd hflip hlt.asymm
    exact hforward.forall_of_forall_of_flip (fun _ _ hself => absurd hself (lt_irrefl _)) hbackward
      (hmem a ha) (hmem b hb) hkey
  · intro htells postId includeUnapproved
    exact (pairwise_sortedComments hs postId includeUnapproved).imp_of_mem
      fun ha hb => htells _ (mem_comments_of_sorted ha) _ (mem_comments_of_sorted hb)

theorem oldestFirst_of_wellFormed (hs : s.Sound)
    (htimed : ∀ comment ∈ s.comments, comment.createdAt.HasPlainYear) : s.OldestFirst := by
  refine (oldestFirst_iff hs).2 fun a ha b hb hkey => ?_
  rw [Comment.sortKey, Comment.sortKey, Prod.Lex.toLex_lt_toLex] at hkey
  exact hkey.imp (Timestamp.storedText_lt_iff (htimed a ha) (htimed b hb)).1
    (And.imp_left (Timestamp.storedText_inj (htimed a ha) (htimed b hb)).1)

theorem mem_of_mapM_ok {ε α β : Type} {f : α → Except ε β} {list : List α} {results : List β}
    {b : β} (h : list.mapM f = .ok results) (hb : b ∈ results) : ∃ a ∈ list, f a = .ok b := by
  induction list generalizing results with
  | nil =>
      cases h
      cases hb
  | cons a list ih =>
      rw [List.mapM_cons] at h
      cases hfirst : f a with
      | error e =>
          rw [hfirst] at h
          cases h
      | ok first =>
          cases hrest : list.mapM f with
          | error e =>
              rw [hfirst, hrest] at h
              cases h
          | ok rest =>
              rw [hfirst, hrest] at h
              cases h
              rcases List.mem_cons.1 hb with rfl | hb
              · exact ⟨a, List.mem_cons_self, hfirst⟩
              · obtain ⟨c, hc, hshown⟩ := ih hrest hb
                exact ⟨c, List.mem_cons_of_mem _ hc, hshown⟩

theorem exists_shows_of_listed (hs : s.Sound) (h : s.listPosts filter = .ok views)
    (hview : view ∈ views) : ∃ row ∈ s.posts, s.Shows row view := by
  unfold listPosts at h
  dsimp only at h
  split at h
  · cases h
  · obtain ⟨joined, hjoined, hshown⟩ := mem_of_mapM_ok h hview
    rw [PostQuery.answer_eq] at hjoined
    have hjoins := joins_of_mem hs (PostQuery.mem_sorted.1 (PostFilter.mem_of_mem_cut hjoined)).1
    exact ⟨joined.row, hjoins.row, shows_of_viewOf hjoins hshown⟩

theorem Shows.agrees (hs : s.Sound) (hrow : row ∈ s.posts) (h : s.Shows row view) :
    s.Agrees view := by
  obtain ⟨-, -, hpost⟩ := postOf_ok.1 h.post
  have hid : view.post.id = row.id := by rw [hpost]
  have hauthorId : view.post.authorId = row.authorId := by rw [hpost]
  have hcategoryId : view.post.categoryId = row.categoryId := by rw [hpost]
  have htagIds : view.post.tagIds = (s.tagsOf row.id).map (·.id) := by rw [hpost]
  have hcategory : ∀ id, row.categoryId = some id →
      ∃ category, s.categories.row? id = some category ∧
        view.category = some ⟨category.slug, category.name⟩ := by
    intro id hcategory
    obtain ⟨category, hstored⟩ :=
      Table.exists_row?_of_has (hs.post_category row hrow id hcategory)
    refine ⟨category, hstored, ?_⟩
    rw [h.category, hcategory, Option.bind_some, hstored]
    rfl
  refine ⟨?_, ?_, ?_, ?_, ?_, ?_, ?_⟩
  · exact findView?_of_shows hs hrow h
  · have hstored := (Table.row?_eq_some_iff hs.post_ids).2 ⟨hrow, rfl⟩
    rw [hid, findPost?]
    show (s.posts.row? (Keyed.key row)).mapM _ = _
    rw [hstored, Option.mapM_some, h.post]
    rfl
  · rw [hid, h.comments, approvedCount_eq hs]
  · rw [htagIds, h.tags, List.forall₂_map_left_iff, List.forall₂_map_right_iff,
      List.forall₂_same]
    exact fun tag htag => ⟨tag, row?_of_mem_tagsOf hs htag, rfl⟩
  · rw [hcategoryId]
    cases hnone : row.categoryId with
    | none => simp [h.category, hnone]
    | some id =>
        obtain ⟨category, -, hshown⟩ := hcategory id hnone
        simp [hshown]
  · rw [hcategoryId]
    exact hcategory
  · obtain ⟨author, hauthor, hname⟩ := Option.map_eq_some_iff.1 h.author
    rw [hauthorId]
    exact ⟨author, hauthor, hname.symm⟩

theorem readsAgree_of_sound (hs : s.Sound) : s.ReadsAgree where
  views _ _ h _ hview := by
    obtain ⟨row, hrow, hshows⟩ := exists_shows_of_listed hs h hview
    exact hshows.agrees hs hrow
  comments := perm_listComments hs
  approved := listComments_approved hs

end Store

/-- Whatever was asked of a fresh database, all ways to read posts and comments agree, and a listing
of posts that can be read is there. Comments are listed from the oldest to the newest, and by their
ids within an instant, exactly if the texts that the instants are stored as stand in the order of
the instants. So they do from the year 0 to the year 9999. -/
theorem Call.reads_agree [Libraries] (calls : List Call) :
    (run calls Database.fresh.store).ReadsAgree ∧
      ((∀ row ∈ (run calls Database.fresh.store).posts, Readable row) →
        ∀ filter : PostFilter, (∀ limit, filter.limit = some limit → limit < 2 ^ 63) →
          ∃ views, (run calls Database.fresh.store).listPosts filter = .ok views) ∧
      ((run calls Database.fresh.store).OldestFirst ↔
        ∀ a ∈ (run calls Database.fresh.store).comments,
          ∀ b ∈ (run calls Database.fresh.store).comments, a.sortKey < b.sortKey → a.IsOlder b) ∧
      ((∀ comment ∈ (run calls Database.fresh.store).comments, comment.createdAt.HasPlainYear) →
        (run calls Database.fresh.store).OldestFirst) := by
  have hsound := run_keeps_sound calls Database.sound_fresh
  exact ⟨readsAgree_of_sound hsound,
    fun hread filter hlimit => exists_listPosts filter hsound hread hlimit,
    oldestFirst_iff hsound, oldestFirst_of_wellFormed hsound⟩

attribute [local instance] Libraries.bare

namespace Sample

def remarks (instant : Timestamp) : List Call :=
  start ++ [.direct (.savePost post), .direct (.saveComment (comment "k1" none)),
    .direct (.saveComment { comment "k2" none with createdAt := instant })]

end Sample

/-- Two comments of one day are listed in their order. -/
theorem Call.reads_agree_of_remarks :
    (run (Sample.remarks (.ofSeconds 3600)) Database.fresh.store).OldestFirst ∧
      ∃ views,
        (run (Sample.remarks (.ofSeconds 3600)) Database.fresh.store).listPosts {} = .ok views := by
  obtain ⟨-, hlisted, -, holdest⟩ := reads_agree (Sample.remarks (.ofSeconds 3600))
  exact ⟨holdest (by decide +kernel), hlisted (by decide +kernel) {} nofun⟩

/-- The first half hour of the year 10000 is listed before the beginning of 1970. -/
theorem Call.not_oldestFirst_of_late :
    ¬ (run (Sample.remarks (.ofSeconds 253402302600)) Database.fresh.store).OldestFirst := by
  intro holdest
  have hstored : (run (Sample.remarks (.ofSeconds 253402302600)) Database.fresh.store).comments =
      [Sample.comment "k1" none,
        { Sample.comment "k2" none with createdAt := .ofSeconds 253402302600 }] := by decide +kernel
  have hsound := run_keeps_sound (Sample.remarks (.ofSeconds 253402302600)) Database.sound_fresh
  have htells := (oldestFirst_iff hsound).1 holdest
  rw [hstored] at htells
  have holder := htells { Sample.comment "k2" none with createdAt := .ofSeconds 253402302600 }
    (by simp) (Sample.comment "k1" none) (by simp)
    (Prod.Lex.toLex_lt_toLex.2 (.inl (by decide +kernel)))
  rcases holder with (hseconds | ⟨hseconds, -⟩) | ⟨hinstant, -⟩
  · exact absurd hseconds (by decide)
  · exact absurd hseconds (by decide)
  · exact absurd hinstant (by decide)

end Gazette
