import Gazette.Proofs.Integrity
import Gazette.Proofs.Records
import Gazette.Store.Find

/-!
# Joins

In a sound store every post has exactly one author and at most one category. So the posts next to
their authors and categories are the posts, each once and in the same order.
-/
namespace Gazette

/-- Where keys are unique, the rows with a key are the one that it finds. -/
theorem Table.filter_key {α : Type} [Keyed α] {table : Table α}
    (unique : (table.map Keyed.key).Nodup) (key : String) :
    table.filter (fun row => Keyed.key row == key) = (table.row? key).toList := by
  induction table with
  | nil => rfl
  | cons row rows ih =>
      rw [List.map_cons, List.nodup_cons] at unique
      by_cases hkey : Keyed.key row = key
      · have hnone : rows.filter (fun row => Keyed.key row == key) = [] := by
          rw [List.filter_eq_nil_iff]
          intro other hother h
          rw [beq_iff_eq] at h
          exact unique.1 (hkey ▸ h ▸ List.mem_map_of_mem hother)
        simp [row?, hkey, hnone]
      · simpa [row?, hkey] using ih unique.2

namespace Store
variable {s t : Store}

/-- The author and the category of a post are the ones that it names. -/
structure Joins (s : Store) (joined : JoinedPost) : Prop where
  row : joined.row ∈ s.posts
  author : s.users.row? joined.row.authorId = some joined.author
  category : joined.category = joined.row.categoryId.bind (s.categories.row? ·)

/-- The posts that a post is joined to: itself, next to its author and its category. -/
def joinsOf (row : PostRow) (s : Store) : List JoinedPost :=
  (s.users.filter fun user => user.id == row.authorId).flatMap fun author =>
    match s.categories.filter fun category => row.categoryId == some category.id with
    | [] => [⟨row, author, none⟩]
    | categories => categories.map fun category => ⟨row, author, some category⟩

theorem joinsOf_eq (h : s.Sound) {row : PostRow} (hrow : row ∈ s.posts) :
    ∃ joined, s.joinsOf row = [joined] ∧ joined.row = row ∧ s.Joins joined := by
  obtain ⟨author, hauthor⟩ := Table.exists_row?_of_has (h.post_author row hrow)
  have hauthors : (s.users.filter fun user => user.id == row.authorId) = [author] :=
    (Table.filter_key h.user_ids row.authorId).trans (by rw [hauthor]; rfl)
  have hcategories : (s.categories.filter fun category => row.categoryId == some category.id) =
      (row.categoryId.bind (s.categories.row? ·)).toList := by
    cases row.categoryId with
    | none => simp
    | some id =>
        rw [Option.bind_some, ← Table.filter_key h.category_ids id]
        refine List.filter_congr fun category _ => ?_
        rw [Bool.eq_iff_iff, beq_iff_eq, beq_iff_eq, Option.some.injEq]
        exact eq_comm
  refine ⟨⟨row, author, row.categoryId.bind (s.categories.row? ·)⟩, ?_, rfl, hrow, hauthor, rfl⟩
  rw [joinsOf, hauthors, hcategories]
  cases row.categoryId.bind (s.categories.row? ·) <;> rfl

theorem joins_of_mem (h : s.Sound) {joined : JoinedPost} (hjoined : joined ∈ s.joinedPosts) :
    s.Joins joined := by
  obtain ⟨row, hrow, hmem⟩ := List.mem_flatMap.1 hjoined
  obtain ⟨other, hjoins, -, hother⟩ := joinsOf_eq h hrow
  rw [show joined = other from List.mem_singleton.1 (hjoins ▸ hmem)]
  exact hother

theorem rows_joinedPosts (h : s.Sound) : s.joinedPosts.map (·.row) = s.posts := by
  have hone : ∀ row ∈ s.posts, (s.joinsOf row).map (·.row) = [row] := by
    intro row hrow
    obtain ⟨joined, hjoins, heq, -⟩ := joinsOf_eq h hrow
    rw [hjoins, List.map_singleton, heq]
  show (s.posts.flatMap fun row => s.joinsOf row).map (·.row) = s.posts
  rw [List.map_flatMap]
  calc (s.posts.flatMap fun row => (s.joinsOf row).map (·.row))
      = s.posts.flatMap fun row => [row] := List.flatMap_congr hone
    _ = s.posts := List.flatMap_singleton' s.posts

/-- Whether the counters of a post can be read. -/
structure Readable (row : PostRow) : Prop where
  views : row.viewCount ≠ .inexact
  likes : row.likes ≠ .inexact

instance (row : PostRow) : Decidable (Readable row) :=
  decidable_of_iff (row.viewCount ≠ .inexact ∧ row.likes ≠ .inexact)
    ⟨fun h => ⟨h.1, h.2⟩, fun h => ⟨h.1, h.2⟩⟩

theorem ofRecord_of_readable {row : PostRow} (h : Readable row) :
    ∃ views likes, row.viewCount = .exact views ∧ row.likes = .exact likes ∧
      Post.ofRecord row.record = .ok (row.shown views likes) := by
  have hrecord := Post.ofRecord_record row []
  rw [List.append_nil] at hrecord
  cases hviews : row.viewCount with
  | inexact => exact absurd hviews h.views
  | exact views =>
      cases hlikes : row.likes with
      | inexact => exact absurd hlikes h.likes
      | exact likes =>
          rw [hviews, hlikes] at hrecord
          exact ⟨views, likes, rfl, rfl, hrecord⟩

/-- A stored post can be read iff its counters can, and then says what is stored. -/
theorem postOf_ok {row : PostRow} {post : Post} :
    s.postOf row = .ok post ↔
      row.viewCount = .exact post.viewCount ∧ row.likes = .exact post.likes ∧
        post = {
          id := row.id, title := row.title, slug := row.slug, content := row.content
          excerpt := row.excerpt, authorId := row.authorId, categoryId := row.categoryId
          tagIds := (s.tagsOf row.id).map (·.id), status := row.status, isActive := row.isActive
          publishedDate := row.publishedDate, viewCount := post.viewCount, likes := post.likes
          createdAt := row.createdAt, updatedAt := row.updatedAt } := by
  have hread : s.postOf row = do
      let views ← row.viewCount.read 10 "view_count"
      let likes ← row.likes.read 11 "likes"
      return { row.shown views likes with tagIds := (s.tagsOf row.id).map (·.id) } := by
    rw [postOf, ← List.append_nil row.record, Post.ofRecord_record]
    cases row.viewCount <;> cases row.likes <;> rfl
  rw [hread]
  cases hviews : row.viewCount with
  | inexact => simp [Counter.read, bind, Except.bind]
  | exact views =>
      cases hlikes : row.likes with
      | inexact => simp [Counter.read, bind, Except.bind]
      | exact likes =>
          simp only [Counter.read, PostRow.shown, bind, Except.bind, pure, Except.pure,
            Except.ok.injEq, Counter.exact.injEq]
          constructor
          · rintro rfl
            exact ⟨rfl, rfl, rfl⟩
          · rintro ⟨rfl, rfl, h⟩
            exact h.symm

theorem exists_postOf {row : PostRow} : (∃ post, s.postOf row = .ok post) ↔ Readable row := by
  constructor
  · rintro ⟨post, h⟩
    obtain ⟨hviews, hlikes, -⟩ := postOf_ok.1 h
    exact ⟨by simp [hviews], by simp [hlikes]⟩
  · intro h
    obtain ⟨views, likes, hviews, hlikes, -⟩ := ofRecord_of_readable h
    refine ⟨{ row.shown views likes with tagIds := (s.tagsOf row.id).map (·.id) }, ?_⟩
    exact postOf_ok.2 ⟨hviews, hlikes, rfl⟩

theorem tagsOf_congr {id : String} (htags : t.tags = s.tags)
    (hlinks : ∀ tagId, (⟨id, tagId⟩ : TagLink) ∈ t.links ↔ ⟨id, tagId⟩ ∈ s.links) :
    t.tagsOf id = s.tagsOf id := by
  unfold tagsOf
  rw [htags]
  congr 1
  refine List.filter_congr fun tag _ => ?_
  rw [Bool.eq_iff_iff, List.contains_iff_mem, List.contains_iff_mem, hlinks]

theorem postOf_congr {row : PostRow} (h : t.tagsOf row.id = s.tagsOf row.id) :
    t.postOf row = s.postOf row := by
  unfold postOf
  rw [h]

theorem findPostAt?_of_at {slug : String} {row : PostRow} {post : Post}
    (hat : s.findPostRowAt? slug = some row) (hpost : s.postOf row = .ok post) :
    s.findPostAt? slug = .ok (some post) := by
  rw [findPostAt?, hat, Option.mapM_some, hpost]
  rfl

theorem findPostAt?_of_mem {row : PostRow} {post : Post} (h : s.Sound) (hrow : row ∈ s.posts)
    (hpost : s.postOf row = .ok post) : s.findPostAt? row.slug = .ok (some post) :=
  findPostAt?_of_at (Table.find?_of_mem h.post_slugs hrow) hpost

/-- A post with an id can be read iff it is stored with counters that can be read. -/
theorem exists_findPost? {id : String} :
    (∃ post, s.findPost? id = .ok (some post)) ↔
      ∃ row, s.posts.row? id = some row ∧ Readable row := by
  unfold findPost?
  cases hrow : s.posts.row? id with
  | none => simp [pure, Except.pure]
  | some row =>
      rw [Option.mapM_some]
      simp only [Option.some.injEq, exists_eq_left']
      rw [← exists_postOf (s := s)]
      cases s.postOf row <;> simp

/-- A post is shown by itself next to what is named of its author, its category and its tags. -/
theorem viewOf_eq (joined : JoinedPost) :
    s.viewOf joined = (s.postOf joined.row).map fun post =>
      { post := post
        authorUsername := joined.author.username
        category := joined.category.map fun category => ⟨category.slug, category.name⟩
        tags := (s.tagsOf joined.row.id).map fun tag => ⟨tag.slug, tag.name⟩
        commentCount := s.approvedCount joined.row.id } := by
  have hauthor : (s.joinedRecord joined).read 14 = .ok joined.author.username := by
    simp [joinedRecord, PostRow.record, Record.read]
  have hslug : (s.joinedRecord joined).read 15 = .ok (joined.category.map (·.slug)) := by
    simp [joinedRecord, PostRow.record, Record.read]
  have hname : (s.joinedRecord joined).read 16 = .ok (joined.category.map (·.name)) := by
    simp [joinedRecord, PostRow.record, Record.read]
  have hcount : (s.joinedRecord joined).read 17 =
      .ok (s.approvedCount joined.row.id : Int) := by
    simp [joinedRecord, PostRow.record, Record.read]
  have hpost : Post.ofRecord (s.joinedRecord joined) = Post.ofRecord joined.row.record := by
    rw [joinedRecord, ← List.append_nil joined.row.record, Post.ofRecord_record,
      List.append_nil, Post.ofRecord_record]
  simp only [viewOf, hpost, hauthor, hslug, hname, hcount, postOf]
  cases Post.ofRecord joined.row.record with
  | error e => rfl
  | ok post => cases joined.category <;> rfl

theorem viewOf_ok (joined : JoinedPost) {post : Post} (h : s.postOf joined.row = .ok post) :
    ∃ view, s.viewOf joined = .ok view ∧ view.post = post := by
  rw [viewOf_eq, h]
  exact ⟨_, rfl, rfl⟩

/-- Where a post stands, the post itself is found next to its author and its category. -/
theorem exists_joined_at (hs : s.Sound) {row : PostRow} (hrow : row ∈ s.posts) :
    ∃ joined, s.joinedPosts.find? (fun joined => joined.row.slug == row.slug) = some joined ∧
      joined.row = row := by
  have hslug : ∃ joined ∈ s.joinedPosts, joined.row.slug == row.slug := by
    have hmem : row ∈ s.joinedPosts.map (·.row) := (rows_joinedPosts hs).symm ▸ hrow
    obtain ⟨joined, hjoined, rfl⟩ := List.mem_map.1 hmem
    exact ⟨joined, hjoined, beq_self_eq_true _⟩
  obtain ⟨joined, hfind⟩ := Option.isSome_iff_exists.1 (List.find?_isSome.2 hslug)
  have hjoins := joins_of_mem hs (List.mem_of_find?_eq_some hfind)
  exact ⟨joined, hfind, List.inj_on_of_nodup_map hs.post_slugs hjoins.row hrow
    (by simpa using List.find?_some hfind)⟩

theorem findView?_of_mem (h : s.Sound) {row : PostRow} {post : Post} (hrow : row ∈ s.posts)
    (hpost : s.postOf row = .ok post) :
    ∃ view, s.findView? row.slug = .ok (some view) ∧ view.post = post := by
  obtain ⟨joined, hfind, hsame⟩ := exists_joined_at h hrow
  obtain ⟨view, hview, hviewed⟩ := viewOf_ok joined (hsame ▸ hpost)
  refine ⟨view, ?_, hviewed⟩
  rw [findView?, hfind, Option.mapM_some, hview]
  rfl

end Store
end Gazette
