import Gazette.Proofs.Cascade
import Gazette.Proofs.Plans

/-!
# What an edit spares

A planned change is about one thing. It leaves everything else that later look-ups may be about as
it was, but for what hangs on a deleted thing: the posts of a category lose it, and the comments on
a post and the replies to a comment go with it.
-/
namespace Gazette
open StoreProcedure

inductive Subject
  | settings
  | user (id : String)
  | category (id : String)
  | post (id : String)
  | comment (id : String)
deriving DecidableEq, Repr

namespace Change

/-- What a change is about, if it is an edit. -/
def subject? : Change → Option Subject
  | saveSettings _ => some .settings
  | saveUser user => some (.user user.id)
  | saveCategory category => some (.category category.id)
  | deleteCategory id => some (.category id)
  | savePost post => some (.post post.id)
  | deletePost id => some (.post id)
  | saveComment comment => some (.comment comment.id)
  | deleteComment id => some (.comment id)
  | _ => none

/-- What a change leaves alone if it edits something that is there. -/
structure Spares (change : Change) (s t : Store) : Prop where
  sessions : t.sessions = s.sessions
  tags : t.tags = s.tags
  rights : ∀ id, (t.users.row? id).map (·.isAdmin) = (s.users.row? id).map (·.isAdmin)
  settings : change.subject? ≠ some .settings → t.settings = s.settings
  user : ∀ id, change.subject? ≠ some (.user id) → t.users.row? id = s.users.row? id
  category : ∀ id, change.subject? ≠ some (.category id) →
    t.categories.row? id = s.categories.row? id
  has_category : ∀ id, t.categories.has id = true → s.categories.has id = true
  post : ∀ id, change.subject? ≠ some (.post id) → t.posts.row? id = s.posts.row? id ∨
    ∃ key row, change = .deleteCategory key ∧ s.posts.row? id = some row ∧
      row.categoryId = some key ∧ t.posts.row? id = some { row with categoryId := none }
  tagsOf : ∀ id, change.subject? ≠ some (.post id) → t.tagsOf id = s.tagsOf id
  counters : ∀ id, ∀ row ∈ t.posts.row? id, ∃ old ∈ s.posts.row? id,
    row.viewCount = old.viewCount ∧ row.likes = old.likes
  comment : ∀ id, change.subject? ≠ some (.comment id) →
    t.comments.row? id = s.comments.row? id ∨ t.comments.row? id = none ∧
      ∀ row ∈ s.comments.row? id, t.posts.has row.postId = false ∨
        ∃ parentId ∈ row.parentId, parentId ≠ id ∧ t.comments.has parentId = false
  place : ∀ id, ∀ row ∈ t.comments.row? id, ∃ old ∈ s.comments.row? id,
    row.postId = old.postId ∧ row.authorId = old.authorId

theorem spares_self (change : Change) (s : Store) : change.Spares s s where
  sessions := rfl
  tags := rfl
  rights _ := rfl
  settings _ := rfl
  user _ _ := rfl
  category _ _ := rfl
  has_category _ := id
  post _ _ := .inl rfl
  tagsOf _ _ := rfl
  counters _ row h := ⟨row, h, rfl, rfl⟩
  comment _ _ := .inl rfl
  place _ row h := ⟨row, h, rfl, rfl⟩

variable {s t : Store}

theorem spares_saveUser {user old : User} (h : s.saveUser user = .ok t)
    (hold : s.users.row? user.id = some old) (hadmin : user.isAdmin = old.isAdmin) :
    (saveUser user).Spares s t := by
  obtain ⟨-, -, rfl⟩ := Store.saveUser_ok.1 h
  refine { spares_self (.saveUser user) s with rights := fun id => ?_, user := fun id hne => ?_ }
  · by_cases hid : user.id = id
    · subst hid
      have hrow := Table.row?_put_self Store.mergeUser_keepsKey hold
      rw [show Table.row? user.id _ = _ from hrow, hold]
      exact congrArg some hadmin
    · rw [Table.row?_put_other Store.mergeUser_keepsKey hid]
  · have hid : user.id ≠ id := fun hid => hne (hid ▸ rfl)
    exact Table.row?_put_other Store.mergeUser_keepsKey hid s.users

theorem spares_saveCategory {category old : Category} (h : s.saveCategory category = .ok t)
    (hold : s.categories.row? category.id = some old) : (saveCategory category).Spares s t := by
  obtain ⟨-, rfl⟩ := Store.saveCategory_ok.1 h
  refine { spares_self (.saveCategory category) s with
    category := fun id hne => ?_, has_category := fun id hhas => ?_ }
  · have hid : category.id ≠ id := fun hid => hne (hid ▸ rfl)
    exact Table.row?_put_other Store.mergeCategory_keepsKey hid s.categories
  · rcases (Table.has_put Store.mergeCategory_keepsKey).1 hhas with hhas | rfl
    · exact hhas
    · exact Table.has_of_row? hold

theorem spares_deleteCategory (id : String) (s : Store) :
    (deleteCategory id).Spares s (s.deleteCategory id).2 := by
  have hrow : ∀ key, (s.deleteCategory id).2.posts.row? key = (s.posts.row? key).map fun row =>
      if row.categoryId == some id then { row with categoryId := none } else row :=
    fun key => Table.row?_map (fun row => by split <;> rfl) key s.posts
  refine { spares_self (.deleteCategory id) s with
    category := fun key hne => ?_, has_category := fun key hhas => ?_, post := fun key _ => ?_
    counters := fun key row h => ?_, comment := fun _ _ => .inl rfl }
  · have hid : key ≠ id := fun hid => hne (hid ▸ rfl)
    exact Table.row?_remove hid s.categories
  · obtain ⟨category, hmem, hkey⟩ := Table.has_iff.1 hhas
    exact Table.has_iff.2 ⟨category, (List.mem_filter.1 hmem).1, hkey⟩
  · rw [hrow]
    cases hold : s.posts.row? key with
    | none => exact .inl rfl
    | some old =>
        by_cases hcategory : old.categoryId = some id
        · exact .inr ⟨id, old, rfl, rfl, hcategory, by simp [hcategory]⟩
        · exact .inl (by simp [hcategory])
  · rw [hrow] at h
    obtain ⟨old, hold, rfl⟩ := Option.map_eq_some_iff.1 h
    refine ⟨old, hold, ?_⟩
    split <;> exact ⟨rfl, rfl⟩

theorem spares_savePost {post : Post} {old : PostRow} (h : s.savePost post = .ok t)
    (hold : s.posts.row? post.id = some old) : (savePost post).Spares s t := by
  obtain ⟨-, -, -, -, rfl⟩ := Store.savePost_ok.1 h
  have hother : ∀ id, post.id ≠ id →
      (s.posts.put Store.PostRow.merge (Store.PostRow.ofPost post)).row? id = s.posts.row? id := by
    intro id hne
    have hkey : Keyed.key (Store.PostRow.ofPost post) ≠ id := hne
    exact Table.row?_put_other Store.mergePost_keepsKey hkey s.posts
  refine { spares_self (.savePost post) s with
    post := fun id hne => .inl (hother id fun hid => hne (hid ▸ rfl))
    tagsOf := fun id hne => Store.tagsOf_congr rfl fun tagId => ?_
    counters := fun id row hrow => ?_, comment := fun _ _ => .inl rfl }
  · have hid : id ≠ post.id := fun hid => hne (hid ▸ rfl)
    simp [hid, hid.symm]
  · by_cases hid : post.id = id
    · subst hid
      have hkey : s.posts.row? (Keyed.key (Store.PostRow.ofPost post)) = some old := hold
      have hmerged := Table.row?_put_self Store.mergePost_keepsKey hkey
      obtain rfl := Option.some.inj (hmerged.symm.trans hrow)
      exact ⟨old, hold, rfl, rfl⟩
    · exact ⟨row, (hother id hid).symm.trans hrow, rfl, rfl⟩

/-- A comment that a removal does not reach stays as it is. One that it reaches is selected, or its
parent goes with it. -/
theorem row?_unreached {comments : Table Comment} (hids : (comments.map Comment.id).Nodup)
    (selected : Comment → Bool) (id : String) :
    (Store.unreached selected comments).row? id = comments.row? id ∨
      (Store.unreached selected comments).row? id = none ∧
        ∀ comment ∈ comments.row? id, selected comment = true ∨
          ∃ parentId ∈ comment.parentId, parentId ≠ id ∧
            (Store.unreached selected comments).has parentId = false := by
  have hkept : (Store.unreached selected comments).row? id = (comments.row? id).filter _ :=
    Table.row?_filter hids _ id
  cases hrow : comments.row? id with
  | none =>
      rw [hrow] at hkept
      exact .inl hkept
  | some comment =>
      obtain rfl : comment.id = id := Table.key_of_row? hrow
      rw [hrow] at hkept
      by_cases hreached : ∃ replies, Store.Reached selected comments comment replies
      · refine .inr ⟨by rw [hkept, Option.filter_some]; simp [hreached], ?_⟩
        rintro _ ⟨⟩
        obtain ⟨replies, hreached⟩ := hreached
        cases hreached with
        | selected _ hselected => exact .inl hselected
        | @reply parent _ _ hparent _ hid hself =>
            refine .inr ⟨parent.id, hid, Ne.symm hself, ?_⟩
            refine Table.has_eq_false_iff.2 fun other hother hkey => ?_
            obtain ⟨hmem, hunreached⟩ := Store.mem_unreached.1 hother
            obtain rfl := List.inj_on_of_nodup_map hids hmem hparent.mem hkey
            exact hunreached _ hparent
      · exact .inl (by rw [hkept, Option.filter_some]; simp [hreached])

theorem row?_of_unreached {comments : Table Comment} (hids : (comments.map Comment.id).Nodup)
    {selected : Comment → Bool} {id : String} {row : Comment}
    (h : (Store.unreached selected comments).row? id = some row) : comments.row? id = some row := by
  rcases row?_unreached hids selected id with hsame | ⟨hnone, -⟩
  · exact hsame ▸ h
  · rw [hnone] at h
    cases h

theorem has_deleteCategory {id : String} (h : (deleteCategory id).apply s = .ok t) :
    t.categories.has id = false := by
  cases h
  exact Table.has_remove_self id s.categories

theorem has_deletePost {id : String} (hs : s.Sound) (h : (deletePost id).apply s = .ok t) :
    t.posts.has id = false := by
  obtain ⟨found, hdelete⟩ := found_of_map h
  obtain ⟨-, ⟨habsent, rfl⟩ | hremove⟩ := Store.deleting_ok hdelete
  · exact habsent
  · obtain rfl := Store.removePosts_ok hs.replies_later hs.comment_ids hremove
    exact Table.has_remove_self id s.posts

theorem spares_deletePost {id : String} (hs : s.Sound) {found : Bool}
    (h : s.deletePost id = .ok (found, t)) : (deletePost id).Spares s t := by
  obtain ⟨-, ⟨-, rfl⟩ | hremove⟩ := Store.deleting_ok h
  · exact spares_self _ _
  · obtain rfl := Store.removePosts_ok hs.replies_later hs.comment_ids hremove
    have hselected : ∀ key, key ∈ s.selectedIds (·.id == id) → key = id := by
      intro key hkey
      obtain ⟨row, -, hid, rfl⟩ := Store.mem_selectedIds.1 hkey
      exact beq_iff_eq.1 hid
    have hpost : ∀ key, key ≠ id →
        (s.withoutPosts (·.id == id)).posts.row? key = s.posts.row? key :=
      fun key hne => Table.row?_remove hne s.posts
    have hgone : (s.withoutPosts (·.id == id)).posts.has id = false :=
      Table.has_remove_self id s.posts
    refine { spares_self (.deletePost id) s with
      post := fun key hne => .inl (hpost key fun hid => hne (hid ▸ rfl))
      tagsOf := fun key hne => Store.tagsOf_congr rfl fun tagId => ?_
      counters := fun key row hrow => ?_
      comment := fun key _ => ?_
      place := fun key row hrow => ⟨row, row?_of_unreached hs.comment_ids hrow, rfl, rfl⟩ }
    · have hne : key ∉ s.selectedIds (·.id == id) := fun hkey => hne (hselected key hkey ▸ rfl)
      simp [Store.withoutPosts, hne]
    · by_cases hid : key = id
      · subst hid
        rw [Table.row?_eq_none hgone] at hrow
        cases hrow
      · exact ⟨row, (hpost key hid).symm.trans hrow, rfl, rfl⟩
    · refine (row?_unreached hs.comment_ids (s.isOnSelected (·.id == id)) key).imp_right ?_
      rintro ⟨hnone, hreason⟩
      refine ⟨hnone, fun row hrow => (hreason row hrow).imp_left fun hselects => ?_⟩
      rw [hselected row.postId (List.contains_iff_mem.1 hselects)]
      exact hgone

theorem spares_saveComment {comment old : Comment} (h : s.saveComment comment = .ok t)
    (hold : s.comments.row? comment.id = some old) : (saveComment comment).Spares s t := by
  obtain ⟨-, rfl⟩ := Store.saveComment_ok.1 h
  have hother : ∀ id, comment.id ≠ id →
      (s.comments.put Store.mergeComment comment).row? id = s.comments.row? id :=
    fun id hne => Table.row?_put_other Store.mergeComment_keepsKey hne s.comments
  refine { spares_self (.saveComment comment) s with
    comment := fun id hne => .inl (hother id fun hid => hne (hid ▸ rfl))
    place := fun id row hrow => ?_ }
  by_cases hid : comment.id = id
  · subst hid
    have hmerged := Table.row?_put_self Store.mergeComment_keepsKey hold
    obtain rfl := Option.some.inj (hmerged.symm.trans hrow)
    exact ⟨old, hold, rfl, rfl⟩
  · exact ⟨row, (hother id hid).symm.trans hrow, rfl, rfl⟩

theorem spares_deleteComment {id : String} (hs : s.Sound) {found : Bool}
    (h : s.deleteComment id = .ok (found, t)) : (deleteComment id).Spares s t := by
  obtain ⟨-, ⟨-, rfl⟩ | hremove⟩ := Store.deleting_ok h
  · exact spares_self _ _
  · obtain rfl := Store.removeComments_ok hs.replies_later hs.comment_ids hremove
    refine { spares_self (.deleteComment id) s with
      comment := fun key hne => ?_
      place := fun key row hrow => ⟨row, row?_of_unreached hs.comment_ids hrow, rfl, rfl⟩ }
    refine (row?_unreached hs.comment_ids (·.id == id) key).imp_right ?_
    rintro ⟨hnone, hreason⟩
    refine ⟨hnone, fun row hrow => (hreason row hrow).imp_left fun hselects => ?_⟩
    have hid : row.id = id := beq_iff_eq.1 hselects
    exact absurd (congrArg (fun key => some (Subject.comment key))
      (hid.symm.trans (Table.key_of_row? hrow))) hne

end Change

namespace Api
variable {s t : Store} {now : Timestamp} {id : String} {admin : Bool} {task : Task} {c : Change}

/-- The post that an input makes of another, once its status, its category and its tags are
known. -/
def PostInput.apply (input : PostInput) (replace : Bool) (status : PostStatus)
    (categoryId : Option String) (tagIds : List String) (post : Post) : Post :=
  { post with
    title := input.title.getD post.title
    slug := input.slug.getD post.slug
    content := settle replace "" post.content input.content
    excerpt := settle replace "" post.excerpt input.excerpt
    status := status
    isActive := settle replace true post.isActive input.isActive
    categoryId := categoryId
    tagIds := tagIds }

theorem sees_applyInput {S : Store → Prop} {input : PostInput} {replace : Bool}
    {post given : Post} :
    (applyInput input replace post).Sees S given ↔ ∃ status categoryId tagIds,
      (settleStatus replace post.status input.status).Sees S status ∧
        (settleCategory replace post.categoryId input.category).Sees S categoryId ∧
          (settleTags replace post.tagIds input.tags).Sees S tagIds ∧
            given = input.apply replace status categoryId tagIds post := by
  rw [applyInput_eq]
  simp only [sees_bind, sees_pure]
  constructor
  · rintro ⟨status, hstatus, categoryId, hcategory, tagIds, htags, rfl⟩
    exact ⟨status, categoryId, tagIds, hstatus, hcategory, htags, rfl⟩
  · rintro ⟨status, categoryId, tagIds, hstatus, hcategory, htags, rfl⟩
    exact ⟨status, hstatus, categoryId, hcategory, tagIds, htags, rfl⟩

theorem row?_of_findPostAt? (hs : s.Sound) {slug : String} {post : Post}
    (h : s.findPostAt? slug = .ok (some post)) :
    ∃ row, s.posts.row? post.id = some row ∧ row.slug = slug ∧ s.postOf row = .ok post := by
  obtain ⟨row, hat, hpost⟩ := findPostAt?_ok h
  refine ⟨row, ?_, by simpa using List.find?_some hat, hpost⟩
  rw [(Store.postOf_ok.1 hpost).2.2]
  exact Exchange.row?_of_findPostRowAt? hs hat

theorem id_of_prepare [Libraries] {S : Store → Prop} {input : PostInput} {replace : Bool}
    {old given saved : Post} (settled : (applyInput input replace old).Sees S given)
    (rules : given.prepare now = .ok saved) : saved.id = old.id := by
  obtain ⟨_, _, _, -, -, -, rfl⟩ := sees_applyInput.1 settled
  rw [(Post.prepare_ok.1 rules).2.2]
  rfl

theorem Task.Plans.spares [Libraries] (h : task.Plans now (· = s) id admin c) (hs : s.Sound)
    (happly : c.apply s = .ok t) : c.Spares s t := by
  cases h with
  | settings allowed seen rules =>
      cases happly
      exact { Change.spares_self _ s with settings := fun hne => absurd rfl hne }
  | @profile input _ old seen load rules =>
      obtain rfl := seen
      obtain rfl : old.id = id := Table.key_of_row? load
      exact Change.spares_saveUser happly load rfl
  | @category slug input replace _ old saved allowed named seen load rules =>
      obtain rfl := seen
      have hid : saved.id = old.id := by rw [(Category.prepare_ok.1 rules).2.2]; rfl
      exact Change.spares_saveCategory happly (hid ▸ Exchange.row?_of_findCategoryAt? hs load)
  | deleteCategory allowed seen load =>
      cases happly
      exact Change.spares_deleteCategory _ s
  | post seen load allowed settled rules category tags =>
      obtain rfl := seen
      obtain ⟨row, hrow, -⟩ := row?_of_findPostAt? hs load
      exact Change.spares_savePost happly (id_of_prepare settled rules ▸ hrow)
  | deletePost seen load allowed =>
      obtain ⟨found, hdelete⟩ := Change.found_of_map happly
      exact Change.spares_deletePost hs hdelete
  | @comment key input _ old given seen load allowed approval settled rules post parent =>
      obtain rfl := seen
      obtain rfl : old.id = key := Table.key_of_row? load
      subst settled
      exact Change.spares_saveComment happly load
  | deleteComment seen load allowed =>
      obtain ⟨found, hdelete⟩ := Change.found_of_map happly
      exact Change.spares_deleteComment hs hdelete

end Api
end Gazette
