import Gazette.Proofs.Integrity

/-!
# Rows

What a change does to the rows of content. A save writes one row. Every other change leaves a row
as it is, removes it, or writes into a post what is no part of its text: its counters and its
category. Whatever makes only such changes leaves the texts alone.
-/
namespace Gazette

/-- Whether a post row is another one but for its category and its counters. -/
def PostRow.SameText (old new : PostRow) : Prop :=
  new = { old with
    categoryId := new.categoryId
    viewCount := new.viewCount
    likes := new.likes }

theorem PostRow.sameText_refl (row : PostRow) : row.SameText row := rfl

theorem PostRow.SameText.trans {a b c : PostRow} (hab : a.SameText b) (hbc : b.SameText c) :
    a.SameText c := by
  unfold SameText at *
  rw [hbc, hab]

namespace Store
variable {s t : Store}

theorem row?_savePost {post : Post} (h : s.savePost post = .ok t) (id : String) :
    t.posts.row? id =
      if post.id = id then
        some ((s.posts.row? id).elim (PostRow.ofPost post) (PostRow.merge · (PostRow.ofPost post)))
      else s.posts.row? id := by
  obtain ⟨-, -, -, -, rfl⟩ := savePost_ok.1 h
  exact Table.row?_put mergePost_keepsKey id (PostRow.ofPost post) s.posts

theorem row?_saveCategory {category : Category} (h : s.saveCategory category = .ok t)
    (id : String) :
    t.categories.row? id =
      if category.id = id then
        some ((s.categories.row? id).elim category (mergeCategory · category))
      else s.categories.row? id := by
  obtain ⟨-, rfl⟩ := saveCategory_ok.1 h
  exact Table.row?_put mergeCategory_keepsKey id category s.categories

theorem row?_saveTag {tag : Tag} (h : s.saveTag tag = .ok t) (id : String) :
    t.tags.row? id =
      if tag.id = id then some ((s.tags.row? id).elim tag (mergeTag · tag))
      else s.tags.row? id := by
  obtain ⟨-, rfl⟩ := saveTag_ok.1 h
  exact Table.row?_put mergeTag_keepsKey id tag s.tags

theorem row?_saveComment {comment : Comment} (h : s.saveComment comment = .ok t) (id : String) :
    t.comments.row? id =
      if comment.id = id then
        some ((s.comments.row? id).elim comment (mergeComment · comment))
      else s.comments.row? id := by
  obtain ⟨-, rfl⟩ := saveComment_ok.1 h
  exact Table.row?_put mergeComment_keepsKey id comment s.comments

end Store

namespace Change
variable {s t : Store} {change : Change}

/-- What a change does to the tables of content and to the settings, unless it saves into them. -/
structure Keeps (change : Change) (s t : Store) : Prop where
  posts : (∃ post, change = .savePost post) ∨ (∃ p, t.posts = s.posts.filter p) ∨
    ∃ f : PostRow → PostRow, (∀ row : PostRow, row.SameText (f row)) ∧ t.posts = s.posts.map f
  categories : (∃ category, change = .saveCategory category) ∨
    ∃ p, t.categories = s.categories.filter p
  tags : (∃ tag, change = .saveTag tag) ∨ ∃ p, t.tags = s.tags.filter p
  users : (∃ user, change = .saveUser user) ∨ ∃ p, t.users = s.users.filter p
  comments : (∃ comment, change = .saveComment comment) ∨ t.comments = s.comments ∨
    ∃ selected, t.comments = Store.unreached selected s.comments
  messages : (∃ message, change = .saveMessage message) ∨ ∃ p, t.messages = s.messages.filter p
  settings : (∃ settings, change = .saveSettings settings) ∨ t.settings = s.settings

theorem exists_filter_eq {α : Type} {before after : List α} (h : after = before) :
    ∃ p, after = before.filter p :=
  ⟨fun _ => true, by rw [h, List.filter_true]⟩

theorem keeps_self (change : Change) (s : Store) : change.Keeps s s where
  posts := .inr (.inl (exists_filter_eq rfl))
  categories := .inr (exists_filter_eq rfl)
  tags := .inr (exists_filter_eq rfl)
  users := .inr (exists_filter_eq rfl)
  comments := .inr (.inl rfl)
  messages := .inr (exists_filter_eq rfl)
  settings := .inr rfl

theorem keeps_of_update {id : String} {f : PostRow → PostRow}
    (hf : ∀ row : PostRow, row.SameText (f row)) :
    change.Keeps s { s with posts := s.posts.update id f } := by
  refine { change.keeps_self s with posts := .inr (.inr ⟨_, fun row => ?_, rfl⟩) }
  split
  · exact hf row
  · exact row.sameText_refl

theorem apply_keeps (h : change.apply s = .ok t) (hs : s.Sound) : change.Keeps s t := by
  cases change with
  | saveUser user =>
      obtain ⟨-, -, rfl⟩ := Store.saveUser_ok.1 h
      exact { keeps_self _ s with users := .inl ⟨user, rfl⟩ }
  | saveCategory category =>
      obtain ⟨-, rfl⟩ := Store.saveCategory_ok.1 h
      exact { keeps_self _ s with categories := .inl ⟨category, rfl⟩ }
  | saveTag tag =>
      obtain ⟨-, rfl⟩ := Store.saveTag_ok.1 h
      exact { keeps_self _ s with tags := .inl ⟨tag, rfl⟩ }
  | savePost post =>
      obtain ⟨-, -, -, -, rfl⟩ := Store.savePost_ok.1 h
      exact { keeps_self _ s with posts := .inl ⟨post, rfl⟩ }
  | saveComment comment =>
      obtain ⟨-, rfl⟩ := Store.saveComment_ok.1 h
      exact { keeps_self _ s with comments := .inl ⟨comment, rfl⟩ }
  | deleteUser id =>
      obtain ⟨found, hdelete⟩ := found_of_map h
      rcases (Store.deleteUser_ok hs.replies_later hs.comment_ids hdelete).2 with ⟨-, rfl⟩ | rfl
      · exact keeps_self _ _
      · exact { keeps_self _ s with
          posts := .inr (.inl ⟨_, rfl⟩)
          users := .inr ⟨_, rfl⟩
          comments := .inr (.inr ⟨_, Store.unreached_unreached _ _ _⟩) }
  | deleteCategory id =>
      cases h
      refine { keeps_self _ s with
        posts := .inr (.inr ⟨_, fun row => ?_, rfl⟩)
        categories := .inr ⟨_, rfl⟩ }
      split <;> rfl
  | deleteTag id =>
      cases h
      exact { keeps_self _ s with tags := .inr ⟨_, rfl⟩ }
  | deletePost id =>
      obtain ⟨found, hdelete⟩ := found_of_map h
      rcases (Store.deleting_ok hdelete).2 with ⟨-, rfl⟩ | hremove
      · exact keeps_self _ _
      · obtain rfl := Store.removePosts_ok hs.replies_later hs.comment_ids hremove
        exact { keeps_self _ s with
          posts := .inr (.inl ⟨_, rfl⟩)
          comments := .inr (.inr ⟨_, rfl⟩) }
  | deleteComment id =>
      obtain ⟨found, hdelete⟩ := found_of_map h
      rcases (Store.deleting_ok hdelete).2 with ⟨-, rfl⟩ | hremove
      · exact keeps_self _ _
      · obtain rfl := Store.removeComments_ok hs.replies_later hs.comment_ids hremove
        exact { keeps_self _ s with comments := .inr (.inr ⟨_, rfl⟩) }
  | recordView id =>
      cases h
      exact keeps_of_update fun _ => rfl
  | addLike id =>
      cases h
      rw [Store.addLike_eq_like]
      exact keeps_of_update fun _ => rfl
  | createSession id token userId hours now =>
      obtain ⟨-, -, -, rfl⟩ := Store.createSession_ok.1 h
      exact { keeps_self _ s with }
  | saveMessage message =>
      cases h
      exact { keeps_self _ s with messages := .inl ⟨message, rfl⟩ }
  | saveSettings settings =>
      cases h
      exact { keeps_self _ s with settings := .inl ⟨settings, rfl⟩ }
  | deleteMessage id =>
      cases h
      exact { keeps_self _ s with messages := .inr ⟨_, rfl⟩ }
  | purgeSessions now =>
      cases h
      exact { keeps_self _ s with }

/-- Unless a post is saved under an id, the row with that id is gone or has the same text. -/
theorem postRow_cases (h : change.apply s = .ok t) (hs : s.Sound) (id : String) :
    (∃ post, change = .savePost post ∧ post.id = id) ∨ t.posts.row? id = none ∨
      ∃ old new, s.posts.row? id = some old ∧ t.posts.row? id = some new ∧ old.SameText new := by
  have hrefl : t.posts.row? id = s.posts.row? id → t.posts.row? id = none ∨
      ∃ old new, s.posts.row? id = some old ∧ t.posts.row? id = some new ∧ old.SameText new := by
    intro heq
    cases hrow : s.posts.row? id with
    | none => exact .inl (heq.trans hrow)
    | some row => exact .inr ⟨row, row, rfl, heq.trans hrow, row.sameText_refl⟩
  rcases (apply_keeps h hs).posts with ⟨post, rfl⟩ | ⟨p, hp⟩ | ⟨f, hf, hmap⟩
  · by_cases hid : post.id = id
    · exact .inl ⟨post, rfl, hid⟩
    · refine .inr (hrefl ?_)
      rw [Store.row?_savePost h, if_neg hid]
  · rw [hp]
    rcases Table.row?_filter_cases hs.post_ids p id with hnone | hsame
    · exact .inr (.inl hnone)
    · rw [hp] at hrefl
      exact .inr (hrefl hsame)
  · have hkey : ∀ row, Keyed.key (f row) = Keyed.key row := fun row => by rw [hf row]; rfl
    have hrow : t.posts.row? id = (s.posts.row? id).map f := by
      rw [hmap]
      exact Table.row?_map hkey id s.posts
    rw [hrow]
    cases s.posts.row? id with
    | none => exact .inr (.inl rfl)
    | some row => exact .inr (.inr ⟨row, f row, rfl, rfl, hf row⟩)

theorem categoryRow_cases (h : change.apply s = .ok t) (hs : s.Sound) (id : String) :
    (∃ category, change = .saveCategory category ∧ category.id = id) ∨
      t.categories.row? id = none ∨ t.categories.row? id = s.categories.row? id := by
  rcases (apply_keeps h hs).categories with ⟨category, rfl⟩ | ⟨p, hp⟩
  · by_cases hid : category.id = id
    · exact .inl ⟨category, rfl, hid⟩
    · exact .inr (.inr (by rw [Store.row?_saveCategory h, if_neg hid]))
  · rw [hp]
    exact .inr (Table.row?_filter_cases hs.category_ids p id)

theorem tagRow_cases (h : change.apply s = .ok t) (hs : s.Sound) (id : String) :
    (∃ tag, change = .saveTag tag ∧ tag.id = id) ∨
      t.tags.row? id = none ∨ t.tags.row? id = s.tags.row? id := by
  rcases (apply_keeps h hs).tags with ⟨tag, rfl⟩ | ⟨p, hp⟩
  · by_cases hid : tag.id = id
    · exact .inl ⟨tag, rfl, hid⟩
    · exact .inr (.inr (by rw [Store.row?_saveTag h, if_neg hid]))
  · rw [hp]
    exact .inr (Table.row?_filter_cases hs.tag_ids p id)

theorem commentRow_cases (h : change.apply s = .ok t) (hs : s.Sound) (id : String) :
    (∃ comment, change = .saveComment comment ∧ comment.id = id) ∨
      t.comments.row? id = none ∨ t.comments.row? id = s.comments.row? id := by
  rcases (apply_keeps h hs).comments with ⟨comment, rfl⟩ | hsame | ⟨selected, hunreached⟩
  · by_cases hid : comment.id = id
    · exact .inl ⟨comment, rfl, hid⟩
    · exact .inr (.inr (by rw [Store.row?_saveComment h, if_neg hid]))
  · exact .inr (.inr (congrArg (Table.row? id) hsame))
  · rw [hunreached]
    exact .inr (Table.row?_filter_cases hs.comment_ids _ id)

theorem rows_other {kind : Kind} {id : String} (h : change.apply s = .ok t)
    (hwritten : change.written? = some (kind, id)) :
    (∀ other, ¬ (kind = .post ∧ id = other) → t.posts.row? other = s.posts.row? other) ∧
      (∀ other, ¬ (kind = .category ∧ id = other) →
        t.categories.row? other = s.categories.row? other) ∧
      ∀ other, ¬ (kind = .tag ∧ id = other) → t.tags.row? other = s.tags.row? other := by
  cases change with
  | savePost post =>
      cases hwritten
      refine ⟨fun other hne => ?_, fun other _ => ?_, fun other _ => ?_⟩
      · rw [Store.row?_savePost h, if_neg fun he => hne ⟨rfl, he⟩]
      · obtain ⟨-, -, -, -, rfl⟩ := Store.savePost_ok.1 h
        rfl
      · obtain ⟨-, -, -, -, rfl⟩ := Store.savePost_ok.1 h
        rfl
  | saveCategory category =>
      cases hwritten
      refine ⟨fun other _ => ?_, fun other hne => ?_, fun other _ => ?_⟩
      · obtain ⟨-, rfl⟩ := Store.saveCategory_ok.1 h
        rfl
      · rw [Store.row?_saveCategory h, if_neg fun he => hne ⟨rfl, he⟩]
      · obtain ⟨-, rfl⟩ := Store.saveCategory_ok.1 h
        rfl
  | saveTag tag =>
      cases hwritten
      refine ⟨fun other _ => ?_, fun other _ => ?_, fun other hne => ?_⟩
      · obtain ⟨-, rfl⟩ := Store.saveTag_ok.1 h
        rfl
      · obtain ⟨-, rfl⟩ := Store.saveTag_ok.1 h
        rfl
      · rw [Store.row?_saveTag h, if_neg fun he => hne ⟨rfl, he⟩]
  | _ => cases hwritten

end Change

namespace Store

/-- Nothing that has a slug was written between two stores. What is still there has kept its
text. -/
structure Unwritten (s t : Store) : Prop where
  posts : ∀ id, t.posts.row? id = none ∨
    ∃ old new, s.posts.row? id = some old ∧ t.posts.row? id = some new ∧ old.SameText new
  categories : ∀ id, t.categories.row? id = none ∨ t.categories.row? id = s.categories.row? id
  tags : ∀ id, t.tags.row? id = none ∨ t.tags.row? id = s.tags.row? id

variable {s t u : Store}

theorem unwritten_refl (s : Store) : s.Unwritten s where
  posts id := by
    cases h : s.posts.row? id with
    | none => exact .inl rfl
    | some row => exact .inr ⟨row, row, rfl, rfl, row.sameText_refl⟩
  categories _ := .inr rfl
  tags _ := .inr rfl

theorem Unwritten.trans (hst : s.Unwritten t) (htu : t.Unwritten u) : s.Unwritten u where
  posts id := by
    rcases htu.posts id with hnone | ⟨mid, new, hmid, hnew, htext⟩
    · exact .inl hnone
    · rcases hst.posts id with hnone | ⟨old, other, hold, hother, hfirst⟩
      · rw [hmid] at hnone
        cases hnone
      · obtain rfl : mid = other := Option.some.inj (hmid.symm.trans hother)
        exact .inr ⟨old, new, hold, hnew, hfirst.trans htext⟩
  categories id := by
    rcases htu.categories id with hnone | hsame
    · exact .inl hnone
    · rw [hsame]
      exact hst.categories id
  tags id := by
    rcases htu.tags id with hnone | hsame
    · exact .inl hnone
    · rw [hsame]
      exact hst.tags id

end Store

theorem Change.unwritten {change : Change} {s t : Store} (h : change.apply s = .ok t)
    (hs : s.Sound) (hnone : change.written? = none) : s.Unwritten t where
  posts id := by
    rcases Change.postRow_cases h hs id with ⟨post, rfl, -⟩ | hkept
    · cases hnone
    · exact hkept
  categories id := by
    rcases Change.categoryRow_cases h hs id with ⟨category, rfl, -⟩ | hkept
    · cases hnone
    · exact hkept
  tags id := by
    rcases Change.tagRow_cases h hs id with ⟨tag, rfl, -⟩ | hkept
    · cases hnone
    · exact hkept

theorem Call.unwritten [Libraries] (call : Call) {s : Store} (hs : s.Sound)
    (hnone : ∀ change, call.Makes change → change.written? = none) :
    s.Unwritten (call.after s) := by
  refine Call.after_keeps_of_sound ?_ hs s.unwritten_refl
  intro change t u hmakes happly ht hst
  exact hst.trans (Change.unwritten happly ht (hnone change hmakes))

end Gazette
