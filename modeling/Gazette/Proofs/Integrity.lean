import Gazette.Proofs.Call
import Gazette.Proofs.Delete
import Gazette.Proofs.Save
import Gazette.Store.Schema

/-!
# Integrity

A store is sound if everything in it can be told apart and if everything it refers to is there.
Each change that is not refused keeps a store sound. So a database that starts out empty stays
sound whatever is asked of it, of the editor and of the interface, in any order.
-/
namespace Gazette

/-- Everything in a sound store has an id or a name of its own, and every reference leads to
something that is stored. A session is told apart by its token as well. -/
structure Store.Sound (s : Store) : Prop where
  user_ids : (s.users.map User.id).Nodup
  usernames : (s.users.map User.username).Nodup
  user_emails : (s.users.map User.email).Nodup
  category_ids : (s.categories.map Category.id).Nodup
  category_slugs : (s.categories.map Category.slug).Nodup
  tag_ids : (s.tags.map Tag.id).Nodup
  tag_slugs : (s.tags.map Tag.slug).Nodup
  post_ids : (s.posts.map PostRow.id).Nodup
  post_slugs : (s.posts.map PostRow.slug).Nodup
  post_author : ∀ row ∈ s.posts, s.users.has row.authorId = true
  post_category : ∀ row ∈ s.posts, ∀ id ∈ row.categoryId, s.categories.has id = true
  link_once : s.links.Nodup
  link_post : ∀ link ∈ s.links, s.posts.has link.postId = true
  link_tag : ∀ link ∈ s.links, s.tags.has link.tagId = true
  comment_ids : (s.comments.map Comment.id).Nodup
  comment_post : ∀ comment ∈ s.comments, s.posts.has comment.postId = true
  comment_author : ∀ comment ∈ s.comments, s.users.has comment.authorId = true
  comment_parent : ∀ comment ∈ s.comments, ∀ id ∈ comment.parentId, s.comments.has id = true
  replies_later : Store.RepliesLater s.comments
  message_ids : (s.messages.map ContactMessage.id).Nodup
  session_ids : (s.sessions.map Session.id).Nodup
  session_tokens : (s.sessions.map Session.token).Nodup
  session_user : ∀ session ∈ s.sessions, s.users.has session.userId = true
  settings_once : s.settings.length ≤ 1

namespace Store
variable {s t : Store}

theorem sound_empty : Sound {} := by
  constructor <;> simp [RepliesLater]

theorem Sound.saveUser {user : User} (h : s.Sound) (hsave : s.saveUser user = .ok t) :
    t.Sound := by
  obtain ⟨hemail, hname, rfl⟩ := saveUser_ok.1 hsave
  have hhas : ∀ id, s.users.has id = true → (s.users.put mergeUser user).has id = true :=
    fun id hid => (Table.has_put mergeUser_keepsKey).2 (.inl hid)
  exact { h with
    user_ids := Table.nodup_keys_put mergeUser_keepsKey h.user_ids
    usernames := Table.nodup_map_put h.user_ids hname (fun _ => rfl) h.usernames
    user_emails := Table.nodup_map_put h.user_ids hemail (fun _ => rfl) h.user_emails
    post_author := fun row hrow => hhas _ (h.post_author row hrow)
    comment_author := fun comment hc => hhas _ (h.comment_author comment hc)
    session_user := fun session hs => hhas _ (h.session_user session hs) }

theorem Sound.saveCategory {category : Category} (h : s.Sound)
    (hsave : s.saveCategory category = .ok t) : t.Sound := by
  obtain ⟨hslug, rfl⟩ := saveCategory_ok.1 hsave
  exact { h with
    category_ids := Table.nodup_keys_put mergeCategory_keepsKey h.category_ids
    category_slugs := Table.nodup_map_put h.category_ids hslug (fun _ => rfl) h.category_slugs
    post_category := fun row hrow id hid =>
      (Table.has_put mergeCategory_keepsKey).2 (.inl (h.post_category row hrow id hid)) }

theorem Sound.saveTag {tag : Tag} (h : s.Sound) (hsave : s.saveTag tag = .ok t) : t.Sound := by
  obtain ⟨hslug, rfl⟩ := saveTag_ok.1 hsave
  exact { h with
    tag_ids := Table.nodup_keys_put mergeTag_keepsKey h.tag_ids
    tag_slugs := Table.nodup_map_put h.tag_ids hslug (fun _ => rfl) h.tag_slugs
    link_tag := fun link hlink =>
      (Table.has_put mergeTag_keepsKey).2 (.inl (h.link_tag link hlink)) }

theorem nodup_eraseDups (ids : List String) : ids.eraseDups.Nodup := by
  induction hlength : ids.length using Nat.strongRecOn generalizing ids with
  | ind length ih =>
      cases ids with
      | nil => exact List.nodup_nil
      | cons id rest =>
          have hshorter : (rest.filter fun b => !b == id).length < length :=
            hlength ▸ Nat.lt_succ_of_le (List.length_filter_le _ rest)
          rw [List.eraseDups_cons, List.nodup_cons]
          exact ⟨by simp, ih _ hshorter _ rfl⟩

/-- The links that a saved post leaves behind: its old ones are replaced, each tag counts once. -/
theorem nodup_links {links : List TagLink} (h : links.Nodup) (id : String)
    (tagIds : List String) :
    (links.filter (fun link => link.postId != id) ++
      tagIds.eraseDups.map (TagLink.mk id)).Nodup := by
  have hnew : (tagIds.eraseDups.map (TagLink.mk id)).Nodup :=
    List.Nodup.map (fun _ _ he => (TagLink.mk.inj he).2) (nodup_eraseDups tagIds)
  refine List.Nodup.append (h.filter _) hnew ?_
  intro link hold hlink
  obtain ⟨tagId, -, rfl⟩ := List.mem_map.1 hlink
  simp at hold

theorem Sound.savePost {post : Post} (h : s.Sound) (hsave : s.savePost post = .ok t) :
    t.Sound := by
  obtain ⟨hslug, hauthor, hcategory, htags, rfl⟩ := savePost_ok.1 hsave
  have hhas : ∀ id, s.posts.has id = true →
      (s.posts.put PostRow.merge (PostRow.ofPost post)).has id = true :=
    fun id hid => (Table.has_put mergePost_keepsKey).2 (.inl hid)
  have hself : (s.posts.put PostRow.merge (PostRow.ofPost post)).has post.id = true :=
    (Table.has_put mergePost_keepsKey).2 (.inr rfl)
  have hlinks : ∀ link ∈ s.links.filter (·.postId != post.id) ++
      post.tagIds.eraseDups.map (⟨post.id, ·⟩),
        link ∈ s.links ∨ link.postId = post.id ∧ link.tagId ∈ post.tagIds := by
    intro link hlink
    rcases List.mem_append.1 hlink with hold | hnew
    · exact .inl (List.mem_filter.1 hold).1
    · obtain ⟨tagId, htag, rfl⟩ := List.mem_map.1 hnew
      exact .inr ⟨rfl, List.mem_eraseDups.1 htag⟩
  refine { h with
    post_ids := Table.nodup_keys_put mergePost_keepsKey h.post_ids
    post_slugs := Table.nodup_map_put h.post_ids hslug (fun _ => rfl) h.post_slugs
    post_author := ?_
    post_category := ?_
    link_once := nodup_links h.link_once post.id post.tagIds
    link_post := ?_
    link_tag := ?_
    comment_post := fun comment hc => hhas _ (h.comment_post comment hc) }
  · intro row hrow
    rcases (Table.mem_put h.post_ids).1 hrow with ⟨hold, -⟩ | ⟨old, hold, -, rfl⟩ | ⟨hnew, rfl⟩
    · exact h.post_author row hold
    · exact h.post_author old hold
    · exact hauthor.resolve_left (Bool.eq_false_iff.1 hnew)
  · intro row hrow
    rcases (Table.mem_put h.post_ids).1 hrow with ⟨hold, -⟩ | ⟨old, -, -, rfl⟩ | ⟨-, rfl⟩
    · exact h.post_category row hold
    · exact hcategory
    · exact hcategory
  · intro link hlink
    rcases hlinks link hlink with hold | ⟨hpost, -⟩
    · exact hhas _ (h.link_post link hold)
    · exact hpost ▸ hself
  · intro link hlink
    rcases hlinks link hlink with hold | ⟨-, htag⟩
    · exact h.link_tag link hold
    · exact htags _ htag

/-- A saved comment stands last if it is new, and in its old place otherwise. -/
theorem RepliesLater.put {comments : Table Comment} (h : RepliesLater comments)
    (parents : ∀ c ∈ comments, ∀ id ∈ c.parentId, comments.has id = true) (comment : Comment) :
    RepliesLater (comments.put mergeComment comment) := by
  cases hhas : comments.has (Keyed.key comment) with
  | false =>
      rw [Table.put_of_has_eq_false hhas]
      refine List.pairwise_append.2 ⟨h, List.pairwise_singleton _ _, ?_⟩
      rintro c hc new hnew hparent
      rw [List.mem_singleton.1 hnew] at hparent
      exact Bool.eq_false_iff.1 hhas (parents c hc comment.id hparent)
  | true =>
      have hsame : (comments.put mergeComment comment).map (fun c => (c.id, c.parentId)) =
          comments.map fun c => (c.id, c.parentId) :=
        Table.map_put_of_has hhas fun _ => rfl
      have hpairs : ∀ l : Table Comment, RepliesLater l ↔
          (l.map fun c => (c.id, c.parentId)).Pairwise fun a b => a.2 ≠ some b.1 := by
        intro l
        rw [List.pairwise_map]
        rfl
      rw [hpairs, hsame, ← hpairs]
      exact h

theorem Sound.saveComment {comment : Comment} (h : s.Sound)
    (hsave : s.saveComment comment = .ok t) : t.Sound := by
  obtain ⟨hnew, rfl⟩ := saveComment_ok.1 hsave
  have hhas : ∀ id, s.comments.has id = true →
      (s.comments.put mergeComment comment).has id = true :=
    fun id hid => (Table.has_put mergeComment_keepsKey).2 (.inl hid)
  have hself : (s.comments.put mergeComment comment).has comment.id = true :=
    (Table.has_put mergeComment_keepsKey).2 (.inr rfl)
  have hcases : ∀ c ∈ s.comments.put mergeComment comment,
      (∃ old ∈ s.comments, c.postId = old.postId ∧ c.authorId = old.authorId ∧
        c.parentId = old.parentId) ∨ s.comments.has comment.id = false ∧ c = comment := by
    intro c hc
    rcases (Table.mem_put h.comment_ids).1 hc with ⟨hold, -⟩ | ⟨old, hold, -, rfl⟩ | hadded
    · exact .inl ⟨c, hold, rfl, rfl, rfl⟩
    · exact .inl ⟨old, hold, rfl, rfl, rfl⟩
    · exact .inr hadded
  refine { h with
    comment_ids := Table.nodup_keys_put mergeComment_keepsKey h.comment_ids
    comment_post := ?_
    comment_author := ?_
    comment_parent := ?_
    replies_later := h.replies_later.put h.comment_parent comment }
  · intro c hc
    rcases hcases c hc with ⟨old, hold, hpost, -, -⟩ | ⟨habsent, rfl⟩
    · exact hpost ▸ h.comment_post old hold
    · exact (hnew.resolve_left (Bool.eq_false_iff.1 habsent)).1
  · intro c hc
    rcases hcases c hc with ⟨old, hold, -, hauthor, -⟩ | ⟨habsent, rfl⟩
    · exact hauthor ▸ h.comment_author old hold
    · exact (hnew.resolve_left (Bool.eq_false_iff.1 habsent)).2.1
  · intro c hc id hid
    rcases hcases c hc with ⟨old, hold, -, -, hparent⟩ | ⟨habsent, rfl⟩
    · exact hhas id (h.comment_parent old hold id (hparent ▸ hid))
    · rcases (hnew.resolve_left (Bool.eq_false_iff.1 habsent)).2.2 id hid with rfl | hparent
      · exact hself
      · exact hhas id hparent

theorem Sound.saveMessage (h : s.Sound) (message : ContactMessage) :
    (s.saveMessage message).Sound :=
  { h with message_ids := Table.nodup_keys_put mergeMessage_keepsKey h.message_ids }

theorem Sound.saveSettings (h : s.Sound) (settings : SiteSettings) :
    (s.saveSettings settings).Sound := by
  have honce := h.settings_once
  refine { h with settings_once := ?_ }
  rw [settings_saveSettings, List.length_cons, List.length_tail]
  omega

/-- What is written into post rows leaves a store sound if it leaves alone how the rows are told
apart and who wrote them. -/
theorem Sound.map_posts {f : PostRow → PostRow} (h : s.Sound) (hid : ∀ row, (f row).id = row.id)
    (hslug : ∀ row, (f row).slug = row.slug) (hauthor : ∀ row, (f row).authorId = row.authorId)
    (hcategory : ∀ row, ∀ id ∈ (f row).categoryId, id ∈ row.categoryId) :
    Sound { s with posts := s.posts.map f } := by
  have hhas : ∀ id, Table.has id (s.posts.map f) = s.posts.has id := fun id =>
    Table.has_map hid id s.posts
  refine { h with
    post_ids := ?_
    post_slugs := ?_
    post_author := ?_
    post_category := ?_
    link_post := fun link hlink => (hhas _).trans (h.link_post link hlink)
    comment_post := fun comment hc => (hhas _).trans (h.comment_post comment hc) }
  · have hids : PostRow.id ∘ f = PostRow.id := funext hid
    rw [List.map_map, hids]
    exact h.post_ids
  · have hslugs : PostRow.slug ∘ f = PostRow.slug := funext hslug
    rw [List.map_map, hslugs]
    exact h.post_slugs
  · intro row hrow
    obtain ⟨old, hold, rfl⟩ := List.mem_map.1 hrow
    exact hauthor old ▸ h.post_author old hold
  · intro row hrow id hmem
    obtain ⟨old, hold, rfl⟩ := List.mem_map.1 hrow
    exact h.post_category old hold id (hcategory old id hmem)

theorem Sound.recordView (h : s.Sound) (id : String) : (s.recordView id).Sound := by
  refine h.map_posts ?_ ?_ ?_ ?_ <;> intro row <;> split <;> simp

theorem Sound.like (h : s.Sound) (id : String) : (s.like id).Sound := by
  refine h.map_posts ?_ ?_ ?_ ?_ <;> intro row <;> split <;> simp

theorem Sound.addLike (h : s.Sound) (id : String) : (s.addLike id).2.Sound := by
  rw [addLike_eq_like]
  exact h.like id

/-- What is kept of the comments keeps its parents: a reply would go with its parent. -/
theorem Sound.without_comments (h : s.Sound) (selected : Comment → Bool) :
    Sound { s with comments := unreached selected s.comments } :=
  have hsub : unreached selected s.comments ⊆ s.comments := List.filter_sublist.subset
  { h with
    comment_ids := nodup_unreached h.comment_ids
    comment_post := fun c hc => h.comment_post c (hsub hc)
    comment_author := fun c hc => h.comment_author c (hsub hc)
    comment_parent := fun c hc id hid => by
      obtain ⟨hmem, hnot⟩ := mem_unreached.1 hc
      obtain ⟨parent, hparent, rfl⟩ := Table.has_iff.1 (h.comment_parent c hmem id hid)
      refine Table.has_of_mem (mem_unreached.2 ⟨hparent, fun replies hreached => ?_⟩)
      obtain ⟨more, hreply⟩ := hreached.exists_of_parent h.comment_ids hmem hid
      exact hnot more hreply
    replies_later := repliesLater_unreached h.replies_later }

theorem has_unselected {selected : PostRow → Bool} {id : String} (hhas : s.posts.has id = true)
    (hid : (s.selectedIds selected).contains id = false) :
    Table.has id (s.posts.filter fun row => !selected row) = true := by
  refine Table.has_filter hhas ?_
  rintro row hrow rfl
  cases hs : selected row with
  | false => rfl
  | true =>
      have hmem : row.id ∈ s.selectedIds selected := mem_selectedIds.2 ⟨row, hrow, hs, rfl⟩
      simp [hmem] at hid

theorem Sound.without_posts (h : s.Sound) (selected : PostRow → Bool) :
    (s.withoutPosts selected).Sound :=
  { h.without_comments (s.isOnSelected selected) with
    post_ids := h.post_ids.sublist (List.filter_sublist.map _)
    post_slugs := h.post_slugs.sublist (List.filter_sublist.map _)
    post_author := fun row hrow => h.post_author row (List.mem_filter.1 hrow).1
    post_category := fun row hrow => h.post_category row (List.mem_filter.1 hrow).1
    link_once := h.link_once.filter _
    link_post := fun link hlink => by
      obtain ⟨hold, hkept⟩ := List.mem_filter.1 hlink
      exact has_unselected (h.link_post link hold) (by simpa using hkept)
    link_tag := fun link hlink => h.link_tag link (List.mem_filter.1 hlink).1
    comment_post := fun c hc => by
      obtain ⟨hmem, hnot⟩ := mem_unreached.1 hc
      refine has_unselected (h.comment_post c hmem) ?_
      exact Bool.eq_false_iff.2 fun hselected => hnot 0 (.selected hmem hselected) }

theorem Sound.without_user (h : s.Sound) (id : String)
    (hposts : ∀ row ∈ s.posts, row.authorId ≠ id)
    (hcomments : ∀ comment ∈ s.comments, comment.authorId ≠ id) :
    Sound { s with
      users := s.users.remove id
      sessions := s.sessions.filter (·.userId != id) } :=
  { h with
    user_ids := h.user_ids.sublist (List.filter_sublist.map _)
    usernames := h.usernames.sublist (List.filter_sublist.map _)
    user_emails := h.user_emails.sublist (List.filter_sublist.map _)
    post_author := fun row hrow => Table.has_remove (h.post_author row hrow) (hposts row hrow)
    comment_author := fun c hc => Table.has_remove (h.comment_author c hc) (hcomments c hc)
    session_ids := h.session_ids.sublist (List.filter_sublist.map _)
    session_tokens := h.session_tokens.sublist (List.filter_sublist.map _)
    session_user := fun session hs => by
      obtain ⟨hold, hother⟩ := List.mem_filter.1 hs
      exact Table.has_remove (h.session_user session hold) (bne_iff_ne.1 hother) }

theorem Sound.without_user_closure (h : s.Sound) (id : String) : (s.withoutUser id).Sound := by
  refine ((h.without_comments (·.authorId == id)).without_posts (·.authorId == id)).without_user
    id ?_ ?_
  · intro row hrow
    simpa using (List.mem_filter.1 hrow).2
  · intro comment hcomment
    obtain ⟨hmem, hnot⟩ := mem_unreached.1 (mem_unreached.1 hcomment).1
    intro hauthor
    exact hnot 0 (.selected hmem (beq_iff_eq.2 hauthor))

theorem Sound.deleteUser {id : String} {found : Bool} (h : s.Sound)
    (hdelete : s.deleteUser id = .ok (found, t)) : t.Sound := by
  rcases (deleteUser_ok h.replies_later h.comment_ids hdelete).2 with ⟨-, rfl⟩ | rfl
  · exact h
  · exact h.without_user_closure id

theorem Sound.deletePost {id : String} {found : Bool} (h : s.Sound)
    (hdelete : s.deletePost id = .ok (found, t)) : t.Sound := by
  rcases (deleting_ok hdelete).2 with ⟨-, rfl⟩ | hremove
  · exact h
  · rw [removePosts_ok h.replies_later h.comment_ids hremove]
    exact h.without_posts _

theorem Sound.deleteComment {id : String} {found : Bool} (h : s.Sound)
    (hdelete : s.deleteComment id = .ok (found, t)) : t.Sound := by
  rcases (deleting_ok hdelete).2 with ⟨-, rfl⟩ | hremove
  · exact h
  · rw [removeComments_ok h.replies_later h.comment_ids hremove]
    exact h.without_comments _

theorem Sound.without_category (h : s.Sound) (id : String)
    (hposts : ∀ row ∈ s.posts, row.categoryId ≠ some id) :
    Sound { s with categories := s.categories.remove id } :=
  { h with
    category_ids := h.category_ids.sublist (List.filter_sublist.map _)
    category_slugs := h.category_slugs.sublist (List.filter_sublist.map _)
    post_category := fun row hrow other hother =>
      Table.has_remove (h.post_category row hrow other hother) fun he =>
        hposts row hrow (he ▸ hother) }

theorem Sound.deleteCategory (h : s.Sound) (id : String) : (s.deleteCategory id).2.Sound := by
  refine (h.map_posts (f := fun row =>
    if row.categoryId == some id then { row with categoryId := none } else row)
      ?_ ?_ ?_ ?_).without_category id ?_
  · intro row
    split <;> rfl
  · intro row
    split <;> rfl
  · intro row
    split <;> rfl
  · intro row
    split <;> simp
  · intro row hrow
    obtain ⟨old, -, rfl⟩ := List.mem_map.1 hrow
    split
    · simp
    · rename_i hne
      simpa using hne

theorem Sound.deleteTag (h : s.Sound) (id : String) : (s.deleteTag id).2.Sound :=
  { h with
    tag_ids := h.tag_ids.sublist (List.filter_sublist.map _)
    tag_slugs := h.tag_slugs.sublist (List.filter_sublist.map _)
    link_once := h.link_once.filter _
    link_post := fun link hlink => h.link_post link (List.mem_filter.1 hlink).1
    link_tag := fun link hlink => by
      obtain ⟨hold, hother⟩ := List.mem_filter.1 hlink
      exact Table.has_remove (h.link_tag link hold) (bne_iff_ne.1 hother) }

theorem Sound.deleteMessage (h : s.Sound) (id : String) : (s.deleteMessage id).2.Sound :=
  { h with message_ids := h.message_ids.sublist (List.filter_sublist.map _) }

theorem Sound.createSession {id token userId : String} {hours : Nat} {now : Timestamp} (h : s.Sound)
    (hcreate : s.createSession id token userId hours now = .ok t) : t.Sound := by
  obtain ⟨-, hnew, huser, rfl⟩ := createSession_ok.1 hcreate
  refine { h with
    session_ids := ?_
    session_tokens := ?_
    session_user := ?_ }
  · rw [List.map_append]
    refine h.session_ids.append (List.nodup_singleton _) ?_
    simpa using fun session hsession => (hnew session hsession).1
  · rw [List.map_append]
    refine h.session_tokens.append (List.nodup_singleton _) ?_
    simpa using fun session hsession => (hnew session hsession).2
  · intro session hs
    rcases List.mem_append.1 hs with hold | hnew
    · exact h.session_user session hold
    · rw [List.mem_singleton.1 hnew]
      exact huser

theorem Sound.purgeSessions (h : s.Sound) (now : Timestamp) : (s.purgeSessions now).2.Sound :=
  { h with
    session_ids := h.session_ids.sublist (List.filter_sublist.map _)
    session_tokens := h.session_tokens.sublist (List.filter_sublist.map _)
    session_user := fun session hs => h.session_user session (List.mem_filter.1 hs).1 }

end Store

theorem Change.keeps_sound (change : Change) (s t : Store) (happly : change.apply s = .ok t)
    (h : s.Sound) : t.Sound := by
  cases change with
  | saveUser user => exact h.saveUser happly
  | saveCategory category => exact h.saveCategory happly
  | saveTag tag => exact h.saveTag happly
  | savePost post => exact h.savePost happly
  | saveComment comment => exact h.saveComment happly
  | saveMessage message => exact Except.ok.inj happly ▸ h.saveMessage message
  | saveSettings settings => exact Except.ok.inj happly ▸ h.saveSettings settings
  | deleteUser id =>
      obtain ⟨found, hdelete⟩ := found_of_map happly
      exact h.deleteUser hdelete
  | deleteCategory id => exact Except.ok.inj happly ▸ h.deleteCategory id
  | deleteTag id => exact Except.ok.inj happly ▸ h.deleteTag id
  | deletePost id =>
      obtain ⟨found, hdelete⟩ := found_of_map happly
      exact h.deletePost hdelete
  | deleteComment id =>
      obtain ⟨found, hdelete⟩ := found_of_map happly
      exact h.deleteComment hdelete
  | deleteMessage id => exact Except.ok.inj happly ▸ h.deleteMessage id
  | recordView id => exact Except.ok.inj happly ▸ h.recordView id
  | addLike id => exact Except.ok.inj happly ▸ h.addLike id
  | createSession id token userId hours now => exact h.createSession happly
  | purgeSessions now => exact Except.ok.inj happly ▸ h.purgeSessions now

section
variable [Libraries]

theorem Call.after_keeps_sound (call : Call) (s : Store) (h : s.Sound) : (call.after s).Sound :=
  after_keeps (fun change s t _ => change.keeps_sound s t) h

theorem Call.run_keeps_sound (calls : List Call) {s : Store} (h : s.Sound) :
    (Call.run calls s).Sound :=
  run_keeps (fun call _ => call.after_keeps_sound) h

theorem Call.after_keeps_of_sound {I : Store → Prop} {call : Call}
    (keep : ∀ change s t, call.Makes change → change.apply s = .ok t → s.Sound → I s → I t)
    {s : Store} (hs : s.Sound) (h : I s) : I (call.after s) := by
  refine (call.after_keeps (I := fun t => t.Sound ∧ I t) ?_ ⟨hs, h⟩).2
  rintro change t u hmakes happly ⟨ht, hI⟩
  exact ⟨change.keeps_sound t u happly ht, keep change t u hmakes happly ht hI⟩

/-- What every step of a run keeps in a sound store, the run keeps, and every step finds it in a
sound store. -/
theorem Call.steps_keep_of_sound {I : Store → Prop} {calls : List Call} {s : Store}
    (keep : ∀ step ∈ steps calls s, step.1.Sound → I step.1 → I (step.2.after step.1))
    (hs : s.Sound) (h : I s) :
    I (run calls s) ∧ ∀ step ∈ steps calls s, step.1.Sound ∧ I step.1 := by
  have hkeep : ∀ step ∈ steps calls s, step.1.Sound ∧ I step.1 →
      (step.2.after step.1).Sound ∧ I (step.2.after step.1) :=
    fun step hstep hI => ⟨step.2.after_keeps_sound step.1 hI.1, keep step hstep hI.1 hI.2⟩
  have hboth := steps_keep (I := fun t => t.Sound ∧ I t) hkeep ⟨hs, h⟩
  exact ⟨hboth.1.2, hboth.2⟩

theorem Call.run_keeps_of_sound {I : Store → Prop} {calls : List Call}
    (keep : ∀ call ∈ calls, ∀ change s t, call.Makes change → change.apply s = .ok t →
      s.Sound → I s → I t) {s : Store} (hs : s.Sound) (h : I s) : I (run calls s) := by
  refine (steps_keep_of_sound (fun step hstep => ?_) hs h).1
  exact after_keeps_of_sound (keep step.2 (mem_of_mem_steps hstep))

end

theorem Database.executeAll_store (statements : List Statement) (db : Database) :
    (executeAll statements db).2.store = db.store := by
  induction statements generalizing db with
  | nil => rfl
  | cons statement rest ih =>
      rw [executeAll]
      split
      · rename_i next h
        rw [ih]
        cases statement <;> simp only [execute] at h <;> split at h <;> cases h <;> rfl
      · rfl

theorem Database.fresh_store : Database.fresh.store = {} :=
  executeAll_store _ _

theorem Database.sound_fresh : Database.fresh.store.Sound :=
  fresh_store ▸ Store.sound_empty

/-- Whatever is asked of a fresh database, with whatever arguments and result, leaves it sound. -/
theorem Call.sound_of_fresh [Libraries] (calls : List Call) :
    (Call.run calls Database.fresh.store).Sound :=
  run_keeps_sound calls Database.sound_fresh

end Gazette
