import Mathlib.Logic.Relation
import Gazette.Proofs.Integrity

/-!
# Cascades

A deletion takes along what refers to the deleted row, what refers to that, and so on. What is left
is the store without everything that goes with the row, and nothing else about it has changed. A
deletion that would have to follow too long a chain of references is refused instead.
-/
namespace Gazette

/-- Something that a store holds, by what it is told apart by. -/
inductive Entry
  | user (id : String)
  | category (id : String)
  | tag (id : String)
  | post (id : String)
  | comment (id : String)
  | session (token : String)
  | link (link : TagLink)
deriving DecidableEq

namespace Store
variable {s : Store} {root e : Entry} {id token : String} {link : TagLink}

/-- A row is deleted when the one that it refers to is. The category of a post is no such
reference. -/
inductive Follows (s : Store) : Entry → Entry → Prop
  | post {row : PostRow} : row ∈ s.posts → s.Follows (.user row.authorId) (.post row.id)
  | session {session : Session} : session ∈ s.sessions →
      s.Follows (.user session.userId) (.session session.token)
  | tagged {link : TagLink} : link ∈ s.links → s.Follows (.tag link.tagId) (.link link)
  | tagging {link : TagLink} : link ∈ s.links → s.Follows (.post link.postId) (.link link)
  | written {comment : Comment} : comment ∈ s.comments →
      s.Follows (.user comment.authorId) (.comment comment.id)
  | said {comment : Comment} : comment ∈ s.comments →
      s.Follows (.post comment.postId) (.comment comment.id)
  | reply {comment : Comment} {parentId : String} : comment ∈ s.comments →
      comment.parentId = some parentId → s.Follows (.comment parentId) (.comment comment.id)

/-- An entry goes with another over any chain of references. -/
def GoesWith (s : Store) : Entry → Entry → Prop :=
  Relation.ReflTransGen s.Follows

open Classical in
/-- The store without an entry and everything that goes with it. A post whose category goes stays
without one. -/
noncomputable def without (root : Entry) (s : Store) : Store :=
  { s with
    users := s.users.filter fun user => ¬ s.GoesWith root (.user user.id)
    sessions := s.sessions.filter fun session => ¬ s.GoesWith root (.session session.token)
    categories := s.categories.filter fun category => ¬ s.GoesWith root (.category category.id)
    tags := s.tags.filter fun tag => ¬ s.GoesWith root (.tag tag.id)
    posts := (s.posts.filter fun row => ¬ s.GoesWith root (.post row.id)).map fun row =>
      { row with
        categoryId := row.categoryId.filter fun id => ¬ s.GoesWith root (.category id) }
    links := s.links.filter fun link => ¬ s.GoesWith root (.link link)
    comments := s.comments.filter fun comment => ¬ s.GoesWith root (.comment comment.id) }

theorem goesWith_iff : s.GoesWith root e ↔ root = e ∨ ∃ b, s.GoesWith root b ∧ s.Follows b e := by
  rw [GoesWith, Relation.ReflTransGen.cases_tail_iff, eq_comm]

theorem goesWith_of_free (hfree : ∀ b, ¬ s.Follows b e) : s.GoesWith root e ↔ root = e := by
  rw [goesWith_iff]
  refine or_iff_left ?_
  rintro ⟨b, -, h⟩
  exact hfree b h

theorem goesWith_user : s.GoesWith root (.user id) ↔ root = .user id :=
  goesWith_of_free fun _ => nofun

theorem goesWith_category : s.GoesWith root (.category id) ↔ root = .category id :=
  goesWith_of_free fun _ => nofun

theorem goesWith_tag : s.GoesWith root (.tag id) ↔ root = .tag id :=
  goesWith_of_free fun _ => nofun

theorem goesWith_post :
    s.GoesWith root (.post id) ↔
      root = .post id ∨ ∃ row ∈ s.posts, row.id = id ∧ root = .user row.authorId := by
  rw [goesWith_iff]
  refine or_congr_right ⟨?_, ?_⟩
  · rintro ⟨b, hb, h⟩
    cases h with
    | post hrow => exact ⟨_, hrow, rfl, goesWith_user.1 hb⟩
  · rintro ⟨row, hrow, rfl, rfl⟩
    exact ⟨_, .refl, .post hrow⟩

theorem goesWith_session :
    s.GoesWith root (.session token) ↔
      root = .session token ∨
        ∃ session ∈ s.sessions, session.token = token ∧ root = .user session.userId := by
  rw [goesWith_iff]
  refine or_congr_right ⟨?_, ?_⟩
  · rintro ⟨b, hb, h⟩
    cases h with
    | session hsession => exact ⟨_, hsession, rfl, goesWith_user.1 hb⟩
  · rintro ⟨session, hsession, rfl, rfl⟩
    exact ⟨_, .refl, .session hsession⟩

theorem goesWith_link (hlink : link ∈ s.links) :
    s.GoesWith root (.link link) ↔
      root = .link link ∨ root = .tag link.tagId ∨ s.GoesWith root (.post link.postId) := by
  rw [goesWith_iff]
  refine or_congr_right ⟨?_, ?_⟩
  · rintro ⟨b, hb, h⟩
    cases h with
    | tagged _ => exact .inl (goesWith_tag.1 hb)
    | tagging _ => exact .inr hb
  · rintro (rfl | h)
    · exact ⟨_, .refl, .tagged hlink⟩
    · exact ⟨_, h, .tagging hlink⟩

theorem goesWith_of_leaf (hleaf : ∀ b, ¬ s.Follows root b) : s.GoesWith root e ↔ e = root := by
  rw [GoesWith, Relation.ReflTransGen.cases_head_iff, eq_comm]
  refine or_iff_left ?_
  rintro ⟨b, h, -⟩
  exact hleaf b h

theorem goesWith_of_category : s.GoesWith (.category id) e ↔ e = .category id :=
  goesWith_of_leaf fun _ => nofun

theorem goesWith_of_tag :
    s.GoesWith (.tag id) e ↔ e = .tag id ∨ ∃ link ∈ s.links, link.tagId = id ∧ e = .link link := by
  rw [GoesWith, Relation.ReflTransGen.cases_head_iff, eq_comm]
  refine or_congr_right ⟨?_, ?_⟩
  · rintro ⟨b, h, hrest⟩
    cases h with
    | tagged hlink => exact ⟨_, hlink, rfl, (goesWith_of_leaf fun _ h => by cases h).1 hrest⟩
  · rintro ⟨link, hlink, rfl, rfl⟩
    exact ⟨_, .tagged hlink, .refl⟩

open Classical in
/-- Whether a comment goes with an entry for what it is or is about, whatever it replies to. -/
noncomputable def isGone (root : Entry) (s : Store) (comment : Comment) : Bool :=
  decide (root = .comment comment.id ∨ root = .user comment.authorId ∨
    s.GoesWith root (.post comment.postId))

theorem isGone_iff {comment : Comment} :
    s.isGone root comment = true ↔ root = .comment comment.id ∨ root = .user comment.authorId ∨
      s.GoesWith root (.post comment.postId) := by
  simp [isGone]

/-- A comment goes with an entry if a removal reaches it from a comment that goes by itself. The
induction is on the chain of references, at each comment of which the removal has arrived. -/
theorem goesWith_comment (hs : s.Sound) {comment : Comment} (hcomment : comment ∈ s.comments) :
    s.GoesWith root (.comment comment.id) ↔
      ∃ replies, Reached (s.isGone root) s.comments comment replies := by
  constructor
  · intro h
    -- The induction needs all entries, since the way to a comment may lead through other ones.
    suffices ∀ e, s.GoesWith root e → ∀ comment ∈ s.comments, e = .comment comment.id →
        ∃ replies, Reached (s.isGone root) s.comments comment replies from
      this _ h comment hcomment rfl
    clear h hcomment comment
    intro e h
    induction h with
    | refl =>
        rintro comment hcomment rfl
        exact ⟨0, .selected hcomment (isGone_iff.2 (.inl rfl))⟩
    | tail hbefore hlast ih =>
        rintro comment hcomment rfl
        generalize hentry : Entry.comment comment.id = e at hlast
        cases hlast with
        | post | session | tagged | tagging => cases hentry
        | @written other hother =>
            have hid := Entry.comment.inj hentry
            obtain rfl := List.inj_on_of_nodup_map hs.comment_ids hcomment hother hid
            exact ⟨0, .selected hcomment (isGone_iff.2 (.inr (.inl (goesWith_user.1 hbefore))))⟩
        | @said other hother =>
            have hid := Entry.comment.inj hentry
            obtain rfl := List.inj_on_of_nodup_map hs.comment_ids hcomment hother hid
            exact ⟨0, .selected hcomment (isGone_iff.2 (.inr (.inr hbefore)))⟩
        | @reply other parentId hother hparent =>
            have hid := Entry.comment.inj hentry
            obtain rfl := List.inj_on_of_nodup_map hs.comment_ids hcomment hother hid
            obtain ⟨parent, hmem, rfl⟩ :=
              Table.has_iff.1 (hs.comment_parent comment hcomment parentId hparent)
            obtain ⟨replies, hreached⟩ := ih parent hmem rfl
            exact hreached.exists_of_parent hs.comment_ids hcomment hparent
  · rintro ⟨replies, hreached⟩
    clear hcomment
    induction hreached with
    | selected hmem hgone =>
        rcases isGone_iff.1 hgone with rfl | rfl | hpost
        · exact .refl
        · exact .single (.written hmem)
        · exact .tail hpost (.said hmem)
    | reply _ hmem hparent _ ih => exact .tail ih (.reply hmem hparent)

/-- What is left of the comments is what the removal does not reach. -/
theorem without_comments_eq (hs : s.Sound) (root : Entry) :
    (s.without root).comments = unreached (s.isGone root) s.comments := by
  refine List.filter_congr fun comment hcomment => ?_
  rw [goesWith_comment hs hcomment]

attribute [ext] Store

theorem filter_eq_self_of_mem {o : Option String} {p : String → Bool}
    (h : ∀ id ∈ o, p id = true) : o.filter p = o := by
  cases o with
  | none => rfl
  | some id => rw [Option.filter_some, if_pos (h id rfl)]

open Classical in
theorem without_posts_eq (hroot : ∀ id, root ≠ .category id) :
    (s.without root).posts = s.posts.filter fun row => ¬ s.GoesWith root (.post row.id) := by
  refine List.map_id'' (fun row => ?_) _
  rw [filter_eq_self_of_mem fun id _ => by simp [goesWith_category, hroot]]

open Classical in
theorem filter_not_eq {α : Type} {rows : List α} {p : α → Prop} {q : α → Bool}
    (h : ∀ row ∈ rows, p row ↔ q row = false) :
    (rows.filter fun row => ¬ p row) = rows.filter q := by
  refine List.filter_congr fun row hrow => ?_
  rw [Bool.eq_iff_iff, decide_eq_true_iff, h row hrow, Bool.not_eq_false]

theorem without_comment (hs : s.Sound) (id : String) :
    s.without (.comment id) = { s with comments := unreached (·.id == id) s.comments } := by
  have hgone : s.isGone (.comment id) = fun comment => comment.id == id := by
    funext comment
    rw [Bool.eq_iff_iff, isGone_iff, beq_iff_eq, eq_comm (a := comment.id)]
    simp [goesWith_post]
  apply Store.ext
  case comments => rw [without_comments_eq hs, hgone]
  case posts => simp [without_posts_eq, goesWith_post]
  case links =>
    refine List.filter_eq_self.2 fun link hlink => ?_
    simp [goesWith_link hlink, goesWith_post]
  all_goals simp [without, goesWith_user, goesWith_session, goesWith_category, goesWith_tag]

theorem goesWith_of_post {other : String} :
    s.GoesWith (.post id) (.post other) ↔ other = id := by
  rw [goesWith_post, eq_comm (a := other)]
  simp

theorem mem_selectedIds_id (hhas : s.posts.has id = true) {other : String} :
    other ∈ s.selectedIds (·.id == id) ↔ other = id := by
  rw [mem_selectedIds]
  constructor
  · rintro ⟨row, -, hrow, rfl⟩
    exact beq_iff_eq.1 hrow
  · rintro rfl
    obtain ⟨row, hrow, hid⟩ := Table.has_iff.1 hhas
    exact ⟨row, hrow, beq_iff_eq.2 hid, hid⟩

theorem selectedIds_id (hs : s.Sound) (hhas : s.posts.has id = true) :
    s.selectedIds (·.id == id) = [id] := by
  have hnodup : (s.selectedIds (·.id == id)).Nodup :=
    hs.post_ids.sublist (List.filter_sublist.map _)
  refine List.perm_singleton.1 ?_
  rw [List.perm_ext_iff_of_nodup hnodup (List.nodup_singleton id)]
  intro other
  rw [mem_selectedIds_id hhas, List.mem_singleton]

theorem isOnSelected_id (hhas : s.posts.has id = true) :
    s.isOnSelected (·.id == id) = fun comment => comment.postId == id := by
  funext comment
  rw [Bool.eq_iff_iff, isOnSelected, List.contains_iff_mem, mem_selectedIds_id hhas, beq_iff_eq]

theorem without_post (hs : s.Sound) (hhas : s.posts.has id = true) :
    s.without (.post id) = s.withoutPosts (·.id == id) := by
  have hgone : s.isGone (.post id) = s.isOnSelected (·.id == id) := by
    rw [isOnSelected_id hhas]
    funext comment
    rw [Bool.eq_iff_iff, isGone_iff, goesWith_of_post]
    simp
  apply Store.ext
  case comments => rw [without_comments_eq hs, hgone, withoutPosts]
  case posts =>
    rw [without_posts_eq (by simp)]
    exact filter_not_eq fun row _ => by simp [goesWith_of_post]
  case links =>
    refine filter_not_eq fun link hlink => ?_
    simp [goesWith_link hlink, goesWith_of_post, mem_selectedIds_id hhas]
  all_goals simp [without, goesWith_user, goesWith_session, goesWith_category, goesWith_tag,
    withoutPosts]

theorem goesWith_of_user {other : String} :
    s.GoesWith (.user id) (.post other) ↔ other ∈ s.selectedIds (·.authorId == id) := by
  rw [goesWith_post, mem_selectedIds]
  constructor
  · rintro (h | ⟨row, hrow, hid, h⟩)
    · cases h
    · exact ⟨row, hrow, beq_iff_eq.2 (Entry.user.inj h).symm, hid⟩
  · rintro ⟨row, hrow, hauthor, hid⟩
    exact .inr ⟨row, hrow, hid, congrArg _ (beq_iff_eq.1 hauthor).symm⟩

theorem id_mem_selectedIds (hs : s.Sound) {selected : PostRow → Bool} {row : PostRow}
    (hrow : row ∈ s.posts) : row.id ∈ s.selectedIds selected ↔ selected row = true := by
  rw [mem_selectedIds]
  constructor
  · rintro ⟨other, hother, hselected, hid⟩
    exact List.inj_on_of_nodup_map hs.post_ids hother hrow hid ▸ hselected
  · exact fun hselected => ⟨row, hrow, hselected, rfl⟩

theorem without_user (hs : s.Sound) (id : String) :
    s.without (.user id) = s.withoutUser id := by
  have hgone : s.isGone (.user id) =
      fun comment => comment.authorId == id || s.isOnSelected (·.authorId == id) comment := by
    funext comment
    rw [Bool.eq_iff_iff, isGone_iff, goesWith_of_user, Bool.or_eq_true, isOnSelected,
      List.contains_iff_mem, beq_iff_eq, eq_comm (a := comment.authorId)]
    simp
  apply Store.ext
  case users => exact filter_not_eq fun user _ => by simp [goesWith_user, eq_comm (a := id)]
  case sessions =>
    refine filter_not_eq fun session hsession => ?_
    rw [goesWith_session, bne_eq_false_iff_eq]
    constructor
    · rintro (h | ⟨other, hother, htoken, huser⟩)
      · cases h
      · obtain rfl := List.inj_on_of_nodup_map hs.session_tokens hother hsession htoken
        exact (Entry.user.inj huser).symm
    · rintro rfl
      exact .inr ⟨session, hsession, rfl, rfl⟩
  case posts =>
    rw [without_posts_eq (by simp)]
    exact filter_not_eq fun row hrow => by simp [goesWith_of_user, id_mem_selectedIds hs hrow]
  case links =>
    exact filter_not_eq fun link hlink => by
      simp [goesWith_link hlink, goesWith_of_user, withoutAuthor, selectedIds]
  case comments =>
    rw [without_comments_eq hs, hgone, ← unreached_unreached]
    rfl
  all_goals simp [without, goesWith_category, goesWith_tag, withoutUser, withoutPosts,
    withoutAuthor]

open Classical in
theorem without_category (id : String) :
    s.without (.category id) = (s.deleteCategory id).2 := by
  apply Store.ext
  case categories => exact filter_not_eq fun category _ => by simp [goesWith_of_category]
  case posts =>
    have hkept : ∀ categoryId : Option String,
        (categoryId.filter fun other => ¬ s.GoesWith (.category id) (.category other)) =
          if categoryId == some id then none else categoryId := by
      rintro (_ | other)
      · rfl
      · by_cases hother : other = id <;> simp [Option.filter, goesWith_of_category, hother]
    show (s.posts.filter _).map _ = s.posts.map _
    rw [List.filter_eq_self.2 fun row _ => by simp [goesWith_of_category]]
    refine List.map_congr_left fun row _ => ?_
    rw [hkept]
    split <;> rfl
  all_goals simp [without, goesWith_of_category, deleteCategory]

theorem without_tag (id : String) : s.without (.tag id) = (s.deleteTag id).2 := by
  apply Store.ext
  case tags => exact filter_not_eq fun tag _ => by simp [goesWith_of_tag]
  case posts => simp [without_posts_eq, goesWith_of_tag, deleteTag]
  case links => exact filter_not_eq fun link hlink => by simp [goesWith_of_tag, hlink]
  all_goals simp [without, goesWith_of_tag, deleteTag]

def Holds (s : Store) : Entry → Prop
  | .user id => s.users.has id = true
  | .category id => s.categories.has id = true
  | .tag id => s.tags.has id = true
  | .post id => s.posts.has id = true
  | .comment id => s.comments.has id = true
  | .session token => ∃ session ∈ s.sessions, session.token = token
  | .link link => link ∈ s.links

theorem Follows.holds (hs : s.Sound) {a b : Entry} (h : s.Follows a b) : s.Holds a := by
  cases h with
  | post hrow => exact hs.post_author _ hrow
  | session hsession => exact hs.session_user _ hsession
  | tagged hlink => exact hs.link_tag _ hlink
  | tagging hlink => exact hs.link_post _ hlink
  | written hcomment => exact hs.comment_author _ hcomment
  | said hcomment => exact hs.comment_post _ hcomment
  | reply hcomment hparent => exact hs.comment_parent _ hcomment _ hparent

open Classical in
theorem without_of_absent (hs : s.Sound) (habsent : ¬ s.Holds root) : s.without root = s := by
  have hother : ∀ e, s.Holds e → ¬ s.GoesWith root e := by
    intro e he hgoes
    rw [goesWith_of_leaf fun b h => habsent (h.holds hs)] at hgoes
    exact habsent (hgoes ▸ he)
  have hself : ∀ {α : Type} {rows : List α} {entry : α → Entry},
      (∀ row ∈ rows, s.Holds (entry row)) →
        (rows.filter fun row => ¬ s.GoesWith root (entry row)) = rows := by
    intro α rows entry hholds
    refine List.filter_eq_self.2 fun row hrow => ?_
    exact decide_eq_true (hother _ (hholds row hrow))
  apply Store.ext
  case users => exact hself fun user => Table.has_of_mem
  case sessions => exact hself fun session hsession => ⟨session, hsession, rfl⟩
  case categories => exact hself fun category => Table.has_of_mem
  case tags => exact hself fun tag => Table.has_of_mem
  case posts =>
    show (s.posts.filter _).map _ = s.posts
    rw [hself fun row => Table.has_of_mem]
    refine (List.map_congr_left fun row hrow => ?_).trans (List.map_id s.posts)
    rw [filter_eq_self_of_mem fun id hid =>
      decide_eq_true (hother (.category id) (hs.post_category row hrow id hid))]
    rfl
  case links => exact hself fun link => id
  case comments => exact hself fun comment => Table.has_of_mem
  all_goals rfl

/-- Whether a deletion would have to follow too long a chain of references. A comment on a deleted
post stands at the end of one reference already, and so does a comment by a deleted user. The posts
of the user go one after another, after the comments by the user; a comment on one of them stands
at the end of two references, if nothing has taken it along before. -/
def TooDeep (s : Store) : Entry → Prop
  | .comment id => TooLong (·.id == id) 0 s.comments
  | .post id => TooLong (·.postId == id) 1 s.comments
  | .user id => s.TooLongForUser id
  | _ => False

theorem TooLong.exists_selected {selected : Comment → Bool} {start : Nat} {comments : Table Comment}
    (h : TooLong selected start comments) : ∃ comment ∈ comments, selected comment = true := by
  obtain ⟨comment, replies, h, -⟩ := h
  induction h with
  | selected hmem hyes => exact ⟨_, hmem, hyes⟩
  | reply _ _ _ _ ih => exact ih

theorem TooLongByPost.exists_mem {ids : List String} {start : Nat} {comments : Table Comment}
    (h : TooLongByPost ids start comments) : ∃ id, id ∈ ids := by
  obtain ⟨before, id, after, rfl, -⟩ := h
  exact ⟨id, by simp⟩

theorem holds_of_tooDeep (hs : s.Sound) (h : s.TooDeep root) : s.Holds root := by
  cases root with
  | comment id =>
      obtain ⟨comment, hmem, hid⟩ := h.exists_selected
      exact Table.has_iff.2 ⟨comment, hmem, beq_iff_eq.1 hid⟩
  | post id =>
      obtain ⟨comment, hmem, hid⟩ := h.exists_selected
      exact beq_iff_eq.1 hid ▸ hs.comment_post comment hmem
  | user id =>
      rcases h with h | h
      · obtain ⟨comment, hmem, hid⟩ := h.exists_selected
        exact beq_iff_eq.1 hid ▸ hs.comment_author comment hmem
      · obtain ⟨postId, hpost⟩ := h.exists_mem
        obtain ⟨row, hrow, hid, -⟩ := mem_selectedIds.1 hpost
        exact beq_iff_eq.1 hid ▸ hs.post_author row hrow
  | category | tag | session | link => exact h.elim

open Classical in
/-- A deletion is exact if it has the result that it should have wherever its row is there. -/
theorem deleting_eq {α : Type} [Keyed α] (hs : s.Sound) {table : Table α}
    (hholds : s.Holds root ↔ table.has id = true) {remaining : Except StoreError Store}
    (hremaining : table.has id = true →
      remaining = if s.TooDeep root then .error .cascadeTooDeep else .ok (s.without root)) :
    deleting id table s remaining =
      if s.TooDeep root then .error .cascadeTooDeep else .ok (table.has id, s.without root) := by
  unfold deleting
  cases hhas : table.has id with
  | true =>
      rw [if_pos rfl, hremaining hhas]
      split <;> rfl
  | false =>
      have habsent : ¬ s.Holds root := by simp [hholds, hhas]
      rw [if_neg Bool.false_ne_true, if_neg fun h => habsent (holds_of_tooDeep hs h),
        without_of_absent hs habsent]

end Store

/-- What a change deletes, unless it is a contact message. -/
def Change.root? : Change → Option Entry
  | deleteUser id => some (.user id)
  | deleteCategory id => some (.category id)
  | deleteTag id => some (.tag id)
  | deletePost id => some (.post id)
  | deleteComment id => some (.comment id)
  | _ => none

open Classical in
/-- Deletions say whether their row was there and leave everything that does not go with it. Only a
deletion that goes too deep is refused, and it leaves everything. -/
structure Store.DeletesExactly (s : Store) : Prop where
  user : ∀ id, s.deleteUser id =
    if s.TooDeep (.user id) then .error .cascadeTooDeep
    else .ok (s.users.has id, s.without (.user id))
  post : ∀ id, s.deletePost id =
    if s.TooDeep (.post id) then .error .cascadeTooDeep
    else .ok (s.posts.has id, s.without (.post id))
  comment : ∀ id, s.deleteComment id =
    if s.TooDeep (.comment id) then .error .cascadeTooDeep
    else .ok (s.comments.has id, s.without (.comment id))
  category : ∀ id, s.deleteCategory id = (s.categories.has id, s.without (.category id))
  tag : ∀ id, s.deleteTag id = (s.tags.has id, s.without (.tag id))
  category_posts : ∀ id, (s.without (.category id)).posts =
    s.posts.map fun row => if row.categoryId = some id then { row with categoryId := none } else row
  after : ∀ (change : Change) (root : Entry), change.root? = some root →
    change.after s = if s.TooDeep root then s else s.without root

namespace Store
variable {s : Store}

open Classical in
theorem deleteUser_exact (hs : s.Sound) (id : String) :
    s.deleteUser id = if s.TooDeep (.user id) then .error .cascadeTooDeep
      else .ok (s.users.has id, s.without (.user id)) := by
  rw [deleteUser_eq id hs.replies_later hs.comment_ids]
  refine deleting_eq hs Iff.rfl fun _ => ?_
  rw [without_user hs]
  rfl

open Classical in
theorem deletePost_exact (hs : s.Sound) (id : String) :
    s.deletePost id = if s.TooDeep (.post id) then .error .cascadeTooDeep
      else .ok (s.posts.has id, s.without (.post id)) := by
  refine deleting_eq hs Iff.rfl fun hhas => ?_
  rw [removePosts_eq _ 0 hs.replies_later hs.comment_ids, without_post hs hhas,
    selectedIds_id hs hhas]
  simp only [tooLongByPost_singleton]
  rfl

open Classical in
theorem deleteComment_exact (hs : s.Sound) (id : String) :
    s.deleteComment id = if s.TooDeep (.comment id) then .error .cascadeTooDeep
      else .ok (s.comments.has id, s.without (.comment id)) := by
  refine deleting_eq hs Iff.rfl fun _ => ?_
  rw [removeComments_eq 0 hs.replies_later hs.comment_ids, without_comment hs]
  rfl

open Classical in
theorem after_of_root? (hs : s.Sound) {change : Change} {root : Entry}
    (hroot : change.root? = some root) :
    change.after s = if s.TooDeep root then s else s.without root := by
  cases change with
  | deleteUser id =>
      cases hroot
      rw [Change.after, Change.apply, deleteUser_exact hs]
      split <;> rfl
  | deletePost id =>
      cases hroot
      rw [Change.after, Change.apply, deletePost_exact hs]
      split <;> rfl
  | deleteComment id =>
      cases hroot
      rw [Change.after, Change.apply, deleteComment_exact hs]
      split <;> rfl
  | deleteCategory id =>
      cases hroot
      rw [without_category]
      exact (if_neg not_false).symm
  | deleteTag id =>
      cases hroot
      rw [without_tag]
      exact (if_neg not_false).symm
  | _ => cases hroot

theorem deletesExactly (hs : s.Sound) : s.DeletesExactly where
  user := deleteUser_exact hs
  post := deletePost_exact hs
  comment := deleteComment_exact hs
  category id := by
    rw [without_category]
    rfl
  tag id := by
    rw [without_tag]
    rfl
  category_posts id := by
    rw [without_category]
    refine List.map_congr_left fun row _ => ?_
    simp only [beq_iff_eq]
  after _ _ hroot := after_of_root? hs hroot

end Store

/-- Whatever was asked of a database, the next deletion is exact. -/
theorem Call.run_deletesExactly [Libraries] (calls : List Call) :
    (run calls Database.fresh.store).DeletesExactly :=
  Store.deletesExactly (run_keeps_sound calls Database.sound_fresh)

attribute [local instance] Libraries.bare

namespace Sample

def nested (n : Nat) : Comment :=
  comment n.repr (if n = 0 then none else some (n - 1).repr)

theorem nested_id_inj {m n : Nat} (h : (nested m).id = (nested n).id) : m = n := by
  have hvalue := congrArg (fun id => Nat.ofDigitChars 10 id.toList 0) h
  simpa [nested, comment, Nat.toList_repr] using hvalue

def posted : List Call :=
  start ++ [.direct (.savePost post)]

def thread (length : Nat) : List Call :=
  posted ++ (List.range length).map fun n => .direct (.saveComment (nested n))

open Call

theorem run_thread (length : Nat) :
    run (thread length) Database.fresh.store =
      { run posted Database.fresh.store with comments := (List.range length).map nested } := by
  induction length with
  | zero =>
      rw [thread, List.range_zero, List.map_nil, List.append_nil, List.map_nil]
      have hnone : (run posted Database.fresh.store).comments = [] := by decide +kernel
      rw [← hnone]
  | succ n ih =>
      have hsplit : thread (n + 1) = thread n ++ [.direct (.saveComment (nested n))] := by
        simp [thread, List.range_succ]
      rw [hsplit, run_append, ih]
      have hnew : Table.has n.repr ((List.range n).map nested) = false :=
        Store.has_chain_eq_false (fun _ _ => nested_id_inj) n
      have hparent : ∀ id ∈ (nested n).parentId,
          id = n.repr ∨ Table.has id ((List.range n).map nested) = true := by
        intro id hid
        cases n with
        | zero => cases hid
        | succ m =>
            obtain rfl : m.repr = id := Option.some.inj hid
            have hmem : nested m ∈ (List.range (m + 1)).map nested :=
              List.mem_map_of_mem (List.mem_range.2 (Nat.lt_succ_self m))
            exact .inr (Table.has_of_mem hmem)
      have hpost : (run posted Database.fresh.store).posts.has "p1" = true := by decide +kernel
      have hauthor : (run posted Database.fresh.store).users.has "u1" = true := by decide +kernel
      let prior : Store :=
        { run posted Database.fresh.store with comments := (List.range n).map nested }
      have hsave : prior.saveComment (nested n) =
          .ok { prior with comments := prior.comments.put Store.mergeComment (nested n) } :=
        Store.saveComment_ok.2 ⟨.inr ⟨hpost, hauthor, hparent⟩, rfl⟩
      rw [Table.put_of_has_eq_false hnew] at hsave
      rw [run_cons, run_nil, Call.after, Change.after, Change.apply, hsave, List.range_succ,
        List.map_append]
      rfl

theorem reached_nested {length n : Nat} (h : n < length) :
    Store.Reached (·.id == "0") ((List.range length).map nested) (nested n) n :=
  Store.reached_chain (fun _ _ => nested_id_inj) (fun _ => rfl) h

end Sample

/-- The first comment of a thread of 1001 replies is there, but it cannot be deleted. -/
theorem Call.long_thread_not_deleted :
    (run (Sample.thread 1001) Database.fresh.store).comments.has "0" = true ∧
      (run (Sample.thread 1001) Database.fresh.store).deleteComment "0" =
        .error .cascadeTooDeep := by
  have hcomments : (run (Sample.thread 1001) Database.fresh.store).comments =
      (List.range 1001).map Sample.nested := by rw [Sample.run_thread]
  have hdeep : (run (Sample.thread 1001) Database.fresh.store).TooDeep (.comment "0") := by
    show Store.TooLong _ 0 _
    rw [hcomments]
    exact ⟨Sample.nested 1000, 1000, Sample.reached_nested (by decide), by decide⟩
  have hexact := Store.deletesExactly
    (run_keeps_sound (Sample.thread 1001) Database.sound_fresh)
  refine ⟨?_, (hexact.comment "0").trans (if_pos hdeep)⟩
  have hfirst : Sample.nested 0 ∈ (List.range 1001).map Sample.nested :=
    List.mem_map_of_mem (List.mem_range.2 (by decide))
  rw [hcomments]
  exact Table.has_iff.2 ⟨_, hfirst, rfl⟩

end Gazette
