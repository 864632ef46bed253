import Gazette.Proofs.Threads

/-!
# Deleting

What a deletion leaves of each table, and when it is refused. A deletion keeps exactly what it
does not reach.
-/
namespace Gazette.Store
variable {s t : Store}

open Classical in
theorem removeComments_eq {selected : Comment → Bool} (start : Nat)
    (hlater : RepliesLater s.comments) (hids : (s.comments.map Comment.id).Nodup) :
    s.removeComments selected start =
      if TooLong selected start s.comments then .error .cascadeTooDeep
      else .ok { s with comments := unreached selected s.comments } := by
  unfold removeComments
  rw [withoutThreads_eq hlater hids]
  by_cases hlong : TooLong selected start s.comments
  · rw [if_pos hlong, if_pos hlong]
  · rw [if_neg hlong, if_neg hlong]

theorem removeComments_ok {selected : Comment → Bool} {start : Nat}
    (hlater : RepliesLater s.comments) (hids : (s.comments.map Comment.id).Nodup)
    (h : s.removeComments selected start = .ok t) :
    t = { s with comments := unreached selected s.comments } := by
  rw [removeComments_eq start hlater hids] at h
  split at h
  · cases h
  · exact (Except.ok.inj h).symm

def selectedIds (selected : PostRow → Bool) (s : Store) : List String :=
  (s.posts.filter selected).map (·.id)

theorem mem_selectedIds {selected : PostRow → Bool} {id : String} :
    id ∈ s.selectedIds selected ↔ ∃ row ∈ s.posts, selected row = true ∧ row.id = id := by
  simp [selectedIds, and_assoc]

def isOnSelected (selected : PostRow → Bool) (s : Store) (comment : Comment) : Bool :=
  (s.selectedIds selected).contains comment.postId

noncomputable def withoutPosts (selected : PostRow → Bool) (s : Store) : Store :=
  { s with
    posts := s.posts.filter fun row => !selected row
    links := s.links.filter fun link => !(s.selectedIds selected).contains link.postId
    comments := unreached (s.isOnSelected selected) s.comments }

/-- Whether a removal of the comments on posts, post by post, would have to follow too long a chain
of references. What went with the posts before is gone when the turn of a post comes. -/
def TooLongByPost (ids : List String) (start : Nat) (comments : Table Comment) : Prop :=
  ∃ before id after, ids = before ++ id :: after ∧
    TooLong (·.postId == id) start
      (unreached (fun comment => before.contains comment.postId) comments)

theorem tooLongByPost_nil {start : Nat} {comments : Table Comment} :
    ¬ TooLongByPost [] start comments := by
  rintro ⟨before, id, after, h, -⟩
  simp at h

theorem tooLongByPost_cons {id : String} {ids : List String} {start : Nat}
    {comments : Table Comment} :
    TooLongByPost (id :: ids) start comments ↔
      TooLong (·.postId == id) start comments ∨
        TooLongByPost ids start (unreached (·.postId == id) comments) := by
  have hafter : ∀ before : List String,
      unreached (fun comment => (id :: before).contains comment.postId) comments =
        unreached (fun comment => before.contains comment.postId)
          (unreached (·.postId == id) comments) := by
    intro before
    rw [unreached_unreached]
    rfl
  constructor
  · rintro ⟨before, other, after, h, hlong⟩
    cases before with
    | nil =>
        cases h
        exact .inl (unreached_of_nothing comments ▸ hlong)
    | cons first before =>
        cases h
        exact .inr ⟨before, other, after, rfl, hafter before ▸ hlong⟩
  · rintro (hlong | ⟨before, other, after, rfl, hlong⟩)
    · exact ⟨[], id, ids, rfl, (unreached_of_nothing comments).symm ▸ hlong⟩
    · exact ⟨id :: before, other, after, rfl, (hafter before).symm ▸ hlong⟩

theorem tooLongByPost_singleton {id : String} {start : Nat} {comments : Table Comment} :
    TooLongByPost [id] start comments ↔ TooLong (·.postId == id) start comments := by
  rw [tooLongByPost_cons]
  exact or_iff_left tooLongByPost_nil

open Classical in
theorem removeCommentsOn_eq (ids : List String) (start : Nat) (hlater : RepliesLater s.comments)
    (hids : (s.comments.map Comment.id).Nodup) :
    s.removeCommentsOn ids start =
      if TooLongByPost ids start s.comments then .error .cascadeTooDeep
      else .ok { s with
        comments := unreached (fun comment => ids.contains comment.postId) s.comments } := by
  induction ids generalizing s with
  | nil =>
      rw [if_neg tooLongByPost_nil]
      exact congrArg (fun comments => Except.ok { s with comments := comments })
        (unreached_of_nothing s.comments).symm
  | cons id ids ih =>
      rw [removeCommentsOn, List.foldlM_cons, removeComments_eq start hlater hids]
      by_cases hlong : TooLong (·.postId == id) start s.comments
      · rw [if_pos hlong, if_pos (tooLongByPost_cons.2 (.inl hlong))]
        rfl
      · rw [if_neg hlong]
        show removeCommentsOn ids start
          { s with comments := unreached (·.postId == id) s.comments } = _
        rw [ih (repliesLater_unreached hlater) (nodup_unreached hids)]
        simp only [tooLongByPost_cons, hlong, false_or, unreached_unreached]
        rfl

open Classical in
theorem removePosts_eq (selected : PostRow → Bool) (start : Nat)
    (hlater : RepliesLater s.comments) (hids : (s.comments.map Comment.id).Nodup) :
    s.removePosts selected start =
      if TooLongByPost (s.selectedIds selected) (start + 1) s.comments then .error .cascadeTooDeep
      else .ok (s.withoutPosts selected) :=
  removeCommentsOn_eq (s := { s with
    posts := s.posts.filter fun row => !selected row
    links := s.links.filter fun link => !(s.selectedIds selected).contains link.postId })
    (s.selectedIds selected) (start + 1) hlater hids

theorem removePosts_ok {selected : PostRow → Bool} {start : Nat} (hlater : RepliesLater s.comments)
    (hids : (s.comments.map Comment.id).Nodup) (h : s.removePosts selected start = .ok t) :
    t = s.withoutPosts selected := by
  rw [removePosts_eq selected start hlater hids] at h
  split at h
  · cases h
  · exact (Except.ok.inj h).symm

/-- A deletion that is not refused finds no row, or leaves what remains without it. -/
theorem deleting_ok {α : Type} [Keyed α] {id : String} {table : Table α}
    {remaining : Except StoreError Store} {found : Bool}
    (h : deleting id table s remaining = .ok (found, t)) :
    found = table.has id ∧ (table.has id = false ∧ t = s ∨ remaining = .ok t) := by
  unfold deleting at h
  split at h
  · rename_i hhas
    cases remaining with
    | error e => cases h
    | ok u =>
        cases h
        exact ⟨hhas.symm, .inr rfl⟩
  · rename_i hhas
    cases h
    rw [Bool.not_eq_true] at hhas
    exact ⟨hhas.symm, .inl ⟨hhas, rfl⟩⟩

/-- An update of a store leaves posts, their tag links and comments alone, and goes by nothing that
is stored of them. -/
structure Aside (f : Store → Store) : Prop where
  posts : ∀ s, (f s).posts = s.posts
  links : ∀ s, (f s).links = s.links
  comments : ∀ s, (f s).comments = s.comments
  withPosts : ∀ (s : Store) posts links,
    f { s with posts := posts, links := links } = { f s with posts := posts, links := links }
  withComments : ∀ (s : Store) comments,
    f { s with comments := comments } = { f s with comments := comments }

section Aside
variable {f : Store → Store}

theorem Aside.removeComments (hf : Aside f) (selected : Comment → Bool) (start : Nat) (s : Store) :
    (f s).removeComments selected start = (s.removeComments selected start).map f := by
  unfold Store.removeComments
  rw [hf.comments]
  cases withoutThreads selected start [] s.comments with
  | none => rfl
  | some comments => exact congrArg Except.ok (hf.withComments s comments).symm

theorem Aside.removeCommentsOn (hf : Aside f) (ids : List String) (start : Nat) (s : Store) :
    (f s).removeCommentsOn ids start = (s.removeCommentsOn ids start).map f := by
  induction ids generalizing s with
  | nil => rfl
  | cons id ids ih =>
      unfold Store.removeCommentsOn at ih ⊢
      rw [List.foldlM_cons, List.foldlM_cons, hf.removeComments]
      cases s.removeComments (·.postId == id) start with
      | error e => rfl
      | ok t => exact ih t

theorem Aside.removePosts (hf : Aside f) (selected : PostRow → Bool) (start : Nat) (s : Store) :
    (f s).removePosts selected start = (s.removePosts selected start).map f := by
  unfold Store.removePosts
  rw [← hf.removeCommentsOn, hf.posts, hf.links]
  exact congrArg (Store.removeCommentsOn _ (start + 1)) (hf.withPosts s _ _).symm

theorem Aside.deletePost (hf : Aside f) (id : String) (s : Store) :
    (f s).deletePost id = (s.deletePost id).map fun result => (result.1, f result.2) := by
  unfold Store.deletePost deleting
  rw [hf.posts, hf.removePosts]
  split
  · cases s.removePosts (·.id == id) 0 <;> rfl
  · rfl

theorem Aside.deleteComment (hf : Aside f) (id : String) (s : Store) :
    (f s).deleteComment id = (s.deleteComment id).map fun result => (result.1, f result.2) := by
  unfold Store.deleteComment deleting
  rw [hf.comments, hf.removeComments]
  split
  · cases s.removeComments (·.id == id) 0 <;> rfl
  · rfl

end Aside

/-- What is left without a user, but for what hangs on the user's posts: the comments by the user
are the first to go. -/
noncomputable def withoutAuthor (id : String) (s : Store) : Store :=
  { s with
    users := s.users.remove id
    comments := unreached (·.authorId == id) s.comments }

/-- What is left without a user. After the comments by the user the posts by the user go, and last
the sessions. -/
noncomputable def withoutUser (id : String) (s : Store) : Store :=
  { (s.withoutAuthor id).withoutPosts (·.authorId == id) with
    sessions := s.sessions.filter (·.userId != id) }

/-- Whether a user hangs together with too long a chain of references: from a comment by the user,
or else from a comment on a post by the user, when its turn comes. -/
def TooLongForUser (id : String) (s : Store) : Prop :=
  TooLong (·.authorId == id) 1 s.comments ∨
    TooLongByPost (s.selectedIds (·.authorId == id)) 2 (unreached (·.authorId == id) s.comments)

open Classical in
theorem deleteUser_eq (id : String) (hlater : RepliesLater s.comments)
    (hids : (s.comments.map Comment.id).Nodup) :
    s.deleteUser id =
      deleting id s.users s
        (if s.TooLongForUser id then .error .cascadeTooDeep else .ok (s.withoutUser id)) := by
  unfold deleteUser
  congr 1
  rw [removeComments_eq (s := { s with users := s.users.remove id }) 1 hlater hids]
  by_cases hfirst : TooLong (·.authorId == id) 1 s.comments
  · have hlong : s.TooLongForUser id := .inl hfirst
    rw [if_pos hfirst, if_pos hlong]
    rfl
  · have hposts := removePosts_eq (s := s.withoutAuthor id) (·.authorId == id) 1
      (repliesLater_unreached hlater) (nodup_unreached hids)
    rw [if_neg hfirst]
    show ((s.withoutAuthor id).removePosts (·.authorId == id) 1 >>= fun s => _) = _
    rw [hposts]
    by_cases hsecond : TooLongByPost ((s.withoutAuthor id).selectedIds (·.authorId == id)) (1 + 1)
        (s.withoutAuthor id).comments
    · have hlong : s.TooLongForUser id := .inr hsecond
      rw [if_pos hsecond, if_pos hlong]
      rfl
    · have hshort : ¬ s.TooLongForUser id := not_or.2 ⟨hfirst, hsecond⟩
      rw [if_neg hsecond, if_neg hshort]
      rfl

theorem deleteUser_ok {id : String} {found : Bool} (hlater : RepliesLater s.comments)
    (hids : (s.comments.map Comment.id).Nodup) (h : s.deleteUser id = .ok (found, t)) :
    found = s.users.has id ∧ (s.users.has id = false ∧ t = s ∨ t = s.withoutUser id) := by
  rw [deleteUser_eq id hlater hids] at h
  obtain ⟨hfound, h⟩ := deleting_ok h
  refine ⟨hfound, h.imp_right fun h => ?_⟩
  split at h
  · cases h
  · exact (Except.ok.inj h).symm

end Gazette.Store
