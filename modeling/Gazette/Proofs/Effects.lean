import Gazette.Api.Action
import Gazette.Proofs.Cascade

/-!
# Effects

What a caller who is no admin may bring about. Each effect names the rows that it adds, changes or
removes and leaves every other row of every table as it is. So no effect makes a stored user an
admin, and none approves a stored comment.
-/
namespace Gazette

def Counter.HasRoom : Counter → Prop
  | exact n => n < greatest
  | inexact => False

instance (counter : Counter) : Decidable counter.HasRoom :=
  match counter with
  | .exact n => inferInstanceAs (Decidable (n < Counter.greatest))
  | .inexact => inferInstanceAs (Decidable False)

theorem Counter.HasRoom.next {counter : Counter} (h : counter.HasRoom) :
    ∃ n, counter = .exact n ∧ counter.next = .exact (n + 1) := by
  cases counter with
  | exact n => exact ⟨n, rfl, if_pos h⟩
  | inexact => exact h.elim

namespace Store
variable {s t : Store} {id : String} {caller : Option Api.Caller}

/-- What anyone may bring about: that the view of an active post is counted, that somebody who is
no admin joins, with a session or without, and that a message arrives. -/
inductive OpenEffect (s : Store) : Store → Prop
  | unchanged : s.OpenEffect s
  | viewed {row : PostRow} {n : Int} : row ∈ s.posts → row.isActive = true →
      row.viewCount = .exact n →
        s.OpenEffect { s with
          posts := s.posts.update row.id fun row => { row with viewCount := .exact (n + 1) } }
  | registered {user : User} {sessions : List Session} : s.users.has user.id = false →
      user.isAdmin = false → sessions.length ≤ 1 →
        (∀ session ∈ sessions, session.userId = user.id) →
          s.OpenEffect { s with
            users := s.users ++ [user]
            sessions := s.sessions ++ sessions }
  | messaged {message : ContactMessage} : s.messages.has message.id = false →
      message.isRead = false → s.OpenEffect { s with messages := s.messages ++ [message] }

/-- What a user with some id may bring about besides. A post and its tags are replaced as a whole,
but for what a save never writes again; a comment keeps everything but its content. -/
inductive OwnEffect (id : String) (s : Store) : Store → Prop
  | viewed {row : PostRow} {n : Int} : row ∈ s.posts → row.authorId = id →
      row.viewCount = .exact n →
        OwnEffect id s { s with
          posts := s.posts.update row.id fun row => { row with viewCount := .exact (n + 1) } }
  | liked {row : PostRow} {n : Int} : row ∈ s.posts → row.likes = .exact n →
      OwnEffect id s { s with
        posts := s.posts.update row.id fun row => { row with likes := .exact (n + 1) } }
  | profile (email bio : String) (now : Timestamp) :
      OwnEffect id s { s with
        users := s.users.update id fun user =>
          { user with email := email, bio := bio, updatedAt := now } }
  | tagged {tag : Tag} : s.tags.has tag.id = false →
      OwnEffect id s { s with tags := s.tags ++ [tag] }
  | posted {row : PostRow} {links : List TagLink} : s.posts.has row.id = false →
      row.authorId = id → (∀ link ∈ links, link.postId = row.id) →
        OwnEffect id s { s with posts := s.posts ++ [row], links := s.links ++ links }
  | edited {row new : PostRow} {links : List TagLink} : row ∈ s.posts → row.authorId = id →
      new.id = row.id → (∀ link ∈ links, link.postId = row.id) →
        OwnEffect id s { s with
          posts := s.posts.update row.id (PostRow.merge · new)
          links := s.links.filter (·.postId != row.id) ++ links }
  | withdrawn {row : PostRow} : row ∈ s.posts → row.authorId = id →
      OwnEffect id s (s.without (.post row.id))
  | commented {comment : Comment} : s.comments.has comment.id = false →
      comment.authorId = id → comment.isApproved = false →
        OwnEffect id s { s with comments := s.comments ++ [comment] }
  | rephrased {comment : Comment} (content : String) (now : Timestamp) : comment ∈ s.comments →
      comment.authorId = id →
        OwnEffect id s { s with
          comments := s.comments.update comment.id fun comment =>
            { comment with content := content, updatedAt := now } }
  | retracted {comment : Comment} : comment ∈ s.comments → comment.authorId = id →
      OwnEffect id s (s.without (.comment comment.id))

/-- What somebody may bring about who is known, if at all, as a user and not as an admin. -/
def Effect (caller : Option Api.Caller) (s t : Store) : Prop :=
  s.OpenEffect t ∨ ∃ c, caller = some c ∧ OwnEffect c.id s t

theorem OpenEffect.effect (h : s.OpenEffect t) : s.Effect caller t :=
  .inl h

theorem OwnEffect.effect {c : Api.Caller} (h : OwnEffect c.id s t) : s.Effect (some c) t :=
  .inr ⟨c, rfl, h⟩

theorem effect_refl (caller : Option Api.Caller) (s : Store) : s.Effect caller s :=
  .inl .unchanged

theorem OpenEffect.registered_alone {user : User} (hfresh : s.users.has user.id = false)
    (hadmin : user.isAdmin = false) : s.OpenEffect { s with users := s.users ++ [user] } := by
  have h : s.OpenEffect { s with users := s.users ++ [user], sessions := s.sessions ++ [] } :=
    .registered hfresh hadmin (Nat.zero_le 1) (by simp)
  rwa [List.append_nil] at h

theorem Effect.open_of_none (h : s.Effect none t) : s.OpenEffect t := by
  rcases h with h | ⟨c, hc, -⟩
  · exact h
  · cases hc

end Store

namespace Table
variable {α β : Type} [Keyed α] {before : Table α} {column : α → β}

/-- Whether a row that is there before and after has the same value in a column. -/
def Agree (column : α → β) (before after : Table α) : Prop :=
  ∀ old ∈ before, ∀ new ∈ after, Keyed.key new = Keyed.key old → column new = column old

theorem agree_of_subset {after : Table α} (unique : (before.map Keyed.key).Nodup)
    (h : ∀ row ∈ after, row ∈ before) : before.Agree column after := by
  intro old hold new hnew hkey
  rw [List.inj_on_of_nodup_map unique (h new hnew) hold hkey]

theorem agree_append (unique : (before.map Keyed.key).Nodup) {row : α}
    (h : before.has (Keyed.key row) = false) : before.Agree column (before ++ [row]) := by
  intro old hold new hnew hkey
  rcases List.mem_append.1 hnew with hnew | hnew
  · rw [List.inj_on_of_nodup_map unique hnew hold hkey]
  · obtain rfl := List.mem_singleton.1 hnew
    exact absurd hkey.symm (has_eq_false_iff.1 h old hold)

theorem agree_update (unique : (before.map Keyed.key).Nodup) {key : String} {f : α → α}
    (hkey : ∀ row, Keyed.key (f row) = Keyed.key row)
    (hcolumn : ∀ row, column (f row) = column row) :
    before.Agree column (before.update key f) := by
  intro old hold new hnew hsame
  obtain ⟨row, hrow, rfl⟩ := List.mem_map.1 hnew
  by_cases hchanged : Keyed.key row == key
  · rw [if_pos hchanged, hkey] at hsame
    rw [if_pos hchanged, hcolumn, List.inj_on_of_nodup_map unique hrow hold hsame]
  · rw [if_neg hchanged] at hsame
    rw [if_neg hchanged, List.inj_on_of_nodup_map unique hrow hold hsame]

end Table

namespace Store
variable {s t : Store} {caller : Option Api.Caller}

/-- Whether no stored user has become an admin or ceased to be one, and whether no stored comment
has been approved or disapproved. -/
structure KeepsRights (s t : Store) : Prop where
  admins : s.users.Agree User.isAdmin t.users
  approvals : s.comments.Agree Comment.isApproved t.comments

theorem Sound.keepsRights (hs : s.Sound) (husers : ∀ user ∈ t.users, user ∈ s.users)
    (hcomments : ∀ comment ∈ t.comments, comment ∈ s.comments) : s.KeepsRights t where
  admins := Table.agree_of_subset hs.user_ids husers
  approvals := Table.agree_of_subset hs.comment_ids hcomments

theorem Sound.keepsRights_without (hs : s.Sound) (root : Entry) :
    s.KeepsRights (s.without root) :=
  hs.keepsRights (fun _ h => List.mem_of_mem_filter h) fun _ h => List.mem_of_mem_filter h

theorem OpenEffect.keepsRights (hs : s.Sound) (h : s.OpenEffect t) : s.KeepsRights t := by
  have hsame := hs.keepsRights (t := s) (fun _ h => h) fun _ h => h
  cases h with
  | unchanged => exact hsame
  | viewed => exact { hsame with }
  | registered hfresh => exact { hsame with admins := Table.agree_append hs.user_ids hfresh }
  | messaged => exact { hsame with }

theorem OwnEffect.keepsRights {id : String} (hs : s.Sound) (h : OwnEffect id s t) :
    s.KeepsRights t := by
  have hsame := hs.keepsRights (t := s) (fun _ h => h) fun _ h => h
  cases h with
  | profile =>
      exact { hsame with
        admins := Table.agree_update hs.user_ids (fun _ => rfl) fun _ => rfl }
  | commented hfresh =>
      exact { hsame with approvals := Table.agree_append hs.comment_ids hfresh }
  | rephrased =>
      exact { hsame with
        approvals := Table.agree_update hs.comment_ids (fun _ => rfl) fun _ => rfl }
  | withdrawn | retracted => exact hs.keepsRights_without _
  | viewed | liked | tagged | posted | edited => exact { hsame with }

theorem Effect.keepsRights (hs : s.Sound) (h : s.Effect caller t) : s.KeepsRights t := by
  rcases h with h | ⟨c, -, h⟩
  · exact h.keepsRights hs
  · exact h.keepsRights hs

end Store
end Gazette
