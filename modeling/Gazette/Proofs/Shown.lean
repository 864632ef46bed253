import Gazette.Proofs.Counters
import Gazette.Proofs.Moderation
import Gazette.Proofs.Readback

/-!
# What is shown

A request that writes something is answered with the thing that it leaves, and whoever then reads
the thing is answered with what is stored of it. Here is said when the two agree, and when nothing
but that thing is written.
-/
namespace Gazette
open StoreProcedure Http

/-- What can be written and read as one: a thing with an id, or the settings. -/
inductive Item
  | user (id : String)
  | category (id : String)
  | tag (id : String)
  | post (id : String)
  | comment (id : String)
  | message (id : String)
  | settings
deriving DecidableEq, Repr

namespace Store
variable {s t u : Store} {item : Item}

/-- Whether nothing but one item is written between two stores. The links to its tags are part of a
post, and the sessions that begin are part of a user. -/
structure KeepsOthers (item : Item) (s t : Store) : Prop where
  users : ∀ id, item ≠ .user id → t.users.row? id = s.users.row? id
  categories : ∀ id, item ≠ .category id → t.categories.row? id = s.categories.row? id
  tags : ∀ id, item ≠ .tag id → t.tags.row? id = s.tags.row? id
  posts : ∀ id, item ≠ .post id → t.posts.row? id = s.posts.row? id
  links : ∀ link, item ≠ .post link.postId → (link ∈ t.links ↔ link ∈ s.links)
  comments : ∀ id, item ≠ .comment id → t.comments.row? id = s.comments.row? id
  messages : ∀ id, item ≠ .message id → t.messages.row? id = s.messages.row? id
  settings : item ≠ .settings → t.settings = s.settings
  sessions : ∃ begun, t.sessions = s.sessions ++ begun ∧
    ∀ session ∈ begun, item = .user session.userId

theorem KeepsOthers.trans (hst : s.KeepsOthers item t) (htu : t.KeepsOthers item u) :
    s.KeepsOthers item u where
  users id hne := (htu.users id hne).trans (hst.users id hne)
  categories id hne := (htu.categories id hne).trans (hst.categories id hne)
  tags id hne := (htu.tags id hne).trans (hst.tags id hne)
  posts id hne := (htu.posts id hne).trans (hst.posts id hne)
  links link hne := (htu.links link hne).trans (hst.links link hne)
  comments id hne := (htu.comments id hne).trans (hst.comments id hne)
  messages id hne := (htu.messages id hne).trans (hst.messages id hne)
  settings hne := (htu.settings hne).trans (hst.settings hne)
  sessions := by
    obtain ⟨begun, hbegun, hown⟩ := hst.sessions
    obtain ⟨later, hlater, howned⟩ := htu.sessions
    refine ⟨begun ++ later, by rw [hlater, hbegun, List.append_assoc], ?_⟩
    exact fun session hsession => (List.mem_append.1 hsession).elim (hown _) (howned _)

end Store

namespace Change
variable {s t : Store} {change : Change} {item : Item}

end Change

inductive Shown
  | user (user : User)
  | category (category : Category)
  | tag (tag : Tag)
  | post (view : PostView)
  | comment (comment : Comment)
  | message (message : ContactMessage)
  | settings (settings : SiteSettings)

namespace Shown

def item : Shown → Item
  | .user u => .user u.id
  | .category c => .category c.id
  | .tag g => .tag g.id
  | .post view => .post view.post.id
  | .comment c => .comment c.id
  | .message m => .message m.id
  | .settings _ => .settings

def toJson : Shown → Json
  | .user u => u.toJson
  | .category c => c.toJson
  | .tag g => g.toJson
  | .post view => view.toJson
  | .comment c => c.toJson
  | .message m => m.toJson
  | .settings x => x.toJson

/-- Whether what is shown is what is stored. -/
def AgreesWith (shown : Shown) (s : Store) : Prop :=
  match shown with
  | .user u => s.users.row? u.id = some u
  | .category c => s.categories.row? c.id = some c
  | .tag g => s.tags.row? g.id = some g
  | .post view => ∃ row, s.posts.row? view.post.id = some row ∧ s.Shows row view
  | .comment c => s.comments.row? c.id = some c
  | .message m => s.messages.row? m.id = some m
  | .settings x => s.loadSettings = x

/-- Whether what is shown is all that was written between two stores, and is what is stored now. -/
structure Tells (shown : Shown) (s t : Store) : Prop where
  others : s.KeepsOthers shown.item t
  stored : shown.AgreesWith t

end Shown

namespace Editor
variable {s t : Store} {now : Timestamp}

end Editor

namespace Api
open Api.Action Exchange
variable {s : Store} {shown : Shown} {x : Exchange} {op : Operation}

end Api
end Gazette
