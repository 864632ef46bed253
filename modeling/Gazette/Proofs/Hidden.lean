import Gazette.Proofs.Discretion
import Gazette.Proofs.Listing

/-!
# What is hidden

An inactive post is shown to admins and to its author only, and so is a comment that is not
approved. To everyone else a store looks as if it held another post in its place, or as if the
comment were not there. So no response tells anything about them.
-/
namespace Gazette

namespace Store
variable {s t : Store} {reader : Option Api.Caller} {id : String}

/-- A post is stored, but a reader may not see it. -/
structure Hides (reader : Option Api.Caller) (p : Post) (s : Store) : Prop where
  row : s.posts.row? p.id = some (PostRow.ofPost p)
  inactive : p.isActive = false
  unseen : Api.maySeeHidden reader p.authorId = false

variable {p : Post} {joined : JoinedPost}

theorem Hides.eq (h : s.Hides reader p) (hs : s.Sound) {row : PostRow} (hrow : row ∈ s.posts)
    (hid : row.id = p.id) : row = PostRow.ofPost p := by
  have hfound : s.posts.row? p.id = some row :=
    (Table.row?_eq_some_iff hs.post_ids).2 ⟨hrow, hid⟩
  exact Option.some.inj (hfound.symm.trans h.row)

theorem Hides.viewOf_eq (h : s.Hides reader p) (hrow : joined.row = PostRow.ofPost p) :
    (s.viewOf joined).map (fun view => (some view).filter fun view =>
      view.post.isActive || Api.maySeeHidden reader view.post.authorId) = .ok none := by
  obtain ⟨post, hpost⟩ : ∃ post, s.postOf joined.row = .ok post := by
    rw [exists_postOf, hrow]
    exact ⟨Counter.noConfusion, Counter.noConfusion⟩
  obtain ⟨view, hview, rfl⟩ := viewOf_ok joined hpost
  have hseen : (view.post.isActive || Api.maySeeHidden reader view.post.authorId) = false := by
    rw [(postOf_ok.1 hpost).2.2, hrow]
    show (p.isActive || Api.maySeeHidden reader p.authorId) = false
    rw [h.inactive, h.unseen]
    rfl
  rw [hview]
  refine congrArg Except.ok (Option.filter_some.trans (if_neg ?_))
  exact Bool.eq_false_iff.1 hseen

end Store

attribute [local instance] Libraries.bare

namespace Sample

def withdrawn (title slug : String) : Post :=
  { post with title := title, slug := slug, isActive := false }

def pending : Comment :=
  { comment "k1" none with isApproved := false }

end Sample

end Gazette
