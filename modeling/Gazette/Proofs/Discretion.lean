import Gazette.Proofs.Access

/-!
# Discretion

Two stores look alike to a reader if whatever the reader may see is the same in them. Whoever only
reads gets the same response from both, and leaves nothing behind but a view of a post.
-/
namespace Gazette
open StoreProcedure

/-- Whether an operation only looks at what is stored. To read a post counts a view, though. -/
def Api.Operation.Reads : Api.Operation → Prop
  | .showHome | .listPosts | .listFeatured | .readPost _ | .listCategories | .readCategory _
  | .listCategoryPosts _ | .listTags | .readTag _ | .listComments | .readComment _ | .listMessages
  | .readMessage _ | .readSettings | .listUsers | .readSelf | .readUser _ => True
  | _ => False

namespace Store
variable {s t : Store} {reader : Option Api.Caller}

def seenView? (reader : Option Api.Caller) (slug : String) (s : Store) :
    Except StoreError (Option PostView) :=
  (s.findView? slug).map fun found => found.filter fun view =>
    view.post.isActive || Api.maySeeHidden reader view.post.authorId

def seenComment? (reader : Option Api.Caller) (id : String) (s : Store) : Option Comment :=
  (s.comments.row? id).filter fun comment =>
    comment.isApproved || Api.maySeeHidden reader comment.authorId

/-- Two stores look alike to a reader, whatever the reader looks up. -/
structure LooksLike (reader : Option Api.Caller) (s t : Store) : Prop where
  users : s.users = t.users
  sessions : s.sessions = t.sessions
  categories : s.categories = t.categories
  tags : s.tags = t.tags
  messages : s.messages = t.messages
  settings : s.settings = t.settings
  posts : ∀ filter, s.listPosts filter = t.listPosts filter
  view : ∀ slug, s.seenView? reader slug = t.seenView? reader slug
  comments : ∀ postId,
    s.listComments postId (Api.isAdmin reader) = t.listComments postId (Api.isAdmin reader)
  comment : ∀ id, s.seenComment? reader id = t.seenComment? reader id

end Store

namespace Api
open Api.Action Exchange
variable {α β : Type} {s t : Store} {reader : Option Caller} {x : Exchange} {op : Operation}

/-- What an action comes to does not tell two stores apart, and it changes neither. -/
def Action.Blind (s t : Store) (p : Action α) : Prop :=
  ∃ r, p.outcome s = (r, s) ∧ p.outcome t = (r, t)

theorem Action.Blind.bind {p : Action α} {f : α → Action β} (hp : p.Blind s t)
    (hf : ∀ a, p.outcome s = (.ok a, s) → (f a).Blind s t) : Blind s t (p >>= f) := by
  obtain ⟨r, hs, ht⟩ := hp
  cases r with
  | error e => exact ⟨.error e, by rw [outcome_bind, hs], by rw [outcome_bind, ht]⟩
  | ok a =>
      obtain ⟨r, hfs, hft⟩ := hf a hs
      exact ⟨r, by rw [outcome_bind, hs]; exact hfs, by rw [outcome_bind, ht]; exact hft⟩

/-- A store is as it was, or has counted a view of a post that the reader may see. -/
def Counted (reader : Option Caller) (s t : Store) : Prop :=
  t = s ∨ ∃ slug view, s.seenView? reader slug = .ok (some view) ∧ t = s.recordView view.post.id

/-- What an action comes to does not tell two stores apart, and nothing is left behind in them but
a view of a post that the reader may see. -/
def Action.Discreet (reader : Option Caller) (s t : Store) (p : Action α) : Prop :=
  ∃ r s' t', p.outcome s = (r, s') ∧ p.outcome t = (r, t') ∧ Counted reader s s' ∧
    Counted reader t t'

theorem Action.Blind.then {p : Action α} {f : α → Action β} (hp : p.Blind s t)
    (hf : ∀ a, p.outcome s = (.ok a, s) → (f a).Discreet reader s t) :
    Discreet reader s t (p >>= f) := by
  obtain ⟨r, hs, ht⟩ := hp
  cases r with
  | error e =>
      exact ⟨.error e, s, t, by rw [outcome_bind, hs], by rw [outcome_bind, ht], .inl rfl, .inl rfl⟩
  | ok a =>
      obtain ⟨r, s', t', hfs, hft, hleft⟩ := hf a hs
      exact ⟨r, s', t', by rw [outcome_bind, hs]; exact hfs, by rw [outcome_bind, ht]; exact hft,
        hleft⟩

theorem callerIn_eq (h : s.LooksLike reader t) : x.callerIn s = x.callerIn t := by
  unfold callerIn Store.authenticate?
  rw [h.users, h.sessions]

theorem caller?_then (h : s.LooksLike reader t) (hreader : x.callerIn s = reader)
    {f : Option Caller → Action α} (hf : (f reader).Discreet reader s t) :
    Discreet reader s t (x.caller? >>= f) := by
  refine Blind.then ⟨.ok (x.callerIn s), outcome_caller? x s, ?_⟩ fun c hc => ?_
  · rw [outcome_caller?, callerIn_eq h]
  · rw [outcome_caller?, hreader] at hc
    cases hc
    exact hf

end Api
end Gazette
