import Gazette.Content.Rules
import Gazette.Proofs.Procedure
import Gazette.Store.Delete
import Gazette.Store.Sessions

/-!
# Changes

The changes that a store offers, each with its arguments. Whatever is asked of the editor or of
the interface comes down to some of them.
-/
namespace Gazette

inductive Change
  | saveUser (user : User)
  | saveCategory (category : Category)
  | saveTag (tag : Tag)
  | savePost (post : Post)
  | saveComment (comment : Comment)
  | saveMessage (message : ContactMessage)
  | saveSettings (settings : SiteSettings)
  | deleteUser (id : String)
  | deleteCategory (id : String)
  | deleteTag (id : String)
  | deletePost (id : String)
  | deleteComment (id : String)
  | deleteMessage (id : String)
  | recordView (postId : String)
  | addLike (postId : String)
  | createSession (id token userId : String) (hours : Nat) (now : Timestamp)
  | purgeSessions (now : Timestamp)

/-- The kinds of things that are reached by a slug. -/
inductive Kind
  | post
  | category
  | tag
deriving DecidableEq, Repr

namespace Change

def apply (change : Change) (s : Store) : Except StoreError Store :=
  match change with
  | saveUser user => s.saveUser user
  | saveCategory category => s.saveCategory category
  | saveTag tag => s.saveTag tag
  | savePost post => s.savePost post
  | saveComment comment => s.saveComment comment
  | saveMessage message => .ok (s.saveMessage message)
  | saveSettings settings => .ok (s.saveSettings settings)
  | deleteUser id => (s.deleteUser id).map (·.2)
  | deleteCategory id => .ok (s.deleteCategory id).2
  | deleteTag id => .ok (s.deleteTag id).2
  | deletePost id => (s.deletePost id).map (·.2)
  | deleteComment id => (s.deleteComment id).map (·.2)
  | deleteMessage id => .ok (s.deleteMessage id).2
  | recordView id => .ok (s.recordView id)
  | addLike id => .ok (s.addLike id).2
  | createSession id token userId hours now => s.createSession id token userId hours now
  | purgeSessions now => .ok (s.purgeSessions now).2

/-- The store after a change. A refused change leaves it as it is. -/
def after (change : Change) (s : Store) : Store :=
  (change.apply s).toOption.getD s

theorem after_cases (change : Change) (s : Store) :
    change.after s = s ∨ change.apply s = .ok (change.after s) := by
  unfold after
  cases change.apply s with
  | ok t => exact .inr rfl
  | error e => exact .inl rfl

theorem of_map_ok {ε α β : Type} {r : Except ε α} {f : α → β} {b : β} (h : r.map f = .ok b) :
    ∃ a, r = .ok a ∧ f a = b := by
  cases r with
  | ok a => exact ⟨a, rfl, Except.ok.inj h⟩
  | error e => cases h

theorem map_then {α β γ : Type} (check : Except StoreError α) (rest : Except StoreError β)
    (f : β → γ) : (check >>= fun _ => rest).map f = check >>= fun _ => rest.map f := by
  cases check <;> rfl

theorem found_of_map {r : Except StoreError (Bool × Store)} {t : Store}
    (h : r.map (·.2) = .ok t) : ∃ found, r = .ok (found, t) := by
  obtain ⟨⟨found, u⟩, hr, rfl⟩ := of_map_ok h
  exact ⟨found, hr⟩

def written? : Change → Option (Kind × String)
  | savePost post => some (.post, post.id)
  | saveCategory category => some (.category, category.id)
  | saveTag tag => some (.tag, tag.id)
  | _ => none

def savesComment : Change → Bool
  | saveComment _ => true
  | _ => false

def Counts : Change → Prop
  | recordView _ | addLike _ => True
  | _ => False

/-- Whether what a change writes went through the rules of content first, if it is a user or has a
slug. -/
def Prepared [Libraries] : Change → Prop
  | saveUser user => ∃ (given : User) (now : Timestamp), given.trimmed.validate = .ok () ∧
      user = { given.trimmed with updatedAt := now }
  | savePost post => ∃ (given : Post) (now : Timestamp), given.prepare now = .ok post
  | saveCategory category => ∃ given : Category, given.prepare = .ok category
  | saveTag tag => ∃ given : Tag, given.prepare = .ok tag
  | _ => True

/-- At most one change of some kind leads from one store to another. -/
def Via (P : Change → Prop) (s t : Store) : Prop :=
  s = t ∨ ∃ change, P change ∧ change.apply s = .ok t

theorem via_refl {P : Change → Prop} (s : Store) : Via P s s :=
  .inl rfl

/-- What a step does that only looks at the store or asks it for a change of some kind. -/
def Step (P : Change → Prop) (f : Store → Store) : Prop :=
  f = id ∨ ∃ change, P change ∧ f = change.after

theorem Step.imp {P Q : Change → Prop} {f : Store → Store} (h : Step P f)
    (hPQ : ∀ c, P c → Q c) : Step Q f :=
  h.imp_right fun ⟨change, hchange, hf⟩ => ⟨change, hPQ change hchange, hf⟩

theorem Step.via {P : Change → Prop} {f : Store → Store} (h : Step P f) (s : Store) :
    Via P s (f s) := by
  rcases h with rfl | ⟨change, hchange, rfl⟩
  · exact via_refl s
  · exact (change.after_cases s).imp Eq.symm fun happly => ⟨change, hchange, happly⟩

end Change

namespace StoreProcedure
open Change

variable {ε ε' α β : Type} {P : Change → Prop}

/-- Every step of a procedure looks at the store or asks it for a change of some kind. -/
structure Asks (P : Change → Prop) (p : StoreProcedure ε α) : Prop where
  each : Procedure.Each (Step P) p.run

theorem asks_pure (a : α) : Asks P (pure a : StoreProcedure ε α) :=
  ⟨trivial⟩

theorem asks_throw (e : ε) : Asks P (throw e : StoreProcedure ε α) :=
  ⟨trivial⟩

theorem OnlyReads.asks {p : StoreProcedure ε α} (hp : p.OnlyReads) : p.Asks P :=
  ⟨hp.steps.each.imp fun _ h => .inl h⟩

theorem Asks.bind {p : StoreProcedure ε α} {f : α → StoreProcedure ε β} (hp : p.Asks P)
    (hf : ∀ a, (f a).Asks P) : Asks P (p >>= f) := by
  refine ⟨Procedure.Each.bind hp.each (f := ExceptT.bindCont f) ?_⟩
  rintro (e | a)
  · trivial
  · exact (hf a).each

theorem Asks.adapt {p : StoreProcedure ε α} (hp : p.Asks P) (g : ε → ε') :
    Asks P (ExceptT.adapt g p : StoreProcedure ε' α) := by
  have hdone : ∀ r : Except ε α,
      (pure (r.mapError g) : Procedure Store (Except ε' α)).Each (Step P) := fun _ => trivial
  exact ⟨Procedure.Each.bind hp.each hdone⟩

theorem Asks.imp {Q : Change → Prop} {p : StoreProcedure ε α} (hp : p.Asks P)
    (h : ∀ c, P c → Q c) : p.Asks Q :=
  ⟨hp.each.imp fun _ hf => hf.imp h⟩

theorem Asks.after_reads {p : StoreProcedure ε α} {f : α → StoreProcedure ε β}
    (hp : p.OnlyReads) (hf : ∀ a, (f a).Asks P) : Asks P (p >>= f) :=
  Asks.bind hp.asks hf

theorem asks_once {f : Store → α × Store} {change : Change} (hP : P change)
    (hf : ∀ s, (f s).2 = change.after s) :
    Asks P (ExceptT.mk (.once fun s => (.ok (f s).1, (f s).2)) : StoreProcedure ε α) :=
  ⟨.inr ⟨change, hP, funext hf⟩, fun _ => trivial⟩

theorem asks_change {refuse : StoreError → ε} {f : Store → Except StoreError (α × Store)}
    {change : Change} (hP : P change) (hf : ∀ s, (f s).map (·.2) = change.apply s) :
    Asks P (StoreProcedure.change refuse f) := by
  refine ⟨.inr ⟨change, hP, funext fun s => ?_⟩, fun _ => trivial⟩
  dsimp only
  rw [Change.after, ← hf s]
  cases f s <;> rfl

theorem asks_write {refuse : StoreError → ε} {f : Store → Except StoreError Store}
    {change : Change} (hP : P change) (hf : change.apply = f) :
    Asks P (StoreProcedure.write refuse f) := by
  refine asks_change hP fun s => ?_
  rw [hf]
  cases f s <;> rfl

theorem Asks.moves {p : StoreProcedure ε α} (hp : p.Asks P) : p.Moves (Via P) :=
  ⟨hp.each.steps fun _ h s => h.via s⟩

end StoreProcedure
end Gazette
