import Gazette.Proofs.Change
import Gazette.Proofs.Procedure

/-!
# Interleaving

Two procedures that take their steps in turns, in any order. A procedure that edits the store looks
things up, one after the other, and then makes one change, which is its last say. So of two such
procedures that both come to a good end one is the first to change the store, and sees it as it was
at the start all the way. The other may have looked things up before that and after it.
-/
namespace Gazette

inductive Side
  | left
  | right
deriving DecidableEq, Repr

def Side.other : Side → Side
  | left => right
  | right => left

namespace Procedure
variable {σ α β γ : Type}

/-- What two procedures come to if they take their steps in an order, and the state that they
leave. The order has to take each of them to its end. -/
def interleave : List Side → Procedure σ α → Procedure σ β → σ → Option ((α × β) × σ)
  | [], done a, done b, s => some ((a, b), s)
  | .left :: order, step act next, q, s => interleave order (next (act s).1) q (act s).2
  | .right :: order, p, step act next, s => interleave order p (next (act s).1) (act s).2
  | _, _, _, _ => none

theorem interleave_other (order : List Side) (p : Procedure σ α) (q : Procedure σ β) (s : σ) :
    interleave (order.map Side.other) q p s =
      (interleave order p q s).map fun r => ((r.1.2, r.1.1), r.2) := by
  induction order generalizing p q s with
  | nil => cases p <;> cases q <;> rfl
  | cons side order ih =>
      cases side with
      | left =>
          cases p with
          | done a => cases q <;> rfl
          | step act next => exact ih _ _ _
      | right =>
          cases q with
          | done b => cases p <;> rfl
          | step act next => exact ih _ _ _

theorem interleave_left {order : List Side} {act : σ → γ × σ} {next : γ → Procedure σ α}
    {q : Procedure σ β} {s : σ} :
    interleave (.left :: order) (step act next) q s =
      interleave order (next (act s).1) q (act s).2 := rfl

theorem interleave_right {order : List Side} {p : Procedure σ α} {act : σ → γ × σ}
    {next : γ → Procedure σ β} {s : σ} :
    interleave (.right :: order) p (step act next) s =
      interleave order p (next (act s).1) (act s).2 := by
  cases p <;> rfl

/-- A procedure may come to a result if each of its steps sees some state of a kind. -/
def Sees (S : σ → Prop) : Procedure σ α → α → Prop
  | done a, b => a = b
  | step act next, b => ∃ s, S s ∧ (next (act s).1).Sees S b

theorem sees_bind {S : σ → Prop} {p : Procedure σ α} {f : α → Procedure σ β} {b : β} :
    (p.bind f).Sees S b ↔ ∃ a, p.Sees S a ∧ (f a).Sees S b := by
  induction p with
  | done a => simp [bind, Sees]
  | step act next ih =>
      constructor
      · rintro ⟨s, hs, h⟩
        obtain ⟨a, hp, hf⟩ := (ih _).1 h
        exact ⟨a, ⟨s, hs, hp⟩, hf⟩
      · rintro ⟨a, ⟨s, hs, hp⟩, hf⟩
        exact ⟨s, hs, (ih _).2 ⟨a, hp, hf⟩⟩

/-- Whatever happens between its steps, a procedure comes to results of one kind only. -/
def Ends (P : α → Prop) : Procedure σ α → Prop
  | done a => P a
  | step _ next => ∀ b, (next b).Ends P

theorem ends_true (p : Procedure σ α) : p.Ends fun _ => True := by
  induction p with
  | done a => trivial
  | step act next ih => exact ih

theorem Ends.bind {P : α → Prop} {Q : β → Prop} {p : Procedure σ α} {f : α → Procedure σ β}
    (hp : p.Ends P) (hf : ∀ a, P a → (f a).Ends Q) : (p.bind f).Ends Q := by
  induction p with
  | done a => exact hf a hp
  | step act next ih => exact fun b => ih b (hp b)

section Two
variable {order : List Side} {p : Procedure σ α} {q : Procedure σ β} {s t : σ} {a : α} {b : β}

theorem Ends.interleave {P : α → Prop} {Q : β → Prop} (hp : p.Ends P) (hq : q.Ends Q)
    (h : interleave order p q s = some ((a, b), t)) : P a ∧ Q b := by
  induction order generalizing p q s with
  | nil =>
      cases p <;> cases q <;> cases h
      exact ⟨hp, hq⟩
  | cons side order ih =>
      cases side with
      | left =>
          cases p with
          | done a => cases q <;> cases h
          | step act next => exact ih (hp _) hq h
      | right =>
          cases q with
          | done b => cases p <;> cases h
          | step act next => exact ih hp (hq _) h

theorem Steps.interleave (hp : p.Steps Eq) (hq : q.Steps Eq)
    (h : interleave order p q s = some ((a, b), t)) : t = s := by
  induction order generalizing p q s with
  | nil =>
      cases p <;> cases q <;> cases h
      rfl
  | cons side order ih =>
      cases side with
      | left =>
          cases p with
          | done a => cases q <;> cases h
          | step act next => exact (ih (hp.2 _) hq h).trans (hp.1 s).symm
      | right =>
          cases q with
          | done b => cases p <;> cases h
          | step act next => exact (ih hp (hq.2 _) h).trans (hq.1 s).symm

end Two

/-- The changes that a procedure may make in the end, given the stores that its steps may see. -/
abbrev Plan := (Store → Prop) → Change → Prop

/-- A procedure looks things up and then makes one change; what it does after that only looks at the
store. It comes to a good end only if it gets to its change and this is not refused. -/
inductive Edits {α : Type} (good : α → Prop) : Procedure Store α → Plan → Prop
  | fails {a : α} (bad : ¬ good a) : Edits good (done a) fun _ _ => False
  | look {β : Type} {act : Store → β × Store} {next : β → Procedure Store α} {plan : β → Plan}
      (same : ∀ s, s = (act s).2) (rest : ∀ b, Edits good (next b) (plan b)) :
      Edits good (step act next) fun S c => ∃ s, S s ∧ plan (act s).1 S c
  | commit {β : Type} {act : Store → β × Store} {next : β → Procedure Store α} {change : Change}
      (leaves : ∀ s, (act s).2 = change.after s) (rest : ∀ b, (next b).Steps Eq)
      (refused : ∀ s e, change.apply s = .error e → (next (act s).1).Ends fun a => ¬ good a) :
      Edits good (step act next) fun _ c => c = change

namespace Edits
variable {good : α → Prop} {good' : β → Prop} {p : Procedure Store α} {q : Procedure Store β}
variable {P P' Q : Plan} {S S' : Store → Prop} {s t : Store} {c : Change} {a : α} {b : β}
variable {order : List Side}

theorem congr (hp : Edits good p P) (h : ∀ S c, P S c ↔ P' S c) : Edits good p P' := by
  have hsame : P = P' := funext fun S => funext fun c => propext (h S c)
  exact hsame ▸ hp

theorem mono (hp : Edits good p P) (hS : ∀ s, S s → S' s) (h : P S c) : P S' c := by
  induction hp with
  | fails bad => exact h
  | look same rest ih =>
      obtain ⟨s, hs, h⟩ := h
      exact ⟨s, hS s hs, ih _ h⟩
  | commit leaves rest refused => exact h

theorem run_eq (hp : Edits good p P) (h : P (· = s) c) : (p.run s).2 = c.after s := by
  induction hp with
  | fails bad => exact h.elim
  | @look _ act next plan same rest ih =>
      obtain ⟨_, rfl, h⟩ := h
      rename_i s
      show ((next (act s).1).run (act s).2).2 = c.after s
      rw [← same s]
      exact ih _ h
  | @commit _ act next change leaves rest refused =>
      obtain rfl := h
      have hrest := (rest (act s).1).run (fun _ => rfl) (fun _ _ _ => Eq.trans) (act s).2
      exact hrest.symm.trans (leaves s)

theorem run_cases (hp : Edits good p P) (s : Store) : (p.run s).2 = s ∨ ∃ c, P (· = s) c := by
  induction hp with
  | fails bad => exact .inl rfl
  | @look _ act next plan same rest ih =>
      rcases ih (act s).1 with hrest | ⟨c, hc⟩
      · left
        show ((next (act s).1).run (act s).2).2 = s
        rw [← same s]
        exact hrest
      · exact .inr ⟨c, s, rfl, hc⟩
  | commit leaves rest refused => exact .inr ⟨_, rfl⟩

/-- Next to a procedure that only looks at the store, a procedure is as good as alone. -/
theorem interleave_reads (hp : p.Steps Eq) (hq : Edits good' q Q)
    (h : interleave order p q s = some ((a, b), t)) (hb : good' b) :
    ∃ c, Q (· = s) c ∧ c.apply s = .ok t := by
  induction order generalizing p q Q s with
  | nil =>
      cases p <;> cases q <;> cases h
      cases hq
      contradiction
  | cons side order ih =>
      cases side with
      | left =>
          cases p with
          | done a => cases q <;> cases h
          | step act next =>
              rw [interleave_left, ← hp.1 s] at h
              exact ih (hp.2 _) hq h
      | right =>
          cases hq with
          | fails bad => cases p <;> cases h
          | look same rest =>
              rw [interleave_right, ← same s] at h
              obtain ⟨c, hc, happly⟩ := ih hp (rest _) h
              exact ⟨c, ⟨s, rfl, hc⟩, happly⟩
          -- After the commit only look-ups are left on both sides, so the store stays.
          | @commit _ act next change leaves rest refused =>
              rw [interleave_right, leaves s] at h
              cases happly : change.apply s with
              | error e =>
                  obtain ⟨-, hbad⟩ := (ends_true p).interleave (refused s e happly) h
                  exact absurd hb hbad
              | ok u =>
                  obtain rfl := hp.interleave (rest _) h
                  exact ⟨change, rfl, by rw [Change.after, happly]; rfl⟩

/-- The first of two procedures to change the store is the one on the left. -/
def LeftFirst (P Q : Plan) (s t : Store) : Prop :=
  ∃ first u second, P (· = s) first ∧ first.apply s = .ok u ∧
    Q (fun v => v = s ∨ v = u) second ∧ second.apply u = .ok t

theorem interleave_commit {act : Store → γ × Store} {next : γ → Procedure Store α}
    {change : Change} (leaves : ∀ s, (act s).2 = change.after s)
    (rest : ∀ b, (next b).Steps Eq)
    (refused : ∀ s e, change.apply s = .error e → (next (act s).1).Ends fun a => ¬ good a)
    (hq : Edits good' q Q) (h : interleave order (next (act s).1) q (act s).2 = some ((a, b), t))
    (ha : good a) (hb : good' b) : LeftFirst (fun _ c => c = change) Q s t := by
  cases happly : change.apply s with
  | error e =>
      obtain ⟨hbad, -⟩ := (refused s e happly).interleave (ends_true q) h
      exact absurd ha hbad
  | ok u =>
      have hu : (act s).2 = u := by
        rw [leaves s, Change.after, happly]
        rfl
      rw [hu] at h
      obtain ⟨second, hsecond, ht⟩ := interleave_reads (rest _) hq h hb
      exact ⟨change, u, second, rfl, happly, hq.mono (fun _ => .inr) hsecond, ht⟩

/-- Of two procedures that both come to a good end one changes the store first, as if nobody else
were there. The other makes its change to what the first one left. -/
theorem interleave_cases (hp : Edits good p P) (hq : Edits good' q Q)
    (h : interleave order p q s = some ((a, b), t)) (ha : good a) (hb : good' b) :
    LeftFirst P Q s t ∨ LeftFirst Q P s t := by
  -- The induction is on the order of the steps, for whatever is left of both procedures. A look-up
  -- leaves the store to the rest; the first commit decides who comes first.
  induction order generalizing p q P Q s with
  | nil =>
      cases p <;> cases q <;> cases h
      cases hp
      contradiction
  | cons side order ih =>
      cases side with
      | left =>
          cases hp with
          | fails bad => cases q <;> cases h
          | look same rest =>
              rw [interleave_left, ← same s] at h
              refine (ih (rest _) hq h).imp ?_ ?_
              · rintro ⟨first, u, second, hfirst, hu, hsecond, ht⟩
                exact ⟨first, u, second, ⟨s, rfl, hfirst⟩, hu, hsecond, ht⟩
              · rintro ⟨first, u, second, hfirst, hu, hsecond, ht⟩
                exact ⟨first, u, second, hfirst, hu, ⟨s, .inl rfl, hsecond⟩, ht⟩
          | commit leaves rest refused =>
              exact .inl (interleave_commit leaves rest refused hq h ha hb)
      | right =>
          cases hq with
          | fails bad => cases p <;> cases h
          | look same rest =>
              rw [interleave_right, ← same s] at h
              refine (ih hp (rest _) h).imp ?_ ?_
              · rintro ⟨first, u, second, hfirst, hu, hsecond, ht⟩
                exact ⟨first, u, second, hfirst, hu, ⟨s, .inl rfl, hsecond⟩, ht⟩
              · rintro ⟨first, u, second, hfirst, hu, hsecond, ht⟩
                exact ⟨first, u, second, ⟨s, rfl, hfirst⟩, hu, hsecond, ht⟩
          | @commit _ act next _ leaves rest refused =>
              rw [interleave_right] at h
              have hother : interleave (order.map Side.other) (next (act s).1) p (act s).2 =
                  some ((b, a), t) := by
                rw [interleave_other, h]
                rfl
              exact .inr (interleave_commit leaves rest refused hp hother hb ha)

theorem of_ends (hp : p.Steps Eq) (hends : p.Ends fun a => ¬ good a) :
    Edits good p fun _ _ => False := by
  induction p with
  | done a => exact fails hends
  | step act next ih =>
      exact (look hp.1 fun b => ih b (hp.2 b) (hends b)).congr fun S c => by simp

theorem after_reads {f : α → Procedure Store β} {R : α → Plan} (hp : p.Steps Eq)
    (hf : ∀ a, Edits good' (f a) (R a)) :
    Edits good' (p.bind f) fun S c => ∃ a, p.Sees S a ∧ R a S c := by
  induction p with
  | done a => exact (hf a).congr fun S c => by simp [Sees]
  | step act next ih =>
      refine (look hp.1 fun b => ih b (hp.2 b)).congr fun S c => ?_
      constructor
      · rintro ⟨s, hs, a, hsees, h⟩
        exact ⟨a, ⟨s, hs, hsees⟩, h⟩
      · rintro ⟨a, ⟨s, hs, hsees⟩, h⟩
        exact ⟨s, hs, a, hsees, h⟩

/-- Look-ups may go after a procedure, if they do not turn a bad end into a good one. -/
theorem then_reads {f : α → Procedure Store β} (hp : Edits good p P) (hf : ∀ a, (f a).Steps Eq)
    (hbad : ∀ a, ¬ good a → (f a).Ends fun b => ¬ good' b) : Edits good' (p.bind f) P := by
  induction hp with
  | fails bad => exact of_ends (hf _) (hbad _ bad)
  | look same rest ih => exact look same ih
  | commit leaves rest refused =>
      exact commit leaves (fun b => Steps.bind (rest b) hf)
        fun s e h => (refused s e h).bind hbad

end Edits
end Procedure

namespace StoreProcedure
variable {ε ε' α β : Type} {p : StoreProcedure ε α} {f : α → StoreProcedure ε β}
variable {S : Store → Prop} {a : α} {b : β}

/-- A procedure may come to a result if each of its steps sees some store of a kind. -/
def Sees (S : Store → Prop) (p : StoreProcedure ε α) (a : α) : Prop :=
  Procedure.Sees S p.run (.ok a)

@[simp] theorem sees_pure {a' : α} : Sees S (pure a' : StoreProcedure ε α) a ↔ a' = a := by
  show (.ok a' : Except ε α) = .ok a ↔ _
  rw [Except.ok.injEq]

@[simp] theorem sees_throw {e : ε} : ¬ Sees S (throw e : StoreProcedure ε α) a := by
  intro h
  cases h

theorem sees_bind : Sees S (p >>= f) b ↔ ∃ a, p.Sees S a ∧ (f a).Sees S b := by
  show Procedure.Sees S (p.run.bind (ExceptT.bindCont f)) (.ok b) ↔ _
  rw [Procedure.sees_bind]
  constructor
  · rintro ⟨e | a, hp, hf⟩
    · cases hf
    · exact ⟨a, hp, hf⟩
  · rintro ⟨a, hp, hf⟩
    exact ⟨.ok a, hp, hf⟩

@[simp] theorem sees_read {g : Store → α} :
    Sees S (StoreProcedure.read g : StoreProcedure ε α) a ↔ ∃ s, S s ∧ g s = a := by
  refine exists_congr fun s => and_congr_right fun _ => ?_
  show (.ok (g s) : Except ε α) = .ok a ↔ _
  rw [Except.ok.injEq]

@[simp] theorem sees_readOr {refuse : StoreError → ε} {g : Store → Except StoreError α} :
    Sees S (StoreProcedure.readOr refuse g) a ↔ ∃ s, S s ∧ g s = .ok a := by
  refine exists_congr fun s => and_congr_right fun _ => ?_
  show (g s).mapError refuse = .ok a ↔ _
  cases g s <;> simp

/-- A procedure looks things up and then makes one change, and comes to a result only if this is
not refused. -/
def Edits (p : StoreProcedure ε α) (P : Procedure.Plan) : Prop :=
  Procedure.Edits (fun r => ∃ a, r = .ok a) p.run P

variable {P P' : Procedure.Plan} {Q : α → Procedure.Plan}

theorem Edits.congr (hp : p.Edits P) (h : ∀ S c, P S c ↔ P' S c) : p.Edits P' :=
  Procedure.Edits.congr hp h

theorem edits_throw (e : ε) : Edits (throw e : StoreProcedure ε α) fun _ _ => False :=
  .fails (by simp)

theorem Edits.after_reads (hp : p.OnlyReads) (hf : ∀ a, (f a).Edits (Q a)) :
    Edits (p >>= f) fun S c => ∃ a, p.Sees S a ∧ Q a S c := by
  refine (Procedure.Edits.after_reads (R := fun r S c => ∃ a, r = .ok a ∧ Q a S c) hp.steps
    (f := ExceptT.bindCont f) ?_).congr fun S c => ?_
  · rintro (e | a)
    · exact (edits_throw e).congr (by simp)
    · exact (hf a).congr (by simp)
  · constructor
    · rintro ⟨_, hp, a, rfl, h⟩
      exact ⟨a, hp, h⟩
    · rintro ⟨a, hp, h⟩
      exact ⟨_, hp, a, rfl, h⟩

theorem Edits.then_reads (hp : p.Edits P) (hf : ∀ a, (f a).OnlyReads) : Edits (p >>= f) P := by
  refine Procedure.Edits.then_reads hp (f := ExceptT.bindCont f) ?_ ?_
  · rintro (e | a)
    · trivial
    · exact (hf a).steps
  · rintro (e | a) hbad
    · exact fun ⟨_, h⟩ => nomatch h
    · exact absurd ⟨a, rfl⟩ hbad

theorem Edits.adapt (hp : p.Edits P) (g : ε → ε') :
    Edits (ExceptT.adapt g p : StoreProcedure ε' α) P := by
  refine Procedure.Edits.then_reads hp (f := fun r => .done (r.mapError g)) ?_ ?_
  · exact fun _ => trivial
  · rintro (e | a) hbad
    · exact fun ⟨_, h⟩ => nomatch h
    · exact absurd ⟨a, rfl⟩ hbad

theorem edits_change {refuse : StoreError → ε} {g : Store → Except StoreError (α × Store)}
    {c : Change} (h : ∀ s, (g s).map (·.2) = c.apply s) :
    Edits (StoreProcedure.change refuse g) fun _ c' => c' = c := by
  refine .commit (fun s => ?_) (fun _ => trivial) fun s e he => ?_
  · rw [Change.after, ← h s]
    cases g s <;> rfl
  · rw [← h s] at he
    cases hg : g s with
    | ok r =>
        rw [hg] at he
        cases he
    | error e' =>
        rintro ⟨a, h⟩
        cases h

theorem edits_write {refuse : StoreError → ε} {g : Store → Except StoreError Store}
    {c : Change} (h : c.apply = g) :
    Edits (StoreProcedure.write refuse g) fun _ c' => c' = c := by
  refine edits_change fun s => ?_
  rw [h]
  cases g s <;> rfl

end StoreProcedure
end Gazette
