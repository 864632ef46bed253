import Gazette.Store.Procedure

/-!
# Procedures

What a procedure comes to when it runs alone, and what all of its steps do whatever happens
between them. The first is computed through the equations of `outcome`; the second is a relation
between the store before and after a step, checked once for each step of a procedure.
-/
namespace Gazette

namespace Procedure
variable {σ α β : Type} {R : σ → σ → Prop}

/-- Whether every step of a procedure moves the state as the relation says. -/
def Steps (R : σ → σ → Prop) : Procedure σ α → Prop
  | done _ => True
  | step act next => (∀ s, R s (act s).2) ∧ ∀ b, (next b).Steps R

theorem Steps.bind {p : Procedure σ α} {f : α → Procedure σ β} (hp : p.Steps R)
    (hf : ∀ a, (f a).Steps R) : (p >>= f).Steps R := by
  show (p.bind f).Steps R
  induction p with
  | done a => exact hf a
  | step act next ih => exact ⟨hp.1, fun b => ih b (hp.2 b)⟩

theorem Steps.imp {S : σ → σ → Prop} {p : Procedure σ α} (hp : p.Steps R)
    (h : ∀ s t, R s t → S s t) : p.Steps S := by
  induction p with
  | done a => trivial
  | step act next ih => exact ⟨fun s => h _ _ (hp.1 s), fun b => ih b (hp.2 b)⟩

/-- What every step does, a whole run does, if nothing and two things in a row count as well. -/
theorem Steps.run {p : Procedure σ α} (hp : p.Steps R) (refl : ∀ s, R s s)
    (trans : ∀ s t u, R s t → R t u → R s u) (s : σ) : R s (p.run s).2 := by
  induction p generalizing s with
  | done a => exact refl s
  | step act next ih => exact trans _ _ _ (hp.1 s) (ih _ (hp.2 _) _)

/-- Whether what each step of a procedure does to the state is of some kind. -/
def Each (K : (σ → σ) → Prop) : Procedure σ α → Prop
  | done _ => True
  | step act next => (K fun s => (act s).2) ∧ ∀ b, (next b).Each K

section Each
variable {K : (σ → σ) → Prop} {p : Procedure σ α}

theorem Each.bind {f : α → Procedure σ β} (hp : p.Each K) (hf : ∀ a, (f a).Each K) :
    (p.bind f).Each K := by
  induction p with
  | done a => exact hf a
  | step act next ih => exact ⟨hp.1, fun b => ih b (hp.2 b)⟩

theorem Each.imp {L : (σ → σ) → Prop} (hp : p.Each K) (h : ∀ f, K f → L f) : p.Each L := by
  induction p with
  | done a => trivial
  | step act next ih => exact ⟨h _ hp.1, fun b => ih b (hp.2 b)⟩

theorem Each.steps (hp : p.Each K) (h : ∀ f, K f → ∀ s, R s (f s)) : p.Steps R := by
  induction p with
  | done a => trivial
  | step act next ih => exact ⟨h _ hp.1, fun b => ih b (hp.2 b)⟩

theorem Steps.each (hp : p.Steps Eq) : p.Each (· = id) := by
  induction p with
  | done a => trivial
  | step act next ih => exact ⟨funext fun s => (hp.1 s).symm, fun b => ih b (hp.2 b)⟩

end Each
end Procedure

namespace StoreProcedure
variable {ε ε' α β : Type} {R : Store → Store → Prop}

/-- Every step of a procedure moves the store as the relation says. -/
structure Moves (R : Store → Store → Prop) (p : StoreProcedure ε α) : Prop where
  steps : Procedure.Steps R p.run

theorem moves_pure (a : α) : Moves R (pure a : StoreProcedure ε α) :=
  ⟨trivial⟩

theorem moves_throw (e : ε) : Moves R (throw e : StoreProcedure ε α) :=
  ⟨trivial⟩

theorem Moves.bind {p : StoreProcedure ε α} {f : α → StoreProcedure ε β} (hp : p.Moves R)
    (hf : ∀ a, (f a).Moves R) : Moves R (p >>= f) := by
  refine ⟨Procedure.Steps.bind hp.steps ?_⟩
  rintro (e | a)
  · trivial
  · exact (hf a).steps

theorem Moves.imp {S : Store → Store → Prop} {p : StoreProcedure ε α} (hp : p.Moves R)
    (h : ∀ s t, R s t → S s t) : p.Moves S :=
  ⟨Procedure.Steps.imp hp.steps h⟩

theorem moves_read (refl : ∀ s, R s s) (f : Store → α) :
    Moves R (StoreProcedure.read f : StoreProcedure ε α) :=
  ⟨refl, fun _ => trivial⟩

theorem moves_readOr (refl : ∀ s, R s s) (g : StoreError → ε) (f : Store → Except StoreError α) :
    Moves R (StoreProcedure.readOr g f) :=
  ⟨refl, fun _ => trivial⟩

def outcome (p : StoreProcedure ε α) (s : Store) : Except ε α × Store :=
  p.run.run s

@[simp] theorem outcome_pure (a : α) (s : Store) :
    (pure a : StoreProcedure ε α).outcome s = (.ok a, s) := rfl

@[simp] theorem outcome_throw (e : ε) (s : Store) :
    (throw e : StoreProcedure ε α).outcome s = (.error e, s) := rfl

theorem outcome_bind (p : StoreProcedure ε α) (f : α → StoreProcedure ε β) (s : Store) :
    outcome (p >>= f) s =
      match p.outcome s with
      | (.ok a, t) => (f a).outcome t
      | (.error e, t) => (.error e, t) := by
  show (ExceptT.run p >>= ExceptT.bindCont f).run s = _
  rw [Procedure.run_bind]
  show (ExceptT.bindCont f (p.outcome s).1).run (p.outcome s).2 = _
  obtain ⟨r, t⟩ := p.outcome s
  cases r <;> rfl

/-- A sequence comes to a result iff its first part does and the rest does from there. -/
theorem outcome_bind_ok {p : StoreProcedure ε α} {f : α → StoreProcedure ε β} {s t : Store}
    {b : β} :
    outcome (p >>= f) s = (.ok b, t) ↔
      ∃ a u, p.outcome s = (.ok a, u) ∧ (f a).outcome u = (.ok b, t) := by
  rw [outcome_bind]
  obtain ⟨r, u⟩ := p.outcome s
  cases r with
  | ok a => exact ⟨fun h => ⟨a, u, rfl, h⟩, fun ⟨_, _, he, h⟩ => by cases he; exact h⟩
  | error e => simp

/-- A sequence fails iff its first part does or the rest does after it. -/
theorem outcome_bind_error {p : StoreProcedure ε α} {f : α → StoreProcedure ε β} {s t : Store}
    {e : ε} :
    outcome (p >>= f) s = (.error e, t) ↔
      p.outcome s = (.error e, t) ∨
        ∃ a u, p.outcome s = (.ok a, u) ∧ (f a).outcome u = (.error e, t) := by
  rw [outcome_bind]
  obtain ⟨r, u⟩ := p.outcome s
  cases r with
  | ok a =>
      constructor
      · exact fun h => .inr ⟨a, u, rfl, h⟩
      · rintro (h | ⟨_, _, he, h⟩)
        · simp at h
        · cases he
          exact h
  | error c => simp

@[simp] theorem mapError_ok (g : ε → ε') (a : α) :
    (.ok a : Except ε α).mapError g = .ok a := rfl

@[simp] theorem mapError_error (g : ε → ε') (e : ε) :
    (.error e : Except ε α).mapError g = .error (g e) := rfl

@[simp] theorem outcome_adapt (g : ε → ε') (p : StoreProcedure ε α) (s : Store) :
    outcome (ExceptT.adapt g p : StoreProcedure ε' α) s =
      ((p.outcome s).1.mapError g, (p.outcome s).2) := by
  show (ExceptT.run p >>= fun r => pure (r.mapError g) : Procedure Store _).run s = _
  rw [Procedure.run_bind]
  rfl

@[simp] theorem outcome_read (f : Store → α) (s : Store) :
    (StoreProcedure.read f : StoreProcedure ε α).outcome s = (.ok (f s), s) := rfl

@[simp] theorem outcome_readOr (g : StoreError → ε) (f : Store → Except StoreError α)
    (s : Store) : (StoreProcedure.readOr g f).outcome s = ((f s).mapError g, s) := rfl

theorem outcome_change (g : StoreError → ε) (f : Store → Except StoreError (α × Store))
    (s : Store) :
    (StoreProcedure.change g f).outcome s =
      match f s with
      | .ok (a, t) => (.ok a, t)
      | .error e => (.error (g e), s) := by
  show (match f s with
    | .ok (a, t) => ((.ok a : Except ε α), t)
    | .error e => (.error (g e), s)) = _
  cases f s <;> rfl

theorem outcome_write (g : StoreError → ε) (f : Store → Except StoreError Store) (s : Store) :
    (StoreProcedure.write g f).outcome s =
      match f s with
      | .ok t => (.ok (), t)
      | .error e => (.error (g e), s) := by
  rw [StoreProcedure.write, outcome_change]
  cases f s <;> rfl

abbrev OnlyReads (p : StoreProcedure ε α) : Prop :=
  p.Moves Eq

theorem OnlyReads.eq {p : StoreProcedure ε α} (hp : p.OnlyReads) {s t : Store} {r : Except ε α}
    (h : p.outcome s = (r, t)) : t = s := by
  have hs : s = (p.outcome s).2 :=
    Procedure.Steps.run hp.steps (fun _ => rfl) (fun _ _ _ => Eq.trans) s
  rw [h] at hs
  exact hs.symm

/-- What only looks at the store goes before the rest as if it took no step. -/
theorem OnlyReads.then_ok {p : StoreProcedure ε α} (hp : p.OnlyReads)
    {f : α → StoreProcedure ε β} {s t : Store} {b : β} :
    outcome (p >>= f) s = (.ok b, t) ↔
      ∃ a, p.outcome s = (.ok a, s) ∧ (f a).outcome s = (.ok b, t) := by
  rw [outcome_bind_ok]
  constructor
  · rintro ⟨a, u, hfirst, hrest⟩
    obtain rfl := hp.eq hfirst
    exact ⟨a, hfirst, hrest⟩
  · rintro ⟨a, hfirst, hrest⟩
    exact ⟨a, s, hfirst, hrest⟩

theorem OnlyReads.then_error {p : StoreProcedure ε α} (hp : p.OnlyReads)
    {f : α → StoreProcedure ε β} {s t : Store} {e : ε} (h : outcome (p >>= f) s = (.error e, t))
    (hf : ∀ a, p.outcome s = (.ok a, s) → (f a).outcome s = (.error e, t) → t = s) : t = s := by
  rcases outcome_bind_error.1 h with hfirst | ⟨a, u, hfirst, hrest⟩
  · exact hp.eq hfirst
  · obtain rfl := hp.eq hfirst
    exact hf a hfirst hrest

theorem outcome_then_pure_error {p : StoreProcedure ε α} {g : α → β} {s t : Store} {e : ε}
    (h : outcome (p >>= fun a => pure (g a)) s = (.error e, t)) : p.outcome s = (.error e, t) := by
  rcases outcome_bind_error.1 h with hfirst | ⟨a, u, -, hrest⟩
  · exact hfirst
  · cases hrest

theorem outcome_then_pure_ok {p : StoreProcedure ε α} {g : α → β} {s t : Store} {b : β} :
    outcome (p >>= fun a => pure (g a)) s = (.ok b, t) ↔
      ∃ a, p.outcome s = (.ok a, t) ∧ g a = b := by
  rw [outcome_bind_ok]
  simp only [outcome_pure, Prod.mk.injEq, Except.ok.injEq]
  constructor
  · rintro ⟨a, u, hfirst, hb, rfl⟩
    exact ⟨a, hfirst, hb⟩
  · rintro ⟨a, hfirst, hb⟩
    exact ⟨a, t, hfirst, hb, rfl⟩

def Atomic (p : StoreProcedure ε α) : Prop :=
  ∀ s e t, p.outcome s = (.error e, t) → t = s

theorem OnlyReads.atomic {p : StoreProcedure ε α} (hp : p.OnlyReads) : p.Atomic :=
  fun _ _ _ h => hp.eq h

theorem atomic_throw (e : ε) : Atomic (throw e : StoreProcedure ε α) :=
  OnlyReads.atomic (moves_throw e)

theorem Atomic.after_reads {p : StoreProcedure ε α} {f : α → StoreProcedure ε β}
    (hp : p.OnlyReads) (hf : ∀ a, (f a).Atomic) : Atomic (p >>= f) := by
  intro s e t h
  rcases outcome_bind_error.1 h with hfirst | ⟨a, u, hfirst, hrest⟩
  · exact hp.eq hfirst
  · rw [hf a u e t hrest, hp.eq hfirst]

theorem Atomic.then_pure {p : StoreProcedure ε α} (hp : p.Atomic) (g : α → β) :
    Atomic (p >>= fun a => pure (g a)) := by
  intro s e t h
  rcases outcome_bind_error.1 h with h | ⟨a, u, -, h⟩
  · exact hp s e t h
  · simp at h

theorem Atomic.adapt {p : StoreProcedure ε α} (hp : p.Atomic) (g : ε → ε') :
    Atomic (ExceptT.adapt g p : StoreProcedure ε' α) := by
  intro s e t h
  rw [outcome_adapt] at h
  cases hr : p.outcome s with
  | mk r u =>
      rw [hr] at h
      cases r with
      | ok a => cases h
      | error c =>
          cases h
          exact hp s c u hr

theorem outcome_adapt_ok {g : ε → ε'} {p : StoreProcedure ε α} {s t : Store} {a : α} :
    outcome (ExceptT.adapt g p : StoreProcedure ε' α) s = (.ok a, t) ↔
      p.outcome s = (.ok a, t) := by
  rw [outcome_adapt]
  obtain ⟨r, u⟩ := p.outcome s
  cases r <;> simp

theorem atomic_change (g : StoreError → ε) (f : Store → Except StoreError (α × Store)) :
    Atomic (StoreProcedure.change g f) := by
  intro s e t h
  rw [outcome_change] at h
  cases hs : f s with
  | ok a => simp [hs] at h
  | error c =>
      rw [hs] at h
      cases h
      rfl

theorem atomic_write (g : StoreError → ε) (f : Store → Except StoreError Store) :
    Atomic (StoreProcedure.write g f) :=
  atomic_change g _

/-- A run fails with errors of some kind only. -/
def FailsWith (P : ε → Prop) (p : StoreProcedure ε α) (s : Store) : Prop :=
  ∀ e t, p.outcome s = (.error e, t) → P e

section Failing
variable {P : ε → Prop} {p : StoreProcedure ε α} {f : α → StoreProcedure ε β} {s : Store}

theorem failsWith_pure (a : α) : FailsWith P (pure a) s := by
  intro e t h
  cases h

theorem failsWith_throw {e : ε} (h : P e) : FailsWith P (throw e : StoreProcedure ε α) s := by
  intro e t hthrow
  cases hthrow
  exact h

theorem failsWith_read (f : Store → α) : FailsWith P (StoreProcedure.read f) s := by
  intro e t h
  cases h

theorem failsWith_readOr {g : StoreError → ε} {f : Store → Except StoreError α}
    (h : ∃ a, f s = .ok a) : FailsWith P (StoreProcedure.readOr g f) s := by
  obtain ⟨a, ha⟩ := h
  intro e t hread
  rw [outcome_readOr, ha] at hread
  cases hread

theorem failsWith_change {g : StoreError → ε} {f : Store → Except StoreError (α × Store)}
    (h : ∀ e, f s = .error e → P (g e)) : FailsWith P (StoreProcedure.change g f) s := by
  intro e t hchange
  rw [outcome_change] at hchange
  cases hs : f s with
  | ok u =>
      rw [hs] at hchange
      cases hchange
  | error c =>
      rw [hs] at hchange
      cases hchange
      exact h c hs

theorem failsWith_write {g : StoreError → ε} {f : Store → Except StoreError Store}
    (h : ∀ e, f s = .error e → P (g e)) : FailsWith P (StoreProcedure.write g f) s := by
  refine failsWith_change fun e hmap => h e ?_
  cases hs : f s with
  | ok u =>
      rw [hs] at hmap
      cases hmap
  | error c =>
      rw [hs] at hmap
      cases hmap
      rfl

theorem FailsWith.imp {Q : ε → Prop} (hp : p.FailsWith P s) (h : ∀ e, P e → Q e) :
    p.FailsWith Q s :=
  fun e t hfail => h e (hp e t hfail)

theorem FailsWith.bind (hp : p.FailsWith P s)
    (hf : ∀ a t, p.outcome s = (.ok a, t) → (f a).FailsWith P t) : FailsWith P (p >>= f) s := by
  intro e t h
  rcases outcome_bind_error.1 h with hfirst | ⟨a, u, hfirst, hrest⟩
  · exact hp e t hfirst
  · exact hf a u hfirst e t hrest

theorem FailsWith.then_reads (hp : p.FailsWith P s) (hreads : p.OnlyReads)
    (hf : ∀ a, p.outcome s = (.ok a, s) → (f a).FailsWith P s) : FailsWith P (p >>= f) s := by
  refine hp.bind fun a t h => ?_
  obtain rfl := hreads.eq h
  exact hf a h

theorem FailsWith.adapt {g : ε → ε'} {Q : ε' → Prop} (hp : p.FailsWith (fun e => Q (g e)) s) :
    FailsWith Q (ExceptT.adapt g p : StoreProcedure ε' α) s := by
  intro e t h
  rw [outcome_adapt] at h
  cases hr : p.outcome s with
  | mk r u =>
      rw [hr] at h
      cases r with
      | ok a => cases h
      | error c =>
          cases h
          exact hp c u hr

end Failing

/-- A run leaves a store of some kind, whatever its result. -/
def Leaves (p : StoreProcedure ε α) (s : Store) (Q : Store → Prop) : Prop :=
  Q (p.outcome s).2

variable {p : StoreProcedure ε α} {f : α → StoreProcedure ε β} {s : Store} {Q : Store → Prop}

theorem OnlyReads.leaves (hp : p.OnlyReads) (hs : Q s) : p.Leaves s Q := by
  have hsame : (p.outcome s).2 = s := hp.eq (r := (p.outcome s).1) rfl
  rw [Leaves, hsame]
  exact hs

theorem Atomic.leaves (hp : p.Atomic) (hs : Q s) (hok : ∀ a t, p.outcome s = (.ok a, t) → Q t) :
    p.Leaves s Q := by
  unfold Leaves
  cases h : p.outcome s with
  | mk r t =>
      cases r with
      | ok a => exact hok a t h
      | error e => exact hp s e t h ▸ hs

/-- A sequence leaves what its first part leaves if that fails, or else what the rest leaves. -/
theorem Leaves.bind (hfail : ∀ e t, p.outcome s = (.error e, t) → Q t)
    (hf : ∀ a t, p.outcome s = (.ok a, t) → (f a).Leaves t Q) : Leaves (p >>= f) s Q := by
  rw [Leaves, outcome_bind]
  cases h : p.outcome s with
  | mk r t =>
      cases r with
      | ok a => exact hf a t h
      | error e => exact hfail e t h

theorem Leaves.after_reads (hp : p.OnlyReads) (hs : Q s)
    (hf : ∀ a, p.outcome s = (.ok a, s) → (f a).Leaves s Q) : Leaves (p >>= f) s Q := by
  refine Leaves.bind (fun e t h => hp.eq h ▸ hs) fun a t h => ?_
  obtain rfl := hp.eq h
  exact hf a h

/-- What only looks at the store goes after the rest as if it took no step. -/
theorem Leaves.then_reads (hp : p.Leaves s Q) (hf : ∀ a, (f a).OnlyReads) :
    Leaves (p >>= f) s Q := by
  unfold Leaves at hp
  rw [Leaves, outcome_bind]
  cases h : p.outcome s with
  | mk r t =>
      rw [h] at hp
      cases r with
      | ok a => exact (hf a).leaves hp
      | error e => exact hp

theorem leaves_change {g : StoreError → ε} {f : Store → Except StoreError (α × Store)} (hs : Q s)
    (hf : ∀ a t, f s = .ok (a, t) → Q t) : Leaves (StoreProcedure.change g f) s Q := by
  rw [Leaves, outcome_change]
  cases h : f s with
  | ok result => exact hf result.1 result.2 h
  | error e => exact hs

theorem Leaves.adapt (hp : p.Leaves s Q) (g : ε → ε') :
    Leaves (ExceptT.adapt g p : StoreProcedure ε' α) s Q := by
  rw [Leaves, outcome_adapt]
  exact hp

end StoreProcedure
end Gazette
