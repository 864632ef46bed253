import Gazette.Store.Basic

/-!
# Procedures

A procedure works on a shared state in steps. Each step sees the state as it is at that moment and
leaves a new one; between two steps of a procedure, steps of others may be taken. Run alone, a
procedure takes its steps one right after the other.
-/
namespace Gazette

/-- A procedure on a state of type `σ` with a result of type `α`. -/
inductive Procedure (σ : Type) (α : Type) : Type 1
  | done (result : α)
  | step {β : Type} (act : σ → β × σ) (next : β → Procedure σ α)

namespace Procedure
variable {σ α β : Type}

def bind : Procedure σ α → (α → Procedure σ β) → Procedure σ β
  | done a, f => f a
  | step act next, f => step act fun b => (next b).bind f

instance : Monad (Procedure σ) where
  pure := done
  bind := bind

def once (act : σ → α × σ) : Procedure σ α :=
  step act done

/-- A step that only looks at the state. -/
def read (f : σ → α) : Procedure σ α :=
  once fun s => (f s, s)

/-- The result of a procedure that runs alone, and the state it leaves. -/
def run : Procedure σ α → σ → α × σ
  | done a, s => (a, s)
  | step act next, s =>
    let (b, s) := act s
    (next b).run s

@[simp] theorem run_pure (a : α) (s : σ) : (pure a : Procedure σ α).run s = (a, s) := rfl

@[simp] theorem run_bind (p : Procedure σ α) (f : α → Procedure σ β) (s : σ) :
    (p >>= f).run s = (f (p.run s).1).run (p.run s).2 := by
  show (p.bind f).run s = _
  induction p generalizing s with
  | done a => rfl
  | step act next ih => exact ih _ _

end Procedure

/-- A procedure on the store that may fail. -/
abbrev StoreProcedure (ε α : Type) := ExceptT ε (Procedure Store) α

namespace StoreProcedure
variable {ε α : Type}

/-- Looks something up, which cannot fail. -/
def read (f : Store → α) : StoreProcedure ε α :=
  ExceptT.mk <| .read fun s => .ok (f s)

def readOr (refuse : StoreError → ε) (f : Store → Except StoreError α) : StoreProcedure ε α :=
  ExceptT.mk <| .read fun s => (f s).mapError refuse

/-- Changes the store. A refused change leaves it as it is. -/
def change (refuse : StoreError → ε) (f : Store → Except StoreError (α × Store)) :
    StoreProcedure ε α :=
  ExceptT.mk <| .once fun s =>
    match f s with
    | .ok (a, s) => (.ok a, s)
    | .error e => (.error (refuse e), s)

/-- Changes the store, with no other result. -/
def write (refuse : StoreError → ε) (f : Store → Except StoreError Store) :
    StoreProcedure ε Unit :=
  change refuse fun s => (f s).map fun s => ((), s)

end StoreProcedure
end Gazette
