import Gazette.Proofs.Integrity

/-!
# Turns

Any number of clients who take their steps in turns, in any order. Every call of the store is one
step. What is known of a turn is the store that it saw and what its step does to any store, so that
it can be told which call it was.
-/
namespace Gazette

namespace Procedure
variable {σ α : Type} {K : (σ → σ) → Prop} {clients : List (Procedure σ α)} {order : List Nat}

/-- What the next step of a procedure does to any state, and what is left of the procedure after it.
A procedure that has come to its end takes no step. -/
def next? : Procedure σ α → σ → Option ((σ → σ) × Procedure σ α)
  | done _, _ => none
  | step act next, s => some (fun t => (act t).2, next (act s).1)

theorem Each.next? {p left : Procedure σ α} {s : σ} {act : σ → σ} (hp : p.Each K)
    (h : p.next? s = some (act, left)) : K act ∧ left.Each K := by
  cases p with
  | done a => cases h
  | step f next =>
      cases h
      exact ⟨hp.1, hp.2 _⟩

/-- A step that was taken: the state that it saw, and what it does to any state. -/
structure Turn (σ : Type) where
  before : σ
  act : σ → σ

def Turn.after (turn : Turn σ) : σ :=
  turn.act turn.before

/-- What comes of some turns: the turns themselves, what the clients are still about to do, and the
state that is left. -/
structure Play (σ α : Type) where
  turns : List (Turn σ)
  clients : List (Procedure σ α)
  state : σ

/-- Takes turns in an order that names the clients by their places. A client who has no step left
lets the turn pass. -/
def play : List Nat → List (Procedure σ α) → σ → Play σ α
  | [], clients, s => ⟨[], clients, s⟩
  | place :: order, clients, s =>
    match clients[place]?.bind fun client => client.next? s with
    | none => play order clients s
    | some (act, left) =>
      let rest := play order (clients.set place left) (act s)
      { rest with turns := ⟨s, act⟩ :: rest.turns }

/-- The first of some turns passes, or a client takes a step of the kind that all of them take. -/
theorem play_cons (place : Nat) (order : List Nat) (h : ∀ p ∈ clients, p.Each K) (s : σ) :
    play (place :: order) clients s = play order clients s ∨
      ∃ act left, K act ∧ (∀ p ∈ clients.set place left, p.Each K) ∧
        play (place :: order) clients s =
          ⟨⟨s, act⟩ :: (play order (clients.set place left) (act s)).turns,
            (play order (clients.set place left) (act s)).clients,
            (play order (clients.set place left) (act s)).state⟩ := by
  rw [play]
  cases hnext : clients[place]?.bind fun client => client.next? s with
  | none => exact .inl rfl
  | some result =>
      obtain ⟨act, left⟩ := result
      obtain ⟨client, hclient, hstep⟩ := Option.bind_eq_some_iff.1 hnext
      obtain ⟨hact, hleft⟩ := (h client (List.mem_of_getElem? hclient)).next? hstep
      refine .inr ⟨act, left, hact, fun p hp => ?_, rfl⟩
      rcases List.mem_or_eq_of_mem_set hp with hold | rfl
      · exact h p hold
      · exact hleft

theorem play_keeps {I : σ → Prop} (keep : ∀ act s, K act → I s → I (act s)) {s : σ}
    (h : ∀ p ∈ clients, p.Each K) (hs : I s) : I (play order clients s).state := by
  induction order generalizing clients s with
  | nil => exact hs
  | cons place order ih =>
      rcases play_cons place order h s with hpass | ⟨act, left, hact, hleft, hplay⟩
      · rw [hpass]
        exact ih h hs
      · rw [hplay]
        exact ih hleft (keep act s hact hs)

/-- Clients who are in the middle of something go on with steps of the same kind. -/
theorem play_each {s : σ} (h : ∀ p ∈ clients, p.Each K) :
    ∀ p ∈ (play order clients s).clients, p.Each K := by
  induction order generalizing clients s with
  | nil => exact h
  | cons place order ih =>
      rcases play_cons place order h s with hpass | ⟨act, left, -, hleft, hplay⟩
      · rw [hpass]
        exact ih h
      · rw [hplay]
        exact ih hleft

open Classical in
noncomputable def count (P : Turn σ → Prop) (turns : List (Turn σ)) : Nat :=
  turns.countP fun turn => P turn

variable {P : Turn σ → Prop} {turn : Turn σ} {turns : List (Turn σ)}

theorem count_cons_of_pos (h : P turn) : count P (turn :: turns) = count P turns + 1 :=
  List.countP_cons_of_pos (by simpa using h)

theorem count_cons_of_neg (h : ¬ P turn) : count P (turn :: turns) = count P turns :=
  List.countP_cons_of_neg (by simpa using h)

theorem count_le_length (P : Turn σ → Prop) (turns : List (Turn σ)) :
    count P turns ≤ turns.length :=
  List.countP_le_length

end Procedure

theorem Change.Step.keeps_sound {P : Change → Prop} {act : Store → Store} {s : Store}
    (h : Step P act) (hs : s.Sound) : (act s).Sound := by
  rcases h.via s with hsame | ⟨change, -, happly⟩
  · exact hsame ▸ hs
  · exact change.keeps_sound s _ happly hs

namespace Api.Exchange
open StoreProcedure Change

/-- Every step of the answer to a request looks at the store or asks it for a change that the
request may make. -/
theorem answer_each [Libraries] (x : Exchange) : x.answer.Each (Step x.May) := by
  have hrespond : (respond x.guarded).Each (Step x.May) :=
    Procedure.Each.bind x.guarded_asks.each fun r => by cases r <;> trivial
  have hsame : x.answerSameOrigin.Each (Step x.May) :=
    Procedure.Each.bind hrespond fun _ => trivial
  unfold answer
  split
  · exact hsame
  · split
    · trivial
    · exact Procedure.Each.bind hsame fun _ => trivial

end Api.Exchange

namespace Submission
open StoreProcedure

def edit [Libraries] : Submission → Editor.Edit Unit
  | .user u now => do let _ ← Editor.saveUser u now
  | .category c => do let _ ← Editor.saveCategory c
  | .tag g => do let _ ← Editor.saveTag g
  | .post p now => do let _ ← Editor.savePost p now
  | .comment c now => do let _ ← Editor.saveComment c now
  | .message m => do let _ ← Editor.saveMessage m
  | .settings x now => do let _ ← Editor.saveSettings x now

theorem edit_outcome [Libraries] (submission : Submission) (s : Store) :
    submission.edit.outcome s = submission.outcome s := by
  have hunnamed : ∀ {α : Type} (p : Editor.Edit α),
      StoreProcedure.outcome (p >>= fun _ => pure ()) s = outcome.unnamed (p.outcome s) := by
    intro α p
    rw [outcome_bind, outcome.unnamed]
    obtain ⟨r, t⟩ := p.outcome s
    cases r <;> rfl
  cases submission with
  | user u now => exact hunnamed (Editor.saveUser u now)
  | category c => exact hunnamed (Editor.saveCategory c)
  | tag g => exact hunnamed (Editor.saveTag g)
  | post p now => exact hunnamed (Editor.savePost p now)
  | comment c now => exact hunnamed (Editor.saveComment c now)
  | message m => exact hunnamed (Editor.saveMessage m)
  | settings x now => exact hunnamed (Editor.saveSettings x now)

theorem edit_asks [Libraries] (submission : Submission) : submission.edit.Asks fun _ => True := by
  cases submission with
  | user u now => exact (Editor.saveUser_asks fun _ _ => trivial).bind fun _ => asks_pure _
  | category c => exact (Editor.saveCategory_asks fun _ _ => trivial).bind fun _ => asks_pure _
  | tag g => exact (Editor.saveTag_asks fun _ _ => trivial).bind fun _ => asks_pure _
  | post p now => exact (Editor.savePost_asks fun _ _ => trivial).bind fun _ => asks_pure _
  | comment c now => exact (Editor.saveComment_asks fun _ => trivial).bind fun _ => asks_pure _
  | message m => exact (Editor.saveMessage_asks fun _ => trivial).bind fun _ => asks_pure _
  | settings x now => exact (Editor.saveSettings_asks fun _ => trivial).bind fun _ => asks_pure _

end Submission

namespace Call
open Change Procedure

def procedure [Libraries] : Call → Procedure Store Unit
  | direct change => .once fun s => ((), change.after s)
  | submit submission => do
    let _ ← submission.edit.run
    return ()
  | request x => do
    let _ ← x.answer
    return ()

/-- A call whose steps are taken one right after the other leaves what it leaves as a whole. -/
theorem procedure_run [Libraries] (call : Call) (s : Store) :
    (call.procedure.run s).2 = call.after s := by
  cases call with
  | direct change => rfl
  | submit submission =>
      show ((submission.edit.run >>= fun _ => (pure () : Procedure Store Unit)).run s).2 =
        submission.after s
      rw [run_bind, run_pure, Submission.after, ← submission.edit_outcome]
      rfl
  | request x =>
      show ((x.answer >>= fun _ => (pure () : Procedure Store Unit)).run s).2 = (x.answer.run s).2
      rw [run_bind, run_pure]

theorem procedure_each [Libraries] (call : Call) : call.procedure.Each (Step fun _ => True) := by
  cases call with
  | direct change => exact ⟨.inr ⟨change, trivial, rfl⟩, fun _ => trivial⟩
  | submit submission => exact Each.bind submission.edit_asks.each fun _ => trivial
  | request x =>
      exact Each.bind (x.answer_each.imp fun _ h => h.imp fun _ _ => trivial) fun _ => trivial

theorem play_keeps_sound {clients : List (Procedure Store Unit)} {order : List Nat} {s : Store}
    (h : ∀ p ∈ clients, p.Each (Step fun _ => True)) (hs : s.Sound) :
    (play order clients s).state.Sound :=
  play_keeps (fun _ _ hact => hact.keeps_sound) h hs

end Call
end Gazette
