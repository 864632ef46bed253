import Gazette.Proofs.Registration
import Gazette.Proofs.Unfailing

/-!
# Members

What a request does to the users. Only a registration, an edit of the own profile and a deletion of
a user touch them at all. So a user keeps the name in every request, and stays until an admin
deletes the user.
-/
namespace Gazette
open StoreProcedure

def Change.SparesUsers : Change → Prop
  | saveUser _ | deleteUser _ => False
  | _ => True

namespace Change
variable {s t : Store} {change : Change}

theorem SparesUsers.users_eq (h : change.SparesUsers) (happly : change.apply s = .ok t)
    (hs : s.Sound) : t.users = s.users := by
  cases change with
  | saveUser | deleteUser => exact h.elim
  | saveCategory category =>
      obtain ⟨-, rfl⟩ := Store.saveCategory_ok.1 happly
      rfl
  | saveTag tag =>
      obtain ⟨-, rfl⟩ := Store.saveTag_ok.1 happly
      rfl
  | savePost post =>
      obtain ⟨-, -, -, -, rfl⟩ := Store.savePost_ok.1 happly
      rfl
  | saveComment comment =>
      obtain ⟨-, rfl⟩ := Store.saveComment_ok.1 happly
      rfl
  | createSession =>
      obtain ⟨-, -, -, rfl⟩ := Store.createSession_ok.1 happly
      rfl
  | deletePost id =>
      obtain ⟨found, hdelete⟩ := found_of_map happly
      rcases (Store.deleting_ok hdelete).2 with ⟨-, rfl⟩ | hremove
      · rfl
      · obtain rfl := Store.removePosts_ok hs.replies_later hs.comment_ids hremove
        rfl
  | deleteComment id =>
      obtain ⟨found, hdelete⟩ := found_of_map happly
      rcases (Store.deleting_ok hdelete).2 with ⟨-, rfl⟩ | hremove
      · rfl
      · obtain rfl := Store.removeComments_ok hs.replies_later hs.comment_ids hremove
        rfl
  | addLike id =>
      cases happly
      rw [Store.addLike_eq_like]
      rfl
  | _ =>
      cases happly
      rfl

end Change

namespace Store
variable {s t u : Store} {user : User}

/-- Whether a user is still stored, under the same name. -/
def Retains (user : User) (s : Store) : Prop :=
  ∃ row, s.users.row? user.id = some row ∧ row.username = user.username

theorem Retains.of_eq (h : s.Retains user) (heq : t.users = s.users) : t.Retains user := by
  unfold Retains
  rwa [heq]

/-- A user is retained when somebody else is saved, or the same user under the same name. -/
theorem Retains.saveUser {given : User} (h : s.Retains user) (hsave : s.saveUser given = .ok t)
    (hname : given.id = user.id → given.username = user.username) : t.Retains user := by
  obtain ⟨row, hrow, husername⟩ := h
  obtain ⟨-, -, rfl⟩ := saveUser_ok.1 hsave
  by_cases hid : given.id = user.id
  · rw [← hid] at hrow
    refine ⟨mergeUser row given, ?_, hname hid⟩
    rw [← hid]
    exact Table.row?_put_self mergeUser_keepsKey hrow
  · exact ⟨row, (Table.row?_put_other mergeUser_keepsKey hid s.users).trans hrow, husername⟩

theorem deleting_false {α : Type} [Keyed α] {id : String} {table : Table α}
    {remaining : Except StoreError Store} (h : deleting id table s remaining = .ok (false, t)) :
    t = s := by
  unfold deleting at h
  split at h
  · cases remaining <;> cases h
  · cases h
    rfl

theorem Retains.deleteUser {id : String} {found : Bool} (h : s.Retains user) (hs : s.Sound)
    (hdelete : s.deleteUser id = .ok (found, t)) (hne : user.id ≠ id) : t.Retains user := by
  rcases (deleteUser_ok hs.replies_later hs.comment_ids hdelete).2 with ⟨-, rfl⟩ | rfl
  · exact h
  · obtain ⟨row, hrow, husername⟩ := h
    exact ⟨row, (Table.row?_remove hne s.users).trans hrow, husername⟩

end Store

namespace Api
open Api.Action Http Store

variable {s t : Store} {user : User} {context : Context}

theorem enrol_retains (hretains : s.Retains user) {given : User} (hne : given.id ≠ user.id) :
    (enrol context given).Leaves s (Store.Retains user) := by
  refine Leaves.bind (fun e t h => ?_) fun saved t h => ?_
  · obtain rfl := (Editor.saveUser_atomic _ _).adapt _ s e t h
    exact hretains
  · obtain ⟨-, hsave, -⟩ := Editor.saveUser_ok.1 (outcome_adapt_ok.1 h)
    have hkept : t.Retains user := hretains.saveUser hsave fun heq => absurd heq hne
    refine Leaves.then_reads (leaves_change hkept fun _ u hsession => ?_) fun _ => moves_pure _
    obtain ⟨v, hcreate, heq⟩ := Change.of_map_ok hsession
    obtain ⟨-, -, -, rfl⟩ := createSession_ok.1 hcreate
    cases heq
    exact hkept

theorem register_retains (hretains : s.Retains user) (hfresh : context.freshId ≠ user.id)
    (caller : Option Caller) (input : Registration) :
    (register context caller input).Leaves s (Store.Retains user) := by
  unfold register
  split
  · exact Leaves.after_reads (look_reads _) hretains fun _ _ =>
      Leaves.after_reads (ensure_reads _ _) hretains fun _ _ => enrol_retains hretains hfresh
  · exact enrol_retains hretains hfresh

/-- Who edits the own profile keeps the name, since it is stored without white space around it. -/
theorem updateProfile_retains (hnames : s.NamesTrimmed) (hretains : s.Retains user)
    (caller : Caller) (input : ProfileChange) :
    (updateProfile context caller input).Leaves s (Store.Retains user) := by
  refine Leaves.after_reads (found_look_reads _) hretains fun old hold => ?_
  refine Leaves.adapt ((Editor.saveUser_atomic _ _).leaves hretains fun saved t h => ?_) _
  obtain ⟨-, hsave, -⟩ := Editor.saveUser_ok.1 h
  refine hretains.saveUser hsave fun hid => ?_
  have hrow : s.users.row? caller.id = some old := (Exchange.found_look_ok.1 hold).1
  obtain ⟨row, hstored, husername⟩ := hretains
  have hsame : old.id = user.id := hid
  have hcaller : old.id = caller.id := Table.key_of_row? hrow
  rw [← hsame, hcaller, hrow] at hstored
  cases hstored
  show Text.trim old.username = user.username
  rw [hnames old (Table.mem_of_row? hrow), husername]

theorem deleteUser_ok {caller : Caller} {id : String} {u : Unit}
    (h : (deleteUser caller id).outcome s = (.ok u, t)) :
    caller.isAdmin = true ∧ s.deleteUser id = .ok (true, t) := by
  obtain ⟨_, hadmin, h⟩ := (ensure_reads _ _).then_ok.1 h
  obtain ⟨found, after, hchange, hfound⟩ := outcome_bind_ok.1 h
  obtain ⟨rfl, rfl⟩ := ensure_ok.1 hfound
  exact ⟨(ensure_ok.1 hadmin).1, change_ok.1 hchange⟩

/-- A deletion that fails changes nothing, be it that the user is not found. -/
theorem deleteUser_atomic (caller : Caller) (id : String) : (deleteUser caller id).Atomic := by
  refine Atomic.after_reads (ensure_reads _ _) fun _ s e t h => ?_
  rcases outcome_bind_error.1 h with hchange | ⟨found, after, hchange, hfound⟩
  · exact atomic_change _ _ s e t hchange
  · obtain rfl := (ensure_reads _ _).eq hfound
    cases found with
    | false => exact deleting_false (change_ok.1 hchange)
    | true => cases hfound

namespace Exchange
variable {x : Exchange} {op : Operation}

theorem perform_sparesUsers [Libraries] (hregister : op ≠ .register) (hself : op ≠ .updateSelf)
    (hdelete : ∀ raw, op ≠ .deleteUser raw) : Asks Change.SparesUsers (x.perform op) := by
  refine (x.perform_isFor op).imp fun change hchange => ?_
  obtain ⟨-, hform⟩ := hchange
  cases op with
  | register => exact absurd rfl hregister
  | updateSelf => exact absurd rfl hself
  | deleteUser raw => exact absurd rfl (hdelete raw)
  | _ => obtain ⟨_, rfl⟩ := hform <;> trivial

theorem after_users_eq [Libraries] (hs : s.Sound) (h : ∀ op, x.operation? = some op →
    op ≠ .register ∧ op ≠ .updateSelf ∧ ∀ raw, op ≠ .deleteUser raw) :
    (x.after s).users = s.users := by
  have hasks : Asks Change.SparesUsers x.guarded := by
    refine Asks.after_reads x.guard_reads fun _ => ?_
    unfold unguarded
    split
    · exact asks_pure _
    · exact asks_pure _
    · rename_i op _ hop
      obtain ⟨hregister, hself, hdelete⟩ := h op hop
      exact perform_sparesUsers hregister hself hdelete
  rcases x.answer_run s with ⟨-, hafter, -⟩ | ⟨hafter, -⟩
  · rw [after, hafter]
  · have hmoves : Moves (fun s t => s.Sound → t.Sound ∧ t.users = s.users) x.guarded := by
      refine hasks.moves.imp ?_
      rintro s t (rfl | ⟨change, hspares, happly⟩) hs
      · exact ⟨hs, rfl⟩
      · exact ⟨change.keeps_sound s t happly hs, hspares.users_eq happly hs⟩
    rw [after, hafter]
    refine (Procedure.Steps.run hmoves.steps (fun s hs => ⟨hs, rfl⟩) ?_ s hs).2
    intro s t u hst htu hs
    obtain ⟨ht, husers⟩ := hst hs
    exact ⟨(htu ht).1, (htu ht).2.trans husers⟩

theorem after_deleteUser_retains [Libraries] {raw : String} (hs : s.Sound)
    (hx : x.operation? = some (.deleteUser raw)) (hretains : s.Retains user)
    (hkept : ¬ (x.Deletes s (.user user.id) ∧ x.Succeeds s)) : (x.after s).Retains user := by
  by_cases hsuccess : x.Succeeds s
  · obtain ⟨-, response, hperform, -⟩ := (succeeds_iff hx).1 hsuccess
    obtain ⟨caller, hcaller, h⟩ := caller_then_ok.1 hperform
    obtain ⟨id, hraw, h⟩ := parameter_then_ok.1 h
    obtain ⟨_, haction, -⟩ := outcome_then_pure_ok.1 h
    obtain ⟨hadmin, hdelete⟩ := deleteUser_ok haction
    refine hretains.deleteUser hs hdelete ?_
    rintro rfl
    exact hkept ⟨.user hx hcaller hraw hadmin, hsuccess⟩
  · have hsame : x.after s = s := by
      refine after_eq_of_not_succeeds hx (fun e t h => ?_) (fun response t h => ?_) hsuccess
      · refine x.caller_reads.then_error h fun caller _ h => ?_
        refine (parameter_reads _ _).then_error h fun id _ h => ?_
        exact deleteUser_atomic _ _ s e t (outcome_then_pure_error h)
      · obtain ⟨caller, -, h⟩ := caller_then_ok.1 h
        obtain ⟨id, -, h⟩ := parameter_then_ok.1 h
        obtain ⟨_, -, rfl⟩ := outcome_then_pure_ok.1 h
        decide
    rwa [hsame]

/-- Every request retains a user, unless it is to delete this very user and succeeds. -/
theorem after_retains [Libraries] (hs : s.Sound) (hnames : s.NamesTrimmed)
    (hfresh : s.Unused x.freshId) (hretains : s.Retains user)
    (hkept : ¬ (x.Deletes s (.user user.id) ∧ x.Succeeds s)) :
    (x.after s).Retains user := by
  have hid : x.freshId ≠ user.id := by
    rintro heq
    obtain ⟨row, hrow, -⟩ := hretains
    exact Table.row?_ne_some (heq ▸ hfresh.users) hrow
  by_cases hop : ∃ op, x.operation? = some op ∧
      (op = .register ∨ op = .updateSelf ∨ ∃ raw, op = .deleteUser raw)
  · obtain ⟨op, hx, rfl | rfl | ⟨raw, rfl⟩⟩ := hop
    · refine after_of_leaves hx hretains fun _ => ?_
      refine Leaves.after_reads x.caller?_reads hretains fun caller _ => ?_
      refine Leaves.after_reads (x.input_reads _) hretains fun input _ => ?_
      exact (register_retains hretains hid caller input).then_reads fun _ => moves_pure _
    · refine after_of_leaves hx hretains fun _ => ?_
      refine Leaves.after_reads x.caller_reads hretains fun caller _ => ?_
      refine Leaves.after_reads (x.input_reads _) hretains fun input _ => ?_
      exact (updateProfile_retains hnames hretains caller input).then_reads fun _ => moves_pure _
    · exact after_deleteUser_retains hs hx hretains hkept
  · refine hretains.of_eq (after_users_eq hs fun op hx => ⟨?_, ?_, ?_⟩)
    · exact fun h => hop ⟨op, hx, .inl h⟩
    · exact fun h => hop ⟨op, hx, .inr (.inl h)⟩
    · exact fun raw h => hop ⟨op, hx, .inr (.inr ⟨raw, h⟩)⟩

end Exchange
end Api
end Gazette
