import Gazette.Proofs.Quoting
import Gazette.Proofs.Steady
import Gazette.Proofs.Tally

/-!
# Internal errors

The one request that is answered with an internal error is one to delete a user, a post or a comment
at the start of too long a chain of references. It changes nothing. This holds in every run in
which no counter of a post goes beyond its limit.
-/
namespace Gazette
open StoreProcedure

namespace Api
open Api.Action Http

namespace Exchange
variable {x : Exchange} {op : Operation} {s : Store}

/-- What a request is to delete, if it may be deleted by the caller: a user, or a post or a comment
that is there. -/
inductive Deletes (x : Exchange) (s : Store) : Entry → Prop
  | user {raw id : String} {caller : Caller} : x.operation? = some (.deleteUser raw) →
      x.callerIn s = some caller → parameter? raw = some id → caller.isAdmin = true →
      Deletes x s (.user id)
  | post {raw slug : String} {caller : Caller} {row : PostRow} :
      x.operation? = some (.deletePost raw) →
      x.callerIn s = some caller → parameter? raw = some slug →
      s.findPostRowAt? slug = some row → caller.mayModify row.authorId = true →
      Deletes x s (.post row.id)
  | comment {raw id : String} {caller : Caller} {comment : Comment} :
      x.operation? = some (.deleteComment raw) →
      x.callerIn s = some caller → parameter? raw = some id →
      s.comments.row? id = some comment → caller.mayModify comment.authorId = true →
      Deletes x s (.comment comment.id)

section Rules
variable {raw : String}

theorem caller?_answers {f : Option Caller → Action Response}
    (hf : (f (x.callerIn s)).Answers s) : Action.Answers (x.caller? >>= f) s := by
  have hsteady : x.caller?.Steady s := by
    unfold caller?
    split
    · exact failsWith_pure _
    · exact failsWith_read _
  refine .after_reads hsteady x.caller?_reads fun caller h => ?_
  obtain rfl : x.callerIn s = caller :=
    Except.ok.inj (congrArg Prod.fst ((outcome_caller? x s).symm.trans h))
  exact hf

theorem caller_answers {f : Caller → Action Response}
    (hf : ∀ caller, x.callerIn s = some caller → (f caller).Answers s) :
    Action.Answers (x.caller >>= f) s := by
  have hsteady : x.caller.Steady s := by
    intro e t h
    rw [caller, outcome_then (outcome_caller? x s)] at h
    cases hcaller : x.callerIn s with
    | none =>
        rw [hcaller] at h
        cases h
        exact ApiError.noConfusion
    | some known =>
        rw [hcaller] at h
        cases h
  exact .after_reads hsteady x.caller_reads fun known h => hf known (caller_ok.1 h).1

theorem parameter_steady (name raw : String) : (parameter name raw).Steady s := by
  unfold parameter
  split
  · exact failsWith_pure _
  · exact failsWith_throw ApiError.noConfusion

theorem parameter_answers {name : String} {f : String → Action Response}
    (hf : ∀ value, parameter? raw = some value → (f value).Answers s) :
    Action.Answers (parameter name raw >>= f) s :=
  .after_reads (parameter_steady name raw) (parameter_reads name raw) fun value h =>
    hf value (parameter_ok.1 h).1

theorem input_answers {α : Type} [Input α] {f : α → Action Response}
    (hf : ∀ input, (f input).Answers s) : Action.Answers (x.input α >>= f) s :=
  .after_reads (x.input_fails α).steady (x.input_reads α) fun input _ => hf input

theorem queryFields_steady (names : List String) : (x.queryFields names).Steady s :=
  ensure_then_steady ApiError.noConfusion fun _ => failsWith_pure _

theorem postFilter_answers {f : PostFilter → Action Response}
    (hf : ∀ filter, filter.limit = none → (f filter).Answers s) :
    Action.Answers (x.postFilter >>= f) s := by
  refine .after_reads ((queryFields_steady _).bind fun _ _ _ => failsWith_pure _)
    x.postFilter_reads fun filter h => hf filter ?_
  obtain ⟨category, author, tag, status, rfl⟩ := postFilter_ok h
  exact (PostFilter.ofParams_reads category author tag status).limit

end Rules

/-- Whether a store has room for the like that a request counts. -/
def HasRoom (x : Exchange) (s : Store) : Prop :=
  ∀ row ∈ s.posts, x.liked? s = some row.id → row.likes.next ≠ .inexact

/-- An operation is not answered with an internal error, if the store can be read and if there is
nothing to delete that goes too deep. -/
theorem perform_answers [Libraries] (hs : s.Sound) (hread : ∀ row ∈ s.posts, Store.Readable row)
    (hroom : x.HasRoom s) (hshallow : ∀ root, x.Deletes s root → ¬ s.TooDeep root)
    (hpasses : x.Passes s) (hop : x.operation? = some op) : (x.perform op).Answers s := by
  have hall := Store.readsAll hs hread
  have hunlimited : ∀ {filter : PostFilter}, filter.limit = none →
      ∀ limit, filter.limit = some limit → limit < 2 ^ 63 :=
    fun hnone limit h => nomatch hnone.symm.trans h
  cases op with
  | showHome => exact (readHome_steady hall).answers fun _ => (by omega : 200 ≠ 500)
  | listPosts =>
      exact postFilter_answers fun filter hlimit =>
        shownAll_answers (listPosts_steady hall (hunlimited hlimit))
  | listFeatured => exact shownAll_answers (listPosts_steady hall (by rintro limit ⟨⟩; decide))
  | createPost =>
      exact caller_answers fun _ _ => input_answers fun _ =>
        created_answers (savePost_steady hs hread _ _ _)
  | readPost raw =>
      exact caller?_answers <| parameter_answers fun _ _ =>
        shown_answers (readPost_steady hall _ _)
  | replacePost raw =>
      exact caller_answers fun _ _ => parameter_answers fun _ _ => input_answers fun _ =>
        shown_answers (ensure_then_steady ApiError.noConfusion fun _ =>
          updatePost_steady hs hread _ _ _)
  | updatePost raw =>
      exact caller_answers fun _ _ => parameter_answers fun _ _ => input_answers fun _ =>
        shown_answers (updatePost_steady hs hread _ _ _)
  | deletePost raw =>
      exact caller_answers fun _ hcaller => parameter_answers fun _ hraw =>
        removed_answers <| deletePost_steady hs hread fun _ hat hmay =>
          hshallow _ (.post hop hcaller hraw hat hmay)
  | likePost raw =>
      refine caller_answers fun _ hcaller => parameter_answers fun _ hraw =>
        shown_answers <| likePost_steady hall fun row hat stored hstored =>
          hroom stored (Table.mem_of_row? hstored) ?_
      rw [show stored.id = row.id from Table.key_of_row? hstored]
      simp [liked?, hop, hraw, hat, hpasses, hcaller]
  | listCategories => exact caller?_answers (shownAll_answers (failsWith_read _))
  | createCategory =>
      exact caller_answers fun _ _ => input_answers fun _ =>
        created_answers (createCategory_steady _)
  | readCategory raw => exact parameter_answers fun _ _ => shown_answers (found_look_steady _)
  | replaceCategory raw =>
      exact caller_answers fun _ _ => parameter_answers fun _ _ => input_answers fun _ =>
        shown_answers (updateCategory_steady _ _ _)
  | updateCategory raw =>
      exact caller_answers fun _ _ => parameter_answers fun _ _ => input_answers fun _ =>
        shown_answers (updateCategory_steady _ _ _)
  | deleteCategory raw =>
      exact caller_answers fun _ _ => parameter_answers fun _ _ =>
        removed_answers (deleteCategory_steady _)
  | listCategoryPosts raw =>
      exact parameter_answers fun _ _ => postFilter_answers fun _ hlimit =>
        shownAll_answers (listCategoryPosts_steady hall _ hlimit)
  | listTags => exact shownAll_answers (failsWith_read _)
  | createTag =>
      exact caller_answers fun _ _ => input_answers fun _ => created_answers (createTag_steady _)
  | readTag raw => exact parameter_answers fun _ _ => shown_answers (found_look_steady _)
  | updateTag raw =>
      exact caller_answers fun _ _ => parameter_answers fun _ _ => input_answers fun _ =>
        shown_answers (updateTag_steady _ _)
  | deleteTag raw =>
      exact caller_answers fun _ _ => parameter_answers fun _ _ =>
        removed_answers (deleteTag_steady _)
  | listComments =>
      refine caller?_answers (.after_reads (queryFields_steady _) (x.queryFields_reads _) ?_)
      exact fun _ _ => shownAll_answers (failsWith_read _)
  | createComment =>
      exact caller_answers fun _ _ => input_answers fun _ =>
        created_answers (createComment_steady hall _)
  | readComment raw =>
      exact caller?_answers <| parameter_answers fun _ _ =>
        shown_answers (readComment_steady _ _)
  | updateComment raw =>
      exact caller_answers fun _ _ => parameter_answers fun _ _ => input_answers fun _ =>
        shown_answers (updateComment_steady hall _ _)
  | deleteComment raw =>
      exact caller_answers fun _ hcaller => parameter_answers fun _ hraw =>
        removed_answers <| deleteComment_steady hs fun _ hfind hmay =>
          hshallow _ (.comment hop hcaller hraw hfind hmay)
  | listMessages => exact caller_answers fun _ _ => shownAll_answers listMessages_steady
  | sendMessage => exact input_answers fun _ => created_answers (sendMessage_steady _)
  | readMessage raw =>
      exact caller_answers fun _ _ => parameter_answers fun _ _ =>
        shown_answers (readMessage_steady _)
  | markMessage raw =>
      exact caller_answers fun _ _ => parameter_answers fun _ _ => input_answers fun _ =>
        shown_answers (markMessage_steady _ _)
  | deleteMessage raw =>
      exact caller_answers fun _ _ => parameter_answers fun _ _ =>
        removed_answers (deleteMessage_steady _)
  | readSettings => exact shown_answers (failsWith_read _)
  | updateSettings =>
      exact caller_answers fun _ _ => input_answers fun _ =>
        shown_answers (updateSettings_steady _)
  | listUsers => exact shownAll_answers (failsWith_read _)
  | register =>
      exact caller?_answers <| input_answers fun _ => created_answers (register_steady _ _)
  | readSelf => exact caller_answers fun _ _ => shown_answers (readUser_steady _)
  | updateSelf =>
      exact caller_answers fun _ _ => input_answers fun _ =>
        shown_answers (updateProfile_steady _)
  | readUser raw => exact parameter_answers fun _ _ => shown_answers (readUser_steady _)
  | deleteUser raw =>
      exact caller_answers fun _ hcaller => parameter_answers fun _ hraw =>
        removed_answers <| deleteUser_steady hs fun hadmin =>
          hshallow _ (.user hop hcaller hraw hadmin)

theorem guard_steady : x.guard.Steady s := by
  intro e t hguard
  by_cases hpasses : x.Passes s
  · cases (outcome_guard hpasses).symm.trans hguard
  · cases (outcome_guard_error hpasses).symm.trans hguard
    exact ApiError.noConfusion

/-- Whatever a request asks for, there is no internal error unless its operation comes to one. -/
theorem status_ne_of_perform [Libraries]
    (h : ∀ op, x.operation? = some op → x.Passes s → (x.perform op).Answers s) :
    (x.answer.run s).1.status ≠ 500 := by
  have hguarded : x.guarded.Answers s := by
    refine .after_reads guard_steady x.guard_reads fun _ hpass => ?_
    have hpasses : x.Passes s := by
      by_contra hno
      cases (outcome_guard_error hno).symm.trans hpass
    unfold unguarded
    split
    · exact ⟨failsWith_pure _, by rintro response t ⟨⟩; decide⟩
    · exact ⟨failsWith_pure _, by rintro response t ⟨⟩; decide⟩
    · exact h _ ‹_› hpasses
  rcases x.answer_run s with ⟨-, -, hstatus⟩ | ⟨-, hstatus, -⟩
  · rw [hstatus]
    decide
  · rw [hstatus, reply]
    cases hrun : x.guarded.outcome s with
    | mk r t =>
        cases r with
        | ok response => exact hguarded.status response t hrun
        | error e =>
            dsimp only
            rw [e.response_status]
            exact ApiError.status_ne_iff.2 (hguarded.steady e t hrun)

section Removals
variable {name raw value : String} {caller : Caller}

/-- What the store refuses as too deep is an internal error, and nothing follows. -/
theorem outcome_change_tooDeep {α : Type} {f : Store → Except StoreError (Bool × Store)}
    {g : Bool → Action α} (h : f s = .error .cascadeTooDeep) :
    outcome (Action.change f >>= g) s = (.error .internal, s) := by
  rw [outcome_bind, Action.change, outcome_change, h]
  rfl

theorem outcome_removed_error {p : Caller → String → Action Unit} {e : ApiError}
    (hcaller : x.callerIn s = some caller) (hraw : parameter? raw = some value)
    (h : (p caller value).outcome s = (.error e, s)) :
    outcome (do
      let caller ← x.caller
      let value ← parameter name raw
      removed (p caller value)) s = (.error e, s) := by
  rw [outcome_then (outcome_caller hcaller), outcome_then (parameter_ok.2 ⟨hraw, rfl⟩)]
  exact outcome_bind_error.2 (.inl h)

end Removals

/-- A deletion that goes too deep ends in an internal error and changes nothing. -/
theorem Deletes.perform_error [Libraries] (hs : s.Sound)
    (hread : ∀ row ∈ s.posts, Store.Readable row) {root : Entry} (h : x.Deletes s root)
    (hdeep : s.TooDeep root) :
    ∃ op, x.operation? = some op ∧ (x.perform op).outcome s = (.error .internal, s) := by
  have hexact := Store.deletesExactly hs
  cases h with
  | @user raw id caller hop hcaller hraw hadmin =>
      refine ⟨_, hop, outcome_removed_error hcaller hraw ?_⟩
      rw [deleteUser, requireAdmin, outcome_then (outcome_ensure hadmin s)]
      exact outcome_change_tooDeep ((hexact.user id).trans (if_pos hdeep))
  | @post raw slug caller row hop hcaller hraw hat hmay =>
      have hrow := List.mem_of_find?_eq_some hat
      obtain ⟨post, hpost⟩ := Store.exists_postOf.2 (hread row hrow)
      have hid : post.id = row.id := by rw [(Store.postOf_ok.1 hpost).2.2]
      refine ⟨_, hop, outcome_removed_error hcaller hraw ?_⟩
      rw [deletePost, outcome_then (outcome_ownPost hat hpost hmay), hid]
      exact outcome_change_tooDeep ((hexact.post row.id).trans (if_pos hdeep))
  | @comment raw id caller comment hop hcaller hraw hfind hmay =>
      refine ⟨_, hop, outcome_removed_error hcaller hraw ?_⟩
      rw [deleteComment, findComment, outcome_then (found_look_ok.2 ⟨hfind, rfl⟩),
        outcome_then (outcome_ensure hmay s)]
      exact outcome_change_tooDeep ((hexact.comment comment.id).trans (if_pos hdeep))

theorem Deletes.status [Libraries] (hs : s.Sound) (hread : ∀ row ∈ s.posts, Store.Readable row)
    {root : Entry} (h : x.Deletes s root) (hdeep : s.TooDeep root) (hpasses : x.Passes s) :
    (x.answer.run s).1.status = 500 ∧ x.after s = s := by
  obtain ⟨op, hop, hperform⟩ := h.perform_error hs hread hdeep
  have hguarded : x.guarded.outcome s = (.error .internal, s) := by
    rw [guarded_outcome hop, outcome_guard hpasses]
    exact hperform
  rcases x.answer_run s with ⟨hoptions, -⟩ | ⟨hafter, hstatus, -⟩
  · exact absurd hoptions (method_ne_options hop)
  · rw [reply, hguarded] at hstatus
    rw [hguarded] at hafter
    exact ⟨hstatus, hafter⟩

/-- A request is answered with an internal error iff it is to delete what goes too deep. -/
theorem status_iff [Libraries] (hs : s.Sound) (hread : ∀ row ∈ s.posts, Store.Readable row)
    (hroom : x.HasRoom s) :
    (x.answer.run s).1.status = 500 ↔
      x.Passes s ∧ ∃ root, x.Deletes s root ∧ s.TooDeep root := by
  constructor
  · intro hstatus
    by_contra hnot
    refine status_ne_of_perform (fun op hop hpasses => ?_) hstatus
    exact perform_answers hs hread hroom
      (fun root hroot hdeep => hnot ⟨hpasses, root, hroot, hdeep⟩) hpasses hop
  · rintro ⟨hpasses, root, hroot, hdeep⟩
    exact (hroot.status hs hread hdeep hpasses).1

end Exchange
end Api

theorem Counter.UpTo.readable {n : Nat} {counter : Counter} (h : counter.UpTo n) :
    counter ≠ .inexact := by
  obtain ⟨v, rfl, -⟩ := h
  exact Counter.noConfusion

theorem Counter.UpTo.next_ne_inexact {n : Nat} {counter : Counter} (h : counter.UpTo n)
    (hroom : n + 1 < 2 ^ 63) : counter.next ≠ .inexact := by
  obtain ⟨v, rfl, hv⟩ := h
  have hlow : (v : Int) < Counter.greatest := by
    rw [Counter.greatest]
    omega
  rw [Counter.next_exact hlow]
  exact Counter.noConfusion

namespace Call
variable {calls : List Call} {x : Api.Exchange} {s : Store}

/-- Internal errors are confined to deletions that go too deep. In any run in which posts are left
to requests, and no post is viewed or liked 2 ^ 63 times, a request is answered with an internal
error iff it passes the guard and its caller may delete what it names but that goes too deep, and
then it changes nothing. Every row is read back and every stored post can be read in every way, and
whatever else the store refuses is explained, likes included as long as there is room for one
more. -/
theorem internal_errors_confined [Libraries] (hrun : run calls Database.fresh.store = s)
    (hposts : ∀ call ∈ calls, call.LeavesPostsToRequests)
    (hviews : ∀ id, tally viewed? id (calls ++ [.request x]) Database.fresh.store < 2 ^ 63)
    (hlikes : ∀ id, tally liked? id (calls ++ [.request x]) Database.fresh.store < 2 ^ 63) :
    ((x.answer.run s).1.status = 500 ↔
      x.Passes s ∧ ∃ root, x.Deletes s root ∧ s.TooDeep root) ∧
    ((x.answer.run s).1.status = 500 → x.after s = s) ∧ s.ReadsAll ∧
    (∀ (change : Change) (e : StoreError), change.apply s = .error e → Api.ExplainsRefusal e ∨
      e = .cascadeTooDeep ∧ ∃ root, change.root? = some root ∧ s.TooDeep root) ∧
    ∀ (id : String) (e : StoreError), tally liked? id calls Database.fresh.store + 1 < 2 ^ 63 →
      (s.addLike id).1 = .error e → Api.ExplainsRefusal e := by
  subst hrun
  simp only [tally_append] at hviews hlikes
  have hs := run_keeps_sound calls Database.sound_fresh
  have htallied := run_tallied hposts
    (fun id => lt_of_le_of_lt (Nat.le_add_right _ _) (hviews id))
    (fun id => lt_of_le_of_lt (Nat.le_add_right _ _) (hlikes id))
  have hread : ∀ row ∈ (run calls Database.fresh.store).posts, Store.Readable row :=
    fun row hrow => ⟨(htallied.views row hrow).readable, (htallied.likes row hrow).readable⟩
  have hroom : x.HasRoom (run calls Database.fresh.store) := by
    intro row hrow hliked
    have hone := hlikes row.id
    rw [if_pos (show (request x).liked? _ = some row.id from hliked)] at hone
    exact (htallied.likes row hrow).next_ne_inexact hone
  have hstatus := Api.Exchange.status_iff hs hread hroom
  refine ⟨hstatus, fun h => ?_, Store.readsAll hs hread, fun change e h => ?_, ?_⟩
  · obtain ⟨hpasses, root, hroot, hdeep⟩ := hstatus.1 h
    exact (hroot.status hs hread hdeep hpasses).2
  · exact (Change.refusal hs h).imp_left Api.explainsRefusal_of_isConstraint
  · intro id e hone h
    have hmissing : e = .noSuchPost id := by
      refine Store.addLike_error (fun row hrow => ?_) h
      obtain rfl : row.id = id := Table.key_of_row? hrow
      exact (htallied.likes row (Table.mem_of_row? hrow)).next_ne_inexact hone
    rw [hmissing]
    exact .inr ⟨⟨id, rfl⟩, rfl⟩

end Call

attribute [local instance] Libraries.bare

namespace Sample

def withdrawing : Api.Exchange :=
  request 7 "x1" .delete "/api/posts/first" ""

end Sample

/-- The post is deleted, as no comment on it starts a long thread. -/
theorem Call.internal_errors_confined_of_withdrawn :
    (∀ call ∈ Sample.shelf, call.LeavesPostsToRequests) ∧
      (Sample.withdrawing.answer.run Sample.shelved).1.status = 204 ∧
      (∀ root, Sample.withdrawing.Deletes Sample.shelved root → ¬ Sample.shelved.TooDeep root) ∧
      Sample.shelved.ReadsAll := by
  have hposts : ∀ call ∈ Sample.shelf, call.LeavesPostsToRequests := by
    simp [Sample.shelf, Sample.start, LeavesPostsToRequests, Change.SparesPosts]
  have hfew : ∀ counted? id, tally counted? id (Sample.shelf ++ [.request Sample.withdrawing])
      Database.fresh.store < 2 ^ 63 := fun counted? id =>
    lt_of_le_of_lt (tally_le_length _ _ _ _) (by decide)
  have hstatus : (Sample.withdrawing.answer.run Sample.shelved).1.status = 204 := by
    decide +kernel
  have hpasses : Sample.withdrawing.Passes Sample.shelved := by decide +kernel
  obtain ⟨hiff, -, hreads, -⟩ := internal_errors_confined (s := Sample.shelved) rfl hposts
    (hfew viewed?) (hfew liked?)
  refine ⟨hposts, hstatus, fun root hroot hdeep => ?_, hreads⟩
  have herror := hiff.2 ⟨hpasses, root, hroot, hdeep⟩
  rw [hstatus] at herror
  cases herror

namespace Sample
open Api Api.Action Exchange Call

def signUp : Exchange :=
  { request 0 "u2" .post "/api/users"
      "\x7b\"username\":\"bob\",\"email\":\"bob@example.com\"\x7d" with freshToken := "token" }

def opening : List Call :=
  [.request signUp, .request (request 5 "p1" .post "/api/posts" "\x7b\"title\":\"Hello\"\x7d")]

/-- A comment of the member in reply to the one with the number before. It waits for approval. -/
def reply (n : Nat) : Comment :=
  { nested n with
    authorId := member.id, isApproved := false, createdAt := .ofSeconds 7
    updatedAt := .ofSeconds 7 }

/-- The store after a thread of some length on the post. -/
def threaded (length : Nat) : Store where
  users := [member]
  sessions := [⟨"fresh session", "token", member.id, "1970-01-01 01:00:00"⟩]
  posts := [helloRow]
  comments := (List.range length).map reply

def repliedTo (n : Nat) : String :=
  if n = 0 then "" else (n - 1).repr

def replying (n : Nat) : Exchange :=
  request 7 n.repr .post "/api/comments" <|
    "\x7b\"post\":\"p1\",\"content\":\"And another thing.\",\"parent\":\"" ++ repliedTo n ++ "\"" ++
      "\x7d"

def replies (length : Nat) : List Call :=
  opening ++ (List.range length).map fun n => .request (replying n)

def retracting : Exchange :=
  request 8 "x1" .delete "/api/comments/0" ""

theorem input_replying (n : Nat) : (replying n).input? NewComment =
    some { post := "p1", parent := some (repliedTo n), content := "And another thing." } := by
  have hplain : ∀ c ∈ (repliedTo n).toList, Json.IsPlain c := by
    unfold repliedTo
    split
    · simp
    · exact fun c => Json.isPlain_of_mem_repr
  have hbefore : Json.scanThrough .between
      "\x7b\"post\":\"p1\",\"content\":\"And another thing.\",\"parent\":\"".toList =
        ([.openObject, .text (some "post"), .colon, .text (some "p1"), .comma,
          .text (some "content"), .colon, .text (some "And another thing."), .comma,
          .text (some "parent"), .colon], .text []) := by
    decide +kernel
  have htokens := Json.tokenize_quoted hbefore hplain "\x7d"
  have hend : Json.tokenize "\x7d" = [.closeObject] := by decide +kernel
  have hheaders : (replying n).request.headers = (replying 0).request.headers := rfl
  have hjson : ((replying n).request.visibleHeader? "content-type").any Http.MediaType.isJson =
      true := by
    rw [Http.Request.visibleHeader?, Http.Request.headerValues, hheaders]
    decide +kernel
  have hbody : Json.tokenize (replying n).request.body = _ := htokens
  rw [input?, if_pos hjson, hbody, hend]
  rfl

theorem reply_id_inj {m n : Nat} (h : (reply m).id = (reply n).id) : m = n :=
  nested_id_inj h

theorem reached_reply {length n : Nat} (h : n < length) :
    Store.Reached (·.id == "0") (threaded length).comments (reply n) n :=
  Store.reached_chain (f := reply) (fun _ _ => reply_id_inj) (fun _ => rfl) h

theorem row?_reply {length n : Nat} (hs : (threaded length).Sound) (h : n < length) :
    (threaded length).comments.row? n.repr = some (reply n) :=
  Table.find?_of_mem hs.comment_ids (List.mem_map_of_mem (List.mem_range.2 h))

theorem deletes_retracting {length : Nat} (hs : (threaded length).Sound) (h : 0 < length) :
    retracting.Deletes (threaded length) (.comment "0") := by
  have hop : retracting.operation? = some (.deleteComment "0") := by decide +kernel
  have hcaller : retracting.callerIn (threaded length) = some (.ofUser member) :=
    (callerIn_congr (t := threaded 0) rfl rfl rfl rfl rfl).trans (by decide +kernel)
  have hraw : parameter? "0" = some "0" := by decide +kernel
  exact .comment hop hcaller hraw (row?_reply hs h) (by decide)

theorem run_opening : run opening Database.fresh.store = threaded 0 := by
  decide +kernel

theorem parentId_reply (n : Nat) :
    (some (repliedTo n)).filter (fun id => !Text.isBlankText id) = (reply n).parentId := by
  cases n with
  | zero => rfl
  | succ m =>
      show (some m.repr).filter (fun id => !Text.isBlankText id) = some m.repr
      rw [Option.filter_some, Json.isBlankText_repr]
      rfl

/-- What a comment of the thread replies to is in the thread before it. -/
theorem parent_reply {n : Nat} (hs : (threaded n).Sound) :
    ∀ id ∈ (reply n).parentId,
      ∃ parent, (threaded n).comments.row? id = some parent ∧ parent.postId = "p1" := by
  intro id hid
  cases n with
  | zero => cases hid
  | succ m =>
      obtain rfl : m.repr = id := Option.some.inj hid
      exact ⟨reply m, row?_reply hs (Nat.lt_succ_self m), rfl⟩

theorem saveComment_reply {n : Nat} (hs : (threaded n).Sound) :
    (threaded n).saveComment (reply n) = .ok (threaded (n + 1)) := by
  have hauthor : (threaded n).users.has member.id = true := rfl
  have hthere : (threaded n).posts.has "p1" = true := rfl
  refine Store.saveComment_ok.2 ⟨.inr ⟨hthere, hauthor, fun id hid => ?_⟩, ?_⟩
  · obtain ⟨parent, hfind, -⟩ := parent_reply hs id hid
    exact .inr (Table.has_of_row? hfind)
  · have hnew : (threaded n).comments.has (reply n).id = false :=
      Store.has_chain_eq_false (fun _ _ => reply_id_inj) n
    rw [Table.put_of_has_eq_false hnew]
    simp [threaded, List.range_succ]

theorem createComment_reply {n : Nat} (hs : (threaded n).Sound) :
    (createComment (replying n).context (.ofUser member)
      { post := "p1", parent := some (repliedTo n), content := "And another thing." }).outcome
        (threaded n) = (.ok (reply n), threaded (n + 1)) := by
  have hpost : ∃ post, (threaded n).findPost? "p1" = .ok (some post) :=
    Store.exists_findPost?.2 ⟨helloRow, rfl, by decide⟩
  have hrules : require "content" "And another thing." = .ok () := by decide +kernel
  refine outcome_adapt_ok.2 ?_
  dsimp only
  rw [parentId_reply]
  exact Editor.saveComment_ok.2
    ⟨hrules, hpost, Editor.saveReply_ok.2 ⟨parent_reply hs, saveComment_reply hs, rfl⟩⟩

theorem after_replying {n : Nat} (hs : (threaded n).Sound) :
    (replying n).after (threaded n) = threaded (n + 1) := by
  have hop : (replying n).operation? = some .createComment := by
    show (Resource.ofPath? "/api/comments").bind (Resource.operation? .post) = _
    decide +kernel
  have hcaller : (replying n).callerIn (threaded n) = some (.ofUser member) :=
    (callerIn_congr (y := replying 0) (t := threaded 0) rfl rfl rfl rfl rfl).trans (by
      decide +kernel)
  have hpasses : (replying n).Passes (threaded n) := .inr (.inl rfl)
  have hperform : ((replying n).perform .createComment).outcome (threaded n) =
      (.ok (.json 201 (reply n).toJson), threaded (n + 1)) :=
    caller_then_ok.2 ⟨_, hcaller, input_then_ok.2 ⟨_, input_replying n,
      outcome_then_pure_ok.2 ⟨_, createComment_reply hs, rfl⟩⟩⟩
  exact (answer_of_ok hop nofun hpasses hperform).1

theorem requests_replies (length : Nat) :
    ∀ call ∈ replies length, ∃ x, call = Call.request x := by
  intro call hcall
  rcases List.mem_append.1 hcall with hfirst | hreply
  · simp only [opening, List.mem_cons, List.not_mem_nil, or_false] at hfirst
    rcases hfirst with rfl | rfl <;> exact ⟨_, rfl⟩
  · obtain ⟨n, -, rfl⟩ := List.mem_map.1 hreply
    exact ⟨_, rfl⟩

theorem length_replies (length : Nat) : (replies length).length = length + 2 := by
  rw [replies, List.length_append, List.length_map, List.length_range, Nat.add_comm]
  rfl

theorem run_replies (length : Nat) :
    run (replies length) Database.fresh.store = threaded length := by
  induction length with
  | zero =>
      rw [replies, List.range_zero, List.map_nil, List.append_nil]
      exact run_opening
  | succ n ih =>
      have hsplit : replies (n + 1) = replies n ++ [.request (replying n)] := by
        simp [replies, List.range_succ]
      have hsound := run_keeps_sound (replies n) Database.sound_fresh
      rw [ih] at hsound
      rw [hsplit, run_append, ih]
      exact after_replying hsound

end Sample

/-- A thread of 1001 comments, made by requests alone, has a first comment whose author cannot
delete it: the request is answered with an internal error. -/
theorem Call.internal_error_of_long_thread :
    (∀ call ∈ Sample.replies 1001, ∃ x, call = Call.request x) ∧
      (∀ id, tally viewed? id (Sample.replies 1001 ++ [.request Sample.retracting])
        Database.fresh.store < 2 ^ 63) ∧
      (∀ id, tally liked? id (Sample.replies 1001 ++ [.request Sample.retracting])
        Database.fresh.store < 2 ^ 63) ∧
      (Sample.retracting.answer.run (run (Sample.replies 1001) Database.fresh.store)).1.status =
        500 := by
  have hlength : (Sample.replies 1001 ++ [Call.request Sample.retracting]).length = 1004 := by
    rw [List.length_append, Sample.length_replies]
    rfl
  have hfew : ∀ counted? id, tally counted? id (Sample.replies 1001 ++
      [.request Sample.retracting]) Database.fresh.store < 2 ^ 63 := fun counted? id =>
    lt_of_le_of_lt (tally_le_length _ _ _ _) (by rw [hlength]; decide)
  have hsound := run_keeps_sound (Sample.replies 1001) Database.sound_fresh
  rw [Sample.run_replies] at hsound ⊢
  have hdeep : (Sample.threaded 1001).TooDeep (.comment "0") :=
    ⟨Sample.reply 1000, 1000, Sample.reached_reply (by decide), by decide⟩
  have hread : ∀ row ∈ (Sample.threaded 1001).posts, Store.Readable row :=
    List.forall_mem_singleton.2 ⟨nofun, nofun⟩
  exact ⟨Sample.requests_replies 1001, hfew viewed?, hfew liked?,
    ((Sample.deletes_retracting hsound (by decide)).status hsound hread hdeep (.inr (.inl rfl))).1⟩

end Gazette
