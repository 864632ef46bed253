import Gazette.Proofs.Rows

/-!
# Discussions

Where comments are saved through the editor only, every reply is on the same post as the comment it
replies to, and going up from reply to parent comes to an end. A comment keeps its place in the
discussion for as long as it is stored.
-/
namespace Gazette

/-- A comment is where another was: on the same post, by the same author, in reply to the same. -/
structure Comment.SamePlace (old new : Comment) : Prop where
  post : new.postId = old.postId
  author : new.authorId = old.authorId
  parent : new.parentId = old.parentId

namespace Store

def parent? (s : Store) (comment : Comment) : Option Comment :=
  comment.parentId.bind fun id => s.comments.row? id

/-- The comment at the end of some steps up from a comment, each to what was replied to. -/
def ancestor? (s : Store) : Nat → Comment → Option Comment
  | 0, comment => some comment
  | steps + 1, comment => (s.parent? comment).bind (s.ancestor? steps)

/-- The comments form a forest on every post. -/
structure Forest (s : Store) : Prop where
  same_post : ∀ comment ∈ s.comments, ∀ id ∈ comment.parentId,
    ∃ parent, s.comments.row? id = some parent ∧ parent.postId = comment.postId
  top : ∀ comment ∈ s.comments,
    ∃ steps top, s.ancestor? steps comment = some top ∧ top.parentId = none
  acyclic : ∀ comment ∈ s.comments, ∀ steps, s.ancestor? (steps + 1) comment ≠ some comment

/-- Every reply is to another comment, which is on the same post. -/
def Threaded (comments : Table Comment) : Prop :=
  ∀ comment ∈ comments, ∀ id ∈ comment.parentId,
    id ≠ comment.id ∧ ∃ parent ∈ comments, parent.id = id ∧ parent.postId = comment.postId

variable {s t : Store} {comment other : Comment} {before rest : Table Comment} {steps : Nat}

theorem mem_before_of_parent? (hs : s.Sound) (h : Threaded s.comments)
    (hsplit : s.comments = before ++ comment :: rest) (hparent : s.parent? comment = some other) :
    other ∈ before := by
  obtain ⟨id, hid, hrow⟩ := Option.bind_eq_some_iff.1 hparent
  have hkey : other.id = id := Table.key_of_row? hrow
  have hmem : comment ∈ s.comments := by simp [hsplit]
  have hself : comment.id ≠ other.id := fun he => (h comment hmem id hid).1 (hkey ▸ he.symm)
  have hlater := hs.replies_later
  rw [hsplit] at hlater
  exact hlater.mem_before (hsplit ▸ Table.mem_of_row? hrow) (hkey ▸ hid) hself

theorem mem_before_of_ancestor? (hs : s.Sound) (h : Threaded s.comments)
    (hsplit : s.comments = before ++ comment :: rest)
    (hancestor : s.ancestor? (steps + 1) comment = some other) : other ∈ before := by
  induction steps generalizing comment before rest with
  | zero =>
      obtain ⟨parent, hparent, hother⟩ := Option.bind_eq_some_iff.1 hancestor
      exact Option.some.inj hother ▸ mem_before_of_parent? hs h hsplit hparent
  | succ steps ih =>
      obtain ⟨parent, hparent, hother⟩ := Option.bind_eq_some_iff.1 hancestor
      obtain ⟨first, last, rfl⟩ :=
        List.append_of_mem (mem_before_of_parent? hs h hsplit hparent)
      have hfurther : s.comments = first ++ parent :: (last ++ comment :: rest) := by
        rw [hsplit, List.append_assoc, List.cons_append]
      exact List.mem_append_left _ (ih hfurther hother)

/-- The way up ends. The induction is on the number of comments that stand before. -/
theorem exists_top (hs : s.Sound) (h : Threaded s.comments)
    (hsplit : s.comments = before ++ comment :: rest) :
    ∃ steps top, s.ancestor? steps comment = some top ∧ top.parentId = none := by
  induction hlength : before.length using Nat.strongRecOn generalizing comment before rest with
  | ind length ih =>
      cases hparent : comment.parentId with
      | none => exact ⟨0, comment, rfl, hparent⟩
      | some id =>
          have hmem : comment ∈ s.comments := by simp [hsplit]
          obtain ⟨-, parent, hstored, rfl, -⟩ := h comment hmem id hparent
          have hrow : s.parent? comment = some parent := by
            rw [parent?, hparent]
            exact (Table.row?_eq_some_iff hs.comment_ids).2 ⟨hstored, rfl⟩
          obtain ⟨first, last, rfl⟩ := List.append_of_mem (mem_before_of_parent? hs h hsplit hrow)
          have hfurther : s.comments = first ++ parent :: (last ++ comment :: rest) := by
            rw [hsplit, List.append_assoc, List.cons_append]
          have hshorter : first.length < length := by
            rw [← hlength, List.length_append, List.length_cons]
            exact Nat.lt_add_of_pos_right (Nat.succ_pos _)
          obtain ⟨steps, top, hsteps, htop⟩ := ih first.length hshorter hfurther rfl
          exact ⟨steps + 1, top, by rw [ancestor?, hrow]; exact hsteps, htop⟩

theorem Threaded.forest (h : Threaded s.comments) (hs : s.Sound) : s.Forest where
  same_post comment hmem id hid := by
    obtain ⟨-, parent, hstored, hkey, hpost⟩ := h comment hmem id hid
    exact ⟨parent, (Table.row?_eq_some_iff hs.comment_ids).2 ⟨hstored, hkey⟩, hpost⟩
  top comment hmem := by
    obtain ⟨before, rest, hsplit⟩ := List.append_of_mem hmem
    exact exists_top hs h hsplit
  acyclic comment hmem steps hancestor := by
    obtain ⟨before, rest, hsplit⟩ := List.append_of_mem hmem
    have hbefore := mem_before_of_ancestor? hs h hsplit hancestor
    have hids := hs.comment_ids
    rw [hsplit, List.map_append, List.nodup_append] at hids
    exact hids.2.2 _ (List.mem_map_of_mem hbefore) _ (List.mem_map_of_mem List.mem_cons_self) rfl

/-- A saved comment that replies to something on the same post fits in. -/
theorem Threaded.put (h : Threaded s.comments) (hs : s.Sound)
    (hparent : ∀ id ∈ comment.parentId,
      ∃ parent ∈ s.comments, parent.id = id ∧ parent.postId = comment.postId) :
    Threaded (s.comments.put mergeComment comment) := by
  have hstays : ∀ old ∈ s.comments, ∃ new ∈ s.comments.put mergeComment comment,
      new.id = old.id ∧ new.postId = old.postId := by
    intro old hold
    by_cases hid : old.id = comment.id
    · exact ⟨_, (Table.mem_put hs.comment_ids).2 (.inr (.inl ⟨old, hold, hid, rfl⟩)), rfl, rfl⟩
    · exact ⟨old, (Table.mem_put hs.comment_ids).2 (.inl ⟨hold, hid⟩), rfl, rfl⟩
  have hfits : ∀ old ∈ s.comments, ∀ id ∈ old.parentId, id ≠ old.id ∧
      ∃ parent ∈ s.comments.put mergeComment comment,
        parent.id = id ∧ parent.postId = old.postId := by
    intro old hold id hid
    obtain ⟨hself, parent, hmem, hkey, hpost⟩ := h old hold id hid
    obtain ⟨new, hnew, hnewId, hnewPost⟩ := hstays parent hmem
    exact ⟨hself, new, hnew, hnewId.trans hkey, hnewPost.trans hpost⟩
  intro c hc
  rcases (Table.mem_put hs.comment_ids).1 hc with ⟨hold, -⟩ | ⟨old, hold, -, rfl⟩ | ⟨habsent, rfl⟩
  · exact hfits c hold
  · exact hfits old hold
  · intro id hid
    obtain ⟨parent, hmem, hkey, hpost⟩ := hparent id hid
    obtain ⟨new, hnew, hnewId, hnewPost⟩ := hstays parent hmem
    refine ⟨?_, new, hnew, hnewId.trans hkey, hnewPost.trans hpost⟩
    exact hkey ▸ Table.has_eq_false_iff.1 habsent parent hmem

/-- A reply goes with its parent, so that what is left fits together. -/
theorem Threaded.unreached (h : Threaded s.comments) (hs : s.Sound) (selected : Comment → Bool) :
    Threaded (Store.unreached selected s.comments) := by
  intro c hc id hid
  obtain ⟨hmem, hnot⟩ := mem_unreached.1 hc
  obtain ⟨hself, parent, hparent, hkey, hpost⟩ := h c hmem id hid
  refine ⟨hself, parent, mem_unreached.2 ⟨hparent, fun replies hreached => ?_⟩, hkey, hpost⟩
  obtain ⟨more, hreply⟩ := hreached.exists_of_parent hs.comment_ids hmem (hkey ▸ hid)
  exact hnot more hreply

end Store

namespace Change
variable {s t : Store} {change : Change}

/-- A comment keeps its place until it is deleted, whatever is saved under its id. -/
theorem comment_kept (h : change.apply s = .ok t) (hs : s.Sound) {id : String} {old : Comment}
    (hrow : s.comments.row? id = some old) :
    t.comments.row? id = none ∨ ∃ new, t.comments.row? id = some new ∧ old.SamePlace new := by
  rcases commentRow_cases h hs id with ⟨comment, rfl, rfl⟩ | hnone | hsame
  · have hput := Store.row?_saveComment h comment.id
    rw [if_pos rfl, hrow] at hput
    exact .inr ⟨_, hput, rfl, rfl, rfl⟩
  · exact .inl hnone
  · exact .inr ⟨old, hsame.trans hrow, rfl, rfl, rfl⟩

/-- What is done to other things leaves the threads as they are, or removes some as a whole. -/
theorem keeps_threaded (h : change.apply s = .ok t) (hs : s.Sound)
    (hother : ∀ comment, change ≠ .saveComment comment) (hthreaded : Store.Threaded s.comments) :
    Store.Threaded t.comments := by
  rcases (apply_keeps h hs).comments with ⟨comment, rfl⟩ | heq | ⟨selected, hunreached⟩
  · exact absurd rfl (hother comment)
  · rw [heq]
    exact hthreaded
  · rw [hunreached]
    exact hthreaded.unreached hs selected

end Change

namespace Call
open Store
variable {s : Store} {call : Call} {calls : List Call} {id : String}

/-- A call of the store or of the editor, and of the editor if it saves a comment. -/
def LeavesCommentsToEditor (call : Call) : Prop :=
  match call with
  | direct change => ∀ comment, change ≠ .saveComment comment
  | submit _ => True
  | request _ => False

section
variable [Libraries]

/-- The editor saves a reply only if what it replies to is stored on the same post. -/
theorem submit_keeps_threaded (submission : Submission) (hs : s.Sound)
    (h : Threaded s.comments) : Threaded (submission.after s).comments := by
  cases submission with
  | comment c now =>
      cases hedit : (Editor.saveComment c now).outcome s with
      | mk result t =>
          have hafter : (Submission.comment c now).after s = t := congrArg Prod.snd hedit
          rw [hafter]
          cases result with
          | error e =>
              rw [Editor.saveComment_atomic c now s e t hedit]
              exact h
          | ok saved =>
              obtain ⟨-, -, hreply⟩ := Editor.saveComment_ok.1 hedit
              obtain ⟨hparent, hsave, -⟩ := Editor.saveReply_ok.1 hreply
              obtain ⟨-, rfl⟩ := saveComment_ok.1 hsave
              refine h.put hs fun id hid => ?_
              obtain ⟨parent, hrow, hpost⟩ := hparent id hid
              exact ⟨parent, Table.mem_of_row? hrow, Table.key_of_row? hrow, hpost⟩
  | _ =>
      rcases Submission.after_cases _ s with hsame | ⟨change, hchange, happly⟩
      · rw [hsame]
        exact h
      · refine Change.keeps_threaded happly hs ?_ h
        rintro comment rfl
        cases Submission.savesComment_of_change? hchange fun _ _ => nofun

theorem after_keeps_threaded (hcall : call.LeavesCommentsToEditor) (hs : s.Sound)
    (h : Threaded s.comments) : Threaded (call.after s).comments := by
  cases call with
  | direct change =>
      rcases Change.after_cases change s with hsame | happly
      · rw [after, hsame]
        exact h
      · exact Change.keeps_threaded happly hs hcall h
  | submit submission => exact submit_keeps_threaded submission hs h
  | request x => exact hcall.elim

theorem run_threaded (hcalls : ∀ call ∈ calls, call.LeavesCommentsToEditor) :
    Threaded (run calls Database.fresh.store).comments := by
  refine (steps_keep_of_sound (I := fun s => Threaded s.comments) ?_ Database.sound_fresh ?_).1
  · intro step hstep
    exact after_keeps_threaded (hcalls step.2 (mem_of_mem_steps hstep))
  · rw [Database.fresh_store]
    exact nofun

/-- A call that is no request makes one change at most, so that nothing is deleted and then saved
anew by it. -/
theorem comment_kept (hcall : call.LeavesCommentsToEditor) (hs : s.Sound) {old : Comment}
    (hrow : s.comments.row? id = some old) :
    (call.after s).comments.row? id = none ∨
      ∃ new, (call.after s).comments.row? id = some new ∧ old.SamePlace new := by
  have hsame : call.after s = s → (call.after s).comments.row? id = none ∨
      ∃ new, (call.after s).comments.row? id = some new ∧ old.SamePlace new := by
    intro heq
    rw [heq]
    exact .inr ⟨old, hrow, rfl, rfl, rfl⟩
  cases call with
  | direct change =>
      rcases Change.after_cases change s with heq | happly
      · exact hsame heq
      · exact Change.comment_kept happly hs hrow
  | submit submission =>
      rcases submission.after_cases s with heq | ⟨change, -, happly⟩
      · exact hsame heq
      · exact Change.comment_kept happly hs hrow
  | request x => exact hcall.elim

/-- Comments that are saved through the editor form a forest on every post, whatever else is saved
and deleted. From its creation to its deletion a comment stays on its post, with its author and its
parent. -/
theorem discussions_are_forests (calls : List Call)
    (hcalls : ∀ call ∈ calls, call.LeavesCommentsToEditor) :
    (run calls Database.fresh.store).Forest ∧
      ∀ before rest id old, calls = before ++ rest →
        (run before Database.fresh.store).comments.row? id = some old →
        (∀ step ∈ steps rest (run before Database.fresh.store),
          (step.2.after step.1).comments.has id = true) →
        ∃ new, (run calls Database.fresh.store).comments.row? id = some new ∧
          old.SamePlace new := by
  refine ⟨(run_threaded hcalls).forest (run_keeps_sound calls Database.sound_fresh), ?_⟩
  rintro before rest id old rfl hrow hstored
  rw [run_append]
  have hfirst : ∃ new, (run before Database.fresh.store).comments.row? id = some new ∧
      old.SamePlace new := ⟨old, hrow, rfl, rfl, rfl⟩
  have hsound := run_keeps_sound before Database.sound_fresh
  refine (steps_keep_of_sound (I := fun t =>
    ∃ new, t.comments.row? id = some new ∧ old.SamePlace new) ?_ hsound hfirst).1
  rintro ⟨t, call⟩ hstep ht ⟨mid, hmid, hplace⟩
  have hcall := hcalls call (List.mem_append_right _ (mem_of_mem_steps hstep))
  rcases comment_kept hcall ht hmid with hnone | ⟨new, hnew, hnext⟩
  · obtain ⟨row, hsome⟩ := Table.exists_row?_of_has (hstored _ hstep)
    cases hnone.symm.trans hsome
  · exact ⟨new, hnew, hnext.post.trans hplace.post, hnext.author.trans hplace.author,
      hnext.parent.trans hplace.parent⟩

end

end Call

attribute [local instance] Libraries.bare

namespace Sample

def commented : List Call :=
  start ++ [.submit (.post post (.ofSeconds 1)),
    .submit (.comment (comment "k1" none) (.ofSeconds 2))]

def moved : List Call :=
  [.submit (.comment (comment "k2" (some "k1")) (.ofSeconds 3)),
    .submit (.comment (comment "k2" none) (.ofSeconds 4))]

end Sample

/-- A reply stays below what it replies to, also if it is saved again as a comment of its own. -/
theorem Call.discussions_are_forests_of_moved :
    (run (Sample.commented ++ Sample.moved) Database.fresh.store).Forest ∧
      ∃ new, (run (Sample.commented ++ Sample.moved) Database.fresh.store).comments.row? "k2" =
        some new ∧ new.parentId = some "k1" := by
  have hcalls : ∀ call ∈ Sample.commented ++ Sample.moved, call.LeavesCommentsToEditor := by
    simp [Sample.commented, Sample.moved, Sample.start, LeavesCommentsToEditor]
  obtain ⟨hforest, hplaces⟩ := discussions_are_forests _ hcalls
  obtain ⟨new, hnew, hplace⟩ := hplaces (Sample.commented ++ Sample.moved.take 1)
    (Sample.moved.drop 1) "k2"
    { Sample.comment "k2" (some "k1") with updatedAt := .ofSeconds 3 } rfl (by decide +kernel)
    (by decide +kernel)
  exact ⟨hforest, new, hnew, hplace.parent⟩

end Gazette
