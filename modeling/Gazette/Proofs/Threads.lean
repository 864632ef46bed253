import Gazette.Proofs.Save
import Gazette.Store.Delete

/-!
# Threads

A removal reaches the selected comments and, from each comment that it reaches, the replies to it.
One pass over the comments finds exactly these, because a reply always stands after what it
replies to, and it notices every chain of references that is too long.
-/
namespace Gazette.Store

/-- No comment stands before the one that it replies to. -/
def RepliesLater (comments : Table Comment) : Prop :=
  comments.Pairwise fun earlier later => earlier.parentId ≠ some later.id

/-- What a comment replies to stands before it, unless that is the comment itself. -/
theorem RepliesLater.mem_before {before rest : Table Comment} {parent comment : Comment}
    (h : RepliesLater (before ++ comment :: rest)) (hmem : parent ∈ before ++ comment :: rest)
    (hparent : comment.parentId = some parent.id) (hself : comment.id ≠ parent.id) :
    parent ∈ before := by
  rcases List.mem_append.1 hmem with hbefore | hmem
  · exact hbefore
  · rcases List.mem_cons.1 hmem with rfl | hafter
    · exact absurd rfl hself
    · have hcomment := (List.pairwise_append.1 h).2.1
      exact absurd hparent (List.rel_of_pairwise_cons hcomment hafter)

/-- A removal reaches a comment: from a selected one, over a number of replies. -/
inductive Reached (selected : Comment → Bool) (comments : Table Comment) : Comment → Nat → Prop
  | selected {comment : Comment} : comment ∈ comments → selected comment = true →
      Reached selected comments comment 0
  | reply {parent comment : Comment} {replies : Nat} : Reached selected comments parent replies →
      comment ∈ comments → comment.parentId = some parent.id → comment.id ≠ parent.id →
      Reached selected comments comment (replies + 1)

noncomputable def unreached (selected : Comment → Bool) (comments : Table Comment) :
    Table Comment :=
  open Classical in comments.filter fun comment =>
    ¬ ∃ replies, Reached selected comments comment replies

/-- Whether a removal would have to follow too long a chain of references, where a selected comment
stands at the end of a chain of a given length. -/
def TooLong (selected : Comment → Bool) (start : Nat) (comments : Table Comment) : Prop :=
  ∃ comment replies, Reached selected comments comment replies ∧ cascadeLimit ≤ start + replies

section
variable {selected : Comment → Bool} {comments : Table Comment} {comment parent : Comment}
variable {replies : Nat}

theorem Reached.mem (h : Reached selected comments comment replies) : comment ∈ comments := by
  cases h with
  | selected hmem _ => exact hmem
  | reply _ hmem _ _ => exact hmem

theorem Reached.mono {other : Comment → Bool} {more : Table Comment}
    (h : Reached selected comments comment replies) (hmem : ∀ c ∈ comments, c ∈ more)
    (hselected : ∀ c, selected c = true → other c = true) :
    Reached other more comment replies := by
  induction h with
  | selected hstored hyes => exact .selected (hmem _ hstored) (hselected _ hyes)
  | reply _ hstored hparent hself ih => exact ih.reply (hmem _ hstored) hparent hself

/-- A reply goes with its parent, also if a comment replies to itself. -/
theorem Reached.exists_of_parent (h : Reached selected comments parent replies)
    (hids : (comments.map Comment.id).Nodup) (hmem : comment ∈ comments)
    (hparent : comment.parentId = some parent.id) :
    ∃ replies, Reached selected comments comment replies := by
  by_cases hself : comment.id = parent.id
  · obtain rfl : comment = parent := List.inj_on_of_nodup_map hids hmem h.mem hself
    exact ⟨replies, h⟩
  · exact ⟨replies + 1, h.reply hmem hparent hself⟩

/-- In a thread in which every comment replies to the one before, a removal of the first reaches
each of the others, over as many replies as there are comments before it. -/
theorem reached_chain {f : Nat → Comment} (hids : ∀ m n, (f m).id = (f n).id → m = n)
    (hparents : ∀ n, (f (n + 1)).parentId = some (f n).id) {length n : Nat} (h : n < length) :
    Reached (·.id == (f 0).id) ((List.range length).map f) (f n) n := by
  have hmem : f n ∈ (List.range length).map f := List.mem_map_of_mem (List.mem_range.2 h)
  induction n with
  | zero => exact .selected hmem (beq_self_eq_true _)
  | succ n ih =>
      have hprior := Nat.lt_of_succ_lt h
      refine (ih hprior (List.mem_map_of_mem (List.mem_range.2 hprior))).reply hmem (hparents n) ?_
      exact fun hid => Nat.succ_ne_self n (hids _ _ hid)

theorem has_chain_eq_false {f : Nat → Comment} (hids : ∀ m n, (f m).id = (f n).id → m = n)
    (n : Nat) : Table.has (f n).id ((List.range n).map f) = false := by
  refine Table.has_eq_false_iff.2 fun comment hcomment hid => ?_
  obtain ⟨m, hm, rfl⟩ := List.mem_map.1 hcomment
  exact Nat.ne_of_lt (List.mem_range.1 hm) (hids m n hid)

theorem mem_unreached :
    comment ∈ unreached selected comments ↔
      comment ∈ comments ∧ ∀ replies, ¬ Reached selected comments comment replies := by
  simp [unreached]

theorem unreached_of_nothing (comments : Table Comment) :
    unreached (fun _ => false) comments = comments := by
  have hnothing : ∀ comment replies, ¬ Reached (fun _ => false) comments comment replies := by
    intro comment replies h
    induction h with
    | selected _ hyes => cases hyes
    | reply _ _ _ _ ih => exact ih
  simp [unreached, hnothing]

theorem repliesLater_unreached (h : RepliesLater comments) :
    RepliesLater (unreached selected comments) :=
  h.sublist List.filter_sublist

theorem nodup_unreached (h : (comments.map Comment.id).Nodup) :
    ((unreached selected comments).map Comment.id).Nodup :=
  h.sublist (List.filter_sublist.map _)

/-- What a removal reaches after another, the two would have reached together. -/
theorem reached_or_iff {first second : Comment → Bool} :
    (∃ replies, Reached (fun c => first c || second c) comments comment replies) ↔
      (∃ replies, Reached first comments comment replies) ∨
        ∃ replies, Reached second (unreached first comments) comment replies := by
  constructor
  · rintro ⟨replies, h⟩
    refine Classical.or_iff_not_imp_left.2 fun hnot => ?_
    have hmem : comment ∈ unreached first comments :=
      mem_unreached.2 ⟨h.mem, fun replies hfirst => hnot ⟨replies, hfirst⟩⟩
    induction h with
    | selected hstored hyes =>
        rcases Bool.or_eq_true_iff.1 hyes with hfirst | hsecond
        · exact absurd ⟨0, .selected hstored hfirst⟩ hnot
        · exact ⟨0, .selected hmem hsecond⟩
    | @reply parent comment _ hparent hstored hid hself ih =>
        have hkept : ¬ ∃ replies, Reached first comments parent replies :=
          fun ⟨_, hfirst⟩ => hnot ⟨_, hfirst.reply hstored hid hself⟩
        have hthere : parent ∈ unreached first comments :=
          mem_unreached.2 ⟨hparent.mem, fun replies hfirst => hkept ⟨replies, hfirst⟩⟩
        obtain ⟨_, hsecond⟩ := ih hkept hthere
        exact ⟨_, hsecond.reply hmem hid hself⟩
  · rintro (⟨replies, h⟩ | ⟨replies, h⟩)
    · exact ⟨replies, h.mono (fun _ => id) fun c hc => by simp [hc]⟩
    · exact ⟨replies, h.mono (fun c hc => (mem_unreached.1 hc).1) fun c hc => by simp [hc]⟩

open Classical in
theorem unreached_unreached (first second : Comment → Bool) (comments : Table Comment) :
    unreached second (unreached first comments) =
      unreached (fun c => first c || second c) comments := by
  unfold unreached
  rw [List.filter_filter]
  refine List.filter_congr fun comment _ => ?_
  rw [Bool.eq_iff_iff, Bool.and_eq_true, decide_eq_true_iff, decide_eq_true_iff,
    decide_eq_true_iff, reached_or_iff, not_or, and_comm]
  rfl

end

section Pass
variable (selected : Comment → Bool) (start : Nat)

/-- The length of the longest chain that leads to a comment, if any does, going by what was removed
before it. -/
def chainLength? (removed : List (String × Nat)) (comment : Comment) : Option Nat :=
  match comment.parentId.bind (List.lookup · removed) with
  | some length => some (length + 1)
  | none => if selected comment then some start else none

theorem withoutThreads_cons (removed : List (String × Nat)) (comment : Comment)
    (rest : Table Comment) :
    withoutThreads selected start removed (comment :: rest) =
      match chainLength? selected start removed comment with
      | some length =>
        if length < cascadeLimit then
          withoutThreads selected start ((comment.id, length) :: removed) rest
        else none
      | none => (withoutThreads selected start removed rest).map (comment :: ·) :=
  rfl

/-- The longest of the chains to a comment goes over some number of replies. -/
def Longest (comments : Table Comment) (comment : Comment) (length : Nat) : Prop :=
  ∃ replies, Reached selected comments comment replies ∧ length = start + replies ∧
    ∀ other, Reached selected comments comment other → other ≤ replies

/-- What is recorded of the comments that the pass has gone by: for each one that is reached, the
length of the longest chain to it. -/
structure Recorded (comments before : Table Comment) (removed : List (String × Nat)) : Prop where
  sound : ∀ id length, removed.lookup id = some length →
    ∃ comment ∈ before, comment.id = id ∧ Longest selected start comments comment length
  complete : ∀ comment ∈ before, ∀ replies, Reached selected comments comment replies →
    ∃ length, removed.lookup comment.id = some length

variable {selected start} {removed : List (String × Nat)} {comments before rest : Table Comment}
variable {comment : Comment} {length replies : Nat}

/-- What the next comment replies to, if that is reached, stands before it and is recorded. -/
theorem Recorded.exists_length (hlater : RepliesLater (before ++ comment :: rest))
    (h : Recorded selected start (before ++ comment :: rest) before removed) {parent : Comment}
    (hreached : Reached selected (before ++ comment :: rest) parent replies)
    (hparent : comment.parentId = some parent.id) (hself : comment.id ≠ parent.id) :
    ∃ length, comment.parentId.bind (List.lookup · removed) = some length := by
  have hbefore := hlater.mem_before hreached.mem hparent hself
  rw [hparent]
  exact h.complete parent hbefore replies hreached

/-- The length that is found for the next comment is that of the longest chain to it. -/
theorem Recorded.longest (hlater : RepliesLater (before ++ comment :: rest))
    (hids : ((before ++ comment :: rest).map Comment.id).Nodup)
    (h : Recorded selected start (before ++ comment :: rest) before removed)
    (hlength : chainLength? selected start removed comment = some length) :
    Longest selected start (before ++ comment :: rest) comment length := by
  have hmem : comment ∈ before ++ comment :: rest := List.mem_append_right _ List.mem_cons_self
  unfold chainLength? at hlength
  split at hlength
  · rename_i parentLength hfound
    obtain rfl : parentLength + 1 = length := Option.some.inj hlength
    obtain ⟨id, hparent, hlookup⟩ := Option.bind_eq_some_iff.1 hfound
    obtain ⟨parent, hbefore, rfl, replies, hreached, rfl, hmost⟩ := h.sound id parentLength hlookup
    have hself : comment.id ≠ parent.id := by
      intro heq
      rw [List.map_append, List.nodup_append] at hids
      exact hids.2.2 _ (List.mem_map_of_mem hbefore) _
        (List.mem_map_of_mem List.mem_cons_self) heq.symm
    refine ⟨replies + 1, hreached.reply hmem hparent hself, rfl, ?_⟩
    intro other hother
    cases hother with
    | selected _ _ => exact Nat.zero_le _
    | @reply first _ _ hfirst _ hparent' _ =>
        have hid : first.id = parent.id := Option.some.inj (hparent'.symm.trans hparent)
        obtain rfl : first = parent := List.inj_on_of_nodup_map hids hfirst.mem hreached.mem hid
        exact Nat.succ_le_succ (hmost _ hfirst)
  · -- Its parent is not reached, so the chain starts here or the comment is not reached either.
    rename_i hnone
    split at hlength
    · rename_i hselected
      obtain rfl : start = length := Option.some.inj hlength
      refine ⟨0, .selected hmem hselected, rfl, ?_⟩
      intro other hother
      cases hother with
      | selected _ _ => exact Nat.le_refl 0
      | reply hreached _ hparent hself =>
          obtain ⟨_, hfound⟩ := h.exists_length hlater hreached hparent hself
          exact nomatch hnone.symm.trans hfound
    · cases hlength

theorem Recorded.not_reached (hlater : RepliesLater (before ++ comment :: rest))
    (h : Recorded selected start (before ++ comment :: rest) before removed)
    (hlength : chainLength? selected start removed comment = none) (replies : Nat) :
    ¬ Reached selected (before ++ comment :: rest) comment replies := by
  unfold chainLength? at hlength
  split at hlength
  · cases hlength
  · rename_i hnone
    split at hlength
    · cases hlength
    · rename_i hselected
      intro hreached
      cases hreached with
      | selected _ hyes => exact hselected hyes
      | reply hreached _ hparent hself =>
          obtain ⟨_, hfound⟩ := h.exists_length hlater hreached hparent hself
          exact nomatch hnone.symm.trans hfound

theorem Recorded.add (h : Recorded selected start comments before removed)
    (hlongest : Longest selected start comments comment length) :
    Recorded selected start comments (before ++ [comment]) ((comment.id, length) :: removed) where
  sound id other hlookup := by
    rw [List.lookup_cons] at hlookup
    split at hlookup
    · rename_i hid
      obtain rfl : length = other := Option.some.inj hlookup
      exact ⟨comment, by simp, (beq_iff_eq.1 hid).symm, hlongest⟩
    · obtain ⟨found, hmem, hfound⟩ := h.sound id other hlookup
      exact ⟨found, List.mem_append_left _ hmem, hfound⟩
  complete other hother replies hreached := by
    rw [List.lookup_cons]
    split
    · exact ⟨length, rfl⟩
    · rename_i hid
      rcases List.mem_append.1 hother with hbefore | hlast
      · exact h.complete other hbefore replies hreached
      · rw [List.mem_singleton.1 hlast, beq_self_eq_true] at hid
        cases hid

/-- Going by a comment that is not reached, there is nothing to put down. -/
theorem Recorded.pass (h : Recorded selected start comments before removed)
    (hnone : ∀ replies, ¬ Reached selected comments comment replies) :
    Recorded selected start comments (before ++ [comment]) removed where
  sound id length hlookup := by
    obtain ⟨found, hmem, hfound⟩ := h.sound id length hlookup
    exact ⟨found, List.mem_append_left _ hmem, hfound⟩
  complete other hother replies hreached := by
    rcases List.mem_append.1 hother with hbefore | hlast
    · exact h.complete other hbefore replies hreached
    · rw [List.mem_singleton.1 hlast] at hreached
      exact absurd hreached (hnone replies)

open Classical in
/-- From any point on, the pass keeps what is not reached, unless a chain is too long. The
induction is on the comments that are left, for every record of those before. -/
theorem Recorded.withoutThreads_eq (hlater : RepliesLater (before ++ rest))
    (hids : ((before ++ rest).map Comment.id).Nodup)
    (h : Recorded selected start (before ++ rest) before removed) :
    withoutThreads selected start removed rest =
      if ∃ comment ∈ rest, ∃ replies, Reached selected (before ++ rest) comment replies ∧
          cascadeLimit ≤ start + replies then none
      else some (rest.filter fun comment =>
        ¬ ∃ replies, Reached selected (before ++ rest) comment replies) := by
  induction rest generalizing before removed with
  | nil => simp [withoutThreads]
  | cons comment rest ih =>
      have hsplit : before ++ comment :: rest = (before ++ [comment]) ++ rest := by simp
      rw [withoutThreads_cons]
      simp only [List.mem_cons, exists_eq_or_imp, List.filter_cons]
      -- A length is found for the comment exactly if it is reached, and then it is the longest one.
      cases hlength : chainLength? selected start removed comment with
      | some length =>
          have hlongest := h.longest hlater hids hlength
          have hadded := h.add hlongest
          obtain ⟨most, hreached, rfl, hmost⟩ := hlongest
          have hgone : ∃ replies, Reached selected (before ++ comment :: rest) comment replies :=
            ⟨most, hreached⟩
          have hlong : (∃ replies, Reached selected (before ++ comment :: rest) comment replies ∧
              cascadeLimit ≤ start + replies) ↔ ¬ start + most < cascadeLimit := by
            rw [Nat.not_lt]
            refine ⟨?_, fun hlong => ⟨most, hreached, hlong⟩⟩
            rintro ⟨replies, hother, hlong⟩
            exact Nat.le_trans hlong (Nat.add_le_add_left (hmost replies hother) start)
          simp only [hlong, hgone, not_true, decide_false, Bool.false_eq_true, if_false]
          by_cases hshort : start + most < cascadeLimit
          · simp only [hshort, if_true, not_true, false_or]
            rw [hsplit] at hlater hids hadded ⊢
            exact ih hlater hids hadded
          · simp only [hshort, if_false, not_false_eq_true, true_or, if_true]
      | none =>
          have hnone := h.not_reached hlater hlength
          have hpassed := h.pass hnone
          simp only [hnone, false_and, exists_const, false_or, not_false_eq_true, decide_true,
            if_true]
          rw [hsplit] at hlater hids hpassed ⊢
          rw [ih hlater hids hpassed]
          split <;> rfl

open Classical in
/-- The pass over all comments keeps those that the removal does not reach. There is no result
exactly if a chain is too long. -/
theorem withoutThreads_eq (hlater : RepliesLater comments)
    (hids : (comments.map Comment.id).Nodup) :
    withoutThreads selected start [] comments =
      if TooLong selected start comments then none else some (unreached selected comments) := by
  have hrecorded : Recorded selected start ([] ++ comments) [] [] := ⟨by simp, by simp⟩
  have hall : RepliesLater ([] ++ comments) := hlater
  rw [hrecorded.withoutThreads_eq hall hids, List.nil_append]
  have hlong : (∃ comment ∈ comments, ∃ replies, Reached selected comments comment replies ∧
      cascadeLimit ≤ start + replies) ↔ TooLong selected start comments := by
    constructor
    · rintro ⟨comment, -, replies, h⟩
      exact ⟨comment, replies, h⟩
    · rintro ⟨comment, replies, h⟩
      exact ⟨comment, h.1.mem, replies, h⟩
  simp only [hlong]
  rfl

end Pass

end Gazette.Store
