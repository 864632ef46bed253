import Gazette.Proofs.Counters

/-!
# Tallies

What the requests of a run count, and what that comes to in the store. A post that is saved through
the interface starts with both counters at zero, and no other request than one that reads it or
likes it adds to them. So no counter is ever greater than the number of requests that count.
-/
namespace Gazette
open StoreProcedure

namespace Api.Exchange

def viewed? (x : Exchange) (s : Store) : Option String :=
  match x.operation? with
  | some (.readPost raw) => do
    let row ← s.findPostRowAt? (← parameter? raw)
    if row.isActive || maySeeHidden (x.callerIn s) row.authorId then some row.id else none
  | _ => none

def liked? (x : Exchange) (s : Store) : Option String :=
  match x.operation? with
  | some (.likePost raw) => do
    let row ← s.findPostRowAt? (← parameter? raw)
    if x.Passes s ∧ (x.callerIn s).isSome = true then some row.id else none
  | _ => none

end Api.Exchange

/-- Whether a change neither saves a post nor counts anything. -/
def Change.SparesPosts : Change → Prop
  | savePost _ | recordView _ | addLike _ => False
  | _ => True

/-- Every stored post has the counters that it had before, but for one view of the viewed post and
one like of the liked post, or it counts from zero. -/
def Store.CountsUp (viewed liked : Option String) (s t : Store) : Prop :=
  ∀ row ∈ t.posts, row.viewCount = .exact 0 ∧ row.likes = .exact 0 ∨
    ∃ old ∈ s.posts, old.id = row.id ∧
      (row.viewCount = old.viewCount ∨
        viewed = some row.id ∧ row.viewCount = old.viewCount.next) ∧
      (row.likes = old.likes ∨ liked = some row.id ∧ row.likes = old.likes.next)

namespace Store
variable {s t u : Store} {viewed liked : Option String}

theorem countsUp_refl (viewed liked : Option String) (s : Store) : s.CountsUp viewed liked s :=
  fun row hrow => .inr ⟨row, hrow, rfl, .inl rfl, .inl rfl⟩

theorem CountsUp.trans (hst : s.CountsUp none none t) (htu : t.CountsUp none none u) :
    s.CountsUp none none u := by
  intro row hrow
  simp only [CountsUp, reduceCtorEq, false_and, or_false] at hst htu ⊢
  rcases htu row hrow with hzero | ⟨mid, hmid, hid, hviews, hlikes⟩
  · exact .inl hzero
  · rw [hviews, hlikes, ← hid]
    exact hst mid hmid

theorem CountsUp.mono (h : s.CountsUp none none t) : s.CountsUp viewed liked t := by
  intro row hrow
  rcases h row hrow with hzero | ⟨old, hold, hid, hviews, hlikes⟩
  · exact .inl hzero
  · refine .inr ⟨old, hold, hid, .inl ?_, .inl ?_⟩
    · exact hviews.resolve_right nofun
    · exact hlikes.resolve_right nofun

theorem KeepsCounters.countsUp (h : s.KeepsCounters t) : s.CountsUp viewed liked t := by
  intro row hrow
  rcases h with ⟨p, hp⟩ | ⟨f, hf, hmap⟩
  · rw [hp] at hrow
    exact countsUp_refl viewed liked s row (List.mem_filter.1 hrow).1
  · rw [hmap] at hrow
    obtain ⟨old, hold, rfl⟩ := List.mem_map.1 hrow
    obtain ⟨hid, hviews, hlikes⟩ := hf old
    exact .inr ⟨old, hold, hid.symm, .inl hviews, .inl hlikes⟩

/-- A change in place of the post with an id, which counts one event of it. -/
theorem countsUp_update {id : String} {f : PostRow → PostRow}
    (hf : ∀ row : PostRow, row.id = id → (f row).id = row.id ∧
      ((f row).viewCount = row.viewCount ∨
        viewed = some row.id ∧ (f row).viewCount = row.viewCount.next) ∧
      ((f row).likes = row.likes ∨ liked = some row.id ∧ (f row).likes = row.likes.next)) :
    s.CountsUp viewed liked { s with posts := s.posts.update id f } := by
  intro row hrow
  obtain ⟨old, hold, rfl⟩ := List.mem_map.1 hrow
  by_cases hid : old.id = id
  · obtain ⟨hsame, hviews, hlikes⟩ := hf old hid
    have hkey : (Keyed.key old == id) = true := beq_iff_eq.2 hid
    rw [if_pos hkey, hsame]
    exact .inr ⟨old, hold, rfl, hviews, hlikes⟩
  · have hkey : ¬ (Keyed.key old == id) = true := mt beq_iff_eq.1 hid
    rw [if_neg hkey]
    exact countsUp_refl _ _ s old hold

theorem countsUp_recordView (id : String) (s : Store) :
    s.CountsUp (some id) liked (s.recordView id) :=
  countsUp_update fun _ hid => ⟨rfl, .inr ⟨congrArg some hid.symm, rfl⟩, .inl rfl⟩

theorem countsUp_like (id : String) (s : Store) : s.CountsUp viewed (some id) (s.like id) :=
  countsUp_update fun _ hid => ⟨rfl, .inl rfl, .inr ⟨congrArg some hid.symm, rfl⟩⟩

theorem countsUp_savePost (hs : s.Sound) {post : Post} (h : s.savePost post = .ok t)
    (hnew : s.posts.has post.id = false → post.viewCount = 0 ∧ post.likes = 0) :
    s.CountsUp viewed liked t := by
  obtain ⟨-, -, -, -, rfl⟩ := savePost_ok.1 h
  intro row hrow
  rcases (Table.mem_put hs.post_ids).1 hrow with ⟨hold, -⟩ | ⟨old, hold, hid, rfl⟩ | ⟨hhas, rfl⟩
  · exact countsUp_refl _ _ s row hold
  · exact .inr ⟨old, hold, hid, .inl rfl, .inl rfl⟩
  · obtain ⟨hviews, hlikes⟩ := hnew hhas
    exact .inl ⟨congrArg Counter.exact hviews, congrArg Counter.exact hlikes⟩

end Store

theorem Change.SparesPosts.countsUp {change : Change} {s t : Store} {viewed liked : Option String}
    (h : change.SparesPosts) (happly : change.apply s = .ok t) (hs : s.Sound) :
    s.CountsUp viewed liked t := by
  refine (Change.keepsCounters happly hs ?_ ?_ ?_).countsUp
  all_goals
    rintro _ rfl
    exact h

namespace Api
open Api.Action Store
variable {s : Store} {viewed liked : Option String} {context : Context} {caller : Caller}

theorem readPost_countsUp (hs : s.Sound) {reader : Option Caller} {slug : String}
    (hviewed : ∀ row, s.findPostRowAt? slug = some row →
      (row.isActive || maySeeHidden reader row.authorId) = true → viewed = some row.id) :
    (readPost reader slug).Leaves s (s.CountsUp viewed liked) := by
  have hrefl := countsUp_refl viewed liked s
  refine Leaves.after_reads (found_lookOr_reads _) hrefl fun view hview => ?_
  refine Leaves.after_reads (ensure_reads _ _) hrefl fun _ hvisible => ?_
  refine Leaves.then_reads (leaves_change hrefl fun _ t h => ?_) fun _ => moves_pure _
  cases h
  obtain ⟨row, hrow, rfl, hshows⟩ := findView?_ok hs (found_lookOr_ok.1 hview).1
  have hsame := (postOf_ok.1 hshows.post).2.2
  have hsees := (ensure_ok.1 hvisible).1
  rw [hsame] at hsees ⊢
  rw [hviewed row (Table.find?_of_mem hs.post_slugs hrow) hsees]
  exact countsUp_recordView row.id s

theorem likePost_countsUp {slug : String}
    (hliked : ∀ row, s.findPostRowAt? slug = some row → liked = some row.id) :
    (likePost slug).Leaves s (s.CountsUp viewed liked) := by
  have hrefl := countsUp_refl viewed liked s
  refine Leaves.after_reads (lookOr_reads _) hrefl fun read hread => ?_
  refine Leaves.after_reads (found_reads _) hrefl fun post hfound => ?_
  refine Leaves.then_reads ?_ fun answer => ?_
  · show s.CountsUp viewed liked (s.addLike post.id).2
    obtain ⟨rfl, -⟩ := found_ok.1 hfound
    obtain ⟨row, hfind, hpost⟩ := findPostAt?_ok (lookOr_ok.1 hread).1
    have hid : post.id = row.id := by rw [(postOf_ok.1 hpost).2.2]
    rw [hid, hliked row hfind, addLike_eq_like]
    exact countsUp_like row.id s
  · cases answer with
    | ok likes => exact moves_pure _
    | error e => exact moves_throw _

theorem savePost_countsUp [Libraries] (hs : s.Sound) {base : Post}
    (hnew : s.posts.has base.id = false → base.viewCount = 0 ∧ base.likes = 0)
    (input : PostInput) (replace : Bool) :
    Leaves (do savePost context (← applyInput input replace base)) s
      (s.CountsUp viewed liked) := by
  have hrefl := countsUp_refl viewed liked s
  refine Leaves.after_reads (applyInput_reads _ _ _) hrefl fun given hgiven => ?_
  refine Leaves.then_reads (Leaves.adapt ?_ _) fun _ => found_lookOr_reads _
  refine (Editor.savePost_atomic given context.now).leaves hrefl fun saved t h => ?_
  obtain ⟨hprepare, -, -, hsave⟩ := Editor.savePost_ok.1 h
  have hsaved := (Post.prepare_ok.1 hprepare).2.2
  obtain ⟨-, hid, -, -, -, hviews, hlikes⟩ := applyInput_ok hgiven
  refine countsUp_savePost hs hsave fun hhas => ?_
  rw [show saved.id = base.id by rw [hsaved, ← hid]] at hhas
  obtain ⟨hv, hl⟩ := hnew hhas
  exact ⟨by rw [hsaved]; exact hviews.trans hv, by rw [hsaved]; exact hlikes.trans hl⟩

theorem updatePost_countsUp [Libraries] (hs : s.Sound) (slug : String) (input : PostInput)
    (replace : Bool) :
    (updatePost context caller slug input replace).Leaves s (s.CountsUp viewed liked) := by
  refine Leaves.after_reads (ownPost_reads _ _) (countsUp_refl _ _ s) fun post hown => ?_
  refine savePost_countsUp hs (fun hhas => ?_) input replace
  obtain ⟨-, row, hfind, hpost, -⟩ := ownPost_ok hown
  have hthere : s.posts.has row.id = true := Table.has_of_mem (List.mem_of_find?_eq_some hfind)
  rw [show post.id = row.id by rw [(postOf_ok.1 hpost).2.2], hthere] at hhas
  cases hhas

namespace Exchange
variable {x : Exchange} {op : Operation}

/-- A request leaves what its operation leaves, if the guard lets it through. -/
theorem after_of_leaves [Libraries] {Q : Store → Prop} (hx : x.operation? = some op) (hs : Q s)
    (h : x.Passes s → (x.perform op).Leaves s Q) : Q (x.after s) := by
  rcases x.answer_run s with ⟨hoptions, -⟩ | ⟨hafter, -⟩
  · exact absurd hoptions (method_ne_options hx)
  · rw [after, hafter, guarded_outcome hx]
    by_cases hpasses : x.Passes s
    · rw [outcome_guard hpasses]
      exact h hpasses
    · rw [outcome_guard_error hpasses]
      exact hs

/-- An operation that may count, or write a post, counts what the request is there for. -/
theorem perform_countsUp [Libraries] (hs : s.Sound) (hx : x.operation? = some op)
    (hpasses : x.Passes s) (hop : op.Counts ∨ op.writes? = some .post) :
    (x.perform op).Leaves s (s.CountsUp (x.viewed? s) (x.liked? s)) := by
  have hrefl := countsUp_refl (x.viewed? s) (x.liked? s) s
  cases op with
  | readPost raw =>
      refine Leaves.after_reads x.caller?_reads hrefl fun reader hreader => ?_
      refine Leaves.after_reads (parameter_reads _ _) hrefl fun slug hslug => ?_
      refine Leaves.then_reads ?_ fun _ => moves_pure _
      obtain rfl : x.callerIn s = reader :=
        Except.ok.inj (congrArg Prod.fst ((outcome_caller? x s).symm.trans hreader))
      refine readPost_countsUp hs fun row hrow hsees => ?_
      simp only [viewed?, hx, (parameter_ok.1 hslug).1, hrow, hsees, Option.bind_eq_bind,
        Option.bind_some, if_true]
  | likePost raw =>
      refine Leaves.after_reads x.caller_reads hrefl fun caller hcaller => ?_
      refine Leaves.after_reads (parameter_reads _ _) hrefl fun slug hslug => ?_
      refine Leaves.then_reads ?_ fun _ => moves_pure _
      refine likePost_countsUp fun row hrow => ?_
      simp [liked?, hx, (parameter_ok.1 hslug).1, hrow, hpasses, (caller_ok.1 hcaller).1]
  | createPost =>
      refine Leaves.after_reads x.caller_reads hrefl fun caller _ => ?_
      refine Leaves.after_reads (x.input_reads _) hrefl fun input _ => ?_
      refine Leaves.then_reads ?_ fun _ => moves_pure _
      exact savePost_countsUp hs (fun _ => ⟨rfl, rfl⟩) input true
  | replacePost raw =>
      refine Leaves.after_reads x.caller_reads hrefl fun caller _ => ?_
      refine Leaves.after_reads (parameter_reads _ _) hrefl fun slug _ => ?_
      refine Leaves.after_reads (x.input_reads _) hrefl fun input _ => ?_
      refine Leaves.then_reads ?_ fun _ => moves_pure _
      exact Leaves.after_reads (ensure_reads _ _) hrefl fun _ _ => updatePost_countsUp hs _ _ _
  | updatePost raw =>
      refine Leaves.after_reads x.caller_reads hrefl fun caller _ => ?_
      refine Leaves.after_reads (parameter_reads _ _) hrefl fun slug _ => ?_
      refine Leaves.after_reads (x.input_reads _) hrefl fun input _ => ?_
      exact Leaves.then_reads (updatePost_countsUp hs _ _ _) fun _ => moves_pure _
  | _ => exact absurd (hop.resolve_left id) nofun

/-- A request counts the view or the like that it is there for, and nothing else. -/
theorem after_countsUp [Libraries] (x : Exchange) (hs : s.Sound) :
    s.CountsUp (x.viewed? s) (x.liked? s) (x.after s) := by
  by_cases hop : ∃ op, x.operation? = some op ∧ (op.Counts ∨ op.writes? = some .post)
  · obtain ⟨op, hx, hop⟩ := hop
    exact after_of_leaves hx (countsUp_refl _ _ s) fun hpasses =>
      perform_countsUp hs hx hpasses hop
  · -- No change of such a request touches a post or its counters.
    refine CountsUp.mono ?_
    refine (after_keeps_of_may (I := fun t => t.Sound ∧ s.CountsUp none none t) ?_
      ⟨hs, countsUp_refl _ _ s⟩).2
    rintro change t u ⟨op, hx, hmay⟩ happly ⟨ht, hcounts⟩
    refine ⟨change.keeps_sound t u happly ht, hcounts.trans ?_⟩
    refine Change.SparesPosts.countsUp ?_ happly ht
    cases change with
    | savePost post => exact hop ⟨op, hx, .inr hmay.kind.symm⟩
    | recordView id => exact hop ⟨op, hx, .inl (hmay.counts.1 trivial)⟩
    | addLike id => exact hop ⟨op, hx, .inl (hmay.counts.1 trivial)⟩
    | _ => trivial

end Exchange
end Api

theorem Submission.sparesPosts_of_change? [Libraries] {submission : Submission} {change : Change}
    (h : submission.change? = .ok change) (hno : ∀ post now, submission ≠ .post post now) :
    change.SparesPosts := by
  unfold change? at h
  cases submission with
  | post p now => exact absurd rfl (hno p now)
  | _ =>
      obtain ⟨_, -, hchange⟩ := Change.of_map_ok h
      rw [← hchange]
      trivial

namespace Call
variable {calls : List Call} {call : Call} {s : Store} {id : String}

/-- A call that neither saves posts nor counts anything unless it is a request. -/
def LeavesPostsToRequests (call : Call) : Prop :=
  match call with
  | direct change => change.SparesPosts
  | submit submission => ∀ post now, submission ≠ .post post now
  | request _ => True

def viewed? (call : Call) (s : Store) : Option String :=
  match call with
  | request x => x.viewed? s
  | _ => none

def liked? (call : Call) (s : Store) : Option String :=
  match call with
  | request x => x.liked? s
  | _ => none

/-- The number of calls of a run that count an event of a post. -/
def tally [Libraries] (counted? : Call → Store → Option String) (id : String) (calls : List Call)
    (s : Store) : Nat :=
  (steps calls s).countP fun step => counted? step.2 step.1 == some id

theorem tally_append [Libraries] (counted? : Call → Store → Option String) (id : String)
    (calls : List Call) (call : Call) (s : Store) :
    tally counted? id (calls ++ [call]) s =
      tally counted? id calls s + if counted? call (run calls s) = some id then 1 else 0 := by
  rw [tally, steps_append, List.countP_append, steps, steps, List.countP_singleton]
  simp only [beq_iff_eq]
  rfl

theorem tally_le_length [Libraries] (counted? : Call → Store → Option String) (id : String)
    (calls : List Call) (s : Store) : tally counted? id calls s ≤ calls.length := by
  have hlength : (steps calls s).length = calls.length := by
    induction calls generalizing s with
    | nil => rfl
    | cons call calls ih => exact congrArg Nat.succ (ih (call.after s))
  exact hlength ▸ List.countP_le_length

theorem after_countsUp [Libraries] (hposts : call.LeavesPostsToRequests) (hs : s.Sound) :
    s.CountsUp (call.viewed? s) (call.liked? s) (call.after s) := by
  cases call with
  | direct change =>
      rcases change.after_cases s with hsame | happly
      · rw [after, hsame]
        exact Store.countsUp_refl _ _ s
      · exact Change.SparesPosts.countsUp hposts happly hs
  | submit submission =>
      rcases submission.after_cases s with hsame | ⟨change, hchange, happly⟩
      · rw [after, hsame]
        exact Store.countsUp_refl _ _ s
      · exact (Submission.sparesPosts_of_change? hchange hposts).countsUp happly hs
  | request x => exact x.after_countsUp hs

end Call

/-- Whether a counter is exact and stands at no more than a number of events. -/
def Counter.UpTo (n : Nat) (counter : Counter) : Prop :=
  ∃ v : Nat, counter = .exact v ∧ v ≤ n

theorem Counter.UpTo.after {n : Nat} {old new : Counter} {counted : Prop} [Decidable counted]
    (h : old.UpTo n) (hnew : new = old ∨ counted ∧ new = old.next)
    (hroom : (n + if counted then 1 else 0) < 2 ^ 63) :
    new.UpTo (n + if counted then 1 else 0) := by
  obtain ⟨v, rfl, hv⟩ := h
  rcases hnew with hsame | ⟨hcounted, hnext⟩
  · exact ⟨v, hsame, Nat.le_add_right_of_le hv⟩
  · rw [if_pos hcounted] at hroom ⊢
    have hlow : (v : Int) < Counter.greatest := by
      rw [Counter.greatest]
      omega
    refine ⟨v + 1, ?_, Nat.succ_le_succ hv⟩
    rw [hnext, Counter.next_exact hlow]
    rfl

/-- Whether no counter of a store stands above what a run has counted. -/
structure Store.Tallied [Libraries] (s : Store) (calls : List Call) : Prop where
  views : ∀ row ∈ s.posts,
    row.viewCount.UpTo (Call.tally Call.viewed? row.id calls Database.fresh.store)
  likes : ∀ row ∈ s.posts,
    row.likes.UpTo (Call.tally Call.liked? row.id calls Database.fresh.store)

theorem Call.run_tallied [Libraries] {calls : List Call}
    (hposts : ∀ call ∈ calls, call.LeavesPostsToRequests)
    (hviews : ∀ id, tally viewed? id calls Database.fresh.store < 2 ^ 63)
    (hlikes : ∀ id, tally liked? id calls Database.fresh.store < 2 ^ 63) :
    (run calls Database.fresh.store).Tallied calls := by
  induction calls using List.reverseRecOn with
  | nil =>
      rw [run_nil, Database.fresh_store]
      exact ⟨fun _ h => absurd h List.not_mem_nil, fun _ h => absurd h List.not_mem_nil⟩
  | append_singleton calls call ih =>
      simp only [tally_append] at hviews hlikes
      have hbefore := ih (fun c hc => hposts c (List.mem_append_left _ hc))
        (fun id => lt_of_le_of_lt (Nat.le_add_right _ _) (hviews id))
        (fun id => lt_of_le_of_lt (Nat.le_add_right _ _) (hlikes id))
      have hcounts := after_countsUp (hposts call (by simp))
        (run_keeps_sound calls Database.sound_fresh)
      rw [run_append, run_cons, run_nil]
      constructor
      · intro row hrow
        rw [tally_append]
        rcases hcounts row hrow with ⟨hzero, -⟩ | ⟨old, hold, hid, hnew, -⟩
        · exact ⟨0, hzero, Nat.zero_le _⟩
        · exact (hid ▸ hbefore.views old hold).after hnew (hviews row.id)
      · intro row hrow
        rw [tally_append]
        rcases hcounts row hrow with ⟨-, hzero⟩ | ⟨old, hold, hid, -, hnew⟩
        · exact ⟨0, hzero, Nat.zero_le _⟩
        · exact (hid ▸ hbefore.likes old hold).after hnew (hlikes row.id)

end Gazette
