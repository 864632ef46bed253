import Gazette.Proofs.Access
import Gazette.Proofs.Rows
import Gazette.Proofs.Turns

/-!
# Counters

A save writes a whole copy of a post, however old the copy is, but never the counters. These are
changed in place, by one call for each view and each like. So whatever clients do in turns, nothing
that was counted is lost and nothing is counted twice.
-/
namespace Gazette
open Procedure

namespace Store
variable {s t : Store} {id : String} {row new : PostRow}

/-- Posts are removed or changed in place, but not in their counters. -/
def KeepsCounters (s t : Store) : Prop :=
  (∃ p, t.posts = s.posts.filter p) ∨
    ∃ f : PostRow → PostRow, (∀ row : PostRow, (f row).id = row.id ∧
      (f row).viewCount = row.viewCount ∧ (f row).likes = row.likes) ∧ t.posts = s.posts.map f

theorem KeepsCounters.counters (h : s.KeepsCounters t) (hs : s.Sound)
    (hrow : s.posts.row? id = some row)
    (hnew : t.posts.row? id = some new) :
    new.viewCount = row.viewCount ∧ new.likes = row.likes := by
  rcases h with ⟨p, hp⟩ | ⟨f, hf, hmap⟩
  · rw [hp, Table.row?_filter hs.post_ids, hrow] at hnew
    cases (Option.filter_eq_some_iff.1 hnew).1
    exact ⟨rfl, rfl⟩
  · rw [hmap, Table.row?_map fun row => (hf row).1, hrow] at hnew
    cases hnew
    exact (hf row).2

theorem row?_recordView (viewed id : String) (s : Store) :
    (s.recordView viewed).posts.row? id =
      if viewed = id then
        (s.posts.row? id).map fun row => { row with viewCount := row.viewCount.next }
      else s.posts.row? id := by
  refine Table.row?_update ?_ viewed id s.posts
  exact fun _ => rfl

theorem row?_like (liked id : String) (s : Store) :
    (s.like liked).posts.row? id =
      if liked = id then (s.posts.row? id).map fun row => { row with likes := row.likes.next }
      else s.posts.row? id := by
  refine Table.row?_update ?_ liked id s.posts
  exact fun _ => rfl

end Store

namespace Change
variable {s t : Store} {change : Change} {id : String} {row new : PostRow}

/-- A change that neither saves a post nor counts a view or a like leaves the counters alone. -/
theorem keepsCounters (h : change.apply s = .ok t) (hs : s.Sound)
    (hsave : ∀ post, change ≠ .savePost post) (hview : ∀ id, change ≠ .recordView id)
    (hlike : ∀ id, change ≠ .addLike id) : s.KeepsCounters t := by
  cases change with
  | savePost post => exact absurd rfl (hsave post)
  | recordView id => exact absurd rfl (hview id)
  | addLike id => exact absurd rfl (hlike id)
  | saveUser user =>
      obtain ⟨-, -, rfl⟩ := Store.saveUser_ok.1 h
      exact .inl (exists_filter_eq rfl)
  | saveCategory category =>
      obtain ⟨-, rfl⟩ := Store.saveCategory_ok.1 h
      exact .inl (exists_filter_eq rfl)
  | saveTag tag =>
      obtain ⟨-, rfl⟩ := Store.saveTag_ok.1 h
      exact .inl (exists_filter_eq rfl)
  | saveComment comment =>
      obtain ⟨-, rfl⟩ := Store.saveComment_ok.1 h
      exact .inl (exists_filter_eq rfl)
  | deleteUser id =>
      obtain ⟨found, hdelete⟩ := found_of_map h
      rcases (Store.deleteUser_ok hs.replies_later hs.comment_ids hdelete).2 with ⟨-, rfl⟩ | rfl
      · exact .inl (exists_filter_eq rfl)
      · exact .inl ⟨_, rfl⟩
  | deletePost id =>
      obtain ⟨found, hdelete⟩ := found_of_map h
      rcases (Store.deleting_ok hdelete).2 with ⟨-, rfl⟩ | hremove
      · exact .inl (exists_filter_eq rfl)
      · obtain rfl := Store.removePosts_ok hs.replies_later hs.comment_ids hremove
        exact .inl ⟨_, rfl⟩
  | deleteComment id =>
      obtain ⟨found, hdelete⟩ := found_of_map h
      rcases (Store.deleting_ok hdelete).2 with ⟨-, rfl⟩ | hremove
      · exact .inl (exists_filter_eq rfl)
      · obtain rfl := Store.removeComments_ok hs.replies_later hs.comment_ids hremove
        exact .inl (exists_filter_eq rfl)
  | deleteCategory id =>
      cases h
      refine .inr ⟨_, fun row => ?_, rfl⟩
      split <;> exact ⟨rfl, rfl, rfl⟩
  | createSession id token userId hours now =>
      obtain ⟨-, -, -, rfl⟩ := Store.createSession_ok.1 h
      exact .inl (exists_filter_eq rfl)
  | saveMessage | saveSettings | deleteTag | deleteMessage | purgeSessions =>
      cases h
      exact .inl (exists_filter_eq rfl)

/-- The counters of a post change with its views and its likes only. -/
theorem counters_kept (h : change.apply s = .ok t) (hs : s.Sound)
    (hrow : s.posts.row? id = some row) (hnew : t.posts.row? id = some new) :
    (change ≠ .recordView id → new.viewCount = row.viewCount) ∧
      (change ≠ .addLike id → new.likes = row.likes) := by
  cases change with
  | savePost post =>
      rw [Store.row?_savePost h, hrow] at hnew
      split at hnew <;> cases hnew <;> exact ⟨fun _ => rfl, fun _ => rfl⟩
  | recordView viewed =>
      cases h
      rw [Store.row?_recordView, hrow] at hnew
      split at hnew
      · rename_i hid
        cases hnew
        exact ⟨fun hne => absurd (hid ▸ rfl) hne, fun _ => rfl⟩
      · cases hnew
        exact ⟨fun _ => rfl, fun _ => rfl⟩
  | addLike liked =>
      cases h
      rw [Store.addLike_eq_like, Store.row?_like, hrow] at hnew
      split at hnew
      · rename_i hid
        cases hnew
        exact ⟨fun _ => rfl, fun hne => absurd (hid ▸ rfl) hne⟩
      · cases hnew
        exact ⟨fun _ => rfl, fun _ => rfl⟩
  | _ =>
      have hkeeps := keepsCounters h hs (by simp) (by simp) (by simp)
      obtain ⟨hviews, hlikes⟩ := hkeeps.counters hs hrow hnew
      exact ⟨fun _ => hviews, fun _ => hlikes⟩

end Change

namespace Procedure.Turn
variable {turn : Turn Store} {id : String} {row new : PostRow}

def IsView (id : String) (turn : Turn Store) : Prop :=
  turn.act = Store.recordView id

def IsLike (id : String) (turn : Turn Store) : Prop :=
  turn.act = fun s => (s.addLike id).2

def Likes (id : String) (turn : Turn Store) : Prop :=
  turn.IsLike id ∧ ∃ n, (turn.before.addLike id).1 = .ok n

/-- A turn that does not count a view or a like of a post leaves that counter of it alone. -/
theorem counters_kept (hact : Change.Step (fun _ => True) turn.act) (hs : turn.before.Sound)
    (hrow : turn.before.posts.row? id = some row) (hnew : turn.after.posts.row? id = some new) :
    (¬ turn.IsView id → new.viewCount = row.viewCount) ∧
      (¬ turn.IsLike id → new.likes = row.likes) := by
  have hsame : turn.after = turn.before → new = row := by
    intro hafter
    rw [hafter, hrow] at hnew
    exact (Option.some.inj hnew).symm
  rcases hact with hid | ⟨change, -, hchange⟩
  · rw [hsame (congrFun hid turn.before)]
    exact ⟨fun _ => rfl, fun _ => rfl⟩
  · rcases change.after_cases turn.before with hkept | happly
    · rw [hsame ((congrFun hchange turn.before).trans hkept)]
      exact ⟨fun _ => rfl, fun _ => rfl⟩
    · rw [← hchange] at happly
      obtain ⟨hviews, hlikes⟩ := Change.counters_kept happly hs hrow hnew
      refine ⟨fun hview => hviews ?_, fun hlike => hlikes ?_⟩
      · rintro rfl
        exact hview hchange
      · rintro rfl
        exact hlike hchange

theorem viewCount_of_isView (h : turn.IsView id) (hrow : turn.before.posts.row? id = some row)
    (hnew : turn.after.posts.row? id = some new) : new.viewCount = row.viewCount.next := by
  rw [after, h, Store.row?_recordView, if_pos rfl, hrow] at hnew
  cases hnew
  rfl

theorem likes_of_isLike (h : turn.IsLike id) (hrow : turn.before.posts.row? id = some row)
    (hnew : turn.after.posts.row? id = some new) : new.likes = row.likes.next := by
  have hliked : turn.after = turn.before.like id := by
    rw [after, h]
    dsimp only
    rw [Store.addLike, hrow]
  rw [hliked, Store.row?_like, if_pos rfl, hrow] at hnew
  cases hnew
  rfl

theorem likes_of_exact (h : turn.IsLike id) (hrow : turn.before.posts.row? id = some row) {n : Int}
    (hn : row.likes.next = .exact n) : turn.Likes id := by
  refine ⟨h, n, ?_⟩
  rw [Store.addLike, hrow]
  simp [hn, Counter.cell, Record.read, Column.read]

end Procedure.Turn

theorem Counter.next_exact {n : Int} (h : n < Counter.greatest) :
    (Counter.exact n).next = .exact (n + 1) :=
  if_pos h

section Turns
variable {clients : List (Procedure Store Unit)} {order : List Nat} {s : Store} {id : String}
variable {row new : PostRow} {turn : Turn Store} {turns : List (Turn Store)}

/-- One turn adds to the views of a post what it adds to the number of calls that count them. -/
theorem viewCount_after (hact : Change.Step (fun _ => True) turn.act) (hs : turn.before.Sound)
    (hrow : turn.before.posts.row? id = some row) (hnew : turn.after.posts.row? id = some new)
    {v : Int} (hv : row.viewCount = .exact v)
    (hroom : v + count (Turn.IsView id) (turn :: turns) ≤ Counter.greatest) :
    ∃ n : Nat, new.viewCount = .exact (v + n) ∧
      count (Turn.IsView id) (turn :: turns) = n + count (Turn.IsView id) turns := by
  by_cases hview : turn.IsView id
  · rw [count_cons_of_pos hview] at hroom
    refine ⟨1, ?_, (count_cons_of_pos hview).trans (Nat.add_comm _ _)⟩
    rw [Turn.viewCount_of_isView hview hrow hnew, hv, Counter.next_exact (by omega)]
    rfl
  · refine ⟨0, ?_, (count_cons_of_neg hview).trans (Nat.zero_add _).symm⟩
    rw [(Turn.counters_kept hact hs hrow hnew).1 hview, hv]
    simp

/-- One turn adds to the likes of a post what it adds to the number of calls that count them, and
each of these has success. -/
theorem likes_after (hact : Change.Step (fun _ => True) turn.act) (hs : turn.before.Sound)
    (hrow : turn.before.posts.row? id = some row) (hnew : turn.after.posts.row? id = some new)
    {l : Int} (hl : row.likes = .exact l)
    (hroom : l + count (Turn.IsLike id) (turn :: turns) ≤ Counter.greatest) :
    ∃ n : Nat, new.likes = .exact (l + n) ∧
      count (Turn.IsLike id) (turn :: turns) = n + count (Turn.IsLike id) turns ∧
        count (Turn.Likes id) (turn :: turns) = n + count (Turn.Likes id) turns := by
  by_cases hlike : turn.IsLike id
  · rw [count_cons_of_pos hlike] at hroom
    have hnext : row.likes.next = .exact (l + 1) := by
      rw [hl, Counter.next_exact (by omega)]
    have hsuccess := Turn.likes_of_exact hlike hrow hnext
    refine ⟨1, ?_, (count_cons_of_pos hlike).trans (Nat.add_comm _ _),
      (count_cons_of_pos hsuccess).trans (Nat.add_comm _ _)⟩
    rw [Turn.likes_of_isLike hlike hrow hnew, hnext]
    rfl
  · refine ⟨0, ?_, (count_cons_of_neg hlike).trans (Nat.zero_add _).symm,
      (count_cons_of_neg fun h => hlike h.1).trans (Nat.zero_add _).symm⟩
    rw [(Turn.counters_kept hact hs hrow hnew).2 hlike, hl]
    simp

/-- While a post is stored, its counters go up by the number of calls that count, whatever else the
clients do in turns. -/
theorem play_counts (h : ∀ p ∈ clients, p.Each (Change.Step fun _ => True)) (hs : s.Sound)
    (hrow : s.posts.row? id = some row) {v l : Int} (hv : row.viewCount = .exact v)
    (hl : row.likes = .exact l)
    (hstays : ∀ turn ∈ (play order clients s).turns, turn.after.posts.has id = true)
    (hviews : v + count (Turn.IsView id) (play order clients s).turns ≤ Counter.greatest)
    (hlikes : l + count (Turn.IsLike id) (play order clients s).turns ≤ Counter.greatest) :
    ∃ new, (play order clients s).state.posts.row? id = some new ∧
      new.viewCount = .exact (v + count (Turn.IsView id) (play order clients s).turns) ∧
        new.likes = .exact (l + count (Turn.Likes id) (play order clients s).turns) := by
  induction order generalizing clients s row v l with
  | nil => exact ⟨row, hrow, by simpa [play, count] using hv, by simpa [play, count] using hl⟩
  | cons place order ih =>
      rcases play_cons place order h s with hpass | ⟨act, left, hact, hleft, hplay⟩
      · rw [hpass] at hstays hviews hlikes ⊢
        exact ih h hs hrow hv hl hstays hviews hlikes
      · rw [hplay] at hstays hviews hlikes ⊢
        obtain ⟨hnow, hlater⟩ := List.forall_mem_cons.1 hstays
        obtain ⟨new, hnew⟩ := Table.exists_row?_of_has hnow
        obtain ⟨m, hm, hcountsViews⟩ := viewCount_after hact hs hrow hnew hv hviews
        obtain ⟨n, hn, hcountsCalls, hcountsLikes⟩ := likes_after hact hs hrow hnew hl hlikes
        rw [hcountsViews] at hviews ⊢
        rw [hcountsCalls] at hlikes
        rw [hcountsLikes]
        have hsound : (act s).Sound := hact.keeps_sound hs
        obtain ⟨last, hlast, hlastViews, hlastLikes⟩ :=
          ih hleft hsound hnew hm hn hlater (by push_cast at hviews; omega)
            (by push_cast at hlikes; omega)
        refine ⟨last, hlast, hlastViews.trans ?_, hlastLikes.trans ?_⟩
        · push_cast
          rw [Int.add_assoc]
        · push_cast
          rw [Int.add_assoc]

end Turns

namespace Api
open StoreProcedure Exchange Http Action

variable {s : Store} {x : Exchange} {row : PostRow} {v l : Int}

theorem Exchange.outcome_of_parameter? {raw value : String} (name : String)
    (h : parameter? raw = some value) (s : Store) :
    (parameter name raw).outcome s = (.ok value, s) := by
  have htext : Text.Utf8.text? (Text.Percent.decode raw.toList) = some value := h
  rw [parameter, htext]
  rfl

theorem likePost_ok (hs : s.Sound) (hrow : row ∈ s.posts) (hv : row.viewCount = .exact v)
    (hl : row.likes = .exact l) (hroom : l < Counter.greatest) :
    (likePost row.slug).outcome s = (.ok (l + 1), s.like row.id) := by
  have hreadable : Store.Readable row := ⟨by simp [hv], by simp [hl]⟩
  obtain ⟨post, hpost⟩ := (Store.exists_postOf (s := s)).2 hreadable
  have hfind := Store.findPostAt?_of_mem hs hrow hpost
  have hid : post.id = row.id := by rw [(Store.postOf_ok.1 hpost).2.2]
  have hstored : s.posts.row? row.id = some row := Table.find?_of_mem hs.post_ids hrow
  have hlike : s.addLike post.id = (.ok (l + 1), s.like row.id) := by
    rw [hid, Store.addLike, hstored]
    simp [hl, Counter.next_exact hroom, Counter.cell, Record.read, Column.read]
  rw [likePost, outcome_then (lookOr_ok.2 ⟨hfind, rfl⟩), outcome_then (found_ok.2 ⟨rfl, rfl⟩)]
  refine (outcome_then (a := .ok (l + 1)) (t := s.like row.id) ?_ _).trans rfl
  show (Except.ok (s.addLike post.id).1, (s.addLike post.id).2) = _
  rw [hlike]

namespace Exchange

structure Visits (x : Exchange) (row : PostRow) (s : Store) : Prop where
  method : x.request.method = .get
  operation : ∃ raw, x.operation? = some (.readPost raw) ∧ parameter? raw = some row.slug
  stored : row ∈ s.posts
  visible : (row.isActive || maySeeHidden (x.callerIn s) row.authorId) = true

structure Applauds (x : Exchange) (row : PostRow) (s : Store) : Prop where
  method : x.request.method = .post
  operation : ∃ raw, x.operation? = some (.likePost raw) ∧ parameter? raw = some row.slug
  stored : row ∈ s.posts
  known : ∃ caller, x.callerIn s = some caller
  passes : x.Passes s

/-- The number of views that a request is told of a post is the one that is stored afterwards. -/
def TellsViews [Libraries] (x : Exchange) (id : String) (n : Int) (s : Store) : Prop :=
  (x.answer.run s).1.status = 200 ∧
    (∃ view : PostView, (x.answer.run s).1.body = .json view.toJson ∧ view.post.id = id ∧
      view.post.viewCount = n) ∧
    ∃ new, (x.after s).posts.row? id = some new ∧ new.viewCount = .exact n

def TellsLikes [Libraries] (x : Exchange) (id : String) (n : Int) (s : Store) : Prop :=
  (x.answer.run s).1.status = 200 ∧
    (x.answer.run s).1.body = .json (.object [("likes", .int n)]) ∧
    ∃ new, (x.after s).posts.row? id = some new ∧ new.likes = .exact n

theorem Visits.tells [Libraries] (h : x.Visits row s) (hs : s.Sound) (hv : row.viewCount = .exact v)
    (hl : row.likes = .exact l) (hroom : v < Counter.greatest) : x.TellsViews row.id (v + 1) s := by
  obtain ⟨raw, hop, hraw⟩ := h.operation
  have hreadable : Store.Readable row := ⟨by simp [hv], by simp [hl]⟩
  obtain ⟨post, hpost⟩ := (Store.exists_postOf (s := s)).2 hreadable
  obtain ⟨hviews, -, hsame⟩ := Store.postOf_ok.1 hpost
  obtain ⟨view, hview, rfl⟩ := Store.findView?_of_mem hs h.stored hpost
  have hsees : (view.post.isActive || maySeeHidden (x.callerIn s) view.post.authorId) = true := by
    rw [hsame]
    exact h.visible
  have hid : view.post.id = row.id := by rw [hsame]
  have hcounted : view.counted.post.viewCount = v + 1 :=
    congrArg (· + 1) (Counter.exact.inj (hviews.symm.trans hv))
  have hread := readPost_ok.2 ⟨view, hview, hsees, rfl, rfl⟩
  have hperform : (x.perform (.readPost raw)).outcome s =
      (.ok (.json 200 view.counted.toJson), s.recordView row.id) := by
    show outcome (x.caller? >>= _) s = _
    rw [outcome_then (outcome_caller? x s), outcome_then (outcome_of_parameter? _ hraw s), ← hid]
    exact (outcome_then hread _).trans rfl
  have hstored : s.posts.row? row.id = some row := Table.find?_of_mem hs.post_ids h.stored
  obtain ⟨hafter, hstatus, hbody⟩ := answer_of_ok hop (by simp [h.method])
    (.inl (by rw [h.method]; rfl)) hperform
  refine ⟨hstatus, ⟨view.counted, hbody, hid, hcounted⟩,
    { row with viewCount := row.viewCount.next }, ?_, ?_⟩
  · rw [hafter, Store.row?_recordView, if_pos rfl, hstored]
    rfl
  · dsimp only
    rw [hv, Counter.next_exact hroom]

theorem Applauds.tells [Libraries] (h : x.Applauds row s) (hs : s.Sound)
    (hv : row.viewCount = .exact v) (hl : row.likes = .exact l) (hroom : l < Counter.greatest) :
    x.TellsLikes row.id (l + 1) s := by
  obtain ⟨raw, hop, hraw⟩ := h.operation
  obtain ⟨caller, hcaller⟩ := h.known
  have hperform : (x.perform (.likePost raw)).outcome s =
      (.ok (.json 200 (.object [("likes", .int (l + 1))])), s.like row.id) := by
    show outcome (x.caller >>= _) s = _
    rw [outcome_then (outcome_caller hcaller), outcome_then (outcome_of_parameter? _ hraw s)]
    exact (outcome_then (likePost_ok hs h.stored hv hl hroom) _).trans rfl
  have hstored : s.posts.row? row.id = some row := Table.find?_of_mem hs.post_ids h.stored
  obtain ⟨hafter, hstatus, hbody⟩ := answer_of_ok hop (by simp [h.method]) h.passes hperform
  refine ⟨hstatus, hbody, { row with likes := row.likes.next }, ?_, ?_⟩
  · rw [hafter, Store.row?_like, if_pos rfl, hstored]
    rfl
  · dsimp only
    rw [hl, Counter.next_exact hroom]

end Exchange
end Api

/-- Counters are conserved. From when a post is stored, at any point of the turns that any clients
take with any calls, and as long as it is not deleted, its views go up by the number of calls that
count a view of it, and its likes by the number of calls that count a like of it with success. And
where one request follows another, who reads or likes a post is told the number that is stored. -/
theorem Call.counters_conserved [Libraries] :
    (∀ (calls clients : List Call) (before order : List Nat) (first rest : Play Store Unit)
      (id : String) (row : PostRow) (v l : Int),
      play before (clients.map procedure) (run calls Database.fresh.store) = first →
      play order first.clients first.state = rest →
      first.state.posts.row? id = some row → row.viewCount = .exact v → row.likes = .exact l →
      (∀ turn ∈ rest.turns, turn.after.posts.has id = true) →
      v + count (Turn.IsView id) rest.turns ≤ Counter.greatest →
      l + count (Turn.IsLike id) rest.turns ≤ Counter.greatest →
      ∃ new, rest.state.posts.row? id = some new ∧
        new.viewCount = .exact (v + count (Turn.IsView id) rest.turns) ∧
          new.likes = .exact (l + count (Turn.Likes id) rest.turns)) ∧
    (∀ (calls : List Call) (x : Api.Exchange) (row : PostRow) (v l : Int),
      row.viewCount = .exact v → row.likes = .exact l →
      (x.Visits row (run calls Database.fresh.store) → v < Counter.greatest →
        x.TellsViews row.id (v + 1) (run calls Database.fresh.store)) ∧
      (x.Applauds row (run calls Database.fresh.store) → l < Counter.greatest →
        x.TellsLikes row.id (l + 1) (run calls Database.fresh.store))) := by
  have hsound : ∀ calls, (run calls Database.fresh.store).Sound := fun calls =>
    run_keeps_sound calls Database.sound_fresh
  constructor
  · rintro calls clients before order first rest id row v l rfl rfl hrow hv hl hstays hviews hlikes
    have heach : ∀ p ∈ clients.map procedure, p.Each (Change.Step fun _ => True) := by
      intro p hp
      obtain ⟨call, -, rfl⟩ := List.mem_map.1 hp
      exact call.procedure_each
    exact play_counts (play_each heach) (play_keeps_sound heach (hsound calls)) hrow hv hl hstays
      hviews hlikes
  · intro calls x row v l hv hl
    exact ⟨fun hvisits => hvisits.tells (hsound calls) hv hl,
      fun happlauds => happlauds.tells (hsound calls) hv hl⟩

attribute [local instance] Libraries.bare

namespace Sample

def viewing : Api.Exchange :=
  request 6 "p2" .get "/api/posts/hello" ""

def liking : Api.Exchange :=
  request 6 "p2" .post "/api/posts/hello/like" ""

/-- A reader, someone who likes the post, someone who saves an old copy of it, and its author, who
gives it another title. -/
def visitors : List Call :=
  [.request viewing, .request liking,
    .submit (.post { post with slug := "hello", authorId := member.id } (.ofSeconds 7)),
    .request rename]

def rounds : List Nat :=
  (List.replicate 5 [0, 1, 2, 3]).flatten

def helloRow : PostRow where
  id := "p1"
  title := "Hello"
  slug := "hello"
  content := ""
  excerpt := ""
  authorId := member.id
  categoryId := none
  status := .draft
  isActive := true
  publishedDate := none
  viewCount := .exact 0
  likes := .exact 0
  createdAt := .ofSeconds 5
  updatedAt := .ofSeconds 5

end Sample

/-- A view and a like are both counted, although an old copy of the post and a new title are saved
in between. -/
theorem Call.counters_conserved_of_visitors :
    let rest := play Sample.rounds (Sample.visitors.map procedure)
      (run Sample.joined Database.fresh.store)
    (∃ new, rest.state.posts.row? "p1" = some new ∧
      new.viewCount = .exact (0 + count (Turn.IsView "p1") rest.turns) ∧
        new.likes = .exact (0 + count (Turn.Likes "p1") rest.turns)) ∧
    rest.state.posts.map (fun row => (row.title, row.viewCount, row.likes)) =
      [("New", .exact 1, .exact 1)] ∧
    Sample.viewing.TellsViews "p1" (0 + 1) (run Sample.joined Database.fresh.store) ∧
    Sample.liking.TellsLikes "p1" (0 + 1) (run Sample.joined Database.fresh.store) := by
  intro rest
  obtain ⟨hturns, hrequests⟩ := counters_conserved
  obtain ⟨hlength, hstays, hnumbers⟩ : rest.turns.length = 13 ∧
      (∀ turn ∈ rest.turns, turn.after.posts.has "p1" = true) ∧
      rest.state.posts.map (fun row => (row.title, row.viewCount, row.likes)) =
        [("New", .exact 1, .exact 1)] := by decide +kernel
  obtain ⟨hstored, hcaller, hopen⟩ :
      (run Sample.joined Database.fresh.store).posts = [Sample.helloRow] ∧
      Sample.liking.callerIn (run Sample.joined Database.fresh.store) =
        some (.ofUser Sample.member) ∧
      (run Sample.joined Database.fresh.store).maintenanceMode = false := by decide +kernel
  have hmem : Sample.helloRow ∈ (run Sample.joined Database.fresh.store).posts := by
    rw [hstored]
    exact List.mem_singleton_self _
  have hrow : (run Sample.joined Database.fresh.store).posts.row? "p1" = some Sample.helloRow := by
    rw [hstored]
    rfl
  have hroom : ∀ P : Turn Store → Prop, 0 + (count P rest.turns : Int) ≤ Counter.greatest := by
    intro P
    have hcount := count_le_length P rest.turns
    rw [Counter.greatest]
    omega
  have hviewing := (hrequests Sample.joined Sample.viewing Sample.helloRow 0 0 rfl rfl).1
  have hliking := (hrequests Sample.joined Sample.liking Sample.helloRow 0 0 rfl rfl).2
  refine ⟨?_, hnumbers, hviewing ?_ (by decide), hliking ?_ (by decide)⟩
  · exact hturns Sample.joined Sample.visitors [] Sample.rounds _ rest "p1" Sample.helloRow 0 0 rfl
      rfl hrow rfl rfl hstays (hroom _) (hroom _)
  · exact ⟨rfl, ⟨"hello", by decide +kernel, by decide +kernel⟩, hmem, rfl⟩
  · exact ⟨rfl, ⟨"hello", by decide +kernel, by decide +kernel⟩, hmem, ⟨_, hcaller⟩,
      .inr (.inl hopen)⟩

end Gazette
