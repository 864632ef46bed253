import Gazette.Proofs.Counters
import Gazette.Proofs.Listing
import Mathlib.Logic.Function.Iterate

/-!
# Counters at their limit

A counter that stands at the greatest number is not kept there by the next view or like. It becomes
inexact for good, and from then on neither the post can be read nor any listing that it is in. So
calls that count are safe as long as none of them finds a counter at the limit, and no longer.
-/
namespace Gazette

namespace Counter

/-- Whether a counter can take in some more events one after another. -/
def Takes (n : Nat) : Counter → Prop
  | exact v => n = 0 ∨ v + n ≤ greatest
  | inexact => False

/-- A counter can be read after some events iff it could take them in. -/
theorem iterate_next_ne_inexact_iff {counter : Counter} {n : Nat} :
    next^[n] counter ≠ inexact ↔ counter.Takes n := by
  induction n generalizing counter with
  | zero => cases counter <;> simp [Takes]
  | succ n ih =>
      rw [Function.iterate_succ_apply, ih]
      cases counter with
      | inexact => exact Iff.rfl
      | exact v =>
          by_cases hroom : v < greatest
          · rw [next_exact hroom]
            simp only [Takes]
            omega
          · have hfull : (exact v).next = inexact := if_neg hroom
            rw [hfull]
            simp only [Takes, false_iff]
            omega

theorem next_of_ne_inexact {v : Int} (h : (exact v).next ≠ inexact) :
    (exact v).next = exact (v + 1) := by
  by_cases hroom : v < greatest
  · exact next_exact hroom
  · exact absurd (if_neg hroom) h

theorem Takes.of_le {counter : Counter} {m n : Nat} (h : counter.Takes n) (hle : m ≤ n) :
    counter.Takes m := by
  cases counter with
  | inexact => exact h
  | exact v =>
      simp only [Takes] at *
      omega

end Counter

namespace Change

def viewed? : Change → Option String
  | recordView id => some id
  | _ => none

def liked? : Change → Option String
  | addLike id => some id
  | _ => none

end Change

def viewsOf (id : String) (changes : List Change) : Nat :=
  (changes.filterMap Change.viewed?).count id

def likesOf (id : String) (changes : List Change) : Nat :=
  (changes.filterMap Change.liked?).count id

def PostRow.counted (changes : List Change) (row : PostRow) : PostRow :=
  { row with
    viewCount := Counter.next^[viewsOf row.id changes] row.viewCount
    likes := Counter.next^[likesOf row.id changes] row.likes }

theorem viewsOf_cons (id : String) (change : Change) (changes : List Change) :
    viewsOf id (change :: changes) = viewsOf id changes + viewsOf id [change] := by
  rw [← List.singleton_append, viewsOf, List.filterMap_append, List.count_append, Nat.add_comm]
  rfl

theorem likesOf_cons (id : String) (change : Change) (changes : List Change) :
    likesOf id (change :: changes) = likesOf id changes + likesOf id [change] := by
  rw [← List.singleton_append, likesOf, List.filterMap_append, List.count_append, Nat.add_comm]
  rfl

theorem PostRow.counted_cons (change : Change) (changes : List Change) (row : PostRow) :
    row.counted (change :: changes) = (row.counted [change]).counted changes := by
  rw [counted, viewsOf_cons, likesOf_cons, Function.iterate_add_apply, Function.iterate_add_apply]
  rfl

theorem PostRow.counted_nil (row : PostRow) : row.counted [] = row := rfl

theorem PostRow.counted_recordView (id : String) (row : PostRow) :
    row.counted [.recordView id] =
      if row.id == id then { row with viewCount := row.viewCount.next } else row := by
  have hviews : viewsOf row.id [.recordView id] = if row.id == id then 1 else 0 := by
    rw [Bool.beq_comm]
    exact List.count_singleton
  have hlikes : likesOf row.id [.recordView id] = 0 := rfl
  rw [counted, hviews, hlikes]
  split <;> rfl

theorem PostRow.counted_addLike (id : String) (row : PostRow) :
    row.counted [.addLike id] =
      if row.id == id then { row with likes := row.likes.next } else row := by
  have hlikes : likesOf row.id [.addLike id] = if row.id == id then 1 else 0 := by
    rw [Bool.beq_comm]
    exact List.count_singleton
  have hviews : viewsOf row.id [.addLike id] = 0 := rfl
  rw [counted, hviews, hlikes]
  split <;> rfl

theorem Change.after_of_counts {change : Change} (h : change.Counts) (s : Store) :
    change.after s = { s with posts := s.posts.map (PostRow.counted [change]) } := by
  cases change with
  | recordView id => rw [funext (PostRow.counted_recordView id)]; rfl
  | addLike id =>
      rw [funext (PostRow.counted_addLike id)]
      exact Store.addLike_eq_like id s
  | _ => exact h.elim

theorem Call.run_counting [Libraries] {changes : List Change}
    (h : ∀ change ∈ changes, change.Counts) (s : Store) : Call.run (changes.map direct) s =
      { s with posts := s.posts.map (PostRow.counted changes) } := by
  induction changes generalizing s with
  | nil => simp [funext PostRow.counted_nil]
  | cons change changes ih =>
      obtain ⟨hfirst, hrest⟩ := List.forall_mem_cons.1 h
      have hafter : (direct change).after s = _ := Change.after_of_counts hfirst s
      rw [List.map_cons, run_cons, hafter, ih hrest]
      simp only [List.map_map, Function.comp_def, ← PostRow.counted_cons]

namespace Store
variable {s t : Store} {row : PostRow}

/-- Whether a stored post can be read in every way: by its id, at its slug, as a view of it, and in
every listing that shows it. -/
structure Reads (s : Store) (row : PostRow) : Prop where
  by_id : ∃ post, s.findPost? row.id = .ok (some post)
  at_slug : ∃ post, s.findPostAt? row.slug = .ok (some post)
  view : ∃ view, s.findView? row.slug = .ok (some view)
  listed : ∀ filter : PostFilter, (∀ limit, filter.limit = some limit → limit < 2 ^ 63) →
    (∃ joined ∈ (PostQuery.ofFilter filter).answer s, joined.row = row) →
      ∃ views, s.listPosts filter = .ok views

/-- Every post can be read in every way iff the counters of all of them can. -/
theorem reads_iff (hs : s.Sound) :
    (∀ row ∈ s.posts, s.Reads row) ↔ ∀ row ∈ s.posts, Readable row := by
  constructor
  · intro h row hrow
    obtain ⟨other, hother, hread⟩ := exists_findPost?.1 (h row hrow).by_id
    have hstored : s.posts.row? row.id = some row := Table.find?_of_mem hs.post_ids hrow
    rw [hstored] at hother
    exact Option.some.inj hother ▸ hread
  · intro h row hrow
    have hstored : s.posts.row? row.id = some row := Table.find?_of_mem hs.post_ids hrow
    obtain ⟨post, hpost⟩ := (exists_postOf (s := s)).2 (h row hrow)
    obtain ⟨view, hview, -⟩ := findView?_of_mem hs hrow hpost
    exact {
      by_id := exists_findPost?.2 ⟨row, hstored, h row hrow⟩
      at_slug := ⟨post, findPostAt?_of_mem hs hrow hpost⟩
      view := ⟨view, hview⟩
      listed := fun filter hlimit _ => exists_listPosts filter hs h hlimit }

end Store

/-- Whether a call that counts adds one to the counter, or is refused and leaves it as it is. -/
def Change.AddsOne (change : Change) (s : Store) : Prop :=
  match change with
  | recordView id => ∀ row ∈ s.posts, row.id = id → ∀ v, row.viewCount = .exact v →
    { row with viewCount := .exact (v + 1) } ∈ (s.recordView id).posts
  | addLike id => ∀ row ∈ s.posts, row.id = id → ∀ l, row.likes = .exact l →
    (s.addLike id).1 = .ok (l + 1) ∧
        { row with likes := .exact (l + 1) } ∈ (s.addLike id).2.posts ∨
      (∃ e, (s.addLike id).1 = .error e) ∧ row ∈ (s.addLike id).2.posts
  | _ => True

/-- Whether calls that count are safe one after another: each of them adds one or is refused, and
in the end every post can be read in every way. -/
structure Store.CountsSafely [Libraries] (s : Store) (changes : List Change) : Prop where
  adds : ∀ before change, before ++ [change] <+: changes →
    change.AddsOne (Call.run (before.map .direct) s)
  reads : ∀ row ∈ (Call.run (changes.map .direct) s).posts,
    (Call.run (changes.map .direct) s).Reads row

/-- Whether the counters of a post can take in what changes count of it. -/
structure PostRow.Takes (row : PostRow) (changes : List Change) : Prop where
  views : row.viewCount.Takes (viewsOf row.id changes)
  likes : row.likes.Takes (likesOf row.id changes)

theorem PostRow.readable_counted_iff {row : PostRow} {changes : List Change} :
    Store.Readable (row.counted changes) ↔ row.Takes changes :=
  ⟨fun ⟨hviews, hlikes⟩ => ⟨Counter.iterate_next_ne_inexact_iff.1 hviews,
      Counter.iterate_next_ne_inexact_iff.1 hlikes⟩,
    fun ⟨hviews, hlikes⟩ => ⟨Counter.iterate_next_ne_inexact_iff.2 hviews,
      Counter.iterate_next_ne_inexact_iff.2 hlikes⟩⟩

namespace Call
variable {changes : List Change} {s : Store}

theorem forall_readable_run_iff [Libraries] (h : ∀ change ∈ changes, change.Counts) :
    (∀ row ∈ (run (changes.map direct) s).posts, Store.Readable row) ↔
      ∀ row ∈ s.posts, row.Takes changes := by
  rw [run_counting h]
  simp only [List.forall_mem_map, PostRow.readable_counted_iff]

/-- A call that counts adds one if the counters can be read after it. -/
theorem addsOne_of_readable {change : Change} (hs : s.Sound)
    (hread : ∀ row ∈ (change.after s).posts, Store.Readable row) : change.AddsOne s := by
  cases change with
  | recordView id =>
      rintro row hrow rfl v hv
      have hmem : { row with viewCount := row.viewCount.next } ∈ (s.recordView row.id).posts :=
        List.mem_map.2 ⟨row, hrow, by simp⟩
      have hviews := (hread _ hmem).views
      rw [hv] at hviews
      rwa [hv, Counter.next_of_ne_inexact hviews] at hmem
  | addLike id =>
      rintro row hrow rfl l hl
      have hmem : { row with likes := row.likes.next } ∈ (s.like row.id).posts :=
        List.mem_map.2 ⟨row, hrow, by simp⟩
      have hstored : s.posts.row? row.id = some row := Table.find?_of_mem hs.post_ids hrow
      have hafter : (Change.addLike row.id).after s = s.like row.id :=
        Store.addLike_eq_like row.id s
      rw [hafter] at hread
      have hlikes := (hread _ hmem).likes
      rw [hl] at hlikes
      have hnext := Counter.next_of_ne_inexact hlikes
      rw [hl, hnext] at hmem
      rw [Store.addLike_eq_like]
      refine .inl ⟨?_, hmem⟩
      rw [Store.addLike, hstored]
      simp [hl, hnext, Counter.cell, Record.read, Column.read]
  | _ => trivial

theorem takes_of_before {row : PostRow} {before : List Change} (h : row.Takes changes)
    (hbefore : before <+: changes) : row.Takes before where
  views := h.views.of_le ((hbefore.sublist.filterMap _).count_le _)
  likes := h.likes.of_le ((hbefore.sublist.filterMap _).count_le _)

/-- Counters are safe below their limit and nowhere else. After any run, calls that count views and
likes one after another each add exactly one, and every post can be read after them in every way,
iff no post is viewed or liked when that counter of it stands at the greatest number. -/
theorem countsSafely_iff [Libraries] (calls : List Call) (h : ∀ change ∈ changes, change.Counts) :
    (run calls Database.fresh.store).CountsSafely changes ↔
      ∀ row ∈ (run calls Database.fresh.store).posts, row.Takes changes := by
  have hsound : ∀ changes : List Change,
      (run (changes.map direct) (run calls Database.fresh.store)).Sound :=
    fun changes => run_keeps_sound _ (run_keeps_sound calls Database.sound_fresh)
  constructor
  · intro hsafe
    exact (forall_readable_run_iff h).1 ((Store.reads_iff (hsound changes)).1 hsafe.reads)
  · intro htakes
    constructor
    · intro before change hbefore
      refine addsOne_of_readable (hsound before) ?_
      have hcounts : ∀ c ∈ before ++ [change], c.Counts := fun c hc => h c (hbefore.subset hc)
      have hread := (forall_readable_run_iff hcounts).2 fun row hrow =>
        takes_of_before (htakes row hrow) hbefore
      rwa [List.map_append, run_append] at hread
    · exact (Store.reads_iff (hsound changes)).2 ((forall_readable_run_iff h).2 htakes)

end Call

attribute [local instance] Libraries.bare

namespace Sample

def popular : Post :=
  { post with viewCount := Counter.greatest - 1, likes := Counter.greatest }

def famous : List Call :=
  start ++ [.direct (.savePost popular)]

end Sample

/-- One more view is still safe. -/
theorem Call.countsSafely_of_last_view :
    (run Sample.famous Database.fresh.store).CountsSafely [.recordView "p1"] := by
  have hstored : (run Sample.famous Database.fresh.store).posts =
      [Store.PostRow.ofPost Sample.popular] := by decide +kernel
  refine (countsSafely_iff Sample.famous (by simp [Change.Counts])).2 fun row hrow => ?_
  obtain rfl := List.mem_singleton.1 (hstored ▸ hrow)
  exact ⟨.inr (by decide +kernel), .inl (by decide +kernel)⟩

/-- A like at the limit is refused and counted all the same, and leaves a post that nobody can
read. -/
theorem Call.not_countsSafely_of_full :
    ¬ (run Sample.famous Database.fresh.store).CountsSafely [.addLike "p1"] := by
  intro hsafe
  have hunreadable : ¬ ∀ row ∈ (run [.direct (.addLike "p1")]
      (run Sample.famous Database.fresh.store)).posts, Store.Readable row := by decide +kernel
  have hfamous := run_keeps_sound Sample.famous Database.sound_fresh
  have hsound := run_keeps_sound [.direct (.addLike "p1")] hfamous
  exact hunreadable ((Store.reads_iff hsound).1 hsafe.reads)

end Gazette
