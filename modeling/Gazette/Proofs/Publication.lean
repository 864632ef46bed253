import Gazette.Proofs.Writing

/-!
# Publication

A post gets its date of publication once. No later write moves or clears the date, whichever way
the write goes and whatever it says. Through the editor no post becomes published without a date,
and through the interface the date is the time of the first write that publishes the post.
-/
namespace Gazette
open Store

variable {s t : Store} {id : String} {d : Timestamp}

theorem Store.publishedAt?_of_none (h : s.posts.row? id = none) : s.publishedAt? id = none := by
  rw [publishedAt?, h]
  rfl

theorem Store.publishedAt?_eq_some :
    s.publishedAt? id = some d ↔ ∃ row, s.posts.row? id = some row ∧ row.publishedDate = some d :=
  Option.bind_eq_some_iff

theorem PostRow.SameText.publishedDate {old new : PostRow} (h : old.SameText new) :
    new.publishedDate = old.publishedDate := by
  rw [h]

theorem PostRow.SameText.status {old new : PostRow} (h : old.SameText new) :
    new.status = old.status := by
  rw [h]

/-- A change leaves a date of publication as it is, or deletes the post. -/
theorem Change.publishedAt?_kept {change : Change} (h : change.apply s = .ok t) (hs : s.Sound)
    (hdate : s.publishedAt? id = some d) :
    t.posts.row? id = none ∨ t.publishedAt? id = some d := by
  obtain ⟨row, hrow, hd⟩ := publishedAt?_eq_some.1 hdate
  rcases Change.postRow_cases h hs id with ⟨post, rfl, rfl⟩ | hnone | ⟨old, new, hold, hnew, htext⟩
  · have hput := row?_savePost h post.id
    rw [if_pos rfl, hrow] at hput
    refine .inr (publishedAt?_eq_some.2 ⟨_, hput, ?_⟩)
    show row.publishedDate.or _ = some d
    rw [hd]
    rfl
  · exact .inl hnone
  · obtain rfl : row = old := Option.some.inj (hrow.symm.trans hold)
    exact .inr (publishedAt?_eq_some.2 ⟨new, hnew, htext.publishedDate.trans hd⟩)

theorem Change.row?_isSome_of_written {change : Change} (h : change.apply s = .ok t)
    (hwritten : change.written? ≠ none) (hrow : s.posts.row? id ≠ none) :
    t.posts.row? id ≠ none := by
  cases change with
  | savePost post =>
      rw [row?_savePost h]
      split
      · exact Option.some_ne_none _
      · exact hrow
  | saveCategory category =>
      obtain ⟨-, rfl⟩ := saveCategory_ok.1 h
      exact hrow
  | saveTag tag =>
      obtain ⟨-, rfl⟩ := saveTag_ok.1 h
      exact hrow
  | _ => exact absurd rfl hwritten

theorem Store.Unwritten.publishedAt?_kept (h : s.Unwritten t) (hdate : s.publishedAt? id = some d) :
    t.posts.row? id = none ∨ t.publishedAt? id = some d := by
  obtain ⟨row, hrow, hd⟩ := publishedAt?_eq_some.1 hdate
  rcases h.posts id with hnone | ⟨old, new, hold, hnew, htext⟩
  · exact .inl hnone
  · obtain rfl : row = old := Option.some.inj (hrow.symm.trans hold)
    exact .inr (publishedAt?_eq_some.2 ⟨new, hnew, htext.publishedDate.trans hd⟩)

/-- The steps of a request that writes delete nothing, and those of any other request write
nothing. So a request leaves a date as it is, or deletes the post. -/
theorem Api.Exchange.publishedAt?_kept [Libraries] {x : Exchange} (hs : s.Sound)
    (hdate : s.publishedAt? id = some d) :
    (x.after s).posts.row? id = none ∨ (x.after s).publishedAt? id = some d := by
  by_cases hwrites : ∃ op, x.operation? = some op ∧ op.writes? ≠ none
  · obtain ⟨op, hx, hop⟩ := hwrites
    refine .inr (after_keeps (I := fun t => t.Sound ∧ t.publishedAt? id = some d) ?_ ⟨hs, hdate⟩).2
    rintro change t u ⟨op', hx', hallows⟩ happly ⟨ht, hkept⟩
    obtain rfl : op = op' := Option.some.inj (hx.symm.trans hx')
    refine ⟨change.keeps_sound t u happly ht, ?_⟩
    refine (Change.publishedAt?_kept happly ht hkept).resolve_left ?_
    refine Change.row?_isSome_of_written happly ?_ ?_
    · intro hnone
      exact hop (by rw [← hallows.kind, hnone]; rfl)
    · obtain ⟨row, hrow, -⟩ := publishedAt?_eq_some.1 hkept
      rw [hrow]
      exact Option.some_ne_none row
  · refine (after_unwritten hs ?_).publishedAt?_kept hdate
    intro op hx
    by_contra hop
    exact hwrites ⟨op, hx, hop⟩

theorem Call.publishedAt?_kept [Libraries] (call : Call) (hs : s.Sound)
    (hdate : s.publishedAt? id = some d) :
    (call.after s).posts.row? id = none ∨ (call.after s).publishedAt? id = some d := by
  cases call with
  | direct change =>
      show (change.after s).posts.row? id = none ∨ (change.after s).publishedAt? id = some d
      rcases change.after_cases s with hsame | happly
      · rw [hsame]
        exact .inr hdate
      · exact Change.publishedAt?_kept happly hs hdate
  | submit submission =>
      show (submission.after s).posts.row? id = none ∨
        (submission.after s).publishedAt? id = some d
      rcases submission.after_cases s with hsame | ⟨change, -, happly⟩
      · rw [hsame]
        exact .inr hdate
      · exact Change.publishedAt?_kept happly hs hdate
  | request x => exact Api.Exchange.publishedAt?_kept hs hdate

theorem Call.publishedAt?_run [Libraries] {calls : List Call} (hs : s.Sound)
    (hdate : s.publishedAt? id = some d)
    (hstays : ∀ step ∈ steps calls s, (step.2.after step.1).posts.has id = true) :
    (run calls s).publishedAt? id = some d := by
  refine (steps_keep_of_sound (I := fun t => t.publishedAt? id = some d) ?_ hs hdate).1
  intro ⟨u, call⟩ hstep hu hkept
  refine (call.publishedAt?_kept hu hkept).resolve_left ?_
  intro hnone
  have hhas := hstays _ hstep
  rw [Table.has_eq_isSome, hnone] at hhas
  cases hhas

def Store.Dated (s : Store) : Prop :=
  ∀ row ∈ s.posts, row.status = .published → row.publishedDate ≠ none

theorem Store.dated_fresh : Database.fresh.store.Dated := by
  rw [Database.fresh_store]
  intro row hrow
  cases hrow

section
variable [Libraries]

theorem Post.publishedDate_of_prepare {given saved : Post} {now : Timestamp}
    (h : given.prepare now = .ok saved) :
    saved.publishedDate =
      given.publishedDate.or (if saved.status = .published then some now else none) := by
  rw [(prepare_ok.1 h).2.2]

theorem Change.keeps_dated {change : Change} (h : change.apply s = .ok t) (hs : s.Sound)
    (hprepared : ∀ post, change = .savePost post → change.Prepared) (hdated : s.Dated) :
    t.Dated := by
  rcases (apply_keeps h hs).posts with ⟨post, rfl⟩ | ⟨p, hp⟩ | ⟨f, hf, hmap⟩
  · obtain ⟨given, now, hprepare⟩ := hprepared post rfl
    have hnew : post.status = .published → post.publishedDate ≠ none := by
      intro hstatus
      rw [Post.publishedDate_of_prepare hprepare, if_pos hstatus]
      cases given.publishedDate <;> exact Option.some_ne_none _
    obtain ⟨-, -, -, -, rfl⟩ := savePost_ok.1 h
    intro row hrow hstatus
    rcases (Table.mem_put hs.post_ids).1 hrow with ⟨hold, -⟩ | ⟨old, hold, -, rfl⟩ | ⟨-, rfl⟩
    · exact hdated row hold hstatus
    · intro hnone
      exact hnew hstatus (Option.or_eq_none_iff.1 hnone).2
    · exact hnew hstatus
  · intro row hrow
    rw [hp] at hrow
    exact hdated row (List.mem_filter.1 hrow).1
  · intro row hrow hstatus
    rw [hmap] at hrow
    obtain ⟨old, hold, rfl⟩ := List.mem_map.1 hrow
    rw [(hf old).publishedDate]
    exact hdated old hold ((hf old).status ▸ hstatus)

/-- Where posts are only written through the editor, no post is published without a date. -/
theorem Call.run_dated {calls : List Call} (hposts : ∀ post, .direct (.savePost post) ∉ calls)
    (hs : s.Sound) (hdated : s.Dated) : (run calls s).Dated := by
  refine run_keeps_of_sound (fun call hcall change t u hmakes happly ht => ?_) hs hdated
  refine Change.keeps_dated happly ht ?_
  rintro post rfl
  refine prepared_of_makes hmakes ?_
  rintro rfl
  exact hposts post hcall

/-- A request publishes a post if it succeeds, writes the post and leaves it published. -/
def Api.Exchange.Publishes (x : Exchange) (id : String) (s : Store) : Prop :=
  x.Succeeds s ∧ (∃ w ∈ x.writing? s, w.kind = .post ∧ w.id = id) ∧
    ∃ row ∈ (x.after s).posts.row? id, row.status = .published

instance (x : Api.Exchange) (id : String) (s : Store) : Decidable (x.Publishes id s) :=
  inferInstanceAs (Decidable (_ ∧ _ ∧ _))

def Call.Publishes (call : Call) (id : String) (s : Store) : Prop :=
  match call with
  | request x => x.Publishes id s
  | _ => False

instance (call : Call) (id : String) (s : Store) : Decidable (call.Publishes id s) :=
  match call with
  | .direct _ => inferInstanceAs (Decidable False)
  | .submit _ => inferInstanceAs (Decidable False)
  | .request x => inferInstanceAs (Decidable (x.Publishes id s))

/-- A write that goes by the stored date stamps a post without one iff it leaves it published. -/
theorem Writing.KeepsDate.row {w : Writing} {now : Timestamp} (h : w.KeepsDate now s t)
    (hnone : s.publishedAt? w.id = none) :
    ∃ row, t.posts.row? w.id = some row ∧
      row.publishedDate = if row.status = .published then some now else none := by
  obtain ⟨given, saved, hid, hdate, hprepare, hsave⟩ := h
  have hsaved : saved.id = w.id := by rw [(Post.prepare_ok.1 hprepare).2.2, ← hid]
  have hrow := row?_savePost hsave w.id
  rw [if_pos hsaved] at hrow
  have hlatched : saved.publishedDate = if saved.status = .published then some now else none := by
    rw [Post.publishedDate_of_prepare hprepare, hdate, hnone, Option.none_or]
  refine ⟨_, hrow, ?_⟩
  cases hold : s.posts.row? w.id with
  | none => exact hlatched
  | some old =>
      have holddate : old.publishedDate = none := by simpa [publishedAt?, hold] using hnone
      show old.publishedDate.or saved.publishedDate = _
      rw [holddate, Option.none_or, hlatched]
      rfl

/-- A request stamps a post that has no date of publication iff it publishes the post. -/
theorem Api.Exchange.publishedAt?_after {x : Exchange} (hs : s.Sound)
    (hfresh : s.Unused x.freshId) (hnone : s.publishedAt? id = none) :
    (x.Publishes id s → (x.after s).publishedAt? id = some x.now) ∧
      (¬ x.Publishes id s → (x.after s).publishedAt? id = none) := by
  rcases write_cases hs hfresh with ⟨w, ⟨hw, hsuccess⟩, hdone, hdate⟩ | ⟨hnot, hunwritten⟩
  · by_cases htarget : w.kind = .post ∧ w.id = id
    · obtain ⟨hkind, rfl⟩ := htarget
      obtain ⟨row, hrow, hlatched⟩ := (hdate hkind).row hnone
      have hafter : (x.after s).publishedAt? w.id = row.publishedDate := by
        rw [publishedAt?, hrow]
        rfl
      rw [hafter, hlatched]
      constructor
      · rintro ⟨-, -, other, hother, hstatus⟩
        obtain rfl : row = other := Option.some.inj (hrow.symm.trans hother)
        rw [if_pos hstatus]
      · intro hnot
        rw [if_neg fun hstatus => hnot ⟨hsuccess, ⟨w, hw, hkind, rfl⟩, row, hrow, hstatus⟩]
    · have hrest : (x.after s).publishedAt? id = none := by
        rw [publishedAt?, hdone.postRow_other htarget]
        exact hnone
      refine ⟨?_, fun _ => hrest⟩
      rintro ⟨-, ⟨other, hother, hkind, hid⟩, -⟩
      obtain rfl : w = other := Option.some.inj (hw.symm.trans hother)
      exact absurd ⟨hkind, hid⟩ htarget
  · refine ⟨?_, fun _ => ?_⟩
    · rintro ⟨hsuccess, ⟨w, hw, -⟩, -⟩
      exact absurd ⟨hw, hsuccess⟩ (hnot w)
    · rcases hunwritten.posts id with hgone | ⟨old, new, hold, hnew, htext⟩
      · exact publishedAt?_of_none hgone
      · rw [publishedAt?, hold] at hnone
        rw [publishedAt?, hnew]
        exact htext.publishedDate.trans hnone

/-- Until a request publishes it, a post has no date of publication. -/
theorem Call.publishedAt?_of_unpublished {xs : List Api.Exchange} (hs : s.Sound)
    (hfresh : FreshIds (xs.map .request) s) (hnone : s.publishedAt? id = none)
    (hnot : ∀ step ∈ steps (xs.map .request) s, ¬ step.2.Publishes id step.1) :
    (run (xs.map .request) s).publishedAt? id = none := by
  refine (steps_keep_of_sound (I := fun t => t.publishedAt? id = none) ?_ hs hnone).1
  intro ⟨t, call⟩ hstep ht hkept
  obtain ⟨x, -, rfl⟩ := List.mem_map.1 (mem_of_mem_steps hstep)
  exact (Api.Exchange.publishedAt?_after ht (hfresh _ hstep) hkept).2 (hnot _ hstep)

/-- The date of publication of a post is latched. Whatever is asked for, a date stays until the
post is deleted. Where posts are only written through the editor, every published post has a date.
And in a run of requests a post has no date until a request publishes it, and from then on the time
of that request. -/
theorem Call.publication_latches :
    (∀ (before calls : List Call) (id : String) (d : Timestamp),
      (run before Database.fresh.store).publishedAt? id = some d →
      (∀ step ∈ steps calls (run before Database.fresh.store),
        (step.2.after step.1).posts.has id = true) →
      (run calls (run before Database.fresh.store)).publishedAt? id = some d) ∧
    (∀ calls : List Call, (∀ post, .direct (.savePost post) ∉ calls) →
      ∀ row ∈ (run calls Database.fresh.store).posts, row.status = .published →
        row.publishedDate ≠ none) ∧
    (∀ (before : List Call) (xs : List Api.Exchange) (id : String),
      FreshIds (xs.map .request) (run before Database.fresh.store) →
      (run before Database.fresh.store).posts.has id = false →
      ((∀ step ∈ steps (xs.map .request) (run before Database.fresh.store),
          ¬ step.2.Publishes id step.1) →
        (run (xs.map .request) (run before Database.fresh.store)).publishedAt? id = none) ∧
      ∀ prior x rest, xs = prior ++ x :: rest →
        (∀ step ∈ steps (prior.map .request) (run before Database.fresh.store),
          ¬ step.2.Publishes id step.1) →
        x.Publishes id (run (prior.map .request) (run before Database.fresh.store)) →
        (∀ step ∈ steps (rest.map .request)
            (x.after (run (prior.map .request) (run before Database.fresh.store))),
          (step.2.after step.1).posts.has id = true) →
        (run (xs.map .request) (run before Database.fresh.store)).publishedAt? id =
          some x.now) := by
  have hsound : ∀ calls, (run calls Database.fresh.store).Sound := fun calls =>
    run_keeps_sound calls Database.sound_fresh
  refine ⟨fun before calls id d => publishedAt?_run (hsound before), ?_, ?_⟩
  · intro calls hposts
    exact run_dated hposts Database.sound_fresh dated_fresh
  · intro before xs id hfresh habsent
    have hnone : (run before Database.fresh.store).publishedAt? id = none :=
      publishedAt?_of_none (Table.row?_eq_none habsent)
    refine ⟨publishedAt?_of_unpublished (hsound before) hfresh hnone, ?_⟩
    rintro prior x rest rfl hprior hpublishes hstays
    have hfreshSteps := hfresh
    rw [List.map_append, List.map_cons, FreshIds, steps_append] at hfreshSteps
    have hprior := publishedAt?_of_unpublished (hsound before)
      (fun step hstep => hfreshSteps step (List.mem_append_left _ hstep)) hnone hprior
    have hreached := run_keeps_sound (prior.map .request) (hsound before)
    have hunused := hfreshSteps _ (List.mem_append_right _ List.mem_cons_self)
    have hstamped := (Api.Exchange.publishedAt?_after hreached hunused hprior).1 hpublishes
    rw [List.map_append, List.map_cons, run_append, run_cons]
    exact publishedAt?_run (after_keeps_sound (.request x) _ hreached) hstamped hstays

end

attribute [local instance] Libraries.bare

namespace Sample

def publish : Api.Exchange :=
  request 5 "p1" .post "/api/posts" "\x7b\"title\":\"A\",\"status\":\"published\"\x7d"

def demote : Api.Exchange :=
  request 6 "p2" .patch "/api/posts/a" "\x7b\"status\":\"draft\"\x7d"

def draft : Api.Exchange :=
  request 7 "p3" .post "/api/posts" "\x7b\"title\":\"B\"\x7d"

def published : List Call :=
  start ++ [.request publish]

end Sample

/-- The admin of a small site publishes a post in the fifth second and takes it back in the sixth.
A draft that is never published has no date. -/
theorem Call.publication_latches_of_demoted :
    (run ([Sample.publish, Sample.demote].map .request)
      (run Sample.start Database.fresh.store)).publishedAt? "p1" = some (.ofSeconds 5) ∧
    (run ([Sample.draft].map .request)
      (run Sample.start Database.fresh.store)).publishedAt? "p3" = none ∧
    (run [request Sample.demote] (run Sample.published Database.fresh.store)).publishedAt? "p1" =
      some (.ofSeconds 5) ∧
    ∀ row ∈ (run Sample.published Database.fresh.store).posts,
      row.status = .published → row.publishedDate ≠ none := by
  obtain ⟨hstays, hdated, hrequests⟩ := publication_latches
  refine ⟨?_, ?_, ?_, ?_⟩
  · have hfirst := hrequests Sample.start [Sample.publish, Sample.demote] "p1"
      (by decide +kernel) (by decide +kernel)
    exact hfirst.2 [] Sample.publish [Sample.demote] rfl (by decide +kernel) (by decide +kernel)
      (by decide +kernel)
  · have hdraft := hrequests Sample.start [Sample.draft] "p3" (by decide +kernel)
      (by decide +kernel)
    exact hdraft.1 (by decide +kernel)
  · have hkept := hstays Sample.published [request Sample.demote] "p1" (.ofSeconds 5)
      (by decide +kernel) (by decide +kernel)
    exact hkept
  · exact hdated Sample.published (by simp [Sample.published, Sample.start])

end Gazette
