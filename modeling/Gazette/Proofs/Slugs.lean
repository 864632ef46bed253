import Gazette.Proofs.Writing

/-!
# Slugs

What becomes of the slug of a stored thing. It changes only when a successful write states a slug
for it. A stated slug that is blank is not passed over: it has the slug derived anew, from the name
that the thing then has.
-/
namespace Gazette
open Text Store

variable {s t : Store} {kind : Kind} {id old : String}

def Store.SlugsFormed (s : Store) : Prop :=
  ∀ kind id slug, s.slug? kind id = some slug → Slug.isWellFormed slug = true

theorem Store.Unwritten.slug? (h : s.Unwritten t) (kind : Kind) (id : String) :
    t.slug? kind id = none ∨ t.slug? kind id = s.slug? kind id := by
  cases kind with
  | post =>
      rw [Store.slug?, Store.slug?]
      rcases h.posts id with hnone | ⟨old, new, hold, hnew, htext⟩
      · exact .inl (by rw [hnone]; rfl)
      · exact .inr (by rw [hold, hnew, htext]; rfl)
  | category =>
      rw [Store.slug?, Store.slug?]
      rcases h.categories id with hnone | hsame
      · exact .inl (by rw [hnone]; rfl)
      · exact .inr (by rw [hsame])
  | tag =>
      rw [Store.slug?, Store.slug?]
      rcases h.tags id with hnone | hsame
      · exact .inl (by rw [hnone]; rfl)
      · exact .inr (by rw [hsame])

section
variable [Libraries]

/-- What went through the rules of content is stored under a slug of the right shape. -/
theorem Change.isWellFormed_slug {change : Change} {slug : String} (h : change.apply s = .ok t)
    (hprepared : change.Prepared) (hwritten : change.written? = some (kind, id))
    (hslug : t.slug? kind id = some slug) : Slug.isWellFormed slug = true := by
  cases change with
  | savePost post =>
      cases hwritten
      obtain ⟨given, now, hprepare⟩ := hprepared
      have hsame := (Store.names_savePost h).2
      obtain rfl : slug = post.slug := Option.some.inj (hslug.symm.trans hsame)
      exact isWellFormed_of_settleSlug (Post.prepare_ok.1 hprepare).2.1
  | saveCategory category =>
      cases hwritten
      obtain ⟨given, hprepare⟩ := hprepared
      have hsame := (Store.names_saveCategory h).2
      obtain rfl : slug = category.slug := Option.some.inj (hslug.symm.trans hsame)
      exact isWellFormed_of_settleSlug (Category.prepare_ok.1 hprepare).2.1
  | saveTag tag =>
      cases hwritten
      obtain ⟨given, hprepare⟩ := hprepared
      have hsame := (Store.names_saveTag h).2
      obtain rfl : slug = tag.slug := Option.some.inj (hslug.symm.trans hsame)
      exact isWellFormed_of_settleSlug (Tag.prepare_ok.1 hprepare).2.1
  | _ => cases hwritten

theorem Change.keeps_slugsFormed {change : Change} (h : change.apply s = .ok t) (hs : s.Sound)
    (hprepared : change.written? ≠ none → change.Prepared) (hformed : s.SlugsFormed) :
    t.SlugsFormed := by
  intro kind id slug hslug
  cases hwritten : change.written? with
  | none =>
      rcases (Change.unwritten h hs hwritten).slug? kind id with hnone | hsame
      · rw [hnone] at hslug
        cases hslug
      · exact hformed kind id slug (hsame ▸ hslug)
  | some target =>
      by_cases htarget : target.1 = kind ∧ target.2 = id
      · obtain ⟨rfl, rfl⟩ := htarget
        exact isWellFormed_slug h (hprepared (by simp [hwritten])) hwritten hslug
      · exact hformed kind id slug (slug?_other h hwritten htarget ▸ hslug)

/-- A call that writes nothing with a slug past the editor. -/
def Call.Ruled (call : Call) : Prop :=
  match call with
  | direct change => change.written? = none
  | _ => True

instance (call : Call) : Decidable call.Ruled :=
  match call with
  | .direct change => inferInstanceAs (Decidable (change.written? = none))
  | .submit _ => inferInstanceAs (Decidable True)
  | .request _ => inferInstanceAs (Decidable True)

theorem Call.Ruled.prepared {call : Call} {change : Change} (h : call.Ruled)
    (hmakes : call.Makes change) (hwritten : change.written? ≠ none) : change.Prepared := by
  cases call with
  | direct c =>
      obtain rfl : change = c := hmakes
      exact absurd h hwritten
  | submit submission => exact prepared_of_makes hmakes nofun
  | request x => exact prepared_of_makes hmakes nofun

theorem Call.keeps_slugsFormed {call : Call} (hruled : call.Ruled) (hs : s.Sound)
    (hformed : s.SlugsFormed) : (call.after s).SlugsFormed := by
  refine call.after_keeps_of_sound ?_ hs hformed
  intro change t u hmakes happly ht
  exact change.keeps_slugsFormed happly ht (hruled.prepared hmakes)

/-- The slug that a write of a stored thing leaves it, going by its slug before and its name
after. -/
def Writing.leaves (w : Writing) (old name : String) : String :=
  match w.slug with
  | none => old
  | some given => if isBlankText given then Slug.ofText name else trim given

theorem Writing.leaves_of_none {w : Writing} {name : String} (h : w.slug = none) :
    w.leaves old name = old := by
  rw [leaves, h]

theorem Writing.leaves_of_blank {w : Writing} {name given : String} (h : w.slug = some given)
    (hblank : isBlankText given = true) : w.leaves old name = Slug.ofText name := by
  rw [leaves, h]
  exact if_pos hblank

/-- A slug that had the right shape is settled as it is, unless another one is stated. -/
theorem Writing.leaves_of_settleSlug {w : Writing} {name settled : String}
    (hformed : Slug.isWellFormed old = true) (h : settleSlug name (w.slug.getD old) = .ok settled) :
    settled = w.leaves old name := by
  obtain ⟨-, rfl⟩ := settleSlug_ok.1 h
  unfold leaves
  cases w.slug with
  | none =>
      show (if isBlankText old then Slug.ofText name else trim old) = old
      rw [Slug.isBlankText_of_isWellFormed hformed, Slug.trim_of_isWellFormed hformed]
      rfl
  | some given => rfl

/-- A write without a slug keeps the stored one, and a stated slug is taken unless it is blank. -/
theorem Writing.Done.slug?_eq {w : Writing} (h : w.Done s t) (hformed : s.SlugsFormed)
    (hold : s.slug? w.kind w.id = some old) :
    ∃ name, t.name? w.kind w.id = some name ∧ t.slug? w.kind w.id = some (w.leaves old name) := by
  obtain ⟨name, settled, hname, hslug, hsettle⟩ := h.settled
  rw [givenSlug, hold] at hsettle
  exact ⟨name, hname, hslug.trans
    (congrArg some (leaves_of_settleSlug (hformed w.kind w.id old hold) hsettle))⟩

end

namespace Submission

/-- What a submission writes. The slug of a thing is submitted with it. -/
def writing? : Submission → Option Writing
  | .post p _ => some ⟨.post, p.id, some p.slug⟩
  | .category c => some ⟨.category, c.id, some c.slug⟩
  | .tag g => some ⟨.tag, g.id, some g.slug⟩
  | _ => none

def Succeeds [Libraries] (submission : Submission) (s : Store) : Prop :=
  (submission.outcome s).1.isOk = true

/-- A procedure of the editor that saves what it is given, and saves nothing if it fails. -/
private theorem saves_cases {α : Type} {p : Editor.Edit α} (hp : p.Atomic) {D : Store → Prop}
    (hok : ∀ a u, p.outcome s = (.ok a, u) → D u) :
    ((outcome.unnamed (p.outcome s)).1.isOk = true ∧ D (outcome.unnamed (p.outcome s)).2) ∨
      ¬ (outcome.unnamed (p.outcome s)).1.isOk = true ∧
        (outcome.unnamed (p.outcome s)).2 = s := by
  cases h : p.outcome s with
  | mk r u =>
      cases r with
      | ok a => exact .inl ⟨rfl, hok a u h⟩
      | error e => exact .inr ⟨nofun, hp s e u h⟩

theorem write_cases [Libraries] {submission : Submission} {w : Writing}
    (hw : submission.writing? = some w) :
    (submission.Succeeds s ∧ w.Done s (submission.after s)) ∨
      ¬ submission.Succeeds s ∧ submission.after s = s := by
  cases submission with
  | post p now =>
      cases hw
      refine saves_cases (D := Writing.Done _ s) (Editor.savePost_atomic p now) fun saved t h => ?_
      obtain ⟨hprepare, -, -, hsave⟩ := Editor.savePost_ok.1 h
      exact ⟨p, saved, now, rfl, rfl, hprepare, hsave⟩
  | category c =>
      cases hw
      refine saves_cases (D := Writing.Done _ s) (Editor.saveCategory_atomic c) fun saved t h => ?_
      obtain ⟨hprepare, hsave⟩ := Editor.saveCategory_ok.1 h
      exact ⟨c, saved, rfl, rfl, hprepare, hsave⟩
  | tag g =>
      cases hw
      refine saves_cases (D := Writing.Done _ s) (Editor.saveTag_atomic g) fun saved t h => ?_
      obtain ⟨hprepare, hsave⟩ := Editor.saveTag_ok.1 h
      exact ⟨g, saved, rfl, rfl, hprepare, hsave⟩
  | _ => cases hw

theorem written?_eq_none [Libraries] {submission : Submission} {change : Change}
    (hw : submission.writing? = none) (h : submission.change? = .ok change) :
    change.written? = none := by
  unfold change? at h
  cases submission with
  | post p now => cases hw
  | category c => cases hw
  | tag g => cases hw
  | user u now =>
      obtain ⟨_, -, rfl⟩ := Change.of_map_ok h
      rfl
  | comment c now =>
      obtain ⟨_, -, rfl⟩ := Change.of_map_ok h
      rfl
  | message m =>
      obtain ⟨_, -, rfl⟩ := Change.of_map_ok h
      rfl
  | settings x now =>
      obtain ⟨_, -, rfl⟩ := Change.of_map_ok h
      rfl

end Submission

namespace Call

/-- What a call of the editor or of the interface writes. -/
def writing? (call : Call) (s : Store) : Option Writing :=
  match call with
  | direct _ => none
  | submit submission => submission.writing?
  | request x => x.writing? s

def Succeeds [Libraries] (call : Call) (s : Store) : Prop :=
  match call with
  | direct change => (change.apply s).isOk = true
  | submit submission => submission.Succeeds s
  | request x => x.Succeeds s

instance [Libraries] (call : Call) (s : Store) : Decidable (call.Succeeds s) :=
  match call with
  | direct change => inferInstanceAs (Decidable ((change.apply s).isOk = true))
  | submit submission => inferInstanceAs (Decidable ((submission.outcome s).1.isOk = true))
  | request x => inferInstanceAs (Decidable (x.Succeeds s))

def Writes [Libraries] (call : Call) (w : Writing) (s : Store) : Prop :=
  w ∈ call.writing? s ∧ call.Succeeds s

section
variable [Libraries]

theorem Writes.unique {call : Call} {v w : Writing} (hv : call.Writes v s)
    (hw : call.Writes w s) : v = w :=
  Option.some.inj (hv.1.symm.trans hw.1)

/-- A call writes what it names and nothing else that has a slug, or nothing of that kind. -/
theorem write_cases {call : Call} (hs : s.Sound) (hruled : call.Ruled) (hfresh : call.FreshId s) :
    (∃ w, call.Writes w s ∧ w.Done s (call.after s)) ∨
      (∀ w, ¬ call.Writes w s) ∧ s.Unwritten (call.after s) := by
  cases call with
  | direct change =>
      refine .inr ⟨?_, Call.unwritten _ hs ?_⟩
      · rintro w ⟨hw, -⟩
        cases hw
      · rintro c rfl
        exact hruled
  | submit submission =>
      cases hw : submission.writing? with
      | none =>
          refine .inr ⟨fun w h => ?_, Call.unwritten _ hs fun c => Submission.written?_eq_none hw⟩
          exact nomatch hw.symm.trans h.1
      | some w =>
          rcases Submission.write_cases (s := s) hw with ⟨hsuccess, hdone⟩ | ⟨hfail, hsame⟩
          · exact .inl ⟨w, ⟨hw, hsuccess⟩, hdone⟩
          · refine .inr ⟨fun w h => hfail h.2, ?_⟩
            show s.Unwritten (submission.after s)
            rw [hsame]
            exact s.unwritten_refl
  | request x =>
      rcases Api.Exchange.write_cases hs hfresh with ⟨w, hw, hdone, -⟩ | hnothing
      · exact .inl ⟨w, hw, hdone⟩
      · exact .inr hnothing

theorem slug?_after {call : Call} (hs : s.Sound) (hformed : s.SlugsFormed) (hruled : call.Ruled)
    (hfresh : call.FreshId s) (hold : s.slug? kind id = some old) :
    (∀ w, call.Writes w s → w.kind = kind ∧ w.id = id →
      ∃ name, (call.after s).name? kind id = some name ∧
        (call.after s).slug? kind id = some (w.leaves old name)) ∧
    ((∀ w, call.Writes w s → ¬ (w.kind = kind ∧ w.id = id)) →
      (call.after s).slug? kind id = none ∨ (call.after s).slug? kind id = some old) := by
  rcases write_cases hs hruled hfresh with ⟨w, hw, hdone⟩ | ⟨hnot, hunwritten⟩
  · constructor
    · rintro v hv ⟨rfl, rfl⟩
      obtain rfl := hv.unique hw
      exact hdone.slug?_eq hformed hold
    · intro hother
      rw [hdone.slug?_other (hother w hw)]
      exact .inr hold
  · refine ⟨fun w hw => absurd hw (hnot w), fun _ => ?_⟩
    rw [← hold]
    exact hunwritten.slug? kind id

/-- A call writes a stored thing with a slug that is stated but blank, and the slug that the name
of the thing then leads to is another one than the stored. -/
def Rederives (call : Call) (s : Store) : Prop :=
  ∃ w ∈ call.writing? s, call.Succeeds s ∧ ∃ given ∈ w.slug, isBlankText given = true ∧
    ∃ old ∈ s.slug? w.kind w.id, ∃ name ∈ (call.after s).name? w.kind w.id,
      Slug.ofText name ≠ old

instance (call : Call) (s : Store) : Decidable (call.Rederives s) :=
  inferInstanceAs (Decidable (∃ w ∈ _, _))

/-- In every step of a run, the slug of a stored thing only changes when a write of that thing
states a slug that is not blank. -/
def SlugsStable (calls : List Call) (s : Store) : Prop :=
  ∀ step ∈ steps calls s, ∀ kind id old new, step.1.slug? kind id = some old →
    (step.2.after step.1).slug? kind id = some new → new ≠ old →
      ∃ w, step.2.Writes w step.1 ∧ (w.kind = kind ∧ w.id = id) ∧
        ∃ given ∈ w.slug, isBlankText given = false

/-- Of all the ways to change a slug, only a blank one that is stated goes against stability. -/
theorem stable_step_iff {call : Call} (hs : s.Sound) (hformed : s.SlugsFormed)
    (hruled : call.Ruled) (hfresh : call.FreshId s) :
    (∀ kind id old new, s.slug? kind id = some old → (call.after s).slug? kind id = some new →
      new ≠ old → ∃ w, call.Writes w s ∧ (w.kind = kind ∧ w.id = id) ∧
        ∃ given ∈ w.slug, isBlankText given = false) ↔ ¬ call.Rederives s := by
  constructor
  · rintro hstable ⟨w, hw, hsuccess, given, hgiven, hblank, old, hold, name, hname, hne⟩
    obtain ⟨other, hother, hslug⟩ :=
      (slug?_after hs hformed hruled hfresh hold).1 w ⟨hw, hsuccess⟩ ⟨rfl, rfl⟩
    obtain rfl : name = other := Option.some.inj (hname.symm.trans hother)
    have hleaves : w.leaves old name = Slug.ofText name := Writing.leaves_of_blank hgiven hblank
    -- Stability asks for a write with a slug that is not blank, but the call has one write only.
    obtain ⟨v, hv, -, stated, hstated, hfull⟩ :=
      hstable w.kind w.id old _ hold hslug (hleaves ▸ hne)
    obtain rfl := hv.unique ⟨hw, hsuccess⟩
    obtain rfl : given = stated := Option.some.inj (hgiven.symm.trans hstated)
    rw [hblank] at hfull
    cases hfull
  · intro hnot kind id old new hold hnew hne
    obtain ⟨hwritten, hother⟩ := slug?_after hs hformed hruled hfresh hold
    by_cases hw : ∃ w, call.Writes w s ∧ (w.kind = kind ∧ w.id = id)
    · obtain ⟨w, hw, rfl, rfl⟩ := hw
      refine ⟨w, hw, ⟨rfl, rfl⟩, ?_⟩
      obtain ⟨name, hname, hslug⟩ := hwritten w hw ⟨rfl, rfl⟩
      obtain rfl : new = w.leaves old name := Option.some.inj (hnew.symm.trans hslug)
      cases hgiven : w.slug with
      | none => exact absurd (Writing.leaves_of_none hgiven) hne
      | some given =>
          refine ⟨given, rfl, ?_⟩
          by_contra hblank
          rw [Bool.not_eq_false] at hblank
          rw [Writing.leaves_of_blank hgiven hblank] at hne
          exact hnot ⟨w, hw.1, hw.2, given, hgiven, hblank, old, hold, name, hname, hne⟩
    · have hnone : ∀ w, call.Writes w s → ¬ (w.kind = kind ∧ w.id = id) :=
        fun w hw' htarget => hw ⟨w, hw', htarget⟩
      rcases hother hnone with hgone | hsame
      · exact nomatch hgone.symm.trans hnew
      · exact absurd (Option.some.inj (hnew.symm.trans hsame)) hne

theorem steps_found {calls : List Call} (hruled : ∀ call ∈ calls, call.Ruled) (hs : s.Sound)
    (hformed : s.SlugsFormed) :
    ∀ step ∈ steps calls s, step.1.Sound ∧ step.1.SlugsFormed := by
  refine (steps_keep_of_sound ?_ hs hformed).2
  intro step hstep
  exact keeps_slugsFormed (hruled step.2 (mem_of_mem_steps hstep))

end

theorem slugsFormed_fresh : Database.fresh.store.SlugsFormed := by
  rw [Database.fresh_store]
  intro kind id slug hslug
  cases kind <;> cases hslug

theorem run_slugsFormed [Libraries] {calls : List Call} (hruled : ∀ call ∈ calls, call.Ruled) :
    (run calls Database.fresh.store).SlugsFormed :=
  (steps_keep_of_sound (fun step hstep =>
    keeps_slugsFormed (hruled step.2 (mem_of_mem_steps hstep)))
    Database.sound_fresh slugsFormed_fresh).1

/-- Slugs are stable in exactly those runs in which no slug is derived anew because a blank one was
stated. In every run a write that is carried out leaves the slug that it states or, if it states
none, the stored one, and without such a write the slug stays as long as the thing does. -/
theorem slugs_stable_iff [Libraries] (calls : List Call) (hruled : ∀ call ∈ calls, call.Ruled)
    (hfresh : FreshIds calls Database.fresh.store) :
    (SlugsStable calls Database.fresh.store ↔
      ∀ step ∈ steps calls Database.fresh.store, ¬ step.2.Rederives step.1) ∧
    ∀ step ∈ steps calls Database.fresh.store, ∀ kind id old, step.1.slug? kind id = some old →
      (∀ w, step.2.Writes w step.1 → w.kind = kind ∧ w.id = id →
        ∃ name, (step.2.after step.1).name? kind id = some name ∧
          (step.2.after step.1).slug? kind id = some (w.leaves old name)) ∧
      ((∀ w, step.2.Writes w step.1 → ¬ (w.kind = kind ∧ w.id = id)) →
        (step.2.after step.1).slug? kind id = none ∨
          (step.2.after step.1).slug? kind id = some old) := by
  have hfound := steps_found hruled Database.sound_fresh slugsFormed_fresh
  have hrules : ∀ step ∈ steps calls Database.fresh.store, step.2.Ruled :=
    fun step hstep => hruled step.2 (mem_of_mem_steps hstep)
  constructor
  · refine forall₂_congr fun step hstep => ?_
    obtain ⟨hs, hformed⟩ := hfound step hstep
    exact stable_step_iff hs hformed (hrules step hstep) (hfresh step hstep)
  · intro step hstep kind id old hold
    obtain ⟨hs, hformed⟩ := hfound step hstep
    exact slug?_after hs hformed (hrules step hstep) (hfresh step hstep) hold

end Call

attribute [local instance] Libraries.bare

namespace Sample

def hello : List Call :=
  start ++ [.request (request 5 "p1" .post "/api/posts" "\x7b\"title\":\"Hello\"\x7d")]

def retitle : Call :=
  .request (request 6 "p2" .patch "/api/posts/hello" "\x7b\"title\":\"New\"\x7d")

def blank : Call :=
  .request (request 6 "p2" .patch "/api/posts/hello"
    "\x7b\"title\":\"New\",\"slug\":\" \"\x7d")

end Sample

/-- A change of the title alone does not touch the slug. -/
theorem Call.slugs_stable_of_retitled :
    (∀ call ∈ Sample.hello ++ [Sample.retitle], call.Ruled) ∧
    FreshIds (Sample.hello ++ [Sample.retitle]) Database.fresh.store ∧
    SlugsStable (Sample.hello ++ [Sample.retitle]) Database.fresh.store := by
  have hruled : ∀ call ∈ Sample.hello ++ [Sample.retitle], call.Ruled := by decide
  have hfresh : FreshIds (Sample.hello ++ [Sample.retitle]) Database.fresh.store := by
    decide +kernel
  exact ⟨hruled, hfresh,
    (slugs_stable_iff (Sample.hello ++ [Sample.retitle]) hruled hfresh).1.2 (by decide +kernel)⟩

/-- With a blank slug next to it, the same change of the title moves the post from "hello" to
"new". -/
theorem Call.not_slugs_stable_of_blank :
    ¬ SlugsStable (Sample.hello ++ [Sample.blank]) Database.fresh.store := by
  intro hstable
  have hstep : (run Sample.hello Database.fresh.store, Sample.blank) ∈
      steps (Sample.hello ++ [Sample.blank]) Database.fresh.store := by
    rw [steps_append]
    exact List.mem_append_right _ List.mem_cons_self
  have hold : (run Sample.hello Database.fresh.store).slug? .post "p1" = some "hello" := by
    decide +kernel
  have hnew : (Sample.blank.after (run Sample.hello Database.fresh.store)).slug? .post "p1" =
      some "new" := by
    decide +kernel
  obtain ⟨w, hwrites, -, given, hgiven, hfull⟩ :=
    hstable _ hstep .post "p1" "hello" "new" hold hnew (by decide)
  have hwriting : Sample.blank.writing? (run Sample.hello Database.fresh.store) =
      some ⟨.post, "p1", some " "⟩ := by decide +kernel
  have hw := hwrites.1
  dsimp only at hw
  rw [hwriting, Option.mem_some_iff] at hw
  subst hw
  obtain rfl := Option.some.inj hgiven
  exact absurd hfull (by decide)

end Gazette
