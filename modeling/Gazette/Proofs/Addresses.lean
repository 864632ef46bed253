import Gazette.Proofs.Access
import Gazette.Proofs.Slugs

/-!
# Addresses

What has a slug is found at the path of that slug: it can be read there, and who may change it
reaches it there with an update or a deletion. One post is an exception. The list of featured posts
has the path of a post with the slug "featured", and nothing keeps a post from having that slug.
-/
namespace Gazette
open StoreProcedure

namespace Api
open Http

variable {s t : Store} {kind : Kind} {id slug : String} {caller : Caller} {x : Exchange}

namespace Exchange

/-- A request to the path of something with a slug, by a caller who may change that. -/
structure Addresses (x : Exchange) (caller : Caller) (kind : Kind) (id slug : String) (s : Store) :
    Prop where
  stored : s.slug? kind id = some slug
  path : x.request.path = kind.path slug
  known : x.callerIn s = some caller
  permits : s.Permits caller kind id

/-- A request is answered with what is stored of a thing. -/
def Reads [Libraries] (x : Exchange) (kind : Kind) (id : String) (s : Store) : Prop :=
  (x.answer.run s).1.status = 200 ∧
    ∃ document, (x.answer.run s).1.body = .json document ∧ s.Describes kind id document

/-- An update reaches a thing: it writes that thing, or it is refused for its input. -/
def Alters [Libraries] (x : Exchange) (kind : Kind) (id : String) (s : Store) : Prop :=
  (x.Succeeds s ∧ ∃ w : Writing, (w.kind = kind ∧ w.id = id) ∧ w.Done s (x.after s)) ∨
    (x.answer.run s).1.status ∈ [400, 409, 415, 422] ∧ x.after s = s

/-- A deletion reaches a thing: it leaves the store without that thing and what goes with it. -/
def Removes [Libraries] (x : Exchange) (kind : Kind) (id : String) (s : Store) : Prop :=
  (x.answer.run s).1.status = 204 ∧ x.after s = s.without (kind.entry id)

theorem passes_iff (hread : x.request.method.isRead = false)
    (hcaller : x.callerIn s = some caller) :
    x.Passes s ↔ s.maintenanceMode = false ∨ caller.isAdmin = true := by
  rw [Passes, hread, hcaller]
  simp [isAdmin]

theorem operation?_listFeatured {method : Method} (h : method.isRead = false) :
    Resource.operation? method [(.get, .listFeatured)] = none := by
  cases method with
  | get | head | options => cases h
  | _ => rfl

namespace Addresses

theorem operation? (h : x.Addresses caller kind id slug s) (hformed : s.SlugsFormed)
    (hfree : ¬ kind.IsShadowed slug) :
    x.operation? = Resource.operation? x.request.method
      [(.get, kind.reading slug), (.put, kind.replacing slug), (.patch, kind.updating slug),
        (.delete, kind.deleting slug)] :=
  operation?_of_resource h.path (hformed kind id slug h.stored) (Resource.ofParts?_free hfree)

theorem operation?_shadowed (h : x.Addresses caller kind id slug s) (hformed : s.SlugsFormed)
    (hshadowed : kind.IsShadowed slug) :
    x.operation? = Resource.operation? x.request.method [(.get, .listFeatured)] :=
  operation?_of_resource h.path (hformed kind id slug h.stored)
    (Resource.ofParts?_shadowed hshadowed)

theorem exists_resource (h : x.Addresses caller kind id slug s) (hformed : s.SlugsFormed) :
    ∃ resource, x.resource? = some resource := by
  rw [resource?, h.path, Resource.ofPath?_path kind (hformed kind id slug h.stored)]
  by_cases hshadowed : kind.IsShadowed slug
  · exact ⟨_, Resource.ofParts?_shadowed hshadowed⟩
  · exact ⟨_, Resource.ofParts?_free hshadowed⟩

/-- A write that finds its path shadowed or its site in maintenance is answered without regard to
the thing. -/
theorem status_of_closed [Libraries] (h : x.Addresses caller kind id slug s)
    (hformed : s.SlugsFormed) (hread : x.request.method.isRead = false)
    (hclosed : ¬ (¬ kind.IsShadowed slug ∧ x.Passes s)) :
    (x.answer.run s).1.status = 405 ∨ (x.answer.run s).1.status = 503 := by
  have hoptions : x.request.method ≠ .options := by
    intro hmethod
    rw [hmethod] at hread
    cases hread
  obtain ⟨resource, hresource⟩ := h.exists_resource hformed
  refine Exchange.status_of_closed hresource hoptions ?_
  by_cases hshadowed : kind.IsShadowed slug
  · exact .inl ((h.operation?_shadowed hformed hshadowed).trans (operation?_listFeatured hread))
  · exact .inr fun hpasses => hclosed ⟨hshadowed, hpasses⟩

/-- A thing can be read at the path of its slug unless that is shadowed or the thing is illegible.
-/
theorem reads_iff [Libraries] (h : x.Addresses caller kind id slug s) (hs : s.Sound)
    (hformed : s.SlugsFormed) (hmethod : x.request.method = .get) :
    x.Reads kind id s ↔ ¬ kind.IsShadowed slug ∧ s.Legible kind id := by
  have hslug := hformed kind id slug h.stored
  have hhead : x.request.method ≠ .head := by simp [hmethod]
  have hpasses : x.Passes s := .inl (by rw [hmethod]; rfl)
  constructor
  · rintro ⟨hstatus, document, hbody, hdescribes⟩
    have hsuccess : x.Succeeds s := by
      rw [Succeeds, Response.IsSuccess, hstatus]
      decide
    have hfree : ¬ kind.IsShadowed slug := by
      intro hshadowed
      have hop : x.operation? = some .listFeatured := by
        rw [h.operation?_shadowed hformed hshadowed, hmethod]
        rfl
      obtain ⟨-, response, hperform, -⟩ := (succeeds_iff hop).1 hsuccess
      obtain ⟨-, -, hsame⟩ := answer_of_ok hop hhead hpasses hperform
      obtain ⟨views, -, rfl⟩ := outcome_then_pure_ok.1 hperform
      rw [hsame] at hbody
      cases hbody
      obtain ⟨rfl, -⟩ := hshadowed
      cases hdescribes
    have hop : x.operation? = some (kind.reading slug) := by
      rw [h.operation? hformed hfree, hmethod]
      rfl
    obtain ⟨-, response, hperform, -⟩ := (succeeds_iff hop).1 hsuccess
    exact ⟨hfree, legible_of_perform_reading hs hslug h.stored hperform⟩
  · rintro ⟨hfree, hlegible⟩
    have hop : x.operation? = some (kind.reading slug) := by
      rw [h.operation? hformed hfree, hmethod]
      rfl
    obtain ⟨document, t, hperform, hdescribes⟩ :=
      perform_reading hs hslug h.stored h.known h.permits hlegible
    obtain ⟨-, hstatus, hbody⟩ := answer_of_ok hop hhead hpasses hperform
    exact ⟨hstatus, document, hbody, hdescribes⟩

/-- An update reaches the thing that has the slug unless the path is shadowed or the guard refuses
it. -/
theorem alters_iff [Libraries] (h : x.Addresses caller kind id slug s) (hs : s.Sound)
    (hformed : s.SlugsFormed) (hmethod : x.request.method = .put ∨ x.request.method = .patch)
    (hlegible : s.Legible kind id) :
    x.Alters kind id s ↔ ¬ kind.IsShadowed slug ∧ x.Passes s := by
  have hread : x.request.method.isRead = false := by
    rcases hmethod with hmethod | hmethod <;> rw [hmethod] <;> rfl
  have hhead : x.request.method ≠ .head := by
    rcases hmethod with hmethod | hmethod <;> simp [hmethod]
  have hslug := hformed kind id slug h.stored
  constructor
  · intro halters
    by_contra hclosed
    have hstatus := h.status_of_closed hformed hread hclosed
    rcases halters with ⟨hsuccess, -⟩ | ⟨hrefused, -⟩
    · rw [Succeeds, Response.IsSuccess] at hsuccess
      omega
    · rcases hstatus with hstatus | hstatus <;> simp [hstatus] at hrefused
  · rintro ⟨hfree, hpasses⟩
    obtain ⟨hreplacing, hupdating⟩ :=
      perform_writing_fails hs hslug h.stored h.known h.permits hlegible
    obtain ⟨op, hwriting, hop, hfails⟩ : ∃ op,
        (op = kind.replacing slug ∨ op = kind.updating slug) ∧ x.operation? = some op ∧
          (x.perform op).FailsOnInput s := by
      rcases hmethod with hmethod | hmethod
      · refine ⟨_, .inl rfl, ?_, hreplacing⟩
        rw [h.operation? hformed hfree, hmethod]
        rfl
      · refine ⟨_, .inr rfl, ?_, hupdating⟩
        rw [h.operation? hformed hfree, hmethod]
        rfl
    have hwrites : op.writes? = some kind := by
      rcases hwriting with rfl | rfl <;> cases kind <;> rfl
    have hcreates : op.creates = true → s.Unused x.freshId := by
      rcases hwriting with rfl | rfl <;> cases kind <;> intro hnew <;> cases hnew
    cases hperform : (x.perform op).outcome s with
    | mk r t =>
        cases r with
        | ok response =>
            obtain ⟨hsuccess, w, hw, hwrote⟩ :=
              perform_write_ok hs hcreates hop hwrites hperform
            obtain ⟨rfl, hstatus, -⟩ := answer_of_ok hop hhead hpasses hperform
            refine .inl ⟨?_, w, target_of_writing? hs hslug h.stored hop hwriting hw, hwrote.1⟩
            rw [Succeeds, Response.IsSuccess, hstatus]
            exact hsuccess
        | error e =>
            obtain ⟨rfl, hstatus⟩ := answer_of_error hop hhead hpasses hperform
            refine .inr ⟨?_, perform_write_error hs hcreates hwrites hperform⟩
            rw [hstatus]
            exact (hfails e _ hperform).status

/-- A deletion removes the thing that has the slug unless the path is shadowed, the guard refuses
it, the thing is illegible or the cascade goes too deep. -/
theorem removes_iff [Libraries] (h : x.Addresses caller kind id slug s) (hs : s.Sound)
    (hformed : s.SlugsFormed) (hmethod : x.request.method = .delete) :
    x.Removes kind id s ↔ (¬ kind.IsShadowed slug ∧ x.Passes s) ∧ s.Legible kind id ∧
      ¬ s.TooDeep (kind.entry id) := by
  have hread : x.request.method.isRead = false := by rw [hmethod]; rfl
  have hhead : x.request.method ≠ .head := by simp [hmethod]
  have hslug := hformed kind id slug h.stored
  have hop : ¬ kind.IsShadowed slug → x.operation? = some (kind.deleting slug) := by
    intro hfree
    rw [h.operation? hformed hfree, hmethod]
    rfl
  constructor
  · rintro ⟨hstatus, hafter⟩
    have hopen : ¬ kind.IsShadowed slug ∧ x.Passes s := by
      by_contra hclosed
      have hother := h.status_of_closed hformed hread hclosed
      omega
    have hsuccess : x.Succeeds s := by
      rw [Succeeds, Response.IsSuccess, hstatus]
      decide
    obtain ⟨-, response, hperform, -⟩ := (succeeds_iff (hop hopen.1)).1 hsuccess
    obtain ⟨⟨hlegible, hshallow, -⟩, -⟩ :=
      (perform_deleting_ok hs hslug h.stored h.known h.permits).1 hperform
    exact ⟨hopen, hlegible, hshallow⟩
  · rintro ⟨⟨hfree, hpasses⟩, hlegible, hshallow⟩
    have hperform := (perform_deleting_ok hs hslug h.stored h.known h.permits).2
      ⟨⟨hlegible, hshallow, rfl⟩, rfl⟩
    obtain ⟨hafter, hstatus, -⟩ := answer_of_ok (hop hfree) hhead hpasses hperform
    exact ⟨hstatus, hafter⟩

end Addresses
end Exchange
end Api

/-- Whatever was asked of a fresh database by calls that keep to the editor, a stored post, category
or tag is addressable by its slug, unless it is a post with the slug "featured". -/
theorem Call.addressable_iff [Libraries] {calls : List Call} (hruled : ∀ call ∈ calls, call.Ruled)
    {s : Store} (hrun : run calls Database.fresh.store = s) {x : Api.Exchange} {caller : Api.Caller}
    {kind : Kind} {id slug : String} (h : x.Addresses caller kind id slug s) :
    (x.request.method = .get →
      (x.Reads kind id s ↔ ¬ kind.IsShadowed slug ∧ s.Legible kind id)) ∧
    (x.request.method = .put ∨ x.request.method = .patch → s.Legible kind id →
      (x.Alters kind id s ↔ ¬ kind.IsShadowed slug ∧
        (s.maintenanceMode = false ∨ caller.isAdmin = true))) ∧
    (x.request.method = .delete →
      (x.Removes kind id s ↔ (¬ kind.IsShadowed slug ∧
        (s.maintenanceMode = false ∨ caller.isAdmin = true)) ∧
          s.Legible kind id ∧ ¬ s.TooDeep (kind.entry id))) := by
  subst hrun
  have hs : (run calls Database.fresh.store).Sound := run_keeps_sound calls Database.sound_fresh
  have hformed := run_slugsFormed hruled
  refine ⟨h.reads_iff hs hformed, fun hmethod hlegible => ?_, fun hmethod => ?_⟩
  · have hread : x.request.method.isRead = false := by
      rcases hmethod with hmethod | hmethod <;> rw [hmethod] <;> rfl
    rw [h.alters_iff hs hformed hmethod hlegible, Api.Exchange.passes_iff hread h.known]
  · have hread : x.request.method.isRead = false := by rw [hmethod]; rfl
    rw [h.removes_iff hs hformed hmethod, Api.Exchange.passes_iff hread h.known]

attribute [local instance] Libraries.bare

namespace Sample

def reading (slug : String) : Api.Exchange :=
  request 6 "p2" .get ("/api/posts/" ++ slug) ""

def retitling (slug : String) : Api.Exchange :=
  request 6 "p2" .patch ("/api/posts/" ++ slug) "\x7b\"title\":\"New\"\x7d"

def deleting (slug : String) : Api.Exchange :=
  request 6 "p2" .delete ("/api/posts/" ++ slug) ""

theorem retitling_addresses {slug id : String} {s : Store}
    (h : (reading slug).Addresses (.ofUser admin) .post id slug s) :
    (retitling slug).Addresses (.ofUser admin) .post id slug s :=
  ⟨h.stored, rfl, h.known, h.permits⟩

theorem deleting_addresses {slug id : String} {s : Store}
    (h : (reading slug).Addresses (.ofUser admin) .post id slug s) :
    (deleting slug).Addresses (.ofUser admin) .post id slug s :=
  ⟨h.stored, rfl, h.known, h.permits⟩

def featured : List Call :=
  start ++ [.request (request 5 "p1" .post "/api/posts" "\x7b\"title\":\"Featured\"\x7d")]

end Sample

/-- The post "hello" is read, retitled and deleted at its slug. -/
theorem Call.addressable_of_hello :
    (Sample.reading "hello").Reads .post "p1" (run Sample.hello Database.fresh.store) ∧
      (Sample.retitling "hello").Alters .post "p1" (run Sample.hello Database.fresh.store) ∧
      (Sample.deleting "hello").Removes .post "p1" (run Sample.hello Database.fresh.store) := by
  have hruled : ∀ call ∈ Sample.hello, call.Ruled := by decide
  have hreading : (Sample.reading "hello").Addresses (.ofUser Sample.admin) .post "p1" "hello"
      (run Sample.hello Database.fresh.store) :=
    ⟨by decide +kernel, rfl, by decide +kernel, by decide +kernel⟩
  have hlegible : (run Sample.hello Database.fresh.store).Legible .post "p1" := by decide +kernel
  have hshallow : ¬ (run Sample.hello Database.fresh.store).TooDeep (.post "p1") := by
    intro hdeep
    obtain ⟨comment, hcomment, -⟩ := Store.TooLong.exists_selected hdeep
    have hnone : (run Sample.hello Database.fresh.store).comments = [] := by decide +kernel
    rw [hnone] at hcomment
    cases hcomment
  have hfree : ¬ Kind.post.IsShadowed "hello" := by decide
  refine ⟨?_, ?_, ?_⟩
  · exact ((addressable_iff hruled rfl hreading).1 rfl).2 ⟨hfree, hlegible⟩
  · exact ((addressable_iff hruled rfl (Sample.retitling_addresses hreading)).2.1 (.inr rfl)
      hlegible).2 ⟨hfree, .inr rfl⟩
  · exact ((addressable_iff hruled rfl (Sample.deleting_addresses hreading)).2.2 rfl).2
      ⟨⟨hfree, .inr rfl⟩, hlegible, hshallow⟩

/-- A post with the title "Featured" is stored, but it is neither read nor retitled nor deleted at
its slug. -/
theorem Call.featured_not_addressable :
    (run Sample.featured Database.fresh.store).slug? .post "p1" = some "featured" ∧
      ¬ (Sample.reading "featured").Reads .post "p1" (run Sample.featured Database.fresh.store) ∧
      ¬ (Sample.retitling "featured").Alters .post "p1"
        (run Sample.featured Database.fresh.store) ∧
      ¬ (Sample.deleting "featured").Removes .post "p1"
        (run Sample.featured Database.fresh.store) := by
  have hs : (run Sample.featured Database.fresh.store).Sound :=
    run_keeps_sound Sample.featured Database.sound_fresh
  have hformed : (run Sample.featured Database.fresh.store).SlugsFormed :=
    run_slugsFormed (by decide)
  have hreading : (Sample.reading "featured").Addresses (.ofUser Sample.admin) .post "p1"
      "featured" (run Sample.featured Database.fresh.store) :=
    ⟨by decide +kernel, rfl, by decide +kernel, by decide +kernel⟩
  have hlegible : (run Sample.featured Database.fresh.store).Legible .post "p1" := by
    decide +kernel
  have hshadowed : ∀ P : Prop, ¬ (¬ Kind.post.IsShadowed "featured" ∧ P) :=
    fun _ hopen => hopen.1 ⟨rfl, rfl⟩
  refine ⟨hreading.stored, ?_, ?_, ?_⟩
  · rw [hreading.reads_iff hs hformed rfl]
    exact hshadowed _
  · rw [(Sample.retitling_addresses hreading).alters_iff hs hformed (.inr rfl) hlegible]
    exact hshadowed _
  · rw [(Sample.deleting_addresses hreading).removes_iff hs hformed rfl]
    exact fun hopen => hshadowed _ hopen.1

end Gazette
