import Gazette.Proofs.Authority
import Gazette.Proofs.Refusals

/-!
# Access by slug

What the operations on a stored post, category or tag come to for a caller who may change it. It is
found by its slug. Reading it tells what is stored, an update fails for its input only, and a
deletion removes it with what goes with it.
-/
namespace Gazette
open StoreProcedure

def Kind.entry : Kind → String → Entry
  | post => .post
  | category => .category
  | tag => .tag

def PostView.counted (view : PostView) : PostView :=
  { view with post := { view.post with viewCount := view.post.viewCount + 1 } }

namespace Store

/-- A document says what is stored of a thing with a slug. That of a post counts itself among the
views. -/
inductive Describes (s : Store) : Kind → String → Json → Prop
  | post {id : String} {row : PostRow} {view : PostView} : s.posts.row? id = some row →
      s.Shows row view → s.Describes .post id view.counted.toJson
  | category {id : String} {category : Category} : s.categories.row? id = some category →
      s.Describes .category id category.toJson
  | tag {id : String} {tag : Tag} : s.tags.row? id = some tag → s.Describes .tag id tag.toJson

/-- Whether a caller may change a thing with a slug: an admin any, and its author a post. -/
def Permits (caller : Api.Caller) (kind : Kind) (id : String) (s : Store) : Prop :=
  match kind with
  | .post => ∃ row ∈ s.posts.row? id, caller.mayModify row.authorId = true
  | _ => caller.isAdmin = true

instance (caller : Api.Caller) (kind : Kind) (id : String) (s : Store) :
    Decidable (s.Permits caller kind id) :=
  match kind with
  | .post =>
    inferInstanceAs (Decidable (∃ row ∈ s.posts.row? id, caller.mayModify row.authorId = true))
  | .category | .tag => inferInstanceAs (Decidable (caller.isAdmin = true))

/-- Whether a thing with a slug can be read. The counters of a post can be too large for it. -/
def Legible (kind : Kind) (id : String) (s : Store) : Prop :=
  kind = .post → ∀ row ∈ s.posts.row? id, Readable row

instance (kind : Kind) (id : String) (s : Store) : Decidable (s.Legible kind id) :=
  inferInstanceAs (Decidable (_ → _))

variable {s : Store} {kind : Kind} {id slug : String}

theorem find_of_slug? (hs : s.Sound) (h : s.slug? kind id = some slug) :
    match kind with
    | .post => ∃ row, s.posts.row? id = some row ∧ s.findPostRowAt? slug = some row
    | .category => ∃ category, s.categories.row? id = some category ∧
        s.findCategoryAt? slug = some category
    | .tag => ∃ tag, s.tags.row? id = some tag ∧ s.findTagAt? slug = some tag := by
  cases kind with
  | post =>
      obtain ⟨row, hrow, rfl⟩ := Option.map_eq_some_iff.1 h
      exact ⟨row, hrow, Table.find?_of_mem hs.post_slugs (Table.mem_of_row? hrow)⟩
  | category =>
      obtain ⟨category, hrow, rfl⟩ := Option.map_eq_some_iff.1 h
      exact ⟨category, hrow, Table.find?_of_mem hs.category_slugs (Table.mem_of_row? hrow)⟩
  | tag =>
      obtain ⟨tag, hrow, rfl⟩ := Option.map_eq_some_iff.1 h
      exact ⟨tag, hrow, Table.find?_of_mem hs.tag_slugs (Table.mem_of_row? hrow)⟩

/-- A post that a caller may change is found by its slug, as one that the caller may change. -/
theorem find_of_permits (hs : s.Sound) {caller : Api.Caller}
    (h : s.slug? .post id = some slug) (hpermits : s.Permits caller .post id) :
    ∃ row, s.posts.row? id = some row ∧ s.findPostRowAt? slug = some row ∧
      caller.mayModify row.authorId = true := by
  obtain ⟨row, hrow, hat⟩ := find_of_slug? hs h
  obtain ⟨owned, howned, hmay⟩ := hpermits
  obtain rfl : row = owned := Option.some.inj (hrow.symm.trans howned)
  exact ⟨row, hrow, hat, hmay⟩

theorem shows_of_findView? (hs : s.Sound) {row : PostRow} {view : PostView} (hrow : row ∈ s.posts)
    (h : s.findView? row.slug = .ok (some view)) : s.Shows row view := by
  obtain ⟨shown, hshown, hslug, hshows⟩ := findView?_ok hs h
  exact List.inj_on_of_nodup_map hs.post_slugs hshown hrow hslug ▸ hshows

end Store

namespace Api
open Api.Action Http

namespace Exchange
variable {x : Exchange} {s t : Store} {op : Operation} {caller : Caller}

def Passes (x : Exchange) (s : Store) : Prop :=
  x.request.method.isRead = true ∨ s.maintenanceMode = false ∨ isAdmin (x.callerIn s) = true

instance (x : Exchange) (s : Store) : Decidable (x.Passes s) :=
  inferInstanceAs (Decidable (_ ∨ _ ∨ _))

theorem outcome_guard (h : x.Passes s) : x.guard.outcome s = (.ok (), s) := by
  unfold guard
  cases hread : x.request.method.isRead with
  | true => rfl
  | false =>
      cases hmode : s.maintenanceMode with
      | false => simp [outcome_bind, look, hmode]
      | true =>
          have hadmin : isAdmin (x.callerIn s) = true := by
            simpa [Passes, hread, hmode] using h
          simp [outcome_bind, look, hmode, outcome_caller?, ensure, hadmin]

theorem outcome_guard_error (h : ¬ x.Passes s) :
    x.guard.outcome s = (.error .unavailable, s) := by
  simp only [Passes, not_or, Bool.not_eq_true, Bool.not_eq_false] at h
  obtain ⟨hread, hmode, hadmin⟩ := h
  unfold guard
  simp [outcome_bind, look, hread, hmode, outcome_caller?, ensure, hadmin]

theorem answer_of_ok [Libraries] {response : Response} (hop : x.operation? = some op)
    (hhead : x.request.method ≠ .head) (hpasses : x.Passes s)
    (h : (x.perform op).outcome s = (.ok response, t)) :
    x.after s = t ∧ (x.answer.run s).1.status = response.status ∧
      (x.answer.run s).1.body = response.body := by
  obtain ⟨hafter, hstatus, hbody⟩ := answer_of_operation hop hhead s
  have hguarded : x.guarded.outcome s = (.ok response, t) := by
    rw [guarded_outcome hop, outcome_guard hpasses]
    exact h
  rw [reply, hguarded] at hstatus hbody
  rw [hguarded] at hafter
  exact ⟨hafter, hstatus, hbody⟩

theorem answer_of_error [Libraries] {e : ApiError} (hop : x.operation? = some op)
    (hhead : x.request.method ≠ .head) (hpasses : x.Passes s)
    (h : (x.perform op).outcome s = (.error e, t)) :
    x.after s = t ∧ (x.answer.run s).1.status = e.status := by
  obtain ⟨hafter, hstatus, -⟩ := answer_of_operation hop hhead s
  have hguarded : x.guarded.outcome s = (.error e, t) := by
    rw [guarded_outcome hop, outcome_guard hpasses]
    exact h
  rw [reply, hguarded] at hstatus
  rw [hguarded] at hafter
  exact ⟨hafter, hstatus.trans e.response_status⟩

/-- Where the guard refuses a request or nothing is offered for its method, the answer says so. -/
theorem status_of_closed [Libraries] {resource : Resource} (hresource : x.resource? = some resource)
    (hoptions : x.request.method ≠ .options) (h : x.operation? = none ∨ ¬ x.Passes s) :
    (x.answer.run s).1.status = 405 ∨ (x.answer.run s).1.status = 503 := by
  rcases x.answer_run s with ⟨hmethod, -⟩ | ⟨-, hstatus, -⟩
  · exact absurd hmethod hoptions
  · rw [hstatus, reply, guarded, outcome_bind]
    by_cases hpasses : x.Passes s
    · have hnone := h.resolve_right (not_not_intro hpasses)
      rw [outcome_guard hpasses]
      left
      simp only [unguarded, hresource, hnone]
      rfl
    · rw [outcome_guard_error hpasses]
      right
      rfl

theorem outcome_then {α β : Type} {p : Action α} {a : α} (h : p.outcome s = (.ok a, t))
    (f : α → Action β) : outcome (p >>= f) s = (f a).outcome t := by
  rw [outcome_bind, h]

theorem outcome_caller (h : x.callerIn s = some caller) :
    x.caller.outcome s = (.ok caller, s) := by
  rw [Exchange.caller, outcome_then (outcome_caller? x s), h]
  rfl

theorem caller_ok : x.caller.outcome s = (.ok caller, t) ↔ x.callerIn s = some caller ∧ t = s := by
  cases hcaller : x.callerIn s with
  | some known => simp [outcome_caller hcaller, eq_comm]
  | none =>
      rw [Exchange.caller, outcome_then (outcome_caller? x s), hcaller]
      simp

theorem caller_then_ok {f : Caller → Action Response} {response : Response} :
    outcome (x.caller >>= f) s = (.ok response, t) ↔
      ∃ caller, x.callerIn s = some caller ∧ (f caller).outcome s = (.ok response, t) := by
  rw [x.caller_reads.then_ok]
  simp only [caller_ok, and_true]

theorem input_fails (α : Type) [Input α] : (x.input α).FailsOnInput s := by
  refine (ensure_fails (e := .rejected .notJson) _ trivial).bind fun _ _ _ => ?_
  split
  · exact failsWith_pure _
  · exact failsWith_throw trivial
  · exact failsWith_throw trivial

theorem failsWith_then {α β : Type} {p : Action α} {a : α} {f : α → Action β}
    {P : ApiError → Prop} (h : p.outcome s = (.ok a, s)) (hf : (f a).FailsWith P s) :
    FailsWith P (p >>= f) s := by
  intro e u hfail
  rw [outcome_then h] at hfail
  exact hf e u hfail

end Exchange

open Exchange
variable {s t : Store} {kind : Kind} {id slug : String} {caller : Caller} {x : Exchange}

theorem outcome_ensure {holds : Bool} {e : ApiError} (h : holds = true) (s : Store) :
    (ensure holds e).outcome s = (.ok (), s) := by
  rw [h]
  rfl

theorem change_ok {α : Type} {f : Store → Except StoreError (α × Store)} {a : α} :
    (Action.change f).outcome s = (.ok a, t) ↔ f s = .ok (a, t) := by
  rw [Action.change, outcome_change]
  cases f s <;> simp [Prod.ext_iff]

/-- A post is read as it is shown at its slug, and the view is counted. -/
theorem readPost_ok {reader : Option Caller} {view : PostView} :
    (readPost reader slug).outcome s = (.ok view, t) ↔
      ∃ shown, s.findView? slug = .ok (some shown) ∧
        (shown.post.isActive || maySeeHidden reader shown.post.authorId) = true ∧
          view = shown.counted ∧ t = s.recordView shown.post.id := by
  unfold readPost viewPost
  rw [(found_lookOr_reads _).then_ok]
  refine exists_congr fun shown => ?_
  rw [found_lookOr_ok, (ensure_reads _ _).then_ok]
  simp only [ensure_ok, outcome_bind_ok, change_ok, outcome_pure, Prod.mk.injEq, Except.ok.injEq]
  constructor
  · rintro ⟨⟨hfind, -⟩, _, ⟨hsees, -⟩, _, _, ⟨-, rfl⟩, rfl, rfl⟩
    exact ⟨hfind, hsees, rfl, rfl⟩
  · rintro ⟨hfind, hsees, rfl, rfl⟩
    exact ⟨⟨hfind, trivial⟩, (), ⟨hsees, trivial⟩, (), _, ⟨trivial, rfl⟩, rfl, rfl⟩

/-- Who may change a thing is told what is stored of it, if it can be read. -/
theorem perform_reading [Libraries] (hs : s.Sound) (hformed : Slug.isWellFormed slug = true)
    (hslug : s.slug? kind id = some slug) (hcaller : x.callerIn s = some caller)
    (hpermits : s.Permits caller kind id) (hlegible : s.Legible kind id) :
    ∃ document u, (x.perform (kind.reading slug)).outcome s = (.ok (.json 200 document), u) ∧
      s.Describes kind id document := by
  have hfind := Store.find_of_slug? hs hslug
  cases kind with
  | post =>
      obtain ⟨row, hrow, hat, hmay⟩ := Store.find_of_permits hs hslug hpermits
      obtain rfl : row.slug = slug := by simpa using List.find?_some hat
      obtain ⟨post, hpost⟩ := Store.exists_postOf.2 (hlegible rfl row hrow)
      obtain ⟨view, hview, -⟩ := Store.findView?_of_mem hs (Table.mem_of_row? hrow) hpost
      have hshows := Store.shows_of_findView? hs (Table.mem_of_row? hrow) hview
      have hsees : (view.post.isActive || maySeeHidden (some caller) view.post.authorId) =
          true := by
        rw [(Store.postOf_ok.1 hshows.post).2.2, Bool.or_eq_true]
        exact .inr hmay
      have hread := readPost_ok.2 ⟨view, hview, hsees, rfl, rfl⟩
      refine ⟨view.counted.toJson, s.recordView view.post.id, ?_, .post hrow hshows⟩
      show outcome (x.caller? >>= _) s = _
      rw [outcome_then (outcome_caller? x s), hcaller, outcome_then (outcome_parameter _ hformed s)]
      exact (outcome_then hread _).trans rfl
  | category =>
      obtain ⟨category, hrow, hat⟩ := hfind
      refine ⟨category.toJson, s, ?_, .category hrow⟩
      show outcome (parameter "slug" slug >>= _) s = _
      rw [outcome_then (outcome_parameter _ hformed s)]
      exact (outcome_then (found_look_ok.2 ⟨hat, rfl⟩) _).trans rfl
  | tag =>
      obtain ⟨tag, hrow, hat⟩ := hfind
      refine ⟨tag.toJson, s, ?_, .tag hrow⟩
      show outcome (parameter "slug" slug >>= _) s = _
      rw [outcome_then (outcome_parameter _ hformed s)]
      exact (outcome_then (found_look_ok.2 ⟨hat, rfl⟩) _).trans rfl

theorem legible_of_perform_reading [Libraries] {response : Response} (hs : s.Sound)
    (hformed : Slug.isWellFormed slug = true) (hslug : s.slug? kind id = some slug)
    (h : (x.perform (kind.reading slug)).outcome s = (.ok response, t)) : s.Legible kind id := by
  rintro rfl row hrow
  obtain ⟨reader, -, h⟩ := x.caller?_reads.then_ok.1 h
  rw [outcome_then (outcome_parameter _ hformed s)] at h
  obtain ⟨-, view, hread, -⟩ := shown_ok h
  obtain ⟨shown, hview, -⟩ := readPost_ok.1 hread
  obtain ⟨found, hfound, hat⟩ := Store.find_of_slug? hs hslug
  obtain rfl : found = row := Option.some.inj (hfound.symm.trans hrow)
  obtain rfl : found.slug = slug := by simpa using List.find?_some hat
  have hshows := Store.shows_of_findView? hs (Table.mem_of_row? hfound) hview
  exact Store.exists_postOf.1 ⟨_, hshows.post⟩

theorem outcome_ownPost {row : PostRow} {post : Post} (hat : s.findPostRowAt? slug = some row)
    (hpost : s.postOf row = .ok post) (hmay : caller.mayModify row.authorId = true) :
    (ownPost caller slug).outcome s = (.ok post, s) := by
  have hfind := Store.findPostAt?_of_at hat hpost
  have howner : caller.mayModify post.authorId = true := by
    rw [(Store.postOf_ok.1 hpost).2.2]
    exact hmay
  unfold ownPost
  rw [outcome_then (lookOr_ok.2 ⟨hfind, rfl⟩), outcome_then (found_ok.2 ⟨rfl, rfl⟩),
    outcome_then (outcome_ensure howner s)]
  rfl

theorem updatePost_fails [Libraries] (context : Context) (hs : s.Sound) {row : PostRow}
    {post : Post} (hat : s.findPostRowAt? slug = some row) (hpost : s.postOf row = .ok post)
    (hmay : caller.mayModify row.authorId = true) (input : PostInput) (replace : Bool) :
    (updatePost context caller slug input replace).FailsOnInput s := by
  refine failsWith_then (outcome_ownPost hat hpost hmay) ?_
  refine (applyInput_fails _ _ _).then_reads (applyInput_reads _ _ _) fun given happly => ?_
  refine savePost_fails context hs fun other hother => ?_
  have hid : given.id = row.id := by
    rw [(applyInput_ok happly).2.1, (Store.postOf_ok.1 hpost).2.2]
  rw [hid, row?_of_findPostRowAt? hs hat, Option.some.injEq] at hother
  exact hother ▸ Store.exists_postOf.1 ⟨post, hpost⟩

theorem updateCategory_fails [Libraries] {category : Category} (hadmin : caller.isAdmin = true)
    (hat : s.findCategoryAt? slug = some category) (input : CategoryInput) (replace : Bool) :
    (updateCategory caller slug input replace).FailsOnInput s := by
  refine failsWith_then (outcome_ensure hadmin s) ?_
  refine (ensure_fails (e := .badRequest "name is required") _ trivial).then_reads
    (ensure_reads _ _) fun _ _ => ?_
  exact failsWith_then (found_look_ok.2 ⟨hat, rfl⟩) (edit_fails (Editor.saveCategory_fails _))

theorem updateTag_fails [Libraries] {tag : Tag} (hadmin : caller.isAdmin = true)
    (hat : s.findTagAt? slug = some tag) (input : TagInput) :
    (updateTag caller slug input).FailsOnInput s :=
  failsWith_then (outcome_ensure hadmin s) <|
    failsWith_then (found_look_ok.2 ⟨hat, rfl⟩) (edit_fails (Editor.saveTag_fails _))

/-- An update fails for what is stated only, if its action does so for whatever input there is. -/
theorem shown_input_fails {α β : Type} [Input α] {toJson : β → Json}
    {action : Caller → String → α → Action β} (hformed : Slug.isWellFormed slug = true)
    (hcaller : x.callerIn s = some caller)
    (haction : ∀ input, (action caller slug input).FailsOnInput s) :
    Action.FailsOnInput (do
      let caller ← x.caller
      let slug ← parameter "slug" slug
      let input ← x.input α
      shown toJson (action caller slug input)) s := by
  refine failsWith_then (outcome_caller hcaller) ?_
  refine failsWith_then (outcome_parameter _ hformed s) ?_
  refine (x.input_fails α).then_reads (x.input_reads α) fun input _ => ?_
  exact (haction input).bind fun _ _ _ => failsWith_pure _

theorem perform_writing_fails [Libraries] (hs : s.Sound) (hformed : Slug.isWellFormed slug = true)
    (hslug : s.slug? kind id = some slug) (hcaller : x.callerIn s = some caller)
    (hpermits : s.Permits caller kind id) (hlegible : s.Legible kind id) :
    (x.perform (kind.replacing slug)).FailsOnInput s ∧
      (x.perform (kind.updating slug)).FailsOnInput s := by
  have hfind := Store.find_of_slug? hs hslug
  cases kind with
  | post =>
      obtain ⟨row, hrow, hat, hmay⟩ := Store.find_of_permits hs hslug hpermits
      obtain ⟨post, hpost⟩ := Store.exists_postOf.2 (hlegible rfl row hrow)
      constructor
      · refine shown_input_fails hformed hcaller fun input => ?_
        exact (ensure_fails (e := .badRequest "title is required") _ trivial).then_reads
          (ensure_reads _ _) fun _ _ => updatePost_fails x.context hs hat hpost hmay input true
      · exact shown_input_fails hformed hcaller fun input =>
          updatePost_fails x.context hs hat hpost hmay input false
  | category =>
      obtain ⟨category, -, hat⟩ := hfind
      constructor
      · exact shown_input_fails hformed hcaller fun input =>
          updateCategory_fails hpermits hat input true
      · exact shown_input_fails hformed hcaller fun input =>
          updateCategory_fails hpermits hat input false
  | tag =>
      obtain ⟨tag, -, hat⟩ := hfind
      constructor
      · exact shown_input_fails hformed hcaller fun input => updateTag_fails hpermits hat input
      · exact shown_input_fails hformed hcaller fun input => updateTag_fails hpermits hat input

theorem target_of_writing?_at {raw : String} {α β : Type} (find : String → Option α)
    {name : α → String} {input? : Option β} {stated : β → Option String} {a : α} {w : Writing}
    (hraw : parameter? raw = some slug) (hfind : find slug = some a)
    (h : (do
      let found ← find (← parameter? raw)
      let input ← input?
      some (Writing.mk kind (name found) (stated input))) = some w) :
    w.kind = kind ∧ w.id = name a := by
  simp only [hraw, Option.bind_eq_bind, Option.bind_some, hfind, Option.bind_eq_some_iff,
    Option.some.injEq] at h
  obtain ⟨input, -, rfl⟩ := h
  exact ⟨rfl, rfl⟩

theorem target_of_writing? (hs : s.Sound) (hformed : Slug.isWellFormed slug = true)
    (hslug : s.slug? kind id = some slug) {op : Operation} (hx : x.operation? = some op)
    (hop : op = kind.replacing slug ∨ op = kind.updating slug) {w : Writing}
    (hw : x.writing? s = some w) : w.kind = kind ∧ w.id = id := by
  have hfind := Store.find_of_slug? hs hslug
  have hraw := parameter?_eq hformed
  rw [writing?, hx] at hw
  cases kind with
  | post =>
      obtain ⟨row, hrow, hat⟩ := hfind
      obtain rfl := Table.key_of_row? hrow
      rcases hop with rfl | rfl
      · exact target_of_writing?_at s.findPostRowAt? hraw hat hw
      · exact target_of_writing?_at s.findPostRowAt? hraw hat hw
  | category =>
      obtain ⟨category, hrow, hat⟩ := hfind
      obtain rfl := Table.key_of_row? hrow
      rcases hop with rfl | rfl
      · exact target_of_writing?_at s.findCategoryAt? hraw hat hw
      · exact target_of_writing?_at s.findCategoryAt? hraw hat hw
  | tag =>
      obtain ⟨tag, hrow, hat⟩ := hfind
      obtain rfl := Table.key_of_row? hrow
      rcases hop with rfl | rfl
      · exact target_of_writing?_at s.findTagAt? hraw hat hw
      · exact target_of_writing?_at s.findTagAt? hraw hat hw

theorem change_then_pure_ok {α β : Type} {f : Store → Except StoreError (α × Store)} {b c : β} :
    outcome (do let _ ← Action.change f; pure b) s = (.ok c, t) ↔
      (∃ a, f s = .ok (a, t)) ∧ b = c := by
  refine outcome_then_pure_ok.trans ?_
  simp only [change_ok, exists_and_right]

theorem deletePost_ok (hs : s.Sound) {row : PostRow} {u : Unit}
    (hat : s.findPostRowAt? slug = some row) (hmay : caller.mayModify row.authorId = true) :
    (deletePost caller slug).outcome s = (.ok u, t) ↔
      Store.Readable row ∧ ¬ s.TooDeep (.post row.id) ∧ t = s.without (.post row.id) := by
  have hexact := (Store.deletesExactly hs).post row.id
  unfold deletePost
  rw [(ownPost_reads _ _).then_ok]
  constructor
  · rintro ⟨post, hown, h⟩
    obtain ⟨-, other, hother, hpost, -⟩ := ownPost_ok hown
    obtain rfl : row = other := Option.some.inj (hat.symm.trans hother)
    obtain ⟨⟨found, hdelete⟩, -⟩ := change_then_pure_ok.1 h
    rw [show post.id = row.id by rw [(Store.postOf_ok.1 hpost).2.2], hexact] at hdelete
    split at hdelete
    · cases hdelete
    · cases hdelete
      exact ⟨Store.exists_postOf.1 ⟨post, hpost⟩, ‹_›, rfl⟩
  · rintro ⟨hreadable, hshallow, rfl⟩
    obtain ⟨post, hpost⟩ := Store.exists_postOf.2 hreadable
    have hdelete : s.deletePost post.id = .ok (s.posts.has row.id, s.without (.post row.id)) := by
      rw [show post.id = row.id by rw [(Store.postOf_ok.1 hpost).2.2], hexact, if_neg hshallow]
    exact ⟨post, outcome_ownPost hat hpost hmay, change_then_pure_ok.2 ⟨⟨_, hdelete⟩, rfl⟩⟩

theorem deleteCategory_ok (hs : s.Sound) {category : Category} {u : Unit}
    (hat : s.findCategoryAt? slug = some category) (hadmin : caller.isAdmin = true) :
    (deleteCategory caller slug).outcome s = (.ok u, t) ↔
      t = s.without (.category category.id) := by
  unfold deleteCategory
  rw [requireAdmin, outcome_then (outcome_ensure hadmin s), readCategory,
    outcome_then (found_look_ok.2 ⟨hat, rfl⟩), change_then_pure_ok,
    (Store.deletesExactly hs).category]
  simp [eq_comm]

theorem deleteTag_ok (hs : s.Sound) {tag : Tag} {u : Unit} (hat : s.findTagAt? slug = some tag)
    (hadmin : caller.isAdmin = true) :
    (deleteTag caller slug).outcome s = (.ok u, t) ↔ t = s.without (.tag tag.id) := by
  unfold deleteTag
  rw [requireAdmin, outcome_then (outcome_ensure hadmin s), readTag,
    outcome_then (found_look_ok.2 ⟨hat, rfl⟩), change_then_pure_ok, (Store.deletesExactly hs).tag]
  simp [eq_comm]

theorem removed_ok {action : Caller → String → Action Unit} {response : Response}
    (hformed : Slug.isWellFormed slug = true) (hcaller : x.callerIn s = some caller) :
    outcome (do
      let caller ← x.caller
      let slug ← parameter "slug" slug
      removed (action caller slug)) s = (.ok response, t) ↔
      (action caller slug).outcome s = (.ok (), t) ∧ response = .empty 204 := by
  rw [outcome_then (outcome_caller hcaller), outcome_then (outcome_parameter _ hformed s)]
  refine outcome_then_pure_ok.trans ⟨?_, ?_⟩
  · rintro ⟨⟨⟩, haction, rfl⟩
    exact ⟨haction, rfl⟩
  · rintro ⟨haction, rfl⟩
    exact ⟨(), haction, rfl⟩

/-- A deletion by a caller who may change the thing removes it and what goes with it, unless the
thing cannot be read or the cascade goes too deep. -/
theorem perform_deleting_ok [Libraries] (hs : s.Sound) (hformed : Slug.isWellFormed slug = true)
    (hslug : s.slug? kind id = some slug) (hcaller : x.callerIn s = some caller)
    (hpermits : s.Permits caller kind id) {response : Response} :
    (x.perform (kind.deleting slug)).outcome s = (.ok response, t) ↔
      (s.Legible kind id ∧ ¬ s.TooDeep (kind.entry id) ∧ t = s.without (kind.entry id)) ∧
        response = .empty 204 := by
  have hfind := Store.find_of_slug? hs hslug
  cases kind with
  | post =>
      obtain ⟨row, hrow, hat, hmay⟩ := Store.find_of_permits hs hslug hpermits
      have hlegible : s.Legible .post id ↔ Store.Readable row := by
        simp [Store.Legible, hrow]
      have hid : row.id = id := Table.key_of_row? hrow
      refine (removed_ok hformed hcaller).trans (and_congr_left fun _ => ?_)
      rw [deletePost_ok hs hat hmay, hlegible, hid]
      rfl
  | category =>
      obtain ⟨category, hrow, hat⟩ := hfind
      have hid : category.id = id := Table.key_of_row? hrow
      refine (removed_ok hformed hcaller).trans (and_congr_left fun _ => ?_)
      rw [deleteCategory_ok hs hat hpermits, hid]
      simp [Store.Legible, Kind.entry, Store.TooDeep]
  | tag =>
      obtain ⟨tag, hrow, hat⟩ := hfind
      have hid : tag.id = id := Table.key_of_row? hrow
      refine (removed_ok hformed hcaller).trans (and_congr_left fun _ => ?_)
      rw [deleteTag_ok hs hat hpermits, hid]
      simp [Store.Legible, Kind.entry, Store.TooDeep]

end Api
end Gazette
