import Gazette.Proofs.Join
import Gazette.Proofs.Rows
import Gazette.Proofs.Rules

/-!
# Writing through the interface

A request that writes a post, a category or a tag names what it writes and may state a slug for
it. If the request succeeds, what it names is saved once, prepared from what is stored of it;
otherwise nothing changes.
-/
namespace Gazette

namespace Store

def slug? (kind : Kind) (id : String) (s : Store) : Option String :=
  match kind with
  | .post => (s.posts.row? id).map (·.slug)
  | .category => (s.categories.row? id).map (·.slug)
  | .tag => (s.tags.row? id).map (·.slug)

/-- The title or the name of a stored thing, from which its slug may be derived. -/
def name? (kind : Kind) (id : String) (s : Store) : Option String :=
  match kind with
  | .post => (s.posts.row? id).map (·.title)
  | .category => (s.categories.row? id).map (·.name)
  | .tag => (s.tags.row? id).map (·.name)

def publishedAt? (id : String) (s : Store) : Option Timestamp :=
  (s.posts.row? id).bind (·.publishedDate)

variable {s t : Store}

theorem names_savePost {post : Post} (h : s.savePost post = .ok t) :
    t.name? .post post.id = some post.title ∧ t.slug? .post post.id = some post.slug := by
  have hrow := row?_savePost h post.id
  rw [if_pos rfl] at hrow
  rw [name?, slug?, hrow]
  cases s.posts.row? post.id <;> exact ⟨rfl, rfl⟩

theorem names_saveCategory {category : Category} (h : s.saveCategory category = .ok t) :
    t.name? .category category.id = some category.name ∧
      t.slug? .category category.id = some category.slug := by
  have hrow := row?_saveCategory h category.id
  rw [if_pos rfl] at hrow
  rw [name?, slug?, hrow]
  cases s.categories.row? category.id <;> exact ⟨rfl, rfl⟩

theorem names_saveTag {tag : Tag} (h : s.saveTag tag = .ok t) :
    t.name? .tag tag.id = some tag.name ∧ t.slug? .tag tag.id = some tag.slug := by
  have hrow := row?_saveTag h tag.id
  rw [if_pos rfl] at hrow
  rw [name?, slug?, hrow]
  cases s.tags.row? tag.id <;> exact ⟨rfl, rfl⟩

end Store

theorem Change.slug?_other {change : Change} {s t : Store} {target : Kind × String}
    (h : change.apply s = .ok t) (hwritten : change.written? = some target) {kind : Kind}
    {id : String} (hother : ¬ (target.1 = kind ∧ target.2 = id)) :
    t.slug? kind id = s.slug? kind id := by
  obtain ⟨hposts, hcategories, htags⟩ := Change.rows_other h hwritten
  cases kind with
  | post => rw [Store.slug?, Store.slug?, hposts id hother]
  | category => rw [Store.slug?, Store.slug?, hcategories id hother]
  | tag => rw [Store.slug?, Store.slug?, htags id hother]

/-- A write of something that has a slug. -/
structure Writing where
  kind : Kind
  id : String
  /-- The slug that is stated, if one is. -/
  slug : Option String
deriving DecidableEq, Repr

namespace Writing

/-- The slug that a write goes by: the stated one, or else the stored one. -/
def givenSlug (w : Writing) (s : Store) : String :=
  w.slug.getD ((s.slug? w.kind w.id).getD "")

/-- A write has been carried out between two stores: what was given for it was prepared and
saved. -/
def Done [Libraries] (w : Writing) (s t : Store) : Prop :=
  match w.kind with
  | .post => ∃ (given saved : Post) (now : Timestamp), given.id = w.id ∧
      given.slug = w.givenSlug s ∧ given.prepare now = .ok saved ∧ s.savePost saved = .ok t
  | .category => ∃ given saved : Category, given.id = w.id ∧ given.slug = w.givenSlug s ∧
      given.prepare = .ok saved ∧ s.saveCategory saved = .ok t
  | .tag => ∃ given saved : Tag, given.id = w.id ∧ given.slug = w.givenSlug s ∧
      given.prepare = .ok saved ∧ s.saveTag saved = .ok t

/-- A write of a post that went by the stored date of publication. -/
def KeepsDate [Libraries] (w : Writing) (now : Timestamp) (s t : Store) : Prop :=
  ∃ given saved : Post, given.id = w.id ∧ given.publishedDate = s.publishedAt? w.id ∧
    given.prepare now = .ok saved ∧ s.savePost saved = .ok t

variable {w : Writing} {s t : Store}

/-- What was written has the name that was given for it, and its slug is settled from that. -/
theorem Done.settled [Libraries] (h : w.Done s t) :
    ∃ name settled, t.name? w.kind w.id = some name ∧ t.slug? w.kind w.id = some settled ∧
      settleSlug name (w.givenSlug s) = .ok settled := by
  obtain ⟨kind, id, slug⟩ := w
  cases kind with
  | post =>
      obtain ⟨given, saved, now, rfl, hslug, hprepare, hsave⟩ := h
      obtain ⟨-, hsettle, hsaved⟩ := Post.prepare_ok.1 hprepare
      have hnames := Store.names_savePost hsave
      rw [show saved.id = given.id by rw [hsaved],
        show saved.title = given.title by rw [hsaved]] at hnames
      exact ⟨given.title, saved.slug, hnames.1, hnames.2, hslug ▸ hsettle⟩
  | category =>
      obtain ⟨given, saved, rfl, hslug, hprepare, hsave⟩ := h
      obtain ⟨-, hsettle, hsaved⟩ := Category.prepare_ok.1 hprepare
      have hnames := Store.names_saveCategory hsave
      rw [show saved.id = given.id by rw [hsaved],
        show saved.name = given.name by rw [hsaved]] at hnames
      exact ⟨given.name, saved.slug, hnames.1, hnames.2, hslug ▸ hsettle⟩
  | tag =>
      obtain ⟨given, saved, rfl, hslug, hprepare, hsave⟩ := h
      obtain ⟨-, hsettle, hsaved⟩ := Tag.prepare_ok.1 hprepare
      have hnames := Store.names_saveTag hsave
      rw [show saved.id = given.id by rw [hsaved],
        show saved.name = given.name by rw [hsaved]] at hnames
      exact ⟨given.name, saved.slug, hnames.1, hnames.2, hslug ▸ hsettle⟩

theorem Done.exists_change [Libraries] (h : w.Done s t) :
    ∃ change : Change, change.written? = some (w.kind, w.id) ∧ change.apply s = .ok t := by
  obtain ⟨kind, id, slug⟩ := w
  cases kind with
  | post =>
      obtain ⟨given, saved, now, rfl, -, hprepare, hsave⟩ := h
      have hid : saved.id = given.id := by rw [(Post.prepare_ok.1 hprepare).2.2]
      exact ⟨.savePost saved, by rw [Change.written?, hid], hsave⟩
  | category =>
      obtain ⟨given, saved, rfl, -, hprepare, hsave⟩ := h
      have hid : saved.id = given.id := by rw [(Category.prepare_ok.1 hprepare).2.2]
      exact ⟨.saveCategory saved, by rw [Change.written?, hid], hsave⟩
  | tag =>
      obtain ⟨given, saved, rfl, -, hprepare, hsave⟩ := h
      have hid : saved.id = given.id := by rw [(Tag.prepare_ok.1 hprepare).2.2]
      exact ⟨.saveTag saved, by rw [Change.written?, hid], hsave⟩

theorem Done.slug?_other [Libraries] (h : w.Done s t) {kind : Kind} {id : String}
    (hother : ¬ (w.kind = kind ∧ w.id = id)) : t.slug? kind id = s.slug? kind id := by
  obtain ⟨change, hwritten, happly⟩ := h.exists_change
  exact Change.slug?_other happly hwritten hother

theorem Done.postRow_other [Libraries] (h : w.Done s t) {id : String}
    (hother : ¬ (w.kind = .post ∧ w.id = id)) :
    t.posts.row? id = s.posts.row? id := by
  obtain ⟨change, hwritten, happly⟩ := h.exists_change
  exact (Change.rows_other happly hwritten).1 id hother

end Writing

namespace Api
open StoreProcedure Change Http Api.Action

variable {s t : Store}

theorem ensure_ok {holds : Bool} {e : ApiError} {u : Unit} :
    (ensure holds e).outcome s = (.ok u, t) ↔ holds = true ∧ t = s := by
  cases holds <;> simp [ensure, eq_comm]

theorem lookOr_ok {α : Type} {f : Store → Except StoreError α} {a : α} :
    (lookOr f).outcome s = (.ok a, t) ↔ f s = .ok a ∧ t = s := by
  rw [lookOr, outcome_readOr]
  cases f s <;> simp [eq_comm]

theorem found_ok {α : Type} {result : Option α} {a : α} :
    (found result).outcome s = (.ok a, t) ↔ result = some a ∧ t = s := by
  cases result <;> simp [found, eq_comm]

theorem found_lookOr_ok {α : Type} {f : Store → Except StoreError (Option α)} {a : α} :
    outcome (do found (← lookOr f)) s = (.ok a, t) ↔ f s = .ok (some a) ∧ t = s := by
  rw [(lookOr_reads f).then_ok]
  simp [lookOr_ok, found_ok]

theorem savePost_ok [Libraries] {context : Context} {post : Post} {view : PostView}
    (h : (savePost context post).outcome s = (.ok view, t)) :
    ∃ saved, post.prepare context.now = .ok saved ∧ s.savePost saved = .ok t := by
  obtain ⟨saved, u, hedit, hview⟩ := outcome_bind_ok.1 h
  obtain ⟨hprepare, -, -, hsave⟩ := Editor.savePost_ok.1 (outcome_adapt_ok.1 hedit)
  obtain ⟨-, rfl⟩ := found_lookOr_ok.1 hview
  exact ⟨saved, hprepare, hsave⟩

/-- A saved post can be shown, unless its counters could not be read before. -/
theorem exists_view_of_savePost {saved : Post} (hs : s.Sound)
    (hread : ∀ row, s.posts.row? saved.id = some row → Store.Readable row)
    (hsave : s.savePost saved = .ok t) : ∃ view, t.findView? saved.slug = .ok (some view) := by
  have hrow := Store.row?_savePost hsave saved.id
  rw [if_pos rfl] at hrow
  have hslug : ((s.posts.row? saved.id).elim (Store.PostRow.ofPost saved)
      (Store.PostRow.merge · (Store.PostRow.ofPost saved))).slug = saved.slug := by
    cases s.posts.row? saved.id <;> rfl
  have hreadable : Store.Readable ((s.posts.row? saved.id).elim (Store.PostRow.ofPost saved)
      (Store.PostRow.merge · (Store.PostRow.ofPost saved))) := by
    cases hold : s.posts.row? saved.id with
    | none => exact ⟨Counter.noConfusion, Counter.noConfusion⟩
    | some row => exact ⟨(hread row hold).views, (hread row hold).likes⟩
  obtain ⟨post, hpost⟩ := Store.exists_postOf.2 hreadable
  obtain ⟨view, hview, -⟩ :=
    Store.findView?_of_mem (hs.savePost hsave) (Table.mem_of_row? hrow) hpost
  exact ⟨view, hslug ▸ hview⟩

/-- Saving a post and showing it fails only where the editor does not take the post in. -/
theorem savePost_error_iff [Libraries] {context : Context} {post : Post} {e : ApiError}
    (hs : s.Sound) (hread : ∀ row, s.posts.row? post.id = some row → Store.Readable row) :
    (savePost context post).outcome s = (.error e, t) ↔
      (edit (Editor.savePost post context.now)).outcome s = (.error e, t) := by
  refine outcome_bind_error.trans (or_iff_left ?_)
  rintro ⟨saved, u, hedit, hview⟩
  obtain ⟨hprepare, -, -, hsave⟩ := Editor.savePost_ok.1 (outcome_adapt_ok.1 hedit)
  have hid : saved.id = post.id := by rw [(Post.prepare_ok.1 hprepare).2.2]
  obtain ⟨view, hfound⟩ := exists_view_of_savePost hs (hid ▸ hread) hsave
  have hok : (viewPost saved.slug).outcome u = (.ok view, u) :=
    found_lookOr_ok.2 ⟨hfound, rfl⟩
  rw [hok] at hview
  cases hview

theorem savePost_error [Libraries] {context : Context} {post : Post} {e : ApiError} (hs : s.Sound)
    (hread : ∀ row, s.posts.row? post.id = some row → Store.Readable row)
    (h : (savePost context post).outcome s = (.error e, t)) : t = s :=
  (Editor.savePost_atomic post context.now).adapt _ s e t ((savePost_error_iff hs hread).1 h)

theorem applyInput_ok {input : PostInput} {replace : Bool} {post given : Post}
    (h : (applyInput input replace post).outcome s = (.ok given, t)) :
    t = s ∧ given.id = post.id ∧ given.slug = input.slug.getD post.slug ∧
      given.publishedDate = post.publishedDate ∧ given.authorId = post.authorId ∧
        given.viewCount = post.viewCount ∧ given.likes = post.likes := by
  refine ⟨(applyInput_reads input replace post).eq h, ?_⟩
  rw [applyInput_eq, (settleStatus_reads _ _ _).then_ok] at h
  obtain ⟨status, -, h⟩ := h
  rw [(settleCategory_reads _ _ _).then_ok] at h
  obtain ⟨categoryId, -, h⟩ := h
  rw [(settleTags_reads _ _ _).then_ok] at h
  obtain ⟨tagIds, -, h⟩ := h
  cases h
  exact ⟨rfl, rfl, rfl, rfl, rfl, rfl⟩

theorem findPostAt?_ok {slug : String} {post : Post} (h : s.findPostAt? slug = .ok (some post)) :
    ∃ row, s.findPostRowAt? slug = some row ∧ s.postOf row = .ok post := by
  rw [Store.findPostAt?] at h
  cases hrow : s.findPostRowAt? slug with
  | none =>
      rw [hrow] at h
      cases h
  | some row =>
      rw [hrow, Option.mapM_some] at h
      refine ⟨row, rfl, ?_⟩
      cases hread : s.postOf row with
      | error e =>
          rw [hread] at h
          cases h
      | ok read =>
          rw [hread] at h
          cases h
          rfl

theorem ownPost_ok {caller : Caller} {slug : String} {post : Post}
    (h : (ownPost caller slug).outcome s = (.ok post, t)) :
    t = s ∧ ∃ row, s.findPostRowAt? slug = some row ∧ s.postOf row = .ok post ∧
      caller.mayModify row.authorId = true := by
  refine ⟨(ownPost_reads caller slug).eq h, ?_⟩
  unfold ownPost at h
  rw [(lookOr_reads _).then_ok] at h
  obtain ⟨read, hread, h⟩ := h
  rw [(found_reads _).then_ok] at h
  obtain ⟨other, hfound, h⟩ := h
  rw [(ensure_reads _ _).then_ok] at h
  obtain ⟨_, hmay, h⟩ := h
  cases h
  obtain ⟨rfl, -⟩ := found_ok.1 hfound
  obtain ⟨row, hrow, hpost⟩ := findPostAt?_ok (lookOr_ok.1 hread).1
  have howner := (ensure_ok.1 hmay).1
  rw [(Store.postOf_ok.1 hpost).2.2] at howner
  exact ⟨row, hrow, hpost, howner⟩

namespace Exchange
variable {x : Exchange} {op : Operation} {response : Response}

def parameter? (raw : String) : Option String :=
  Text.Utf8.text? (Text.Percent.decode raw.toList)

def input? (x : Exchange) (α : Type) [Input α] : Option α :=
  if (x.request.visibleHeader? "content-type").any MediaType.isJson then
    (Json.readRecord (Input.fields α) (Json.tokenize x.request.body)).toOption.map Input.ofRecord
  else none

/-- What a request writes, going by what it asks for and by what is stored. -/
def writing? (x : Exchange) (s : Store) : Option Writing :=
  match x.operation? with
  | some .createPost => (x.input? PostInput).map fun input => ⟨.post, x.freshId, input.slug⟩
  | some (.replacePost raw) | some (.updatePost raw) => do
    let row ← s.findPostRowAt? (← parameter? raw)
    let input ← x.input? PostInput
    some ⟨.post, row.id, input.slug⟩
  | some .createCategory =>
    (x.input? CategoryInput).map fun input => ⟨.category, x.freshId, input.slug⟩
  | some (.replaceCategory raw) | some (.updateCategory raw) => do
    let category ← s.findCategoryAt? (← parameter? raw)
    let input ← x.input? CategoryInput
    some ⟨.category, category.id, input.slug⟩
  | some .createTag => (x.input? TagInput).map fun input => ⟨.tag, x.freshId, input.slug⟩
  | some (.updateTag raw) => do
    let tag ← s.findTagAt? (← parameter? raw)
    let input ← x.input? TagInput
    some ⟨.tag, tag.id, input.slug⟩
  | _ => none

theorem parameter_ok {name raw value : String} :
    (parameter name raw).outcome s = (.ok value, t) ↔ parameter? raw = some value ∧ t = s := by
  unfold parameter
  show _ ↔ Text.Utf8.text? (Text.Percent.decode raw.toList) = some value ∧ _
  cases Text.Utf8.text? (Text.Percent.decode raw.toList) <;> simp [eq_comm]

theorem parameter_then_ok {name raw : String} {f : String → Action Response} :
    outcome (parameter name raw >>= f) s = (.ok response, t) ↔
      ∃ slug, parameter? raw = some slug ∧ (f slug).outcome s = (.ok response, t) := by
  rw [(parameter_reads name raw).then_ok]
  simp only [parameter_ok, and_true]

theorem input_then_ok {α : Type} [Input α] {f : α → Action Response} :
    outcome (x.input α >>= f) s = (.ok response, t) ↔
      ∃ input, x.input? α = some input ∧ (f input).outcome s = (.ok response, t) := by
  rw [(x.input_reads α).then_ok]
  refine exists_congr fun input => and_congr_left fun _ => ?_
  unfold Exchange.input input?
  cases (x.request.visibleHeader? "content-type").any MediaType.isJson with
  | false => simp [ensure, outcome_bind]
  | true =>
      rw [(ensure_reads _ _).then_ok]
      cases Json.readRecord (Input.fields α) (Json.tokenize x.request.body) with
      | ok record => simp [ensure, Except.toOption]
      | error e => cases e <;> simp [ensure, Except.toOption]

/-- A post that was made of a stored one, or of a new one, and saved. -/
theorem done_of_savePost [Libraries] (base : Post) {context : Context} {input : PostInput}
    {replace : Bool} {view : PostView} (hslug : base.slug = (s.slug? .post base.id).getD "")
    (hdate : base.publishedDate = s.publishedAt? base.id)
    (h : outcome (do savePost context (← applyInput input replace base)) s = (.ok view, t)) :
    Writing.Done ⟨.post, base.id, input.slug⟩ s t ∧
      Writing.KeepsDate ⟨.post, base.id, input.slug⟩ context.now s t := by
  rw [(applyInput_reads _ _ _).then_ok] at h
  obtain ⟨given, happly, hsaved⟩ := h
  obtain ⟨-, hid, hgiven, hkept, -⟩ := applyInput_ok happly
  obtain ⟨saved, hprepare, hsave⟩ := savePost_ok hsaved
  exact ⟨⟨given, saved, context.now, hid, by rw [hgiven, hslug]; rfl, hprepare, hsave⟩,
    given, saved, hid, hkept.trans hdate, hprepare, hsave⟩

theorem savePost_input_error [Libraries] {context : Context} {input : PostInput} {replace : Bool}
    {base : Post} {e : ApiError} (hs : s.Sound)
    (hread : ∀ row, s.posts.row? base.id = some row → Store.Readable row)
    (h : outcome (do savePost context (← applyInput input replace base)) s = (.error e, t)) :
    t = s := by
  refine (applyInput_reads _ _ _).then_error h fun given happly hsave => ?_
  exact savePost_error hs ((applyInput_ok happly).2.1 ▸ hread) hsave

theorem row?_of_findPostRowAt? (hs : s.Sound) {slug : String} {row : PostRow}
    (h : s.findPostRowAt? slug = some row) : s.posts.row? row.id = some row :=
  (Table.row?_eq_some_iff hs.post_ids).2 ⟨List.mem_of_find?_eq_some h, rfl⟩

theorem updatePost_ok [Libraries] {context : Context} {caller : Caller} {slug : String}
    {input : PostInput} {replace : Bool} {view : PostView} (hs : s.Sound)
    (h : (updatePost context caller slug input replace).outcome s = (.ok view, t)) :
    ∃ row, s.findPostRowAt? slug = some row ∧ Writing.Done ⟨.post, row.id, input.slug⟩ s t ∧
      Writing.KeepsDate ⟨.post, row.id, input.slug⟩ context.now s t := by
  unfold updatePost at h
  rw [(ownPost_reads _ _).then_ok] at h
  obtain ⟨base, hown, h⟩ := h
  obtain ⟨-, row, hfind, hpost, -⟩ := ownPost_ok hown
  have hrow := row?_of_findPostRowAt? hs hfind
  have hbase := (Store.postOf_ok.1 hpost).2.2
  have hid : base.id = row.id := by rw [hbase]
  have hslug : base.slug = (s.slug? .post base.id).getD "" := by
    rw [hid, Store.slug?, hrow, hbase]
    rfl
  have hdate : base.publishedDate = s.publishedAt? base.id := by
    rw [hid, Store.publishedAt?, hrow, hbase]
    rfl
  exact ⟨row, hfind, hid ▸ done_of_savePost _ hslug hdate h⟩

theorem updatePost_error [Libraries] {context : Context} {caller : Caller} {slug : String}
    {input : PostInput} {replace : Bool} {e : ApiError} (hs : s.Sound)
    (h : (updatePost context caller slug input replace).outcome s = (.error e, t)) : t = s := by
  refine (ownPost_reads _ _).then_error h fun base hown hrest => ?_
  obtain ⟨-, row, hfind, hpost, -⟩ := ownPost_ok hown
  have hid : base.id = row.id := by rw [(Store.postOf_ok.1 hpost).2.2]
  refine savePost_input_error hs ?_ hrest
  intro other hother
  rw [hid, row?_of_findPostRowAt? hs hfind, Option.some.injEq] at hother
  exact hother ▸ Store.exists_postOf.1 ⟨base, hpost⟩

theorem createPost_ok [Libraries] (context : Context) {caller : Caller} {input : PostInput}
    {view : PostView} (hfresh : s.posts.has context.freshId = false)
    (h : (createPost context caller input).outcome s = (.ok view, t)) :
    Writing.Done ⟨.post, context.freshId, input.slug⟩ s t ∧
      Writing.KeepsDate ⟨.post, context.freshId, input.slug⟩ context.now s t := by
  have hnone : s.posts.row? context.freshId = none := Table.row?_eq_none hfresh
  refine done_of_savePost (newPost context caller.id) ?_ ?_ h
  · rw [Store.slug?, show (newPost context caller.id).id = context.freshId from rfl, hnone]
    rfl
  · rw [Store.publishedAt?, show (newPost context caller.id).id = context.freshId from rfl, hnone]
    rfl

theorem createPost_error [Libraries] {context : Context} {caller : Caller} {input : PostInput}
    {e : ApiError} (hs : s.Sound) (hfresh : s.posts.has context.freshId = false)
    (h : (createPost context caller input).outcome s = (.error e, t)) : t = s := by
  refine savePost_input_error hs ?_ h
  intro row hrow
  rw [show (newPost context caller.id).id = context.freshId from rfl,
    Table.row?_eq_none hfresh] at hrow
  cases hrow

theorem row?_of_findCategoryAt? (hs : s.Sound) {slug : String} {category : Category}
    (h : s.findCategoryAt? slug = some category) :
    s.categories.row? category.id = some category :=
  (Table.row?_eq_some_iff hs.category_ids).2 ⟨List.mem_of_find?_eq_some h, rfl⟩

theorem row?_of_findTagAt? (hs : s.Sound) {slug : String} {tag : Tag}
    (h : s.findTagAt? slug = some tag) : s.tags.row? tag.id = some tag :=
  (Table.row?_eq_some_iff hs.tag_ids).2 ⟨List.mem_of_find?_eq_some h, rfl⟩

theorem found_look_ok {α : Type} {f : Store → Option α} {a : α} :
    outcome (do found (← look f)) s = (.ok a, t) ↔ f s = some a ∧ t = s := by
  rw [(look_reads f).then_ok]
  simp [look, found_ok]

section
variable [Libraries]

theorem createCategory_ok (context : Context) {caller : Caller} {input : CategoryInput}
    {category : Category} (hfresh : s.categories.has context.freshId = false)
    (h : (createCategory context caller input).outcome s = (.ok category, t)) :
    Writing.Done ⟨.category, context.freshId, input.slug⟩ s t := by
  unfold createCategory requireAdmin at h
  rw [(ensure_reads _ _).then_ok] at h
  obtain ⟨_, -, h⟩ := h
  rw [(ensure_reads _ _).then_ok] at h
  obtain ⟨_, -, h⟩ := h
  obtain ⟨hprepare, hsave⟩ := Editor.saveCategory_ok.1 (outcome_adapt_ok.1 h)
  refine ⟨input.apply true (newCategory context), category, rfl, ?_, hprepare, hsave⟩
  rw [Writing.givenSlug, Store.slug?, Table.row?_eq_none hfresh]
  rfl

theorem updateCategory_ok {caller : Caller} {slug : String} {input : CategoryInput}
    {replace : Bool} {category : Category} (hs : s.Sound)
    (h : (updateCategory caller slug input replace).outcome s = (.ok category, t)) :
    ∃ old, s.findCategoryAt? slug = some old ∧
      Writing.Done ⟨.category, old.id, input.slug⟩ s t := by
  unfold updateCategory requireAdmin readCategory at h
  rw [(ensure_reads _ _).then_ok] at h
  obtain ⟨_, -, h⟩ := h
  rw [(ensure_reads _ _).then_ok] at h
  obtain ⟨_, -, h⟩ := h
  rw [(found_look_reads _).then_ok] at h
  obtain ⟨old, hread, h⟩ := h
  obtain ⟨hprepare, hsave⟩ := Editor.saveCategory_ok.1 (outcome_adapt_ok.1 h)
  have hfind := (found_look_ok.1 hread).1
  refine ⟨old, hfind, input.apply replace old, category, rfl, ?_, hprepare, hsave⟩
  rw [Writing.givenSlug, Store.slug?, row?_of_findCategoryAt? hs hfind]
  rfl

theorem createTag_ok (context : Context) {input : TagInput} {tag : Tag}
    (hfresh : s.tags.has context.freshId = false)
    (h : (createTag context input).outcome s = (.ok tag, t)) :
    Writing.Done ⟨.tag, context.freshId, input.slug⟩ s t := by
  unfold createTag at h
  cases hname : input.name with
  | none =>
      rw [hname] at h
      cases h
  | some name =>
      rw [hname] at h
      obtain ⟨hprepare, hsave⟩ := Editor.saveTag_ok.1 (outcome_adapt_ok.1 h)
      refine ⟨_, tag, rfl, ?_, hprepare, hsave⟩
      rw [Writing.givenSlug, Store.slug?, Table.row?_eq_none hfresh]
      rfl

theorem updateTag_ok {caller : Caller} {slug : String} {input : TagInput} {tag : Tag}
    (hs : s.Sound) (h : (updateTag caller slug input).outcome s = (.ok tag, t)) :
    ∃ old, s.findTagAt? slug = some old ∧ Writing.Done ⟨.tag, old.id, input.slug⟩ s t := by
  unfold updateTag requireAdmin readTag at h
  rw [(ensure_reads _ _).then_ok] at h
  obtain ⟨_, -, h⟩ := h
  rw [(found_look_reads _).then_ok] at h
  obtain ⟨old, hread, h⟩ := h
  obtain ⟨hprepare, hsave⟩ := Editor.saveTag_ok.1 (outcome_adapt_ok.1 h)
  have hfind := (found_look_ok.1 hread).1
  refine ⟨old, hfind, input.apply old, tag, rfl, ?_, hprepare, hsave⟩
  rw [Writing.givenSlug, Store.slug?, row?_of_findTagAt? hs hfind]
  rfl

theorem createCategory_atomic (context : Context) (caller : Caller) (input : CategoryInput) :
    (createCategory context caller input).Atomic :=
  Atomic.after_reads (ensure_reads _ _) fun _ => Atomic.after_reads (ensure_reads _ _) fun _ =>
    (Editor.saveCategory_atomic _).adapt _

theorem updateCategory_atomic (caller : Caller) (slug : String) (input : CategoryInput)
    (replace : Bool) : (updateCategory caller slug input replace).Atomic :=
  Atomic.after_reads (ensure_reads _ _) fun _ => Atomic.after_reads (ensure_reads _ _) fun _ =>
    Atomic.after_reads (found_look_reads _) fun _ => (Editor.saveCategory_atomic _).adapt _

theorem createTag_atomic (context : Context) (input : TagInput) :
    (createTag context input).Atomic := by
  unfold createTag
  split
  · exact atomic_throw _
  · exact (Editor.saveTag_atomic _).adapt _

theorem updateTag_atomic (caller : Caller) (slug : String) (input : TagInput) :
    (updateTag caller slug input).Atomic :=
  Atomic.after_reads (ensure_reads _ _) fun _ => Atomic.after_reads (found_look_reads _) fun _ =>
    (Editor.saveTag_atomic _).adapt _

end

/-- What a request has written when it succeeded. -/
def Wrote [Libraries] (x : Exchange) (w : Writing) (s t : Store) : Prop :=
  w.Done s t ∧ (w.kind = .post → w.KeepsDate x.now s t)

theorem created_ok {α : Type} {toJson : α → Json} {action : Action α}
    (h : (created toJson action).outcome s = (.ok response, t)) :
    response.IsSuccess ∧ ∃ a, action.outcome s = (.ok a, t) ∧ response = .json 201 (toJson a) := by
  obtain ⟨a, haction, rfl⟩ := outcome_then_pure_ok.1 h
  exact ⟨by simp [Response.IsSuccess, Response.json], a, haction, rfl⟩

theorem shown_ok {α : Type} {toJson : α → Json} {action : Action α}
    (h : (shown toJson action).outcome s = (.ok response, t)) :
    response.IsSuccess ∧ ∃ a, action.outcome s = (.ok a, t) ∧ response = .json 200 (toJson a) := by
  obtain ⟨a, haction, rfl⟩ := outcome_then_pure_ok.1 h
  exact ⟨by simp [Response.IsSuccess, Response.json], a, haction, rfl⟩

/-- A creation that comes to a result has read who calls and the input, and then created. -/
theorem creating_ok {α β : Type} [Input β] {toJson : α → Json} {action : Caller → β → Action α}
    (h : outcome (do
      let caller ← x.caller
      let input ← x.input β
      created toJson (action caller input)) s = (.ok response, t)) :
    response.IsSuccess ∧ ∃ caller input a, x.input? β = some input ∧
      (action caller input).outcome s = (.ok a, t) ∧ response = .json 201 (toJson a) := by
  obtain ⟨caller, -, h⟩ := x.caller_reads.then_ok.1 h
  obtain ⟨input, hinput, h⟩ := input_then_ok.1 h
  obtain ⟨hsuccess, a, haction, hresponse⟩ := created_ok h
  exact ⟨hsuccess, caller, input, a, hinput, haction, hresponse⟩

/-- A change that comes to a result has read who calls, what is named and the input, and then
changed. -/
theorem changing_ok {α β : Type} [Input β] {name raw : String} {toJson : α → Json}
    {action : Caller → String → β → Action α}
    (h : outcome (do
      let caller ← x.caller
      let slug ← parameter name raw
      let input ← x.input β
      shown toJson (action caller slug input)) s = (.ok response, t)) :
    response.IsSuccess ∧ ∃ caller slug input a, parameter? raw = some slug ∧
      x.input? β = some input ∧ (action caller slug input).outcome s = (.ok a, t) ∧
        response = .json 200 (toJson a) := by
  obtain ⟨caller, -, h⟩ := x.caller_reads.then_ok.1 h
  obtain ⟨slug, hraw, h⟩ := parameter_then_ok.1 h
  obtain ⟨input, hinput, h⟩ := input_then_ok.1 h
  obtain ⟨hsuccess, a, haction, hresponse⟩ := shown_ok h
  exact ⟨hsuccess, caller, slug, input, a, hraw, hinput, haction, hresponse⟩

theorem writing?_at {kind : Kind} {raw slug : String} {α β : Type} (find : String → Option α)
    {id : α → String} {input? : Option β} {stated : β → Option String} {a : α} {b : β}
    (hraw : parameter? raw = some slug) (hfind : find slug = some a) (hinput : input? = some b) :
    (do
      let found ← find (← parameter? raw)
      let input ← input?
      some (Writing.mk kind (id found) (stated input))) =
      some ⟨kind, id a, stated b⟩ := by
  rw [hraw, hinput]
  show (find slug).bind _ = _
  rw [hfind]
  rfl

/-- An operation that writes and comes to a result has written what the request names. -/
theorem perform_write_ok [Libraries] {kind : Kind} (hs : s.Sound)
    (hfresh : op.creates = true → s.Unused x.freshId) (hx : x.operation? = some op)
    (hop : op.writes? = some kind)
    (h : (x.perform op).outcome s = (.ok response, t)) :
    response.IsSuccess ∧ ∃ w, x.writing? s = some w ∧ x.Wrote w s t := by
  cases op with
  | createPost =>
      obtain ⟨hsuccess, caller, input, view, hinput, h, -⟩ := creating_ok h
      obtain ⟨hdone, hdate⟩ := createPost_ok x.context (hfresh rfl).posts h
      exact ⟨hsuccess, _, by rw [writing?, hx, hinput]; rfl, hdone, fun _ => hdate⟩
  | replacePost raw =>
      obtain ⟨hsuccess, caller, slug, input, view, hraw, hinput, h, -⟩ := changing_ok h
      obtain ⟨_, -, h⟩ := (ensure_reads _ _).then_ok.1 h
      obtain ⟨row, hfind, hdone, hdate⟩ := updatePost_ok hs h
      refine ⟨hsuccess, _, ?_, hdone, fun _ => hdate⟩
      rw [writing?, hx]
      exact writing?_at s.findPostRowAt? hraw hfind hinput
  | updatePost raw =>
      obtain ⟨hsuccess, caller, slug, input, view, hraw, hinput, h, -⟩ := changing_ok h
      obtain ⟨row, hfind, hdone, hdate⟩ := updatePost_ok hs h
      refine ⟨hsuccess, _, ?_, hdone, fun _ => hdate⟩
      rw [writing?, hx]
      exact writing?_at s.findPostRowAt? hraw hfind hinput
  | createCategory =>
      obtain ⟨hsuccess, caller, input, category, hinput, h, -⟩ := creating_ok h
      have hdone := createCategory_ok x.context (hfresh rfl).categories h
      exact ⟨hsuccess, _, by rw [writing?, hx, hinput]; rfl, hdone, nofun⟩
  | replaceCategory raw =>
      obtain ⟨hsuccess, caller, slug, input, category, hraw, hinput, h, -⟩ := changing_ok h
      obtain ⟨old, hfind, hdone⟩ := updateCategory_ok hs h
      refine ⟨hsuccess, _, ?_, hdone, nofun⟩
      rw [writing?, hx]
      exact writing?_at s.findCategoryAt? hraw hfind hinput
  | updateCategory raw =>
      obtain ⟨hsuccess, caller, slug, input, category, hraw, hinput, h, -⟩ := changing_ok h
      obtain ⟨old, hfind, hdone⟩ := updateCategory_ok hs h
      refine ⟨hsuccess, _, ?_, hdone, nofun⟩
      rw [writing?, hx]
      exact writing?_at s.findCategoryAt? hraw hfind hinput
  | createTag =>
      obtain ⟨hsuccess, caller, input, tag, hinput, h, -⟩ := creating_ok h
      have hdone := createTag_ok x.context (hfresh rfl).tags h
      exact ⟨hsuccess, _, by rw [writing?, hx, hinput]; rfl, hdone, nofun⟩
  | updateTag raw =>
      obtain ⟨hsuccess, caller, slug, input, tag, hraw, hinput, h, -⟩ := changing_ok h
      obtain ⟨old, hfind, hdone⟩ := updateTag_ok hs h
      refine ⟨hsuccess, _, ?_, hdone, nofun⟩
      rw [writing?, hx]
      exact writing?_at s.findTagAt? hraw hfind hinput
  | _ => cases hop

theorem perform_write_error [Libraries] {kind : Kind} {e : ApiError} (hs : s.Sound)
    (hfresh : op.creates = true → s.Unused x.freshId) (hop : op.writes? = some kind)
    (h : (x.perform op).outcome s = (.error e, t)) : t = s := by
  have hcaller : ∀ {f : Caller → Action Response},
      (∀ caller t, (f caller).outcome s = (.error e, t) → t = s) →
        outcome (x.caller >>= f) s = (.error e, t) → t = s :=
    fun hf h => x.caller_reads.then_error h fun caller _ => hf caller t
  have hparameter : ∀ {raw : String} {f : String → Action Response} (t : Store),
      (∀ slug t, (f slug).outcome s = (.error e, t) → t = s) →
        outcome (parameter "slug" raw >>= f) s = (.error e, t) → t = s :=
    fun t hf h => (parameter_reads _ _).then_error h fun slug _ => hf slug t
  have hinput : ∀ {α : Type} [Input α] {f : α → Action Response} (t : Store),
      (∀ input t, (f input).outcome s = (.error e, t) → t = s) →
        outcome (x.input α >>= f) s = (.error e, t) → t = s :=
    fun t hf h => (x.input_reads _).then_error h fun input _ => hf input t
  cases op with
  | createPost =>
      refine hcaller (fun _ t => hinput t fun _ t h => ?_) h
      exact createPost_error hs (hfresh rfl).posts (outcome_then_pure_error h)
  | replacePost raw =>
      refine hcaller (fun _ t => hparameter t fun _ t => hinput t fun _ t h => ?_) h
      exact (ensure_reads _ _).then_error (outcome_then_pure_error h) fun _ _ =>
        updatePost_error hs
  | updatePost raw =>
      refine hcaller (fun _ t => hparameter t fun _ t => hinput t fun _ t h => ?_) h
      exact updatePost_error hs (outcome_then_pure_error h)
  | createCategory =>
      refine hcaller (fun _ t => hinput t fun _ t h => ?_) h
      exact createCategory_atomic _ _ _ _ _ _ (outcome_then_pure_error h)
  | replaceCategory raw =>
      refine hcaller (fun _ t => hparameter t fun _ t => hinput t fun _ t h => ?_) h
      exact updateCategory_atomic _ _ _ _ _ _ _ (outcome_then_pure_error h)
  | updateCategory raw =>
      refine hcaller (fun _ t => hparameter t fun _ t => hinput t fun _ t h => ?_) h
      exact updateCategory_atomic _ _ _ _ _ _ _ (outcome_then_pure_error h)
  | createTag =>
      refine hcaller (fun _ t => hinput t fun _ t h => ?_) h
      exact createTag_atomic _ _ _ _ _ (outcome_then_pure_error h)
  | updateTag raw =>
      refine hcaller (fun _ t => hparameter t fun _ t => hinput t fun _ t h => ?_) h
      exact updateTag_atomic _ _ _ _ _ _ (outcome_then_pure_error h)
  | _ => cases hop

/-- What an operation that does not write what has a slug leaves alone. -/
theorem writing?_eq_none (h : ∀ op, x.operation? = some op → op.writes? = none) :
    x.writing? s = none := by
  unfold writing?
  cases hx : x.operation? with
  | none => rfl
  | some op =>
      have hop := h op hx
      cases op with
      | createPost | replacePost | updatePost => cases hop
      | createCategory | replaceCategory | updateCategory => cases hop
      | createTag | updateTag => cases hop
      | _ => rfl

theorem after_unwritten [Libraries] (hs : s.Sound)
    (h : ∀ op, x.operation? = some op → op.writes? = none) :
    s.Unwritten (x.after s) := by
  refine Call.unwritten (.request x) hs ?_
  rintro change ⟨op, hx, hallows⟩
  have hmap := h op hx
  rw [← hallows.kind] at hmap
  exact Option.map_eq_none_iff.1 hmap

/-- A request has written what it names, or it has written nothing that has a slug. -/
theorem write_cases [Libraries] (hs : s.Sound) (hfresh : s.Unused x.freshId) :
    (∃ w, (x.writing? s = some w ∧ x.Succeeds s) ∧ x.Wrote w s (x.after s)) ∨
      (∀ w, ¬ (x.writing? s = some w ∧ x.Succeeds s)) ∧ s.Unwritten (x.after s) := by
  by_cases hwrites : ∃ op kind, x.operation? = some op ∧ op.writes? = some kind
  · obtain ⟨op, kind, hx, hop⟩ := hwrites
    by_cases hsuccess : x.Succeeds s
    · obtain ⟨-, response, hperform, -⟩ := (succeeds_iff hx).1 hsuccess
      obtain ⟨-, w, hw, hwrote⟩ := perform_write_ok hs (fun _ => hfresh) hx hop hperform
      exact .inl ⟨w, ⟨hw, hsuccess⟩, hwrote⟩
    · have hsame : x.after s = s :=
        after_eq_of_not_succeeds hx (fun e t => perform_write_error hs (fun _ => hfresh) hop)
          (fun response t h => (perform_write_ok hs (fun _ => hfresh) hx hop h).1) hsuccess
      refine .inr ⟨fun w h => hsuccess h.2, ?_⟩
      rw [hsame]
      exact s.unwritten_refl
  · have hnone : ∀ op, x.operation? = some op → op.writes? = none := by
      intro op hx
      cases hop : op.writes? with
      | none => rfl
      | some kind => exact absurd ⟨op, kind, hx, hop⟩ hwrites
    refine .inr ⟨fun w h => ?_, after_unwritten hs hnone⟩
    rw [writing?_eq_none hnone] at h
    cases h.1

end Exchange
end Api
end Gazette
