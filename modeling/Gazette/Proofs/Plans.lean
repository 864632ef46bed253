import Gazette.Proofs.Access
import Gazette.Proofs.Interleaving

/-!
# Plans

What a request plans that edits what is stored: the change that it is going to make, given the
stores that its look-ups may see. Every such request asks who calls, loads one thing, looks up what
the edited thing refers to, and makes one change. A thing that is saved is the loaded one with some
fields changed, so it goes by what the load saw.
-/
namespace Gazette
open StoreProcedure

namespace Editor
variable {α : Type} {S : Store → Prop} {a : α}

@[simp] theorem sees_obey {r : Except ContentError α} : Sees S (obey r) a ↔ r = .ok a := by
  show r.mapError EditorError.content = .ok a ↔ _
  cases r <;> simp

@[simp] theorem sees_requireKnown {missing : ContentError} {find : Store → Option α} :
    Sees S (requireKnown missing find) a ↔ ∃ s, S s ∧ find s = some a := by
  rw [requireKnown, sees_bind]
  constructor
  · rintro ⟨found, hread, hsees⟩
    obtain ⟨s, hs, rfl⟩ := sees_read.1 hread
    cases hfind : find s with
    | none =>
        rw [hfind] at hsees
        exact absurd hsees sees_throw
    | some b =>
        rw [hfind, sees_pure] at hsees
        exact ⟨s, hs, hsees ▸ hfind⟩
  · rintro ⟨s, hs, hfind⟩
    exact ⟨some a, sees_read.2 ⟨s, hs, hfind⟩, sees_pure.2 rfl⟩

theorem sees_requireTags {ids : List String} :
    Sees S (requireTags ids) () ↔ ∀ id ∈ ids, ∃ s, S s ∧ s.tags.has id = true := by
  induction ids with
  | nil => simp [requireTags]
  | cons id ids ih =>
      have hhas : (∃ tag, ∃ s, S s ∧ s.tags.row? id = some tag) ↔
          ∃ s, S s ∧ s.tags.has id = true := by
        simp only [Table.has_eq_isSome, Option.isSome_iff_exists]
        constructor
        · rintro ⟨tag, s, hs, h⟩
          exact ⟨s, hs, tag, h⟩
        · rintro ⟨s, hs, tag, h⟩
          exact ⟨tag, s, hs, h⟩
      simp only [requireTags, sees_bind, sees_requireKnown, ih, exists_and_right, hhas,
        List.forall_mem_cons]

theorem edits_obey_then {r : Except ContentError α} {β : Type} {f : α → Edit β}
    {P : α → Procedure.Plan} (hf : ∀ a, (f a).Edits (P a)) :
    Edits (obey r >>= f) fun S c => ∃ a, r = .ok a ∧ P a S c :=
  (StoreProcedure.Edits.after_reads (obey_onlyReads r) hf).congr fun S c => by simp only [sees_obey]

theorem edits_save_then {f : Store → Except StoreError Store} {c : Change}
    (h : c.apply = f) (a : α) : Edits (do save f; pure a : Edit α) fun _ c' => c' = c :=
  (edits_write h).then_reads fun _ => moves_pure a

theorem saveUser_edits (user : User) (now : Timestamp) :
    (saveUser user now).Edits fun _ c =>
      user.trimmed.validate = .ok () ∧ c = .saveUser { user.trimmed with updatedAt := now } :=
  (edits_obey_then fun _ => edits_save_then (c := .saveUser _) rfl _).congr fun S c => by
    rw [Unique.exists_iff]

theorem saveCategory_edits [Libraries] (category : Category) :
    (saveCategory category).Edits fun _ c =>
      ∃ saved, category.prepare = .ok saved ∧ c = .saveCategory saved :=
  edits_obey_then fun saved => edits_save_then (c := .saveCategory saved) rfl saved

theorem saveSettings_edits (settings : SiteSettings) (now : Timestamp) :
    (saveSettings settings now).Edits fun _ c => settings.validate = .ok () ∧
      c = .saveSettings { settings with updatedAt := some now } :=
  (edits_obey_then fun _ => edits_save_then (c := .saveSettings _) rfl _).congr fun S c => by
    rw [Unique.exists_iff]

theorem saveTagged_edits (post : Post) :
    (saveTagged post).Edits fun S c =>
      (∀ id ∈ post.tagIds, ∃ s, S s ∧ s.tags.has id = true) ∧ c = .savePost post :=
  (StoreProcedure.Edits.after_reads (requireTags_onlyReads _) fun _ =>
    edits_save_then (c := .savePost post) rfl post).congr fun S c => by
      rw [exists_and_right]
      refine and_congr_left fun _ => ?_
      rw [← sees_requireTags]
      exact ⟨fun ⟨_, h⟩ => h, fun h => ⟨(), h⟩⟩

theorem savePost_edits [Libraries] (post : Post) (now : Timestamp) :
    (savePost post now).Edits fun S c => ∃ saved, post.prepare now = .ok saved ∧
      (∀ id ∈ saved.categoryId, ∃ s, S s ∧ s.categories.has id = true) ∧
        (∀ id ∈ saved.tagIds, ∃ s, S s ∧ s.tags.has id = true) ∧ c = .savePost saved := by
  rw [savePost_eq]
  refine edits_obey_then fun saved => ?_
  cases saved.categoryId with
  | none => exact (saveTagged_edits saved).congr fun S c => by simp
  | some id =>
      refine (StoreProcedure.Edits.after_reads (requireKnown_onlyReads _ _) fun _ =>
        saveTagged_edits saved).congr fun S c => ?_
      simp only [sees_requireKnown, exists_and_right, Option.mem_some_iff, forall_eq',
        Table.has_eq_isSome, Option.isSome_iff_exists]
      refine and_congr_left fun _ => ?_
      exact ⟨fun ⟨tag, s, hs, h⟩ => ⟨s, hs, tag, h⟩, fun ⟨s, hs, tag, h⟩ => ⟨tag, s, hs, h⟩⟩

theorem saveReply_edits (comment : Comment) (now : Timestamp) :
    (saveReply comment now).Edits fun S c =>
      (∀ id ∈ comment.parentId, ∃ parent, parent.postId = comment.postId ∧
        ∃ s, S s ∧ s.comments.row? id = some parent) ∧
          c = .saveComment { comment with updatedAt := now } := by
  have hsave := edits_save_then (c := .saveComment { comment with updatedAt := now }) rfl
    { comment with updatedAt := now }
  unfold saveReply
  split
  · rename_i hparent
    exact hsave.congr fun S c => by simp only [hparent, Option.not_mem_none, false_imp_iff,
      implies_true, true_and]
  · rename_i id hparent
    have hrest : ∀ parent : Comment,
        Edits (if parent.postId ≠ comment.postId then throw (.content .parentOnOtherPost) else do
          save (Store.saveComment { comment with updatedAt := now })
          return { comment with updatedAt := now }) fun _ c =>
            parent.postId = comment.postId ∧
              c = .saveComment { comment with updatedAt := now } := by
      intro parent
      split
      · rename_i hpost
        exact (edits_throw _).congr fun S c => by simp only [hpost, false_and]
      · rename_i hpost
        rw [not_not] at hpost
        exact hsave.congr fun S c => by simp only [hpost, true_and]
    refine (StoreProcedure.Edits.after_reads (requireKnown_onlyReads _ _) hrest).congr fun S c => ?_
    simp only [sees_requireKnown, hparent, Option.mem_some_iff, forall_eq']
    constructor
    · rintro ⟨parent, hsees, hpost, hc⟩
      exact ⟨⟨parent, hpost, hsees⟩, hc⟩
    · rintro ⟨⟨parent, hpost, hsees⟩, hc⟩
      exact ⟨parent, hsees, hpost, hc⟩

/-- A comment is saved if its post is known and, if it is a reply, its parent on the same post. -/
theorem saveComment_edits (comment : Comment) (now : Timestamp) :
    (saveComment comment now).Edits fun S c =>
      require "content" comment.content = .ok () ∧
        (∃ post s, S s ∧ s.findPost? comment.postId = .ok (some post)) ∧
          (∀ id ∈ comment.parentId, ∃ parent, parent.postId = comment.postId ∧
            ∃ s, S s ∧ s.comments.row? id = some parent) ∧
              c = .saveComment { comment with updatedAt := now } := by
  rw [saveComment_eq]
  refine (edits_obey_then fun _ => StoreProcedure.Edits.after_reads (Q := fun found S c =>
    (∃ post, found = some post) ∧ (∀ id ∈ comment.parentId, ∃ parent,
      parent.postId = comment.postId ∧ ∃ s, S s ∧ s.comments.row? id = some parent) ∧
        c = .saveComment { comment with updatedAt := now })
    (moves_readOr (fun _ => rfl) _ _) ?_).congr fun S c => ?_
  · rintro (_ | post)
    · exact (edits_throw _).congr fun S c => by simp
    · exact (saveReply_edits comment now).congr fun S c => by simp
  simp only [sees_readOr]
  constructor
  · rintro ⟨_, hrules, _, ⟨s, hs, hfind⟩, ⟨post, rfl⟩, hparent, hc⟩
    exact ⟨hrules, ⟨post, s, hs, hfind⟩, hparent, hc⟩
  · rintro ⟨hrules, ⟨post, s, hs, hfind⟩, hparent, hc⟩
    exact ⟨(), hrules, some post, ⟨s, hs, hfind⟩, ⟨post, rfl⟩, hparent, hc⟩

end Editor

namespace Api
open Api.Action Http
variable {α β : Type} {S : Store → Prop} {a : α}

@[simp] theorem sees_look {f : Store → α} : Sees S (look f) a ↔ ∃ s, S s ∧ f s = a :=
  sees_read

@[simp] theorem sees_lookOr {f : Store → Except StoreError α} :
    Sees S (lookOr f) a ↔ ∃ s, S s ∧ f s = .ok a :=
  sees_readOr

@[simp] theorem sees_found {o : Option α} : Sees S (found o) a ↔ o = some a := by
  cases o with
  | none => exact ⟨fun h => absurd h sees_throw, nofun⟩
  | some b => exact sees_pure.trans (by rw [Option.some.injEq])

@[simp] theorem sees_ensure {holds : Bool} {e : ApiError} {u : Unit} :
    Sees S (ensure holds e) u ↔ holds = true := by
  cases holds with
  | false => exact ⟨fun h => absurd h sees_throw, nofun⟩
  | true => exact sees_pure.trans (by simp)

theorem edits_ensure_then {holds : Bool} {e : ApiError} {f : Unit → Action β}
    {P : Procedure.Plan} (hf : (f ()).Edits P) :
    Edits (ensure holds e >>= f) fun S c => holds = true ∧ P S c :=
  (Edits.after_reads (ensure_reads holds e) fun _ => hf).congr fun S c => by
    rw [Unique.exists_iff, sees_ensure]

theorem sees_found_look {f : Store → Option α} :
    Sees S (do found (← look f)) a ↔ ∃ s, S s ∧ f s = some a := by
  simp only [sees_bind, sees_look, sees_found]
  exact ⟨fun ⟨_, ⟨s, hs, h⟩, ha⟩ => ⟨s, hs, h.trans ha⟩, fun ⟨s, hs, h⟩ => ⟨_, ⟨s, hs, h⟩, rfl⟩⟩

theorem sees_ownPost {caller : Caller} {slug : String} {post : Post} :
    Sees S (ownPost caller slug) post ↔
      (∃ s, S s ∧ s.findPostAt? slug = .ok (some post)) ∧
        caller.mayModify post.authorId = true := by
  unfold ownPost
  simp only [sees_bind, sees_lookOr, sees_found, sees_ensure, sees_pure, Unique.exists_iff]
  constructor
  · rintro ⟨_, ⟨s, hs, h⟩, _, rfl, hmay, rfl⟩
    exact ⟨⟨s, hs, h⟩, hmay⟩
  · rintro ⟨⟨s, hs, h⟩, hmay⟩
    exact ⟨_, ⟨s, hs, h⟩, post, rfl, hmay, rfl⟩

namespace Exchange
variable {x : Exchange}

theorem sees_parameter {name raw slug : String} :
    Sees S (parameter name raw) slug ↔ parameter? raw = some slug := by
  unfold parameter
  show _ ↔ Text.Utf8.text? (Text.Percent.decode raw.toList) = some slug
  split
  · rename_i h
    rw [h, sees_pure, Option.some.injEq]
  · rename_i h
    exact ⟨fun hs => absurd hs sees_throw, fun hs => nomatch h.symm.trans hs⟩

theorem sees_input [Input α] {input : α} : Sees S (x.input α) input ↔ x.input? α = some input := by
  unfold Exchange.input input?
  simp only [sees_bind, sees_ensure, Unique.exists_iff]
  cases (x.request.visibleHeader? "content-type").any MediaType.isJson with
  | false => simp
  | true =>
      cases Json.readRecord (Input.fields α) (Json.tokenize x.request.body) with
      | ok record => simp [Except.toOption]
      | error e => cases e <;> simp [Except.toOption]

theorem sees_caller? {caller : Option Caller} :
    Sees S x.caller? caller ↔
      (x.request.token? x.site.cookieName = none ∧ caller = none) ∨
        (x.request.token? x.site.cookieName).isSome = true ∧ ∃ s, S s ∧ x.callerIn s = caller := by
  unfold caller? callerIn
  split
  · rename_i h
    simp [h, eq_comm]
  · rename_i token h
    simp [h]

theorem sees_caller {caller : Caller} :
    Sees S x.caller caller ↔ ∃ s, S s ∧ x.callerIn s = some caller := by
  unfold Exchange.caller
  rw [sees_bind]
  constructor
  · rintro ⟨found, hfound, hsees⟩
    cases found with
    | none => exact absurd hsees sees_throw
    | some c =>
        obtain rfl := sees_pure.1 hsees
        exact ((sees_caller?.1 hfound).resolve_left fun h => nomatch h.2).2
  · rintro ⟨s, hs, hcaller⟩
    refine ⟨some caller, sees_caller?.2 (.inr ⟨?_, s, hs, hcaller⟩), sees_pure.2 rfl⟩
    obtain ⟨token, htoken, -⟩ := Option.bind_eq_some_iff.1 hcaller
    rw [htoken]
    rfl

theorem sees_admin :
    (∃ caller, Sees S x.caller? caller ∧ isAdmin caller = true) ↔
      ∃ s, S s ∧ isAdmin (x.callerIn s) = true := by
  constructor
  · rintro ⟨caller, hcaller, hadmin⟩
    rcases sees_caller?.1 hcaller with ⟨-, rfl⟩ | ⟨-, s, hs, rfl⟩
    · cases hadmin
    · exact ⟨s, hs, hadmin⟩
  · rintro ⟨s, hs, hadmin⟩
    refine ⟨x.callerIn s, sees_caller?.2 ?_, hadmin⟩
    cases htoken : x.request.token? x.site.cookieName with
    | none => exact .inl ⟨rfl, by rw [callerIn, htoken]; rfl⟩
    | some token => exact .inr ⟨rfl, s, hs, rfl⟩

theorem sees_guard (hS : ∃ s, S s) : Sees S x.guard () ↔ ∃ s, S s ∧ x.Passes s := by
  unfold guard
  cases hread : x.request.method.isRead with
  | true => simpa [Passes, hread] using hS
  | false =>
      simp only [Bool.not_false, if_true, sees_bind, sees_look, Passes, hread, Bool.false_eq_true,
        false_or]
      constructor
      · rintro ⟨maintenance, ⟨s, hs, hmode⟩, h⟩
        cases maintenance with
        | false => exact ⟨s, hs, .inl hmode⟩
        | true =>
            simp only [if_true, sees_bind, sees_ensure] at h
            obtain ⟨u, hu, hadmin⟩ := sees_admin.1 h
            exact ⟨u, hu, .inr hadmin⟩
      · rintro ⟨s, hs, h⟩
        cases hmode : s.maintenanceMode with
        | false => exact ⟨false, ⟨s, hs, hmode⟩, sees_pure.2 rfl⟩
        | true =>
            have hadmin := h.resolve_left (by simp [hmode])
            refine ⟨true, ⟨s, hs, hmode⟩, ?_⟩
            simp only [if_true, sees_bind, sees_ensure]
            exact sees_admin.2 ⟨s, hs, hadmin⟩

/-- A request is let through, and comes from somebody with an id who may be an admin. -/
structure Admits (x : Exchange) (S : Store → Prop) (id : String) (admin : Bool) : Prop where
  passes : ∃ s, S s ∧ x.Passes s
  caller : ∃ s caller, S s ∧ x.callerIn s = some caller ∧ caller.id = id ∧ caller.isAdmin = admin

theorem admits_iff {id : String} {admin : Bool} :
    x.Admits S id admin ↔
      Sees S x.guard () ∧ ∃ caller, Sees S x.caller caller ∧ caller.id = id ∧
        caller.isAdmin = admin := by
  simp only [sees_caller]
  constructor
  · rintro ⟨hpasses, s, caller, hs, hcaller, hrights⟩
    exact ⟨(sees_guard ⟨s, hs⟩).2 hpasses, caller, ⟨s, hs, hcaller⟩, hrights⟩
  · rintro ⟨hguard, caller, ⟨s, hs, hcaller⟩, hrights⟩
    exact ⟨(sees_guard ⟨s, hs⟩).1 hguard, s, caller, hs, hcaller, hrights⟩

end Exchange

/-- What a request is about to edit, and how. -/
inductive Task
  | settings (input : SettingsInput)
  | profile (input : ProfileChange)
  | category (slug : String) (input : CategoryInput) (replace : Bool)
  | deleteCategory (slug : String)
  | post (slug : String) (input : PostInput) (replace : Bool)
  | deletePost (slug : String)
  | comment (id : String) (input : CommentChange)
  | deleteComment (id : String)

/-- The changes that a task plans for a caller with an id. What it loads and what else it looks up
it may see in different stores. -/
inductive Task.Plans [Libraries] (now : Timestamp) (S : Store → Prop) (id : String) (admin : Bool) :
    Task → Change → Prop
  | settings {input : SettingsInput} {s : Store} (allowed : admin = true) (seen : S s)
      (rules : (input.apply s.loadSettings).validate = .ok ()) :
      Plans now S id admin (.settings input)
        (.saveSettings { input.apply s.loadSettings with updatedAt := some now })
  | profile {input : ProfileChange} {s : Store} {old : User} (seen : S s)
      (load : s.users.row? id = some old) (rules : (input.apply old).trimmed.validate = .ok ()) :
      Plans now S id admin (.profile input)
        (.saveUser { (input.apply old).trimmed with updatedAt := now })
  | category {slug : String} {input : CategoryInput} {replace : Bool} {s : Store}
      {old saved : Category} (allowed : admin = true)
      (named : (!replace || input.name.isSome) = true) (seen : S s)
      (load : s.findCategoryAt? slug = some old)
      (rules : (input.apply replace old).prepare = .ok saved) :
      Plans now S id admin (.category slug input replace) (.saveCategory saved)
  | deleteCategory {slug : String} {s : Store} {old : Category} (allowed : admin = true)
      (seen : S s) (load : s.findCategoryAt? slug = some old) :
      Plans now S id admin (.deleteCategory slug) (.deleteCategory old.id)
  | post {slug : String} {input : PostInput} {replace : Bool} {s : Store} {old given saved : Post}
      (seen : S s) (load : s.findPostAt? slug = .ok (some old))
      (allowed : (admin || id == old.authorId) = true)
      (settled : (applyInput input replace old).Sees S given)
      (rules : given.prepare now = .ok saved)
      (category : ∀ key ∈ saved.categoryId, ∃ s, S s ∧ s.categories.has key = true)
      (tags : ∀ key ∈ saved.tagIds, ∃ s, S s ∧ s.tags.has key = true) :
      Plans now S id admin (.post slug input replace) (.savePost saved)
  | deletePost {slug : String} {s : Store} {old : Post} (seen : S s)
      (load : s.findPostAt? slug = .ok (some old))
      (allowed : (admin || id == old.authorId) = true) :
      Plans now S id admin (.deletePost slug) (.deletePost old.id)
  | comment {key : String} {input : CommentChange} {s : Store} {old given : Comment} (seen : S s)
      (load : s.comments.row? key = some old) (allowed : (admin || id == old.authorId) = true)
      (approval : (input.isApproved.isNone || admin) = true)
      (settled : given = { old with
        content := input.content.getD old.content
        isApproved := input.isApproved.getD old.isApproved })
      (rules : require "content" given.content = .ok ())
      (post : ∃ post s, S s ∧ s.findPost? given.postId = .ok (some post))
      (parent : ∀ key ∈ given.parentId, ∃ parent, parent.postId = given.postId ∧
        ∃ s, S s ∧ s.comments.row? key = some parent) :
      Plans now S id admin (.comment key input) (.saveComment { given with updatedAt := now })
  | deleteComment {key : String} {s : Store} {old : Comment} (seen : S s)
      (load : s.comments.row? key = some old)
      (allowed : (admin || id == old.authorId) = true) :
      Plans now S id admin (.deleteComment key) (.deleteComment old.id)

section Actions
variable (context : Context) (caller : Caller)

section
variable [Libraries]

theorem updateSettings_edits (input : SettingsInput) :
    (updateSettings context caller input).Edits fun S =>
      Task.Plans context.now S caller.id caller.isAdmin (.settings input) := by
  refine (edits_ensure_then (Edits.after_reads (look_reads _) fun settings =>
    (Editor.saveSettings_edits (input.apply settings) context.now).adapt _)).congr fun S c => ?_
  simp only [sees_look]
  constructor
  · rintro ⟨allowed, _, ⟨s, seen, rfl⟩, rules, rfl⟩
    exact .settings allowed seen rules
  · rintro ⟨allowed, seen, rules⟩
    exact ⟨allowed, _, ⟨_, seen, rfl⟩, rules, rfl⟩

theorem updateProfile_edits (input : ProfileChange) :
    (updateProfile context caller input).Edits fun S =>
      Task.Plans context.now S caller.id caller.isAdmin (.profile input) := by
  refine (Edits.after_reads (found_look_reads _) fun user =>
    (Editor.saveUser_edits (input.apply user) context.now).adapt _).congr fun S c => ?_
  simp only [sees_found_look]
  constructor
  · rintro ⟨old, ⟨s, seen, load⟩, rules, rfl⟩
    exact .profile seen load rules
  · intro h
    cases h with
    | profile seen load rules => exact ⟨_, ⟨_, seen, load⟩, rules, rfl⟩

theorem updateCategory_edits (slug : String) (input : CategoryInput) (replace : Bool) :
    (updateCategory caller slug input replace).Edits fun S =>
      Task.Plans context.now S caller.id caller.isAdmin (.category slug input replace) := by
  refine (edits_ensure_then <| edits_ensure_then <| Edits.after_reads (found_look_reads _)
    fun category => (Editor.saveCategory_edits (input.apply replace category)).adapt _).congr
      fun S c => ?_
  simp only [sees_found_look]
  constructor
  · rintro ⟨allowed, named, old, ⟨s, seen, load⟩, saved, rules, rfl⟩
    exact .category allowed named seen load rules
  · intro h
    cases h with
    | category allowed named seen load rules =>
        exact ⟨allowed, named, _, ⟨_, seen, load⟩, _, rules, rfl⟩

theorem deleteCategory_edits (slug : String) :
    (deleteCategory caller slug).Edits fun S =>
      Task.Plans context.now S caller.id caller.isAdmin (.deleteCategory slug) := by
  refine (edits_ensure_then <| Edits.after_reads (found_look_reads _) fun category =>
    (edits_change (c := .deleteCategory category.id) fun s => rfl).then_reads
      fun _ => moves_pure ()).congr fun S c => ?_
  simp only [sees_found_look]
  constructor
  · rintro ⟨allowed, old, ⟨s, seen, load⟩, rfl⟩
    exact .deleteCategory allowed seen load
  · intro h
    cases h with
    | deleteCategory allowed seen load => exact ⟨allowed, _, ⟨_, seen, load⟩, rfl⟩

theorem updatePost_edits (slug : String) (input : PostInput) (replace : Bool) :
    (updatePost context caller slug input replace).Edits fun S =>
      Task.Plans context.now S caller.id caller.isAdmin (.post slug input replace) := by
  refine (Edits.after_reads (ownPost_reads _ _) fun old => Edits.after_reads
    (applyInput_reads _ _ _) fun given => Edits.then_reads
      ((Editor.savePost_edits given context.now).adapt _) fun _ => found_lookOr_reads _).congr
        fun S c => ?_
  simp only [sees_ownPost]
  constructor
  · rintro ⟨old, ⟨⟨s, seen, load⟩, allowed⟩, given, settled, saved, rules, category, tags, rfl⟩
    exact .post seen load allowed settled rules category tags
  · intro h
    cases h with
    | post seen load allowed settled rules category tags =>
        exact ⟨_, ⟨⟨_, seen, load⟩, allowed⟩, _, settled, _, rules, category, tags, rfl⟩

theorem replacePost_edits (slug : String) (input : PostInput) :
    (replacePost context caller slug input).Edits fun S c => input.title.isSome = true ∧
      Task.Plans context.now S caller.id caller.isAdmin (.post slug input true) c :=
  edits_ensure_then (updatePost_edits context caller slug input true)

theorem deletePost_edits (slug : String) :
    (deletePost caller slug).Edits fun S =>
      Task.Plans context.now S caller.id caller.isAdmin (.deletePost slug) := by
  refine (Edits.after_reads (ownPost_reads _ _) fun post =>
    (edits_change (c := .deletePost post.id) fun s => rfl).then_reads
      fun _ => moves_pure ()).congr fun S c => ?_
  simp only [sees_ownPost]
  constructor
  · rintro ⟨old, ⟨⟨s, seen, load⟩, allowed⟩, rfl⟩
    exact .deletePost seen load allowed
  · intro h
    cases h with
    | deletePost seen load allowed => exact ⟨_, ⟨⟨_, seen, load⟩, allowed⟩, rfl⟩

theorem updateComment_edits (key : String) (input : CommentChange) :
    (updateComment context caller key input).Edits fun S =>
      Task.Plans context.now S caller.id caller.isAdmin (.comment key input) := by
  refine (Edits.after_reads (found_look_reads _) fun old => edits_ensure_then <|
    edits_ensure_then <| (Editor.saveComment_edits _ context.now).adapt _).congr fun S c => ?_
  simp only [sees_found_look]
  constructor
  · rintro ⟨old, ⟨s, seen, load⟩, allowed, approval, rules, post, parent, rfl⟩
    exact .comment seen load allowed approval rfl rules post parent
  · intro h
    cases h with
    | comment seen load allowed approval settled rules post parent =>
        subst settled
        exact ⟨_, ⟨_, seen, load⟩, allowed, approval, rules, post, parent, rfl⟩

theorem deleteComment_edits (key : String) :
    (deleteComment caller key).Edits fun S =>
      Task.Plans context.now S caller.id caller.isAdmin (.deleteComment key) := by
  refine (Edits.after_reads (found_look_reads _) fun comment => edits_ensure_then <|
    (edits_change (c := .deleteComment comment.id) fun s => rfl).then_reads
      fun _ => moves_pure ()).congr fun S c => ?_
  simp only [sees_found_look]
  constructor
  · rintro ⟨old, ⟨s, seen, load⟩, allowed, rfl⟩
    exact .deleteComment seen load allowed
  · intro h
    cases h with
    | deleteComment seen load allowed => exact ⟨_, ⟨_, seen, load⟩, allowed, rfl⟩

end

end Actions

/-- Whether an operation edits what is stored: it changes something that it has to load first. -/
def Operation.edits : Operation → Bool
  | .replacePost _ | .updatePost _ | .deletePost _ => true
  | .replaceCategory _ | .updateCategory _ | .deleteCategory _ => true
  | .updateComment _ | .deleteComment _ => true
  | .updateSelf | .updateSettings => true
  | _ => false

namespace Exchange
variable {x : Exchange} {op : Operation}

def task? (x : Exchange) : Option Task := do
  match ← x.operation? with
  | .replacePost raw =>
    let slug ← parameter? raw
    let input ← x.input? PostInput
    if input.title.isSome then some (.post slug input true) else none
  | .updatePost raw =>
    let slug ← parameter? raw
    let input ← x.input? PostInput
    some (.post slug input false)
  | .deletePost raw => (parameter? raw).map .deletePost
  | .replaceCategory raw =>
    let slug ← parameter? raw
    let input ← x.input? CategoryInput
    some (.category slug input true)
  | .updateCategory raw =>
    let slug ← parameter? raw
    let input ← x.input? CategoryInput
    some (.category slug input false)
  | .deleteCategory raw => (parameter? raw).map .deleteCategory
  | .updateComment raw =>
    let id ← parameter? raw
    let input ← x.input? CommentChange
    some (.comment id input)
  | .deleteComment raw => (parameter? raw).map .deleteComment
  | .updateSelf => (x.input? ProfileChange).map .profile
  | .updateSettings => (x.input? SettingsInput).map .settings
  | _ => none

/-- The changes that a request may make, given the stores that its look-ups may see. -/
def Plans [Libraries] (x : Exchange) (S : Store → Prop) (c : Change) : Prop :=
  ∃ task id admin, x.task? = some task ∧ x.Admits S id admin ∧ task.Plans x.now S id admin c

/-- The same for what follows the guard. -/
def Carries [Libraries] (x : Exchange) (S : Store → Prop) (c : Change) : Prop :=
  ∃ caller, Sees S x.caller caller ∧
    ∃ task, x.task? = some task ∧ task.Plans x.now S caller.id caller.isAdmin c

theorem shown_edits {toJson : α → Json} {action : Action α} {P : Procedure.Plan}
    (h : action.Edits P) : (shown toJson action).Edits P :=
  h.then_reads fun _ => moves_pure _

theorem removed_edits {action : Action Unit} {P : Procedure.Plan} (h : action.Edits P) :
    (removed action).Edits P :=
  h.then_reads fun _ => moves_pure _

theorem parameter_then_edits {name raw : String} {f : String → Action β}
    {P : String → Procedure.Plan} (hf : ∀ slug, (f slug).Edits (P slug)) :
    Edits (parameter name raw >>= f) fun S c => ∃ slug, parameter? raw = some slug ∧ P slug S c :=
  (Edits.after_reads (parameter_reads _ _) hf).congr fun S c => by simp only [sees_parameter]

theorem input_then_edits [Input α] {f : α → Action β} {P : α → Procedure.Plan}
    (hf : ∀ input, (f input).Edits (P input)) :
    Edits (x.input α >>= f) fun S c => ∃ input, x.input? α = some input ∧ P input S c :=
  (Edits.after_reads (x.input_reads α) hf).congr fun S c => by simp only [sees_input]

theorem caller_then_edits [Libraries] {f : Caller → Action β} {P : Caller → Procedure.Plan}
    (hf : ∀ caller, (f caller).Edits (P caller))
    (h : ∀ caller S c, P caller S c ↔
      ∃ task, x.task? = some task ∧ task.Plans x.now S caller.id caller.isAdmin c) :
    Edits (x.caller >>= f) x.Carries :=
  (Edits.after_reads x.caller_reads hf).congr fun S c => by simp only [h, Carries]

@[simp] theorem context_now (x : Exchange) : x.context.now = x.now := rfl

theorem perform_edits [Libraries] (hx : x.operation? = some op) (hop : op.edits = true) :
    (x.perform op).Edits x.Carries := by
  cases op with
  | replacePost raw =>
      refine caller_then_edits (fun caller => parameter_then_edits fun slug =>
        input_then_edits fun input => shown_edits (replacePost_edits _ _ slug input)) ?_
      simp [task?, hx, Option.bind_eq_some_iff, and_assoc]
  | updatePost raw =>
      refine caller_then_edits (fun caller => parameter_then_edits fun slug =>
        input_then_edits fun input => shown_edits (updatePost_edits _ _ slug input false)) ?_
      simp [task?, hx, Option.bind_eq_some_iff]
  | deletePost raw =>
      refine caller_then_edits (fun caller => parameter_then_edits fun slug =>
        removed_edits (deletePost_edits x.context _ slug)) ?_
      simp [task?, hx]
  | replaceCategory raw =>
      refine caller_then_edits (fun caller => parameter_then_edits fun slug =>
        input_then_edits fun input =>
          shown_edits (updateCategory_edits x.context _ slug input true)) ?_
      simp [task?, hx, Option.bind_eq_some_iff]
  | updateCategory raw =>
      refine caller_then_edits (fun caller => parameter_then_edits fun slug =>
        input_then_edits fun input =>
          shown_edits (updateCategory_edits x.context _ slug input false)) ?_
      simp [task?, hx, Option.bind_eq_some_iff]
  | deleteCategory raw =>
      refine caller_then_edits (fun caller => parameter_then_edits fun slug =>
        removed_edits (deleteCategory_edits x.context _ slug)) ?_
      simp [task?, hx]
  | updateComment raw =>
      refine caller_then_edits (fun caller => parameter_then_edits fun id =>
        input_then_edits fun input => shown_edits (updateComment_edits _ _ id input)) ?_
      simp [task?, hx, Option.bind_eq_some_iff]
  | deleteComment raw =>
      refine caller_then_edits (fun caller => parameter_then_edits fun id =>
        removed_edits (deleteComment_edits x.context _ id)) ?_
      simp [task?, hx]
  | updateSelf =>
      refine caller_then_edits (fun caller => input_then_edits fun input =>
        shown_edits (updateProfile_edits _ _ input)) ?_
      simp [task?, hx]
  | updateSettings =>
      refine caller_then_edits (fun caller => input_then_edits fun input =>
        shown_edits (updateSettings_edits _ _ input)) ?_
      simp [task?, hx]
  | _ => cases hop

theorem guarded_edits [Libraries] (hx : x.operation? = some op) (hop : op.edits = true) :
    x.guarded.Edits x.Plans := by
  rw [guarded, unguarded_eq hx]
  refine (Edits.after_reads x.guard_reads fun _ => perform_edits hx hop).congr fun S c => ?_
  simp only [Unique.exists_iff, Plans, Carries, admits_iff]
  constructor
  · rintro ⟨hguard, caller, hcaller, task, htask, hplan⟩
    exact ⟨task, _, _, htask, ⟨hguard, caller, hcaller, rfl, rfl⟩, hplan⟩
  · rintro ⟨task, _, _, htask, ⟨hguard, caller, hcaller, rfl, rfl⟩, hplan⟩
    exact ⟨hguard, caller, hcaller, task, htask, hplan⟩

/-- A request that edits looks things up and makes one change, and is answered with success only if
this is not refused. -/
theorem answer_edits [Libraries] (hx : x.operation? = some op) (hop : op.edits = true) :
    Procedure.Edits Response.IsSuccess x.answer x.Plans := by
  have hsame : ∀ r r' : Response, r'.status = r.status → (r'.IsSuccess ↔ r.IsSuccess) := by
    intro r r' h
    rw [Response.IsSuccess, Response.IsSuccess, h]
  have hsameOrigin : Procedure.Edits Response.IsSuccess x.answerSameOrigin x.Plans := by
    have hrespond : Procedure.Edits Response.IsSuccess (respond x.guarded) x.Plans := by
      refine Procedure.Edits.then_reads (guarded_edits hx hop) (fun r => ?_) fun r hbad => ?_
      · cases r <;> trivial
      · cases r with
        | ok response => exact absurd ⟨response, rfl⟩ hbad
        | error e => exact e.not_isSuccess
    refine Procedure.Edits.then_reads hrespond (fun _ => trivial) fun r hbad => ?_
    exact fun h => hbad ((hsame _ _ (x.complete_status r)).1 h)
  unfold answer
  split
  · exact hsameOrigin
  · rw [if_neg (method_ne_options hx)]
    refine Procedure.Edits.then_reads hsameOrigin (fun _ => trivial) fun r hbad => ?_
    exact fun h => hbad ((hsame _ _ (x.allowOrigin_same r).1).1 h)

end Exchange
end Api
end Gazette
