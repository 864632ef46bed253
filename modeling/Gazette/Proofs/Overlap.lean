import Gazette.Proofs.Atomicity
import Gazette.Proofs.Sparing

/-!
# Overlapping edits

An edit that was under way when another one was made. Some of its look-ups may have been taken
before the other edit and some after it. Either the edit would have planned the same if it had come
later, or what it loaded is what the other edit is about.
-/
namespace Gazette
open StoreProcedure

namespace Store
variable {s t : Store} {slug : String}

theorem findCategoryAt?_of_row {category : Category} (ht : t.Sound)
    (h : s.findCategoryAt? slug = some category)
    (hrow : t.categories.row? category.id = some category) :
    t.findCategoryAt? slug = some category := by
  obtain rfl : category.slug = slug := by simpa using List.find?_some h
  exact Table.find?_of_mem ht.category_slugs (Table.mem_of_row? hrow)

/-- Where a post is stored with the same tags, the same is found by its slug. -/
theorem findPostAt?_congr {post : Post} (hs : s.Sound) (ht : t.Sound)
    (h : s.findPostAt? slug = .ok (some post))
    (hrow : t.posts.row? post.id = s.posts.row? post.id)
    (htags : t.tagsOf post.id = s.tagsOf post.id) : t.findPostAt? slug = .ok (some post) := by
  obtain ⟨row, hold, rfl, hpost⟩ := Api.row?_of_findPostAt? hs h
  obtain hid : row.id = post.id := Table.key_of_row? hold
  have hkept : t.posts.row? row.id = some row := by rw [hid, hrow, hold]
  refine findPostAt?_of_mem ht (Table.mem_of_row? hkept) ?_
  rw [postOf_congr (hid ▸ htags), hpost]

end Store

namespace Change.Spares
variable {change : Change} {s t : Store} {slug : String}

theorem findCategoryAt? (h : change.Spares s t) (hs : s.Sound) (ht : t.Sound)
    {category : Category} (hload : s.findCategoryAt? slug = some category)
    (hne : change.subject? ≠ some (.category category.id)) :
    t.findCategoryAt? slug = some category := by
  refine Store.findCategoryAt?_of_row ht hload ?_
  rw [h.category _ hne]
  exact Api.Exchange.row?_of_findCategoryAt? hs hload

/-- A post that the change is not about is found as before, but for a category that is deleted. -/
theorem findPostAt? (h : change.Spares s t) (hs : s.Sound) (ht : t.Sound) {post : Post}
    (hload : s.findPostAt? slug = .ok (some post))
    (hne : change.subject? ≠ some (.post post.id)) :
    t.findPostAt? slug = .ok (some post) ∨ ∃ key, change = .deleteCategory key ∧
      post.categoryId = some key ∧
        t.findPostAt? slug = .ok (some { post with categoryId := none }) := by
  rcases h.post _ hne with hrow | ⟨key, row, hchange, hold, hcategory, hrow⟩
  · exact .inl (Store.findPostAt?_congr hs ht hload hrow (h.tagsOf _ hne))
  · obtain ⟨_, hrow', rfl, hpost⟩ := Api.row?_of_findPostAt? hs hload
    obtain rfl := Option.some.inj (hold.symm.trans hrow')
    obtain ⟨hviews, hlikes, hall⟩ := Store.postOf_ok.1 hpost
    have hid : row.id = post.id := Table.key_of_row? hold
    refine .inr ⟨key, hchange, ?_, ?_⟩
    · rw [hall]
      exact hcategory
    · have hleft : t.postOf { row with categoryId := none } =
          .ok { post with categoryId := none } := by
        refine Store.postOf_ok.2 ⟨hviews, hlikes, ?_⟩
        rw [hall]
        have htags := h.tagsOf _ hne
        simp only [hid, htags]
      have hmoved : t.posts.row? ({ row with categoryId := none } : PostRow).id =
          some { row with categoryId := none } := (congrArg t.posts.row? hid).trans hrow
      have hfind := Store.findPostAt?_of_mem ht (Table.mem_of_row? hmoved) hleft
      exact hfind

theorem readable_iff (h : change.Spares s t) {id : String} (hhas : t.posts.has id = true) :
    (∃ post, t.findPost? id = .ok (some post)) ↔ ∃ post, s.findPost? id = .ok (some post) := by
  obtain ⟨row, hrow⟩ := Table.exists_row?_of_has hhas
  obtain ⟨old, hold, hviews, hlikes⟩ := h.counters id row hrow
  rw [Store.exists_findPost?, Store.exists_findPost?, hrow, hold]
  simp only [Option.some.injEq, exists_eq_left']
  constructor
  · rintro ⟨hv, hl⟩
    exact ⟨hviews ▸ hv, hlikes ▸ hl⟩
  · rintro ⟨hv, hl⟩
    exact ⟨hviews.symm ▸ hv, hlikes.symm ▸ hl⟩

end Change.Spares

namespace Api
variable {S S' : Store → Prop} {s t : Store}

theorem sees_settleStatus {replace : Bool} {old status : PostStatus} {given : Option String}
    (h : (settleStatus replace old given).Sees S status) :
    (settleStatus replace old given).Sees S' status := by
  unfold settleStatus at *
  cases given with
  | none => exact sees_pure.2 (sees_pure.1 h)
  | some word =>
      dsimp only at *
      cases hword : PostStatus.ofWord? (Text.trim word) with
      | some read =>
          rw [hword] at h
          exact sees_pure.2 (sees_pure.1 h)
      | none =>
          rw [hword] at h
          exact absurd h sees_throw

theorem sees_settleCategory {replace : Bool} {old given categoryId : Option String} :
    (settleCategory replace old given).Sees S categoryId ↔
      match given with
      | none => categoryId = settle replace none old none
      | some slug =>
        if Text.trim slug = "" then categoryId = none
        else ∃ category, (∃ s, S s ∧ s.findCategoryAt? (Text.trim slug) = some category) ∧
          categoryId = some category.id := by
  unfold settleCategory
  cases given with
  | none => exact sees_pure.trans eq_comm
  | some slug =>
      dsimp only
      split
      · exact sees_pure.trans eq_comm
      · rw [sees_bind]
        constructor
        · rintro ⟨found, hfind, hsees⟩
          obtain ⟨s, hs, hfind⟩ := sees_look.1 hfind
          cases found with
          | none => exact absurd hsees sees_throw
          | some category => exact ⟨category, ⟨s, hs, hfind⟩, (sees_pure.1 hsees).symm⟩
        · rintro ⟨category, ⟨s, hs, hfind⟩, rfl⟩
          exact ⟨some category, sees_look.2 ⟨s, hs, hfind⟩, sees_pure.2 rfl⟩

theorem sees_settleTags {replace : Bool} {old tagIds : List String}
    {given : Option (List String)} (htags : ∀ s, S s → s.tags = t.tags)
    (h : (settleTags replace old given).Sees S tagIds) :
    (settleTags replace old given).Sees (· = t) tagIds := by
  cases given with
  | none => exact sees_pure.2 (sees_pure.1 h)
  | some slugs =>
      show (findTags slugs).Sees (· = t) tagIds
      replace h : (findTags slugs).Sees S tagIds := h
      induction slugs generalizing tagIds with
      | nil => exact sees_pure.2 (sees_pure.1 h)
      | cons slug slugs ih =>
          obtain ⟨found, hfind, h⟩ := sees_bind.1 h
          obtain ⟨s, hs, rfl⟩ := sees_look.1 hfind
          refine sees_bind.2 ⟨s.findTagAt? (Text.trim slug), sees_look.2 ⟨t, rfl, ?_⟩, ?_⟩
          · unfold Store.findTagAt?
            rw [htags s hs]
          · cases hfound : s.findTagAt? (Text.trim slug) with
            | none =>
                rw [hfound] at h
                exact absurd h sees_throw
            | some tag =>
                rw [hfound] at h
                obtain ⟨rest, hrest, h⟩ := sees_bind.1 h
                exact sees_bind.2 ⟨rest, ih hrest, sees_pure.2 (sees_pure.1 h)⟩

/-- How an edit turns out that was planned while another change was made. -/
inductive Task.Meets [Libraries] (now : Timestamp) (id : String) (admin : Bool) (task : Task)
    (change : Change) (s u : Store) (c : Change) (t : Store) : Prop
  /-- It is what would be planned after the other change. -/
  | afresh (later : task.Plans now (· = u) id admin c)
  /-- What it is about went with the other change, and there is nothing left to do. -/
  | void (same : t = u) (nothing : ∀ id admin c, ¬ task.Plans now (· = u) id admin c)
  /-- It saves something as it was loaded, and the other change was about the same. -/
  | overwrites (earlier : task.Plans now (· = s) id admin c) (save : c.IsSave)
      (subject : c.subject? = change.subject?)
  /-- It deletes a category that the other change has saved. -/
  | deletesCategory {category : Category} (earlier : task.Plans now (· = s) id admin c)
      (first : change = .saveCategory category) (second : c = .deleteCategory category.id)
  /-- It deletes a post that the other change has saved. -/
  | deletesPost {post : Post} (earlier : task.Plans now (· = s) id admin c)
      (first : change = .savePost post) (second : c = .deletePost post.id)
  /-- It puts a post into a category, as that was found before the other change saved it. -/
  | categorises {category : Category} {post : Post} (earlier : task.Plans now (· = s) id admin c)
      (first : change = .saveCategory category) (second : c = .savePost post)

section Meets
variable {change c : Change} {u : Store} {now : Timestamp} {id : String} {admin : Bool}

theorem subject_category {key : String} (h : change.subject? = some (.category key)) :
    (∃ category, change = .saveCategory category ∧ category.id = key) ∨
      change = .deleteCategory key := by
  cases change <;> cases h
  · exact .inl ⟨_, rfl, rfl⟩
  · exact .inr rfl

theorem subject_post {key : String} (h : change.subject? = some (.post key)) :
    (∃ post, change = .savePost post ∧ post.id = key) ∨ change = .deletePost key := by
  cases change <;> cases h
  · exact .inl ⟨_, rfl, rfl⟩
  · exact .inr rfl

/-- Where the category that was found by a slug is gone, no other is found by it. -/
theorem findCategoryAt?_gone (hs : s.Sound) (hu : u.Sound) (hspares : change.Spares s u)
    {slug : String} {old category : Category} (hload : s.findCategoryAt? slug = some old)
    (hsubject : change.subject? = some (.category old.id))
    (hgone : u.categories.has old.id = false) : u.findCategoryAt? slug ≠ some category := by
  intro hfind
  have hmem : category ∈ u.categories := List.mem_of_find?_eq_some hfind
  have hid : category.id ≠ old.id := Table.has_eq_false_iff.1 hgone category hmem
  have hrow : s.categories.row? category.id = some category := by
    rw [← hspares.category category.id fun h => hid (by simpa [hsubject] using h.symm)]
    exact Exchange.row?_of_findCategoryAt? hu hfind
  have hslug : category.slug = old.slug :=
    (show category.slug = slug by simpa using List.find?_some hfind).trans
      (show old.slug = slug by simpa using List.find?_some hload).symm
  exact hid <| congrArg Category.id <| List.inj_on_of_nodup_map hs.category_slugs
    (Table.mem_of_row? hrow) (List.mem_of_find?_eq_some hload) hslug

theorem deleteCategory_of_absent {key : String} (hs : s.Sound)
    (habsent : s.categories.has key = false) : (s.deleteCategory key).2 = s := by
  rw [(Store.deletesExactly hs).category]
  exact Store.without_of_absent hs (Bool.eq_false_iff.1 habsent)

/-- Where the post that was found by a slug is gone, no other is found by it. -/
theorem findPostAt?_gone (hs : s.Sound) (hu : u.Sound) (hspares : change.Spares s u)
    {slug : String} {old post : Post} (hload : s.findPostAt? slug = .ok (some old))
    (hsubject : change.subject? = some (.post old.id))
    (hgone : u.posts.has old.id = false) : u.findPostAt? slug ≠ .ok (some post) := by
  intro hfind
  obtain ⟨row, hrow, hslug, -⟩ := row?_of_findPostAt? hu hfind
  obtain ⟨oldRow, holdRow, holdSlug, -⟩ := row?_of_findPostAt? hs hload
  have hid : post.id ≠ old.id := by
    intro hid
    rw [hid, Table.row?_eq_none hgone] at hrow
    cases hrow
  have hsame : s.posts.row? post.id = some row := by
    rcases hspares.post post.id fun h => hid (by simpa [hsubject] using h.symm) with
      hsame | ⟨key, -, hchange, -⟩
    · rw [← hsame, hrow]
    · rw [hchange] at hsubject
      cases hsubject
  have hrows : row = oldRow := List.inj_on_of_nodup_map hs.post_slugs (Table.mem_of_row? hsame)
    (Table.mem_of_row? holdRow) (hslug.trans holdSlug.symm)
  subst hrows
  exact hid ((Table.key_of_row? hsame).symm.trans (Table.key_of_row? holdRow))

variable {t : Store}

theorem meets_settings [Libraries] {input : SettingsInput} (hspares : change.Spares s u)
    (hplan : (Task.settings input).Plans now (fun v => v = s ∨ v = u) id admin c) :
    (Task.settings input).Meets now id admin change s u c t := by
  obtain ⟨allowed, rfl | rfl, rules⟩ := hplan
  · rename_i v
    by_cases hsubject : change.subject? = some .settings
    · exact .overwrites (.settings allowed rfl rules) trivial hsubject.symm
    · have hload : u.loadSettings = v.loadSettings := by
        unfold Store.loadSettings
        rw [hspares.settings hsubject]
      rw [← hload] at rules ⊢
      exact .afresh (.settings allowed rfl rules)
  · exact .afresh (.settings allowed rfl rules)

theorem meets_profile [Libraries] {input : ProfileChange} (hspares : change.Spares s u)
    (hplan : (Task.profile input).Plans now (fun v => v = s ∨ v = u) id admin c) :
    (Task.profile input).Meets now id admin change s u c t := by
  cases hplan with
  | profile seen load rules =>
      rcases seen with rfl | rfl
      · by_cases hsubject : change.subject? = some (.user id)
        · refine .overwrites (.profile rfl load rules) trivial (Eq.trans ?_ hsubject.symm)
          exact congrArg (fun key => some (Subject.user key)) (Table.key_of_row? load)
        · exact .afresh (.profile rfl ((hspares.user id hsubject).trans load) rules)
      · exact .afresh (.profile rfl load rules)

theorem meets_category [Libraries] {slug : String} {input : CategoryInput} {replace : Bool}
    (hs : s.Sound) (hu : u.Sound) (hspares : change.Spares s u)
    (hplan : (Task.category slug input replace).Plans now (fun v => v = s ∨ v = u) id admin c) :
    (Task.category slug input replace).Meets now id admin change s u c t := by
  cases hplan with
  | @category _ _ _ _ old saved allowed named seen load rules =>
      rcases seen with rfl | rfl
      · by_cases hsubject : change.subject? = some (.category old.id)
        · refine .overwrites (.category allowed named rfl load rules) trivial
            (Eq.trans ?_ hsubject.symm)
          rw [(Category.prepare_ok.1 rules).2.2]
          rfl
        · exact .afresh
            (.category allowed named rfl (hspares.findCategoryAt? hs hu load hsubject) rules)
      · exact .afresh (.category allowed named rfl load rules)

theorem meets_deleteCategory [Libraries] {slug : String} (hs : s.Sound) (hu : u.Sound)
    (hspares : change.Spares s u) (happly : change.apply s = .ok u)
    (hplan : (Task.deleteCategory slug).Plans now (fun v => v = s ∨ v = u) id admin c)
    (ht : c.apply u = .ok t) : (Task.deleteCategory slug).Meets now id admin change s u c t := by
  cases hplan with
  | @deleteCategory _ _ old allowed seen load =>
      rcases seen with rfl | rfl
      · rename_i v
        by_cases hsubject : change.subject? = some (.category old.id)
        · rcases subject_category hsubject with ⟨category, rfl, hid⟩ | rfl
          · exact .deletesCategory (.deleteCategory allowed rfl load) rfl (congrArg _ hid.symm)
          · cases happly
            have hgone := Table.has_remove_self old.id v.categories
            cases ht
            refine .void (deleteCategory_of_absent hu hgone) fun id admin c h => ?_
            cases h with
            | deleteCategory _ seen later =>
                subst seen
                exact findCategoryAt?_gone hs hu hspares load hsubject hgone later
        · exact .afresh
            (.deleteCategory allowed rfl (hspares.findCategoryAt? hs hu load hsubject))
      · exact .afresh (.deleteCategory allowed rfl load)

theorem deleting_of_absent {α : Type} [Keyed α] {key : String} {table : Table α}
    {remaining : Except StoreError Store} (habsent : table.has key = false)
    (h : (Store.deleting key table s remaining).map (·.2) = .ok t) : t = s := by
  unfold Store.deleting at h
  rw [habsent] at h
  exact (Except.ok.inj h).symm

theorem meets_deletePost [Libraries] {slug : String} (hs : s.Sound) (hu : u.Sound)
    (hspares : change.Spares s u) (happly : change.apply s = .ok u)
    (hplan : (Task.deletePost slug).Plans now (fun v => v = s ∨ v = u) id admin c)
    (ht : c.apply u = .ok t) : (Task.deletePost slug).Meets now id admin change s u c t := by
  cases hplan with
  | @deletePost _ v old seen load allowed =>
      rcases seen with rfl | rfl
      · by_cases hsubject : change.subject? = some (.post old.id)
        · rcases subject_post hsubject with ⟨post, rfl, hid⟩ | rfl
          · exact .deletesPost (.deletePost rfl load allowed) rfl (congrArg _ hid.symm)
          · have hgone := Change.has_deletePost hs happly
            refine .void (deleting_of_absent hgone ht) fun id admin c h => ?_
            cases h with
            | deletePost seen later =>
                subst seen
                exact findPostAt?_gone hs hu hspares load hsubject hgone later
        · rcases hspares.findPostAt? hs hu load hsubject with hfind | ⟨key, -, -, hfind⟩
          · exact .afresh (.deletePost rfl hfind allowed)
          · have later : (Task.deletePost slug).Plans now (· = u) id admin
                (.deletePost { old with categoryId := none }.id) := .deletePost rfl hfind allowed
            exact .afresh later
      · exact .afresh (.deletePost rfl load allowed)

theorem meets_deleteComment [Libraries] {key : String} (hspares : change.Spares s u)
    (hplan : (Task.deleteComment key).Plans now (fun v => v = s ∨ v = u) id admin c)
    (ht : c.apply u = .ok t) : (Task.deleteComment key).Meets now id admin change s u c t := by
  cases hplan with
  | @deleteComment _ v old seen load allowed =>
      obtain rfl : old.id = key := Table.key_of_row? load
      rcases seen with rfl | rfl
      · cases hrow : u.comments.row? old.id with
        | some row =>
            obtain ⟨_, hold, -, hauthor⟩ := hspares.place old.id row hrow
            obtain rfl := Option.some.inj (load.symm.trans hold)
            have later : (Task.deleteComment old.id).Plans now (· = u) id admin
                (.deleteComment row.id) := .deleteComment rfl hrow (hauthor ▸ allowed)
            have hid : row.id = old.id := Table.key_of_row? hrow
            exact .afresh (hid ▸ later)
        | none =>
            have hgone : u.comments.has old.id = false := by
              rw [Table.has_eq_isSome, hrow]
              rfl
            refine .void (deleting_of_absent hgone ht) fun id admin c h => ?_
            cases h with
            | deleteComment seen later =>
                subst seen
                rw [hrow] at later
                cases later
      · exact .afresh (.deleteComment rfl load allowed)

/-- What a comment refers to was there before the other change if it was seen at all. -/
theorem refers_before {comment : Comment} (hspares : change.Spares s u)
    (post : ∃ post v, (v = s ∨ v = u) ∧ v.findPost? comment.postId = .ok (some post))
    (parent : ∀ key ∈ comment.parentId, ∃ parent, parent.postId = comment.postId ∧
      ∃ v, (v = s ∨ v = u) ∧ v.comments.row? key = some parent) :
    (∃ post v, v = s ∧ v.findPost? comment.postId = .ok (some post)) ∧
      ∀ key ∈ comment.parentId, ∃ parent, parent.postId = comment.postId ∧
        ∃ v, v = s ∧ v.comments.row? key = some parent := by
  constructor
  · obtain ⟨post, v, rfl | rfl, hfind⟩ := post
    · exact ⟨post, v, rfl, hfind⟩
    · obtain ⟨row, hrow, -⟩ := Store.exists_findPost?.1 ⟨post, hfind⟩
      obtain ⟨before, hbefore⟩ := (hspares.readable_iff (Table.has_of_row? hrow)).1 ⟨post, hfind⟩
      exact ⟨before, s, rfl, hbefore⟩
  · intro key hkey
    obtain ⟨row, hpost, v, rfl | rfl, hrow⟩ := parent key hkey
    · exact ⟨row, hpost, v, rfl, hrow⟩
    · obtain ⟨before, hbefore, hplace, -⟩ := hspares.place key row hrow
      exact ⟨before, hplace.symm.trans hpost, s, rfl, hbefore⟩

theorem refers_after {comment : Comment} (hu : u.Sound) (hspares : change.Spares s u)
    (hstored : comment ∈ u.comments)
    (post : ∃ post v, (v = s ∨ v = u) ∧ v.findPost? comment.postId = .ok (some post))
    (parent : ∀ key ∈ comment.parentId, ∃ parent, parent.postId = comment.postId ∧
      ∃ v, (v = s ∨ v = u) ∧ v.comments.row? key = some parent) :
    (∃ post v, v = u ∧ v.findPost? comment.postId = .ok (some post)) ∧
      ∀ key ∈ comment.parentId, ∃ parent, parent.postId = comment.postId ∧
        ∃ v, v = u ∧ v.comments.row? key = some parent := by
  obtain ⟨⟨before, v, rfl, hbefore⟩, hparents⟩ := refers_before hspares post parent
  constructor
  · have hhas := hu.comment_post comment hstored
    obtain ⟨after, hafter⟩ := (hspares.readable_iff hhas).2 ⟨before, hbefore⟩
    exact ⟨after, u, rfl, hafter⟩
  · intro key hkey
    obtain ⟨row, hrow⟩ := Table.exists_row?_of_has (hu.comment_parent comment hstored key hkey)
    obtain ⟨old, hold, hplace, -⟩ := hspares.place key row hrow
    obtain ⟨parent, hpost, _, rfl, hparent⟩ := hparents key hkey
    obtain rfl := Option.some.inj (hparent.symm.trans hold)
    exact ⟨row, hplace.trans hpost, u, rfl, hrow⟩

theorem stored_of_saveComment {old given : Comment} (hspares : change.Spares s u)
    (hold : s.comments.row? old.id = some old)
    (hsubject : change.subject? ≠ some (.comment old.id))
    (hplace : given.id = old.id ∧ given.postId = old.postId ∧ given.parentId = old.parentId)
    (hsave : u.saveComment given = .ok t) : u.comments.row? old.id = some old := by
  obtain ⟨hid, hpost, hparent⟩ := hplace
  rcases hspares.comment old.id hsubject with hsame | ⟨hnone, hreason⟩
  · exact hsame.trans hold
  · exfalso
    rcases (Store.saveComment_ok.1 hsave).1 with hhas | ⟨hposts, -, hparents⟩
    · rw [hid, Table.has_eq_isSome, hnone] at hhas
      cases hhas
    · rcases hreason old hold with hgone | ⟨key, hkey, hne, hgone⟩
      · rw [hpost, hgone] at hposts
        cases hposts
      · rcases hparents key (hparent ▸ hkey) with rfl | hhas
        · exact hne hid
        · rw [hgone] at hhas
          cases hhas

theorem meets_comment [Libraries] {key : String} {input : CommentChange} (hu : u.Sound)
    (hspares : change.Spares s u)
    (hplan : (Task.comment key input).Plans now (fun v => v = s ∨ v = u) id admin c)
    (ht : c.apply u = .ok t) : (Task.comment key input).Meets now id admin change s u c t := by
  cases hplan with
  | @comment _ _ v old given seen load allowed approval settled rules post parent =>
      obtain rfl : old.id = key := Table.key_of_row? load
      have hlater : u.comments.row? old.id = some old → (Task.comment old.id input).Plans now
          (· = u) id admin (.saveComment { given with updatedAt := now }) := by
        intro hold
        have hpost : given.postId = old.postId := by rw [settled]
        have hparent : given.parentId = old.parentId := by rw [settled]
        rw [hpost, hparent] at parent
        rw [hpost] at post
        obtain ⟨post, parent⟩ := refers_after hu hspares (Table.mem_of_row? hold) post parent
        refine .comment rfl hold allowed approval settled rules ?_ ?_
        · rw [hpost]
          exact post
        · rw [hpost, hparent]
          exact parent
      rcases seen with rfl | rfl
      · by_cases hsubject : change.subject? = some (.comment old.id)
        · obtain ⟨post, parent⟩ := refers_before hspares post parent
          refine .overwrites (.comment rfl load allowed approval settled rules post parent) trivial
            (Eq.trans ?_ hsubject.symm)
          rw [settled]
          rfl
        · refine .afresh (hlater (stored_of_saveComment hspares load hsubject ?_ ht))
          rw [settled]
          exact ⟨rfl, rfl, rfl⟩
      · exact .afresh (hlater load)

/-- The category that a post was put into is what the post would be put into after the other change,
or that has saved it. -/
theorem settleCategory_later {replace : Bool} {old new given categoryId : Option String}
    (hs : s.Sound) (hu : u.Sound) (hspares : change.Spares s u) (happly : change.apply s = .ok u)
    (hold : new = old ∨ ∃ key, change = .deleteCategory key ∧ old = some key ∧ new = none)
    (hsees : (settleCategory replace old given).Sees (fun v => v = s ∨ v = u) categoryId)
    (hstored : ∀ key ∈ categoryId, u.categories.has key = true) :
    (settleCategory replace new given).Sees (· = u) categoryId ∨
      (∃ category, change = .saveCategory category) ∧
        (settleCategory replace old given).Sees (· = s) categoryId := by
  rw [sees_settleCategory] at hsees
  simp only [sees_settleCategory]
  cases given with
  | none =>
      left
      rcases hold with rfl | ⟨key, rfl, rfl, rfl⟩
      · exact hsees
      · cases replace with
        | true => exact hsees
        | false =>
            -- The post would keep the category that was deleted.
            have hhas := hstored key (hsees ▸ rfl)
            rw [Change.has_deleteCategory happly] at hhas
            cases hhas
  | some slug =>
      dsimp only at *
      by_cases hblank : Text.trim slug = ""
      · rw [if_pos hblank] at hsees
        rw [if_pos hblank]
        exact .inl hsees
      · rw [if_neg hblank] at hsees
        simp only [if_neg hblank]
        obtain ⟨category, ⟨v, rfl | rfl, hfind⟩, rfl⟩ := hsees
        · by_cases hsubject : change.subject? = some (.category category.id)
          · rcases subject_category hsubject with ⟨saved, rfl, -⟩ | rfl
            · exact .inr ⟨⟨saved, rfl⟩, category, ⟨v, rfl, hfind⟩, rfl⟩
            · have hhas := hstored category.id rfl
              rw [Change.has_deleteCategory happly] at hhas
              cases hhas
          · exact .inl ⟨category, ⟨u, rfl, hspares.findCategoryAt? hs hu hfind hsubject⟩, rfl⟩
        · exact .inl ⟨category, ⟨v, rfl, hfind⟩, rfl⟩

/-- What a post needs to be saved in one store. Its category may have been deleted since it was
loaded. -/
theorem Task.Plans.of_post [Libraries] {v : Store} {slug : String} {input : PostInput}
    {replace : Bool} {old given saved : Post} {status : PostStatus}
    {key? categoryId : Option String} {tagIds : List String}
    (load : v.findPostAt? slug = .ok (some { old with categoryId := key? }))
    (allowed : (admin || id == old.authorId) = true)
    (hstatus : (settleStatus replace old.status input.status).Sees S status)
    (hcategory : (settleCategory replace key? input.category).Sees (· = v) categoryId)
    (htags : (settleTags replace old.tagIds input.tags).Sees S tagIds)
    (hsame : ∀ s, S s → s.tags = v.tags)
    (hgiven : given = input.apply replace status categoryId tagIds old)
    (rules : given.prepare now = .ok saved)
    (category : ∀ key ∈ saved.categoryId, v.categories.has key = true)
    (tags : ∀ key ∈ saved.tagIds, v.tags.has key = true) :
    (Task.post slug input replace).Plans now (· = v) id admin (.savePost saved) := by
  refine .post rfl load allowed (sees_applyInput.2 ?_) rules
    (fun key hkey => ⟨v, rfl, category key hkey⟩) fun key hkey => ⟨v, rfl, tags key hkey⟩
  exact ⟨status, categoryId, tagIds, sees_settleStatus hstatus, hcategory,
    sees_settleTags hsame htags, hgiven⟩

/-- The category that a post was put into, where the other change is not about a category. -/
theorem settleCategory_before {replace : Bool} {old given categoryId : Option String}
    (hs : s.Sound) (hu : u.Sound) (hspares : change.Spares s u)
    (hnone : ∀ key, change.subject? ≠ some (.category key))
    (hsees : (settleCategory replace old given).Sees (fun v => v = s ∨ v = u) categoryId) :
    (settleCategory replace old given).Sees (· = s) categoryId := by
  rw [sees_settleCategory] at *
  cases given with
  | none => exact hsees
  | some slug =>
      dsimp only at *
      split
      · rename_i hblank
        rw [if_pos hblank] at hsees
        exact hsees
      · rename_i hblank
        rw [if_neg hblank] at hsees
        obtain ⟨category, ⟨v, rfl | rfl, hfind⟩, hcategory⟩ := hsees
        · exact ⟨category, ⟨v, rfl, hfind⟩, hcategory⟩
        · refine ⟨category, ⟨s, rfl, Store.findCategoryAt?_of_row hs hfind ?_⟩, hcategory⟩
          rw [← hspares.category _ (hnone _)]
          exact Exchange.row?_of_findCategoryAt? hu hfind

/-- A post that was loaded is found after the other change, unless this is about the post and came
later. -/
theorem findPostAt?_later {v : Store} {slug : String} {old : Post} (hs : s.Sound) (hu : u.Sound)
    (hspares : change.Spares s u) (seen : v = s ∨ v = u)
    (load : v.findPostAt? slug = .ok (some old))
    (hsubject : ¬ (v = s ∧ change.subject? = some (.post old.id))) :
    ∃ key?, (key? = old.categoryId ∨
        ∃ key, change = .deleteCategory key ∧ old.categoryId = some key ∧ key? = none) ∧
      u.findPostAt? slug = .ok (some { old with categoryId := key? }) ∧
        ∀ category, change = .saveCategory category → s.findPostAt? slug = .ok (some old) := by
  rcases seen with rfl | rfl
  · have hne : change.subject? ≠ some (.post old.id) := fun h => hsubject ⟨rfl, h⟩
    rcases hspares.findPostAt? hs hu load hne with hfind | ⟨key, hchange, hcategory, hfind⟩
    · exact ⟨_, .inl rfl, hfind, fun _ _ => load⟩
    · exact ⟨none, .inr ⟨key, hchange, hcategory, rfl⟩, hfind, fun _ _ => load⟩
  · refine ⟨_, .inl rfl, load, ?_⟩
    rintro category rfl
    have hne : (Change.saveCategory category).subject? ≠ some (.post old.id) := nofun
    rcases hspares.post old.id hne with hrow | ⟨_, _, hchange, -⟩
    · exact Store.findPostAt?_congr hu hs load hrow.symm (hspares.tagsOf _ hne).symm
    · cases hchange

theorem meets_post [Libraries] {slug : String} {input : PostInput} {replace : Bool} (hs : s.Sound)
    (hu : u.Sound) (hspares : change.Spares s u) (happly : change.apply s = .ok u)
    (hplan : (Task.post slug input replace).Plans now (fun v => v = s ∨ v = u) id admin c)
    (ht : c.apply u = .ok t) :
    (Task.post slug input replace).Meets now id admin change s u c t := by
  cases hplan with
  | @post _ _ _ v old given saved seen load allowed settled rules category tags =>
      obtain ⟨status, categoryId, tagIds, hstatus, hcategory, htags, hgiven⟩ :=
        sees_applyInput.1 settled
      obtain ⟨-, -, hcategories, htagIds, -⟩ := Store.savePost_ok.1 ht
      have hsaved : saved.id = old.id := id_of_prepare settled rules
      have hcategoryId : saved.categoryId = categoryId := by
        rw [(Post.prepare_ok.1 rules).2.2, hgiven]
        rfl
      have hsame : ∀ v, v = s ∨ v = u → v.tags = s.tags := by
        rintro v (rfl | rfl)
        · rfl
        · exact hspares.tags
      have hearlier : s.findPostAt? slug = .ok (some old) →
          (settleCategory replace old.categoryId input.category).Sees (· = s) categoryId →
            (Task.post slug input replace).Plans now (· = s) id admin (.savePost saved) :=
        fun load hcategory => .of_post load allowed hstatus hcategory htags hsame hgiven rules
          (fun key hkey => hspares.has_category key (hcategories key hkey))
          (fun key hkey => hspares.tags ▸ htagIds key hkey)
      have hlater : ∀ key?, u.findPostAt? slug = .ok (some { old with categoryId := key? }) →
          (settleCategory replace key? input.category).Sees (· = u) categoryId →
            (Task.post slug input replace).Plans now (· = u) id admin (.savePost saved) :=
        fun key? load hcategory => .of_post load allowed hstatus hcategory htags
          (fun v hv => (hsame v hv).trans hspares.tags.symm) hgiven rules hcategories htagIds
      by_cases hsubject : v = s ∧ change.subject? = some (.post old.id)
      · obtain ⟨rfl, hsubject⟩ := hsubject
        have hnone : ∀ key, change.subject? ≠ some (.category key) := by simp [hsubject]
        refine .overwrites (hearlier load (settleCategory_before hs hu hspares hnone hcategory))
          trivial (Eq.trans ?_ hsubject.symm)
        rw [← hsaved]
        rfl
      · obtain ⟨key?, hkey, hload, hbefore⟩ := findPostAt?_later hs hu hspares seen load hsubject
        rcases settleCategory_later hs hu hspares happly hkey hcategory
          (hcategoryId ▸ hcategories) with hfind | ⟨⟨category, hchange⟩, hfind⟩
        · exact .afresh (hlater key? hload hfind)
        · exact .categorises (hearlier (hbefore category hchange) hfind) hchange rfl

theorem meets [Libraries] {task : Task} (hs : s.Sound) (hspares : change.Spares s u)
    (happly : change.apply s = .ok u)
    (hplan : task.Plans now (fun v => v = s ∨ v = u) id admin c) (ht : c.apply u = .ok t) :
    task.Meets now id admin change s u c t := by
  have hu : u.Sound := change.keeps_sound s u happly hs
  cases task with
  | settings input => exact meets_settings hspares hplan
  | profile input => exact meets_profile hspares hplan
  | category slug input replace => exact meets_category hs hu hspares hplan
  | deleteCategory slug => exact meets_deleteCategory hs hu hspares happly hplan ht
  | post slug input replace => exact meets_post hs hu hspares happly hplan ht
  | deletePost slug => exact meets_deletePost hs hu hspares happly hplan ht
  | comment key input => exact meets_comment hu hspares hplan ht
  | deleteComment key => exact meets_deleteComment hspares hplan ht

end Meets

end Api
end Gazette
