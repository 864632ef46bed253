import Gazette.Proofs.Overlap

/-!
# Edits in turns

Two requests that edit what is stored, and that take their steps in turns. If both succeed, they
leave what they would leave one after the other, in one of the two orders, unless one of them saves
a thing as it was before the other one saved or deleted it.
-/
namespace Gazette.Api
open StoreProcedure Change Http

namespace Exchange
variable {x y : Exchange} {s t u : Store} {S : Store → Prop} {id : String} {admin : Bool}
variable {change c : Change}

/-- What decides about the rights of a caller. -/
def rightsIn (x : Exchange) (s : Store) : Option (String × Bool) :=
  (x.callerIn s).map fun caller => (caller.id, caller.isAdmin)

theorem rightsIn_eq_some :
    x.rightsIn s = some (id, admin) ↔
      ∃ caller, x.callerIn s = some caller ∧ caller.id = id ∧ caller.isAdmin = admin := by
  simp [rightsIn, Option.map_eq_some_iff]

theorem isAdmin_callerIn (x : Exchange) (s : Store) :
    isAdmin (x.callerIn s) = (x.rightsIn s).any (·.2) := by
  unfold rightsIn
  cases x.callerIn s <;> rfl

theorem rightsIn_spared (h : change.Spares s u) (x : Exchange) : x.rightsIn u = x.rightsIn s := by
  have hrow : ∀ key, (u.users.row? key).map (fun user => (user.id, user.isAdmin)) =
      (s.users.row? key).map fun user => (user.id, user.isAdmin) := by
    intro key
    have hadmin := h.rights key
    cases hnew : u.users.row? key with
    | none =>
        cases hold : s.users.row? key with
        | none => rfl
        | some old => simp [hnew, hold] at hadmin
    | some new =>
        cases hold : s.users.row? key with
        | none => simp [hnew, hold] at hadmin
        | some old =>
            have hid : new.id = old.id :=
              (Table.key_of_row? hnew).trans (Table.key_of_row? hold).symm
            have hsame : new.isAdmin = old.isAdmin := by simpa [hnew, hold] using hadmin
            simp [hid, hsame]
  unfold rightsIn callerIn Store.authenticate?
  rw [h.sessions]
  cases x.request.token? x.site.cookieName with
  | none => rfl
  | some token =>
      cases hfind : s.sessions.find? fun session =>
          session.token == token && Store.isLive x.now session with
      | none => simp [hfind]
      | some session => simpa [hfind, Caller.ofUser, Function.comp_def] using hrow session.userId

/-- A request that was let through by one store and whose caller was read off another comes from
the same caller in each store that knows the caller alike. -/
theorem Admits.at (h : x.Admits S id admin) (hrights : ∀ v, S v → x.rightsIn v = x.rightsIn t)
    (hpasses : x.Passes t) : x.Admits (· = t) id admin := by
  obtain ⟨-, v, caller, hv, hcaller, hid, hadmin⟩ := h
  have hknown : x.rightsIn t = some (id, admin) := by
    rw [← hrights v hv]
    exact rightsIn_eq_some.2 ⟨caller, hcaller, hid, hadmin⟩
  obtain ⟨caller, hcaller, hrights⟩ := rightsIn_eq_some.1 hknown
  exact ⟨⟨t, rfl, hpasses⟩, t, caller, rfl, hcaller, hrights⟩

/-- A request is let through in a store if it was, the mode of the site and who calls being the
same, or if it comes from an admin. -/
theorem Admits.move (h : x.Admits S id admin) (hrights : ∀ v, S v → x.rightsIn v = x.rightsIn t)
    (hmode : (∀ v, S v → v.maintenanceMode = t.maintenanceMode) ∨ admin = true) :
    x.Admits (· = t) id admin := by
  refine h.at hrights ?_
  rcases hmode with hmode | rfl
  · obtain ⟨v, hv, hpasses⟩ := h.passes
    refine hpasses.imp_right (Or.imp (fun h => hmode v hv ▸ h) fun h => ?_)
    rw [isAdmin_callerIn] at h ⊢
    exact hrights v hv ▸ h
  · obtain ⟨v, caller, hv, hcaller, -, hadmin⟩ := h.caller
    refine .inr (.inr ?_)
    rw [isAdmin_callerIn, ← hrights v hv, ← isAdmin_callerIn, hcaller]
    exact hadmin

def Edits (x : Exchange) : Prop :=
  ∃ op, x.operation? = some op ∧ op.edits = true

section
variable [Libraries]

theorem Plans.spares (h : x.Plans (· = s) c) (hs : s.Sound) (happly : c.apply s = .ok t) :
    c.Spares s t := by
  obtain ⟨_, _, _, -, -, hplan⟩ := h
  exact hplan.spares hs happly

theorem after_of_plan (hx : x.Edits) (h : x.Plans (· = s) c) : x.after s = c.after s := by
  obtain ⟨op, hop, hedits⟩ := hx
  exact (answer_edits hop hedits).run_eq h

theorem after_of_no_plan (hx : x.Edits) (h : ∀ c, ¬ x.Plans (· = s) c) : x.after s = s := by
  obtain ⟨op, hop, hedits⟩ := hx
  exact ((answer_edits hop hedits).run_cases s).resolve_right fun ⟨c, hc⟩ => h c hc

theorem after_eq (hx : x.Edits) (h : x.Plans (· = s) c) (happly : c.apply s = .ok t) :
    x.after s = t := by
  rw [after_of_plan hx h, Change.after, happly]
  rfl

/-- A second request saves something as it was before a first one saved or deleted it: it makes the
change that it would make if the first one had never been sent. -/
def Overwrites (y x : Exchange) (s t : Store) : Prop :=
  ∃ first second, x.Plans (· = s) first ∧ first.apply s = .ok (x.after s) ∧
    y.Plans (· = s) second ∧ second.apply (x.after s) = .ok t ∧
      second.IsSave ∧ second.subject? = first.subject?

/-- A category that was saved before it was deleted might as well not have been saved. -/
theorem swap_deleteCategory {category : Category} (hs : s.Sound) (hx : x.Edits) (hy : y.Edits)
    (hfirst : x.Plans (· = s) (.saveCategory category))
    (hu : (Change.saveCategory category).apply s = .ok u)
    (hsecond : y.Plans (· = s) (.deleteCategory category.id))
    (ht : (Change.deleteCategory category.id).apply u = .ok t) : t = x.after (y.after s) := by
  have hdelete : (Change.deleteCategory category.id).apply s = .ok t := by
    obtain ⟨-, rfl⟩ := Store.saveCategory_ok.1 hu
    have hremove : (s.categories.put Store.mergeCategory category).remove category.id =
        s.categories.remove category.id :=
      Table.remove_put Store.mergeCategory_keepsKey category s.categories
    rw [← ht]
    unfold Change.apply Store.deleteCategory
    dsimp only
    rw [hremove]
  rw [after_eq hy hsecond hdelete]
  refine (after_of_no_plan hx fun c hc => ?_).symm
  obtain ⟨task, id, admin, htask, -, hplan⟩ := hfirst
  obtain ⟨_, id', admin', htask', -, hplan'⟩ := hc
  obtain rfl := Option.some.inj (htask.symm.trans htask')
  obtain ⟨_, _, _, -, -, hsecond⟩ := hsecond
  cases hplan with
  | @category _ _ _ _ old _ allowed named seen load rules =>
      subst seen
      cases hplan' with
      | category _ _ seen' later _ =>
          subst seen'
          have hid : old.id = category.id := by rw [(Category.prepare_ok.1 rules).2.2]; rfl
          have hgone := has_deleteCategory hdelete
          exact findCategoryAt?_gone hs (Change.keeps_sound _ _ _ hdelete hs)
            (hsecond.spares hs hdelete) load (congrArg (fun key => some (Subject.category key))
              hid.symm) (hid ▸ hgone) later

end

theorem contains_selectedIds {key : String} (hhas : s.posts.has key = true) (other : String) :
    (s.selectedIds (·.id == key)).contains other = (other == key) := by
  rw [Bool.eq_iff_iff, List.contains_iff_mem, Store.mem_selectedIds_id hhas, beq_iff_eq]

theorem has_savePost {post : Post} (h : s.savePost post = .ok u) :
    u.posts.has post.id = true := by
  obtain ⟨-, -, -, -, rfl⟩ := Store.savePost_ok.1 h
  exact (Table.has_put Store.mergePost_keepsKey).2 (.inr rfl)

/-- What is left without a post does not depend on how the post was saved. -/
theorem withoutPosts_of_saved {post : Post} (hhas : s.posts.has post.id = true)
    (hsave : s.savePost post = .ok u) :
    u.withoutPosts (·.id == post.id) = s.withoutPosts (·.id == post.id) := by
  have hids : ∀ key, (u.selectedIds (·.id == post.id)).contains key =
      (s.selectedIds (·.id == post.id)).contains key := fun key =>
    (contains_selectedIds (has_savePost hsave) key).trans (contains_selectedIds hhas key).symm
  obtain ⟨-, -, -, -, rfl⟩ := Store.savePost_ok.1 hsave
  apply Store.ext
  case posts => exact Table.remove_put Store.mergePost_keepsKey (Store.PostRow.ofPost post) s.posts
  case links =>
    show (s.links.filter _ ++ _).filter (fun link => !_) = s.links.filter fun link => !_
    simp only [hids, contains_selectedIds hhas, List.filter_append, List.filter_filter]
    simp [bne]
  case comments =>
    show Store.unreached _ s.comments = Store.unreached _ s.comments
    congr 1
    funext comment
    exact hids comment.postId
  all_goals rfl

theorem deletePost_of_saved {post : Post} (hs : s.Sound) (hu : u.Sound)
    (hhas : s.posts.has post.id = true) (hsave : s.savePost post = .ok u) :
    u.deletePost post.id = s.deletePost post.id := by
  have hcomments : u.comments = s.comments := by
    obtain ⟨-, -, -, -, rfl⟩ := Store.savePost_ok.1 hsave
    rfl
  unfold Store.deletePost Store.deleting
  rw [Store.removePosts_eq _ 0 hu.replies_later hu.comment_ids,
    Store.removePosts_eq _ 0 hs.replies_later hs.comment_ids,
    Store.selectedIds_id hs hhas, Store.selectedIds_id hu (has_savePost hsave), hcomments,
    withoutPosts_of_saved hhas hsave, hhas, has_savePost hsave, if_pos rfl, if_pos rfl]

/-- A post that was saved before it was deleted might as well not have been saved. -/
theorem swap_deletePost [Libraries] {post : Post} (hs : s.Sound) (hx : x.Edits) (hy : y.Edits)
    (hfirst : x.Plans (· = s) (.savePost post))
    (hu : (Change.savePost post).apply s = .ok u)
    (hsecond : y.Plans (· = s) (.deletePost post.id))
    (ht : (Change.deletePost post.id).apply u = .ok t) : t = x.after (y.after s) := by
  obtain ⟨task, id, admin, htask, -, hplan⟩ := hfirst
  cases hplan with
  | @post slug _ _ _ old _ _ seen load allowed settled rules category tags =>
      obtain rfl := seen.symm
      have hid : post.id = old.id := id_of_prepare settled rules
      obtain ⟨row, hrow, -⟩ := row?_of_findPostAt? hs load
      have hhas : s.posts.has post.id = true := Table.has_of_row? (hid ▸ hrow)
      have hdelete : (Change.deletePost post.id).apply s = .ok t := by
        rw [← ht]
        exact congrArg (Except.map Prod.snd)
          (deletePost_of_saved hs (Change.keeps_sound _ _ _ hu hs) hhas hu).symm
      rw [after_eq hy hsecond hdelete]
      refine (after_of_no_plan hx fun c hc => ?_).symm
      obtain ⟨_, id', admin', htask', -, hplan'⟩ := hc
      obtain rfl := Option.some.inj (htask.symm.trans htask')
      obtain ⟨_, _, _, -, -, hsecond⟩ := hsecond
      cases hplan' with
      | post seen' later =>
          subst seen'
          have hgone := has_deletePost hs hdelete
          exact findPostAt?_gone hs (Change.keeps_sound _ _ _ hdelete hs)
            (hsecond.spares hs hdelete) load (congrArg (fun key => some (Subject.post key)) hid)
            (hid ▸ hgone) later

/-- A category that a post was put into might as well be saved after that. -/
theorem savePost_then_saveCategory {category : Category} {post : Post}
    (hknown : ∀ id, u.categories.has id = true → s.categories.has id = true)
    (hu : s.saveCategory category = .ok u) (ht : u.savePost post = .ok t) :
    ∃ w, s.savePost post = .ok w ∧ w.saveCategory category = .ok t ∧
      w.categories = s.categories ∧ w.settings = s.settings := by
  obtain ⟨hfree, rfl⟩ := Store.saveCategory_ok.1 hu
  obtain ⟨hslug, hauthor, hcategory, htags, rfl⟩ := Store.savePost_ok.1 ht
  exact ⟨_, Store.savePost_ok.2 ⟨hslug, hauthor, fun id hid => hknown id (hcategory id hid), htags,
    rfl⟩, Store.saveCategory_ok.2 ⟨hfree, rfl⟩, rfl, rfl⟩

theorem swap_categorises [Libraries] {category : Category} {post : Post} (hs : s.Sound)
    (hx : x.Edits) (hy : y.Edits) (hfirst : x.Plans (· = s) (.saveCategory category))
    (hu : (Change.saveCategory category).apply s = .ok u)
    (hsecond : y.Plans (· = s) (.savePost post)) (ht : (Change.savePost post).apply u = .ok t) :
    t = x.after (y.after s) := by
  obtain ⟨w, hsave, hagain, hcategories, hsettings⟩ :=
    savePost_then_saveCategory (hfirst.spares hs hu).has_category hu ht
  have hspares := hsecond.spares hs hsave
  rw [after_eq hy hsecond hsave]
  refine (after_eq (c := .saveCategory category) hx ?_ hagain).symm
  obtain ⟨task, id, _, htask, hadmits, hplan⟩ := hfirst
  refine ⟨task, id, _, htask, hadmits.move ?_ (.inl ?_), ?_⟩
  · rintro _ rfl
    exact (rightsIn_spared hspares x).symm
  · rintro _ rfl
    unfold Store.maintenanceMode Store.loadSettings
    rw [hsettings]
  · cases hplan with
    | @category slug _ _ _ old _ allowed named seen load rules =>
        subst seen
        have hload : w.findCategoryAt? slug = some old := by
          unfold Store.findCategoryAt?
          rw [hcategories]
          exact load
        exact .category allowed named rfl hload rules

theorem apply_saveSettings (hsubject : change.subject?.isSome = true)
    (hne : change.subject? ≠ some .settings) (settings : SiteSettings) (s : Store) :
    change.apply (s.saveSettings settings) =
      (change.apply s).map (·.saveSettings settings) := by
  have haside : Store.Aside (·.saveSettings settings) := by constructor <;> intros <;> rfl
  cases change with
  | saveUser user =>
      simp only [apply, Store.saveUser, map_then]
      rfl
  | saveCategory category =>
      simp only [apply, Store.saveCategory, map_then]
      rfl
  | savePost post =>
      simp only [apply, Store.savePost, map_then]
      rfl
  | saveComment comment =>
      simp only [apply, Store.saveComment, map_then]
      rfl
  | deletePost id =>
      simp only [apply, haside.deletePost]
      cases s.deletePost id <;> rfl
  | deleteComment id =>
      simp only [apply, haside.deleteComment]
      cases s.deleteComment id <;> rfl
  | deleteCategory => rfl
  | saveSettings => exact absurd rfl hne
  | _ => cases hsubject

section
variable [Libraries]

/-- What is planned for somebody who is no admin might as well be planned before the settings are
saved. -/
theorem plans_before_settings {task : Task} {now : Timestamp} {settings : SiteSettings}
    (hs : s.Sound) (h : task.Plans now (fun v => v = s ∨ v = s.saveSettings settings) id false c) :
    task.Plans now (· = s) id false c ∧ c.subject?.isSome = true ∧
      c.subject? ≠ some .settings := by
  have hspares : (Change.saveSettings settings).Spares s (s.saveSettings settings) :=
    { spares_self _ s with settings := fun hne => absurd rfl hne }
  cases h with
  | settings allowed | category allowed | deleteCategory allowed => cases allowed
  | profile seen load rules =>
      refine ⟨.profile rfl ?_ rules, rfl, nofun⟩
      rcases seen with rfl | rfl <;> exact load
  | @post slug input replace v old given saved seen load allowed settled rules category tags =>
      obtain ⟨status, categoryId, tagIds, hstatus, hcategory, htags, hgiven⟩ :=
        sees_applyInput.1 settled
      have hnone : ∀ key, (Change.saveSettings settings).subject? ≠ some (.category key) := by
        simp [subject?]
      have hcategory := settleCategory_before hs (hs.saveSettings settings) hspares hnone hcategory
      refine ⟨.of_post ?_ allowed hstatus hcategory htags ?_ hgiven rules ?_ ?_, rfl, nofun⟩
      · rcases seen with rfl | rfl <;> exact load
      · rintro v (rfl | rfl) <;> rfl
      · intro key hkey
        obtain ⟨_, rfl | rfl, hhas⟩ := category key hkey <;> exact hhas
      · intro key hkey
        obtain ⟨_, rfl | rfl, hhas⟩ := tags key hkey <;> exact hhas
  | deletePost seen load allowed =>
      refine ⟨.deletePost rfl ?_ allowed, rfl, nofun⟩
      rcases seen with rfl | rfl <;> exact load
  | comment seen load allowed approval settled rules post parent =>
      obtain ⟨post, parent⟩ := refers_before hspares post parent
      refine ⟨.comment rfl ?_ allowed approval settled rules post parent, rfl, nofun⟩
      rcases seen with rfl | rfl <;> exact load
  | deleteComment seen load allowed =>
      refine ⟨.deleteComment rfl ?_ allowed, rfl, nofun⟩
      rcases seen with rfl | rfl <;> exact load

/-- Somebody who is no admin, and was let in before the settings were saved, might as well have
come before that. -/
theorem swap_settings {settings : SiteSettings} (hs : s.Sound) (hx : x.Edits) (hy : y.Edits)
    (hfirst : x.Plans (· = s) (.saveSettings settings))
    (hu : (Change.saveSettings settings).apply s = .ok u)
    (hsecond : y.Plans (· = s) c) (hsubject : c.subject?.isSome = true)
    (hne : c.subject? ≠ some .settings) (ht : c.apply u = .ok t) : t = x.after (y.after s) := by
  obtain rfl : s.saveSettings settings = u := Except.ok.inj hu
  rw [apply_saveSettings hsubject hne] at ht
  obtain ⟨w, hw, rfl⟩ := of_map_ok ht
  have hspares := hsecond.spares hs hw
  rw [after_eq hy hsecond hw]
  refine (after_eq (c := .saveSettings settings) hx ?_ rfl).symm
  obtain ⟨task, id, _, htask, hadmits, hplan⟩ := hfirst
  cases hplan with
  | @settings input _ allowed seen rules =>
      obtain rfl := seen.symm
      have hload : w.loadSettings = s.loadSettings := by
        unfold Store.loadSettings
        rw [hspares.settings hne]
      refine ⟨_, id, _, htask, hadmits.move ?_ (.inr allowed), ?_⟩
      · rintro _ rfl
        exact (rightsIn_spared hspares x).symm
      · rw [← hload] at rules ⊢
        exact .settings allowed rfl rules

/-- An edit that was under way when another one was made leaves what it would leave if it had come
after the other or before it, unless it overwrites the other. What it planned before the other was
planned for a caller who was let in then, or else the other saved the settings. -/
theorem after_of_meets (hs : s.Sound) (hx : x.Edits) (hy : y.Edits) {first second : Change}
    {task : Task} (hfirst : x.Plans (· = s) first) (hu : first.apply s = .ok u)
    (htask : y.task? = some task) (hlater : y.Admits (· = u) id admin)
    (hearlier : y.Admits (· = s) id admin ∨
      first.subject? = some .settings ∧ second.subject? ≠ some .settings)
    (hmeets : task.Meets y.now id admin first s u second t) (ht : second.apply u = .ok t) :
    t = y.after (x.after s) ∨ t = x.after (y.after s) ∨ y.Overwrites x s t := by
  have hafter : x.after s = u := after_eq hx hfirst hu
  have hplans : task.Plans y.now (· = s) id admin second →
      (first.subject? = some .settings → second.subject? = some .settings) →
        y.Plans (· = s) second := by
    intro hplan hsettings
    rcases hearlier with hadmits | ⟨hsubject, hne⟩
    · exact ⟨task, id, admin, htask, hadmits, hplan⟩
    · exact absurd (hsettings hsubject) hne
  cases hmeets with
  | afresh later =>
      left
      rw [hafter]
      exact (after_eq hy ⟨task, id, admin, htask, hlater, later⟩ ht).symm
  | void same nothing =>
      left
      rw [hafter, same]
      refine (after_of_no_plan hy ?_).symm
      rintro c ⟨task', id', admin', htask', -, hplan⟩
      obtain rfl := Option.some.inj (htask.symm.trans htask')
      exact nothing id' admin' c hplan
  | overwrites earlier save subject =>
      right; right
      rw [← hafter] at hu ht
      exact ⟨first, second, hfirst, hu, hplans earlier subject.trans, ht, save, subject⟩
  | deletesCategory earlier first second =>
      subst first second
      exact .inr (.inl (swap_deleteCategory hs hx hy hfirst hu (hplans earlier nofun) ht))
  | deletesPost earlier first second =>
      subst first second
      exact .inr (.inl (swap_deletePost hs hx hy hfirst hu (hplans earlier nofun) ht))
  | categorises earlier first second =>
      subst first second
      exact .inr (.inl (swap_categorises hs hx hy hfirst hu (hplans earlier nofun) ht))

theorem after_of_leftFirst (hs : s.Sound) (hx : x.Edits) (hy : y.Edits)
    (h : Procedure.Edits.LeftFirst x.Plans y.Plans s t) :
    t = y.after (x.after s) ∨ t = x.after (y.after s) ∨ y.Overwrites x s t := by
  obtain ⟨first, u, second, hfirst, hu, ⟨task, id, admin, htask, hadmits, hplan⟩, ht⟩ := h
  have hspares := hfirst.spares hs hu
  have hmeets := meets hs hspares hu hplan ht
  have hrights : ∀ w, w = s ∨ w = u → ∀ v, v = s ∨ v = u → y.rightsIn v = y.rightsIn w := by
    have hsame := rightsIn_spared hspares y
    rintro w (rfl | rfl) v (rfl | rfl)
    exacts [rfl, hsame, hsame.symm, rfl]
  -- Only when the settings are saved may the guard change its mind about a caller who is no admin.
  by_cases hsettings : first.subject? = some .settings ∧ admin = false
  · obtain ⟨hsubject, rfl⟩ := hsettings
    obtain ⟨settings, rfl⟩ : ∃ settings, first = .saveSettings settings := by
      cases first <;> cases hsubject
      exact ⟨_, rfl⟩
    cases hu
    obtain ⟨hbefore, hsecond, hne⟩ := plans_before_settings hs hplan
    obtain ⟨v, rfl | rfl, hpasses⟩ := hadmits.passes
    · have hadmits := hadmits.at (hrights v (.inl rfl)) hpasses
      exact .inr (.inl (swap_settings hs hx hy hfirst rfl ⟨task, id, false, htask, hadmits, hbefore⟩
        hsecond hne ht))
    · have hadmits := hadmits.at (hrights _ (.inr rfl)) hpasses
      exact after_of_meets hs hx hy hfirst rfl htask hadmits (.inr ⟨rfl, hne⟩) hmeets ht
  · have hfixed : first.subject? ≠ some .settings ∨ admin = true := by
      rw [not_and_or, Bool.not_eq_false] at hsettings
      exact hsettings
    have hmode : first.subject? ≠ some .settings → ∀ w, w = s ∨ w = u → ∀ v, v = s ∨ v = u →
        v.maintenanceMode = w.maintenanceMode := by
      intro hne
      have hsame : u.maintenanceMode = s.maintenanceMode := by
        unfold Store.maintenanceMode Store.loadSettings
        rw [hspares.settings hne]
      rintro w (rfl | rfl) v (rfl | rfl)
      exacts [rfl, hsame, hsame.symm, rfl]
    have hmove : ∀ w, w = s ∨ w = u → y.Admits (· = w) id admin := fun w hw =>
      hadmits.move (hrights w hw) (hfixed.imp_left fun hne => hmode hne w hw)
    exact after_of_meets hs hx hy hfirst hu htask (hmove u (.inr rfl)) (.inl (hmove s (.inl rfl)))
      hmeets ht

/-- Two edits that take their steps in turns and both succeed leave what they would leave one after
the other, in one order or the other, unless one overwrites what the other did. -/
theorem interleave_edits {order : List Side} {r r' : Response} (hs : s.Sound) (hx : x.Edits)
    (hy : y.Edits) (h : Procedure.interleave order x.answer y.answer s = some ((r, r'), t))
    (hr : r.IsSuccess) (hr' : r'.IsSuccess) :
    t = y.after (x.after s) ∨ t = x.after (y.after s) ∨ y.Overwrites x s t ∨
      x.Overwrites y s t := by
  obtain ⟨op, hop, hedits⟩ := hx
  obtain ⟨op', hop', hedits'⟩ := hy
  have hx : x.Edits := ⟨op, hop, hedits⟩
  have hy : y.Edits := ⟨op', hop', hedits'⟩
  rcases (answer_edits hop hedits).interleave_cases (answer_edits hop' hedits') h hr hr' with
    hfirst | hfirst
  · rcases after_of_leftFirst hs hx hy hfirst with h | h | h
    exacts [.inl h, .inr (.inl h), .inr (.inr (.inl h))]
  · rcases after_of_leftFirst hs hy hx hfirst with h | h | h
    exacts [.inr (.inl h), .inl h, .inr (.inr (.inr h))]

end

end Exchange
end Api

attribute [local instance] Libraries.bare

namespace Sample

/-- Requests that change the name of the site and the number of posts on a page. -/
def naming : Api.Exchange :=
  request 1 "i1" .patch "/api/settings" "\x7b\"site_name\":\"New\"\x7d"

def sizing : Api.Exchange :=
  request 2 "i2" .patch "/api/settings" "\x7b\"posts_per_page\":5\x7d"

theorem naming_edits : naming.Edits := ⟨.updateSettings, by decide +kernel, rfl⟩

theorem sizing_edits : sizing.Edits := ⟨.updateSettings, by decide +kernel, rfl⟩

def before : Store := Call.run start Database.fresh.store

/-- Both requests load the settings before one of them saves. -/
def turns : List Side :=
  [.left, .left, .left, .right, .right, .right, .left, .right]

theorem interleave_turns :
    ∃ r r' t, Procedure.interleave turns naming.answer sizing.answer before = some ((r, r'), t) ∧
      r.IsSuccess ∧ r'.IsSuccess ∧ t.loadSettings.siteName = "My Blog" := by
  have hshown : (Procedure.interleave turns naming.answer sizing.answer before).map
      (fun result => (result.1.1.status, result.1.2.status, result.2.loadSettings.siteName)) =
        some (200, 200, "My Blog") := by decide +kernel
  obtain ⟨⟨⟨r, r'⟩, t⟩, hturns, hshown⟩ := Option.map_eq_some_iff.1 hshown
  simp only [Prod.mk.injEq] at hshown
  obtain ⟨hr, hr', hname⟩ := hshown
  refine ⟨r, r', t, hturns, ?_, ?_, hname⟩
  · simp [Http.Response.IsSuccess, hr]
  · simp [Http.Response.IsSuccess, hr']

theorem name_after_both :
    (sizing.after (naming.after before)).loadSettings.siteName = "New" ∧
      (naming.after (sizing.after before)).loadSettings.siteName = "New" := by
  decide +kernel

end Sample

/-- Of two requests that change different settings in turns, one overwrites what the other did. -/
theorem Api.Exchange.interleave_edits_of_settings :
    ∃ t, t.loadSettings.siteName = "My Blog" ∧
      (Sample.sizing.Overwrites Sample.naming Sample.before t ∨
        Sample.naming.Overwrites Sample.sizing Sample.before t) := by
  obtain ⟨r, r', t, hturns, hr, hr', hname⟩ := Sample.interleave_turns
  have hs : Sample.before.Sound := Call.run_keeps_sound _ Database.sound_fresh
  refine ⟨t, hname, ?_⟩
  rcases interleave_edits hs Sample.naming_edits Sample.sizing_edits hturns hr hr' with
    rfl | rfl | hover
  · exact absurd (hname.symm.trans Sample.name_after_both.1) (by decide)
  · exact absurd (hname.symm.trans Sample.name_after_both.2) (by decide)
  · exact hover

/-- Two requests that both succeed may leave what they would not leave in either order. -/
theorem Api.Exchange.not_serial_of_settings :
    ∃ (x y : Exchange) (s t : Store) (order : List Side) (r r' : Http.Response),
      s = Call.run Sample.start Database.fresh.store ∧ x.Edits ∧ y.Edits ∧
        Procedure.interleave order x.answer y.answer s = some ((r, r'), t) ∧ r.IsSuccess ∧
          r'.IsSuccess ∧
            t.loadSettings.siteName ≠ (y.after (x.after s)).loadSettings.siteName ∧
              t.loadSettings.siteName ≠ (x.after (y.after s)).loadSettings.siteName := by
  obtain ⟨r, r', t, hturns, hr, hr', hname⟩ := Sample.interleave_turns
  refine ⟨Sample.naming, Sample.sizing, Sample.before, t, Sample.turns, r, r', rfl,
    Sample.naming_edits, Sample.sizing_edits, hturns, hr, hr', ?_, ?_⟩
  · rw [hname, Sample.name_after_both.1]
    decide
  · rw [hname, Sample.name_after_both.2]
    decide

end Gazette
