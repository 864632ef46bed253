import Mathlib.Data.List.DropRight
import Mathlib.Data.List.TakeWhile
import Gazette.Content.Rules

/-!
# Rules of content

When an entity keeps the rules of content, and what it is then stored as. A slug that is settled
has the shape of a slug, and such a slug is settled as itself.
-/
namespace Gazette
open Text

namespace Slug

/-- The letters and digits lie below the first character that is not ASCII. -/
theorem lt_of_isLetterOrDigit {c : Char} (h : isLetterOrDigit c = true) : c.toNat < 128 := by
  simp only [isLetterOrDigit, Bool.or_eq_true, Bool.and_eq_true, decide_eq_true_eq, Char.le_def,
    UInt32.le_iff_toNat_le] at h
  have hchars : ('z' : Char).val.toNat = 122 ∧ ('Z' : Char).val.toNat = 90 ∧
      ('9' : Char).val.toNat = 57 := by decide
  have hval : c.toNat = c.val.toNat := rfl
  omega

theorem forall_isLetterOrDigit {P : Char → Prop}
    (h : ∀ n < 128, isLetterOrDigit (Char.ofNat n) = true → P (Char.ofNat n)) {c : Char}
    (hc : isLetterOrDigit c = true) : P c := by
  have hsame : Char.ofNat c.toNat = c := Char.ofNat_toNat c
  rw [← hsame] at hc ⊢
  exact h _ (lt_of_isLetterOrDigit (hsame ▸ hc)) hc

theorem isSlugChar_toLower {c : Char} (hc : isLetterOrDigit c = true) :
    isSlugChar c.toLower = true :=
  forall_isLetterOrDigit (P := fun c => isSlugChar c.toLower = true) (by decide) hc

theorem isBlank_of_isSlugChar {c : Char} (hc : isSlugChar c = true) : isBlank c = false := by
  simp only [isSlugChar, Bool.or_eq_true, beq_iff_eq] at hc
  rcases hc with (hc | rfl) | rfl
  · exact forall_isLetterOrDigit (P := fun c => isBlank c = false) (by decide) hc
  · decide
  · decide

theorem hyphenate_all (started gap : Bool) (cs : List Char) :
    (hyphenate started gap cs).all isSlugChar = true := by
  induction cs generalizing started gap with
  | nil => rfl
  | cons c cs ih =>
      rw [hyphenate]
      split
      · rename_i hc
        split
        · rw [List.all_cons, List.all_cons, isSlugChar_toLower hc, ih]
          rfl
        · rw [List.all_cons, isSlugChar_toLower hc, ih]
          rfl
      · exact ih started true

/-- A slug that is derived from a text is well-formed unless it is empty. -/
theorem isWellFormed_ofText [Libraries] {s : String} (h : ofText s ≠ "") :
    isWellFormed (ofText s) = true := by
  have hlist : (ofText s).toList = hyphenate false false (s.toList.flatMap spell) :=
    String.toList_ofList
  rw [isWellFormed, Bool.and_eq_true, hlist]
  refine ⟨?_, hyphenate_all _ _ _⟩
  cases hempty : hyphenate false false (s.toList.flatMap spell) with
  | nil => exact absurd (by rw [ofText, hempty]) h
  | cons c cs => rfl

theorem isBlankText_of_isWellFormed {s : String} (h : isWellFormed s = true) :
    isBlankText s = false := by
  rw [isWellFormed, Bool.and_eq_true, List.all_eq_true] at h
  obtain ⟨hne, hall⟩ := h
  cases hs : s.toList with
  | nil => simp [hs] at hne
  | cons c cs =>
      have hc : isBlank c = false := isBlank_of_isSlugChar (hall c (by simp [hs]))
      simp [isBlankText, hs, hc]

end Slug

theorem Text.trimChars_eq_self {cs : List Char} (h : ∀ c ∈ cs, isBlank c = false) :
    trimChars cs = cs := by
  have hdrop : ∀ ds : List Char, (∀ d ∈ ds, isBlank d = false) → ds.dropWhile isBlank = ds := by
    intro ds hds
    cases ds with
    | nil => rfl
    | cons d ds => exact List.dropWhile_cons_of_neg (by simp [hds d List.mem_cons_self])
  rw [trimChars, hdrop cs h, hdrop cs.reverse (by simpa using h), List.reverse_reverse]

theorem Text.trimChars_eq (cs : List Char) :
    trimChars cs = (cs.dropWhile isBlank).rdropWhile isBlank := rfl

/-- Trimming leaves nothing exactly when there is nothing but white space. -/
theorem Text.trimChars_eq_nil_iff (cs : List Char) :
    trimChars cs = [] ↔ cs.all isBlank = true := by
  have hdrop : cs.dropWhile isBlank = [] ↔ cs.all isBlank = true := by
    rw [List.dropWhile_eq_nil_iff, List.all_eq_true]
  rw [trimChars_eq, List.rdropWhile_eq_nil_iff, ← hdrop]
  refine ⟨fun h => ?_, fun h => by simp [h]⟩
  by_contra hne
  exact Bool.false_ne_true
    ((List.head_dropWhile_not isBlank hne).symm.trans (h _ (List.head_mem hne)))

theorem Text.trim_eq_empty_iff (s : String) : trim s = "" ↔ isBlankText s = true := by
  rw [isBlankText, ← trimChars_eq_nil_iff, trim, ← String.toList_inj, String.toList_ofList]
  rfl

/-- What is left after trimming starts with no white space and ends with none. -/
theorem Text.trimChars_trimChars (cs : List Char) : trimChars (trimChars cs) = trimChars cs := by
  have hfront : (trimChars cs).dropWhile isBlank = trimChars cs := by
    obtain ⟨dropped, hdropped⟩ : trimChars cs <+: cs.dropWhile isBlank :=
      List.rdropWhile_prefix isBlank _
    cases hrest : trimChars cs with
    | nil => rfl
    | cons c rest =>
        rw [hrest] at hdropped
        have hkept : cs.dropWhile isBlank ≠ [] := by simp [← hdropped]
        have hhead := List.head_dropWhile_not isBlank hkept
        simp only [← hdropped, List.cons_append, List.head_cons] at hhead
        exact List.dropWhile_cons_of_neg (by simp [hhead])
  rw [trimChars_eq, hfront, trimChars_eq, List.rdropWhile_idempotent]

theorem Text.trim_trim (s : String) : trim (trim s) = trim s := by
  rw [trim, trim, String.toList_ofList, trimChars_trimChars]

theorem Slug.trim_of_isWellFormed {s : String} (h : isWellFormed s = true) : trim s = s := by
  rw [isWellFormed, Bool.and_eq_true, List.all_eq_true] at h
  rw [trim, trimChars_eq_self fun c hc => isBlank_of_isSlugChar (h.2 c hc), String.ofList_toList]

/-- A slug is settled as it is given or, if it is blank, as it is derived from the name. -/
theorem settleSlug_ok [Libraries] {name slug settled : String} :
    settleSlug name slug = .ok settled ↔
      Slug.isWellFormed settled = true ∧
        settled = if isBlankText slug then Slug.ofText name else trim slug := by
  unfold settleSlug
  by_cases hblank : isBlankText slug = true
  · rw [if_pos hblank, if_pos hblank]
    by_cases hempty : Slug.ofText name = ""
    · rw [if_pos hempty]
      constructor
      · intro h
        cases h
      · rintro ⟨hformed, rfl⟩
        rw [hempty] at hformed
        cases hformed
    · rw [if_neg hempty, Except.ok.injEq]
      exact ⟨fun h => ⟨h ▸ Slug.isWellFormed_ofText hempty, h.symm⟩, fun h => h.2.symm⟩
  · rw [if_neg hblank, if_neg hblank]
    by_cases hformed : Slug.isWellFormed (trim slug) = true
    · rw [if_pos hformed, Except.ok.injEq]
      exact ⟨fun h => ⟨h ▸ hformed, h.symm⟩, fun h => h.2.symm⟩
    · rw [if_neg hformed]
      constructor
      · intro h
        cases h
      · rintro ⟨hsettled, rfl⟩
        exact absurd hsettled hformed

theorem isWellFormed_of_settleSlug [Libraries] {name slug settled : String}
    (h : settleSlug name slug = .ok settled) : Slug.isWellFormed settled = true :=
  (settleSlug_ok.1 h).1

theorem settleSlug_self [Libraries] {name slug : String} (h : Slug.isWellFormed slug = true) :
    settleSlug name slug = .ok slug := by
  refine settleSlug_ok.2 ⟨h, ?_⟩
  rw [Slug.isBlankText_of_isWellFormed h, Slug.trim_of_isWellFormed h]
  rfl

theorem require_then_ok {α : Type} {field value : String} {rest : Except ContentError α} {a : α} :
    (require field value >>= fun _ => rest) = .ok a ↔
      isBlankText value = false ∧ rest = .ok a := by
  unfold require
  cases isBlankText value <;> simp [bind, Except.bind]

theorem require_ok {field value : String} {u : Unit} :
    require field value = .ok u ↔ isBlankText value = false := by
  unfold require
  cases isBlankText value <;> simp

theorem User.validate_ok {user : User} {u : Unit} :
    user.validate = .ok u ↔ isBlankText user.username = false ∧
      isBlankText user.email = false ∧ '@' ∈ user.email.toList := by
  rw [validate, require_then_ok, require_then_ok]
  by_cases hsign : '@' ∈ user.email.toList <;> simp [hsign]

theorem ContactMessage.validate_ok {message : ContactMessage} {u : Unit} :
    message.validate = .ok u ↔ isBlankText message.name = false ∧
      isBlankText message.email = false ∧ isBlankText message.subject = false ∧
        isBlankText message.message = false := by
  rw [validate, require_then_ok, require_then_ok, require_then_ok, require_ok]

theorem SiteSettings.validate_ok {settings : SiteSettings} {u : Unit} :
    settings.validate = .ok u ↔
      isBlankText settings.siteName = false ∧ 1 ≤ settings.postsPerPage := by
  rw [validate, require_then_ok, ← Int.not_lt]
  by_cases hfew : settings.postsPerPage < 1 <;> simp [hfew]

/-- A prepared post has its slug settled and the present as its date of publication if it is
published and had none. -/
theorem Post.prepare_ok [Libraries] {post saved : Post} {now : Timestamp} :
    post.prepare now = .ok saved ↔
      isBlankText post.title = false ∧ settleSlug post.title post.slug = .ok saved.slug ∧
        saved = { post with
          slug := saved.slug
          publishedDate :=
            post.publishedDate.or (if post.status = .published then some now else none)
          updatedAt := now } := by
  have hlatch : ∀ slug,
      { { post with slug := slug }.latchPublishedDate now with updatedAt := now } =
      { post with
        slug := slug
        publishedDate :=
          post.publishedDate.or (if post.status = .published then some now else none)
        updatedAt := now } := by
    intro slug
    unfold latchPublishedDate
    by_cases hstatus : post.status = .published
    · cases post.publishedDate <;> simp [hstatus]
    · simp [hstatus]
  rw [prepare, require_then_ok]
  refine and_congr_right fun _ => ?_
  cases settleSlug post.title post.slug with
  | error e => simp [bind, Except.bind]
  | ok slug =>
      simp only [bind, Except.bind, Except.ok.injEq, hlatch]
      constructor
      · rintro rfl
        exact ⟨rfl, rfl⟩
      · rintro ⟨rfl, h⟩
        exact h.symm

theorem Category.prepare_ok [Libraries] {category saved : Category} :
    category.prepare = .ok saved ↔
      isBlankText category.name = false ∧ settleSlug category.name category.slug = .ok saved.slug ∧
        saved = { category with slug := saved.slug } := by
  rw [prepare, require_then_ok]
  refine and_congr_right fun _ => ?_
  cases settleSlug category.name category.slug with
  | error e => simp [bind, Except.bind]
  | ok slug =>
      simp only [bind, Except.bind, Except.ok.injEq]
      constructor
      · rintro rfl
        exact ⟨rfl, rfl⟩
      · rintro ⟨rfl, h⟩
        exact h.symm

theorem Tag.prepare_ok [Libraries] {tag saved : Tag} :
    tag.prepare = .ok saved ↔
      isBlankText tag.name = false ∧ settleSlug tag.name tag.slug = .ok saved.slug ∧
        saved = { tag with slug := saved.slug } := by
  rw [prepare, require_then_ok]
  refine and_congr_right fun _ => ?_
  cases settleSlug tag.name tag.slug with
  | error e => simp [bind, Except.bind]
  | ok slug =>
      simp only [bind, Except.bind, Except.ok.injEq]
      constructor
      · rintro rfl
        exact ⟨rfl, rfl⟩
      · rintro ⟨rfl, h⟩
        exact h.symm

end Gazette
