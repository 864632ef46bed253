import Gazette.Proofs.Writing

/-!
# Paths of slugs

The path of something that has a slug is made of its kind and the slug. A slug holds no character
that means something in a path, so the path is read as it was put together. There is one path on
which a fixed resource stands in the way of a slug.
-/
namespace Gazette

namespace Text

/-- Characters of ASCII, decoded from a path without escapes and read as text, are themselves. -/
theorem decode_of_ascii {cs : List Char} (h : ∀ c ∈ cs, c.toNat < 128 ∧ c ≠ '%') :
    Utf8.decode (Percent.decode cs) = cs.map some := by
  induction cs with
  | nil => rfl
  | cons c cs ih =>
      obtain ⟨⟨hc, hescape⟩, hcs⟩ := List.forall_mem_cons.1 h
      have hcode : Percent.decode (c :: cs) = String.utf8EncodeChar c ++ Percent.decode cs := by
        rw [Percent.decode]
        exact fun _ _ _ hstart => absurd hstart hescape
      have hval : c.val.toNat ≤ 0x7f := Nat.le_of_lt_succ hc
      have hoctet : String.utf8EncodeChar c = [c.toNat.toUInt8] := by
        rw [String.utf8EncodeChar, if_pos hval]
        rfl
      have hsmall : c.toNat.toUInt8.toNat = c.toNat := by
        rw [Nat.toUInt8, UInt8.toNat_ofNat']
        exact Nat.mod_eq_of_lt (by omega)
      rw [hcode, hoctet, Utf8.decode, List.singleton_append, Utf8.decodeFrom, hsmall, Utf8.step,
        Utf8.start, if_pos hc, Char.ofNat_toNat]
      exact congrArg (some c :: ·) (ih hcs)

end Text

namespace Slug

theorem plain_of_isSlugChar {c : Char} (h : isSlugChar c = true) :
    c.toNat < 128 ∧ c ≠ '%' ∧ c ≠ '/' := by
  simp only [isSlugChar, Bool.or_eq_true, beq_iff_eq] at h
  rcases h with (h | rfl) | rfl
  · exact forall_isLetterOrDigit (P := fun c => c.toNat < 128 ∧ c ≠ '%' ∧ c ≠ '/') (by decide) h
  · decide
  · decide

end Slug

open Api Http Text

namespace Kind

def directory : Kind → String
  | post => "posts"
  | category => "categories"
  | tag => "tags"

def path (kind : Kind) (slug : String) : String :=
  "/api/" ++ kind.directory ++ "/" ++ slug

/-- Whether a resource of another sort is found at the path of a slug. -/
def IsShadowed (kind : Kind) (slug : String) : Prop :=
  kind = post ∧ slug = "featured"

instance (kind : Kind) (slug : String) : Decidable (kind.IsShadowed slug) :=
  inferInstanceAs (Decidable (_ ∧ _))

def reading : Kind → String → Operation
  | post => .readPost
  | category => .readCategory
  | tag => .readTag

def replacing : Kind → String → Operation
  | post => .replacePost
  | category => .replaceCategory
  | tag => .updateTag

def updating : Kind → String → Operation
  | post => .updatePost
  | category => .updateCategory
  | tag => .updateTag

def deleting : Kind → String → Operation
  | post => .deletePost
  | category => .deleteCategory
  | tag => .deleteTag

end Kind

variable {kind : Kind} {slug : String} {x : Exchange}

/-- The path of a slug leads to what stands for its kind and the slug as it is. -/
theorem Api.Resource.ofPath?_path (kind : Kind) (h : Slug.isWellFormed slug = true) :
    ofPath? (kind.path slug) = ofParts? [kind.directory, slug] := by
  rw [Slug.isWellFormed, Bool.and_eq_true, List.all_eq_true] at h
  obtain ⟨hne, hslug⟩ := h
  have hfield : ∀ c ∈ slug.toList, (c == '/') = false := fun c hc =>
    beq_eq_false_iff_ne.2 (Slug.plain_of_isSlugChar (hslug c hc)).2.2
  have hdirectory : ∀ c ∈ kind.directory.toList, (c == '/') = false := by
    cases kind <;> simp [Kind.directory]
  have hlist : (kind.path slug).toList =
      [] ++ '/' :: ("api".toList ++ '/' :: (kind.directory.toList ++ '/' :: slug.toList)) := by
    simp [Kind.path]
  have hsplit : split (· == '/') (kind.path slug).toList =
      [[], "api".toList, kind.directory.toList, slug.toList] := by
    rw [hlist, split_append_cons (by simp) rfl, split_append_cons (by simp) rfl,
      split_append_cons hdirectory rfl, split_of_forall hfield]
  have hroot : kind.path slug ≠ "/" := by
    intro hpath
    have hlength := congrArg List.length (hlist.symm.trans (congrArg String.toList hpath))
    simp at hlength
  have hlast : slug ≠ "" := by
    rintro rfl
    simp at hne
  rw [ofPath?, if_neg hroot, hsplit]
  simp [hlast]

/-- Nothing in the path of a slug but the shadowed one leads elsewhere. -/
theorem Api.Resource.ofParts?_free (h : ¬ kind.IsShadowed slug) :
    ofParts? [kind.directory, slug] =
      some [(.get, kind.reading slug), (.put, kind.replacing slug), (.patch, kind.updating slug),
        (.delete, kind.deleting slug)] := by
  cases kind with
  | post =>
      have hslug : slug ≠ "featured" := fun hslug => h ⟨rfl, hslug⟩
      simp [Kind.directory, ofParts?, Kind.reading, Kind.replacing, Kind.updating, Kind.deleting]
  | category => rfl
  | tag => rfl

theorem Api.Resource.ofParts?_shadowed (h : kind.IsShadowed slug) :
    ofParts? [kind.directory, slug] = some [(.get, .listFeatured)] := by
  obtain ⟨rfl, rfl⟩ := h
  rfl

namespace Api.Exchange

theorem parameter?_eq (h : Slug.isWellFormed slug = true) : parameter? slug = some slug := by
  rw [Slug.isWellFormed, Bool.and_eq_true, List.all_eq_true] at h
  have hplain : ∀ c ∈ slug.toList, c.toNat < 128 ∧ c ≠ '%' := fun c hc =>
    have hc := Slug.plain_of_isSlugChar (h.2 c hc)
    ⟨hc.1, hc.2.1⟩
  have hchars : ∀ cs : List Char, (cs.map some).mapM id = some cs := by
    intro cs
    induction cs with
    | nil => rfl
    | cons c cs ih => rw [List.map_cons, List.mapM_cons, ih]; rfl
  rw [parameter?, Utf8.text?, decode_of_ascii hplain, hchars, Option.map_some,
    String.ofList_toList]

theorem outcome_parameter (name : String) (h : Slug.isWellFormed slug = true) (s : Store) :
    (parameter name slug).outcome s = (.ok slug, s) := by
  have hslug : Utf8.text? (Percent.decode slug.toList) = some slug := parameter?_eq h
  rw [parameter, hslug]
  rfl

theorem operation?_of_resource {resource : Resource} (hpath : x.request.path = kind.path slug)
    (hformed : Slug.isWellFormed slug = true)
    (hresource : Resource.ofParts? [kind.directory, slug] = some resource) :
    x.operation? = resource.lookup (Resource.effective x.request.method) := by
  rw [operation?, resource?, hpath, Resource.ofPath?_path kind hformed, hresource]
  rfl

end Api.Exchange
end Gazette
