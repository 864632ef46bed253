import Gazette.Proofs.Join
import Gazette.Store.Query

/-!
# What a query selects

A query grows one condition at a time, and a condition names the place of its value among the
arguments. Later arguments do not move earlier ones, so each condition goes on comparing with the
value that it came with, and in the end the query says what the filter says.
-/
namespace Gazette
open Store

variable {s : Store} {arguments : List String} {joined : JoinedPost}

theorem PostStatus.word_inj {a b : PostStatus} : a.word = b.word ↔ a = b := by
  refine ⟨fun h => ?_, congrArg word⟩
  have hread := congrArg ofWord? h
  rw [ofWord?_word, ofWord?_word] at hread
  exact Option.some.inj hread

structure PostFilter.Selects (filter : PostFilter) (s : Store) (row : PostRow) : Prop where
  active : row.isActive = true
  category : ∀ slug, filter.categorySlug = some slug →
    ∃ category ∈ s.categories, row.categoryId = some category.id ∧ category.slug = slug
  author : ∀ id, filter.authorId = some id → row.authorId = id
  tag : ∀ slug, filter.tagSlug = some slug →
    ∃ tag ∈ s.tags, tag.slug = slug ∧ ⟨row.id, tag.id⟩ ∈ s.links
  status : ∀ status, filter.status = some status → row.status = status
  published : filter.publishedOnly = true → row.publishedDate.isSome = true

/-- Whether a place is one of the arguments. -/
def IsPlace (arguments : List String) (place : Nat) : Prop :=
  0 < place ∧ place ≤ arguments.length

theorem isArgument_append {place : Nat} (h : IsPlace arguments place) (more : List String)
    (value : String) :
    isArgument (arguments ++ more) place value = isArgument arguments place value := by
  have hplace : place - 1 < arguments.length := by
    have := h.1
    have := h.2
    omega
  rw [isArgument, isArgument, List.getElem?_append_left hplace]

theorem isArgument_last (arguments : List String) (value other : String) :
    isArgument (arguments ++ [value]) (arguments.length + 1) other = true ↔ other = value := by
  simp only [isArgument, Nat.zero_lt_succ, decide_true, Bool.true_and, Nat.add_sub_cancel,
    List.getElem?_concat_length, beq_iff_eq, Option.some.injEq]
  exact eq_comm

namespace Condition

def place? : Condition → Option Nat
  | isActive | wasPublished => none
  | categorySlug place | author place | tagSlug place | status place => some place

/-- Arguments that come after those of a condition do not change it. -/
theorem holds_append {condition : Condition}
    (h : ∀ place, condition.place? = some place → IsPlace arguments place) (more : List String) :
    condition.holds (arguments ++ more) s joined = condition.holds arguments s joined := by
  cases condition with
  | isActive => rfl
  | wasPublished => rfl
  | categorySlug place => simp only [holds, isArgument_append (h place rfl)]
  | author place => simp only [holds, isArgument_append (h place rfl)]
  | tagSlug place => simp only [holds, isArgument_append (h place rfl)]
  | status place => simp only [holds, isArgument_append (h place rfl)]

end Condition

namespace PostQuery

/-- A query has a place for every value that it compares with. -/
def Placed (query : PostQuery) : Prop :=
  ∀ condition ∈ query.conditions, ∀ place, condition.place? = some place →
    IsPlace query.arguments place

/-- Whether a query is well placed and selects what has a property. -/
structure Means (query : PostQuery) (s : Store) (P : JoinedPost → Prop) : Prop where
  placed : query.Placed
  selects : ∀ joined, query.selects s joined = true ↔ P joined

/-- One more condition, and perhaps more arguments for it, narrow what is selected. -/
theorem Means.narrow {query : PostQuery} {P Q : JoinedPost → Prop} (h : query.Means s P)
    (condition : Condition) (more : List String)
    (hplace : ∀ place, condition.place? = some place → IsPlace (query.arguments ++ more) place)
    (holds : ∀ joined, condition.holds (query.arguments ++ more) s joined = true ↔ Q joined) :
    Means { query with
      conditions := query.conditions ++ [condition]
      arguments := query.arguments ++ more } s fun joined => P joined ∧ Q joined := by
  constructor
  · intro c hc place hplaced
    rcases List.mem_append.1 hc with hold | hnew
    · obtain ⟨hpos, hle⟩ := h.placed c hold place hplaced
      refine ⟨hpos, ?_⟩
      rw [List.length_append]
      omega
    · obtain rfl := List.mem_singleton.1 hnew
      exact hplace place hplaced
  · intro joined
    have hkept : (query.conditions.all fun c => c.holds (query.arguments ++ more) s joined) =
        query.selects s joined := by
      rw [Bool.eq_iff_iff, PostQuery.selects, List.all_eq_true, List.all_eq_true]
      refine forall₂_congr fun c hc => ?_
      rw [Condition.holds_append (h.placed c hc)]
    rw [PostQuery.selects, List.all_append, hkept, Bool.and_eq_true, h.selects, ← holds joined]
    simp

/-- A comparison narrows what is selected, if there is a value to compare with. -/
theorem Means.compare {query : PostQuery} {P : JoinedPost → Prop} (h : query.Means s P)
    (value : Option String) (condition : Nat → Condition) {Q : String → JoinedPost → Prop}
    (hplace : ∀ place, (condition place).place? = some place)
    (holds : ∀ arguments value joined,
      (condition (arguments.length + 1)).holds (arguments ++ [value]) s joined = true ↔
        Q value joined) :
    (query.compare value condition).Means s fun joined =>
      P joined ∧ ∀ v, value = some v → Q v joined := by
  cases value with
  | none => exact ⟨h.placed, fun joined => by simp [PostQuery.compare, h.selects]⟩
  | some value =>
      have hlength : (query.arguments ++ [value]).length = query.arguments.length + 1 :=
        List.length_append
      have hnarrow := h.narrow (condition (query.arguments.length + 1)) [value] ?_
        (holds query.arguments value)
      · rw [PostQuery.compare, hlength]
        refine ⟨hnarrow.placed, fun joined => ?_⟩
        rw [hnarrow.selects joined]
        simp
      · intro place hplaced
        rw [hplace] at hplaced
        obtain rfl := Option.some.inj hplaced
        exact ⟨Nat.succ_pos _, Nat.le_of_eq hlength.symm⟩

/-- The query of a filter selects what is active and meets every condition that is given. -/
theorem ofFilter_means (filter : PostFilter) (s : Store) :
    (ofFilter filter).Means s fun joined =>
      joined.row.isActive = true ∧
      (∀ slug, filter.categorySlug = some slug →
        ∃ category, joined.category = some category ∧ category.slug = slug) ∧
      (∀ id, filter.authorId = some id → joined.row.authorId = id) ∧
      (∀ slug, filter.tagSlug = some slug → ∃ link ∈ s.links, link.postId = joined.row.id ∧
        ∃ tag ∈ s.tags, tag.id = link.tagId ∧ tag.slug = slug) ∧
      (∀ word, filter.status.map PostStatus.word = some word → joined.row.status.word = word) ∧
      (filter.publishedOnly = true → joined.row.publishedDate.isSome = true) := by
  have hactive : Means ⟨[.isActive], [], filter.order, filter.limit⟩ s fun joined =>
      joined.row.isActive = true := by
    refine ⟨?_, fun joined => by simp [selects, Condition.holds]⟩
    intro condition hcondition place hplace
    rw [List.mem_singleton.1 hcondition] at hplace
    cases hplace
  have hcategory := hactive.compare filter.categorySlug .categorySlug
    (Q := fun slug joined => ∃ category, joined.category = some category ∧ category.slug = slug)
    (fun _ => rfl) <| by
      intro arguments value joined
      simp [Condition.holds, Option.any_eq_true, isArgument_last]
  have hauthor := hcategory.compare filter.authorId .author
    (Q := fun id joined => joined.row.authorId = id) (fun _ => rfl) <| by
      intro arguments value joined
      simp [Condition.holds, isArgument_last]
  have htag := hauthor.compare filter.tagSlug .tagSlug
    (Q := fun slug joined => ∃ link ∈ s.links, link.postId = joined.row.id ∧
      ∃ tag ∈ s.tags, tag.id = link.tagId ∧ tag.slug = slug) (fun _ => rfl) <| by
      intro arguments value joined
      simp [Condition.holds, isArgument_last]
  have hstatus := htag.compare (filter.status.map PostStatus.word) .status
    (Q := fun word joined => joined.row.status.word = word) (fun _ => rfl) <| by
      intro arguments value joined
      simp [Condition.holds, isArgument_last]
  unfold ofFilter
  dsimp only
  split
  · rename_i hpublished
    have hdated := hstatus.narrow .wasPublished [] (Q := fun joined =>
      joined.row.publishedDate.isSome = true) nofun fun joined => by simp [Condition.holds]
    rw [List.append_nil] at hdated
    exact ⟨hdated.placed, fun joined => by rw [hdated.selects]; simp [hpublished, and_assoc]⟩
  · rename_i hany
    exact ⟨hstatus.placed, fun joined => by rw [hstatus.selects]; simp [hany, and_assoc]⟩

end PostQuery

/-- What a query selects of the posts that a sound store joins is what the filter lets through. -/
theorem PostFilter.selects_iff (h : s.Sound) (filter : PostFilter) (hjoins : s.Joins joined) :
    (PostQuery.ofFilter filter).selects s joined = true ↔ filter.Selects s joined.row := by
  have hcategory : ∀ slug,
      (∃ category, joined.category = some category ∧ category.slug = slug) ↔
        ∃ category ∈ s.categories,
          joined.row.categoryId = some category.id ∧ category.slug = slug := by
    intro slug
    rw [hjoins.category]
    constructor
    · rintro ⟨category, hfind, rfl⟩
      obtain ⟨id, hid, hrow⟩ := Option.bind_eq_some_iff.1 hfind
      obtain ⟨hmem, rfl⟩ := (Table.row?_eq_some_iff h.category_ids).1 hrow
      exact ⟨category, hmem, hid, rfl⟩
    · rintro ⟨category, hmem, hid, rfl⟩
      refine ⟨category, ?_, rfl⟩
      rw [hid]
      exact (Table.row?_eq_some_iff h.category_ids).2 ⟨hmem, rfl⟩
  have htag : ∀ slug,
      (∃ link ∈ s.links, link.postId = joined.row.id ∧
        ∃ tag ∈ s.tags, tag.id = link.tagId ∧ tag.slug = slug) ↔
        ∃ tag ∈ s.tags, tag.slug = slug ∧ ⟨joined.row.id, tag.id⟩ ∈ s.links := by
    intro slug
    constructor
    · rintro ⟨⟨postId, tagId⟩, hlink, rfl, tag, htag, rfl, rfl⟩
      exact ⟨tag, htag, rfl, hlink⟩
    · rintro ⟨tag, htag, rfl, hlink⟩
      exact ⟨_, hlink, rfl, tag, htag, rfl, rfl⟩
  have hstatus : (∀ word, filter.status.map PostStatus.word = some word →
      joined.row.status.word = word) ↔
        ∀ status, filter.status = some status → joined.row.status = status := by
    cases filter.status with
    | none => simp
    | some status => simp [PostStatus.word_inj]
  rw [(PostQuery.ofFilter_means filter s).selects, hstatus]
  simp only [hcategory, htag]
  exact ⟨fun ⟨ha, hc, hi, ht, hs, hp⟩ => ⟨ha, hc, hi, ht, hs, hp⟩,
    fun ⟨ha, hc, hi, ht, hs, hp⟩ => ⟨ha, hc, hi, ht, hs, hp⟩⟩

end Gazette
