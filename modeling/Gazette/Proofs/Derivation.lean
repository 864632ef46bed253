import Gazette.Proofs.Rules
import Gazette.Proofs.Walks

/-!
# Derivation of slugs

The slug that is derived from a text keeps its words: the runs of letters and digits of its
spelling, lowercased, with one hyphen between two of them. A text that has this form is its own
slug. A thing whose slug has been settled keeps it, whatever its name becomes.
-/
namespace Gazette
open Text

namespace Slug
variable {cs : List Char} {c : Char}

def isLowerOrDigit (c : Char) : Bool :=
  ('a' ≤ c && c ≤ 'z') || ('0' ≤ c && c ≤ '9')

/-- Whether a text is empty or made of runs of small letters and digits, with one hyphen between
two runs. -/
def IsCanonical (s : String) : Prop :=
  ∃ runs : List (List Char), s.toList = List.intercalate ['-'] runs ∧
    ∀ run ∈ runs, run ≠ [] ∧ ∀ c ∈ run, isLowerOrDigit c = true

/-- The runs of letters and digits of a text. -/
def words (cs : List Char) : List (List Char) :=
  (split (fun c => !isLetterOrDigit c) cs).filter fun word => !word.isEmpty

/-- Words as they follow another one. -/
def following (words : List (List Char)) : List Char :=
  words.flatMap fun word => '-' :: word.map Char.toLower

theorem words_cons_of_not (hc : isLetterOrDigit c = false) : words (c :: cs) = words cs := by
  simp [words, split, hc]

theorem intercalate_words (word : List Char) (rest : List (List Char)) :
    List.intercalate ['-'] ((word :: rest).map (List.map Char.toLower)) =
      word.map Char.toLower ++ following rest := by
  induction rest generalizing word with
  | nil => simp [following]
  | cons next rest ih =>
      rw [List.map_cons, List.map_cons, List.intercalate_cons_cons, ← List.map_cons, ih]
      simp [following]

/-- Within a word, the rest of the word comes first, then the words that follow it. -/
theorem hyphenate_started (cs : List Char) :
    hyphenate true true cs = following (words cs) ∧
      ∀ word rest, split (fun c => !isLetterOrDigit c) cs = word :: rest →
        hyphenate true false cs =
          word.map Char.toLower ++ following (rest.filter fun word => !word.isEmpty) := by
  induction cs with
  | nil =>
      refine ⟨rfl, fun word rest h => ?_⟩
      cases h
      rfl
  | cons c cs ih =>
      obtain ⟨ihgap, ihword⟩ := ih
      cases hc : isLetterOrDigit c with
      | true =>
          cases hsplit : split (fun c => !isLetterOrDigit c) cs with
          | nil => exact absurd hsplit (split_ne_nil _ cs)
          | cons word rest =>
              have hrest := ihword word rest hsplit
              refine ⟨?_, fun first others h => ?_⟩
              · simp [hyphenate, words, following, split, hc, hsplit, hrest]
              · simp only [split, hc, hsplit, Bool.not_true, Bool.false_eq_true, if_false,
                  List.cons.injEq] at h
                obtain ⟨rfl, rfl⟩ := h
                simp [hyphenate, hc, hrest]
      | false =>
          refine ⟨?_, fun first others h => ?_⟩
          · rw [words_cons_of_not hc, ← ihgap, hyphenate]
            simp [hc]
          · simp only [split, hc, Bool.not_false, if_true, List.cons.injEq] at h
            obtain ⟨rfl, rfl⟩ := h
            simpa [hyphenate, hc, words] using ihgap

/-- What is kept of a text are its words, with one hyphen between two of them. -/
theorem hyphenate_eq (gap : Bool) (cs : List Char) :
    hyphenate false gap cs = List.intercalate ['-'] ((words cs).map (List.map Char.toLower)) := by
  induction cs generalizing gap with
  | nil => rfl
  | cons c cs ih =>
      -- What comes before the first word is left out, whatever it is.
      cases hc : isLetterOrDigit c with
      | true =>
          cases hsplit : split (fun c => !isLetterOrDigit c) cs with
          | nil => exact absurd hsplit (split_ne_nil _ cs)
          | cons word rest =>
              have hrest := (hyphenate_started cs).2 word rest hsplit
              have hwords :
                  words (c :: cs) = (c :: word) :: rest.filter fun word => !word.isEmpty := by
                simp [words, split, hc, hsplit]
              rw [hwords, intercalate_words, hyphenate]
              simp [hc, hrest]
      | false =>
          rw [words_cons_of_not hc, ← ih true, hyphenate]
          simp [hc]

theorem mem_words {word : List Char} (h : word ∈ words cs) :
    word ≠ [] ∧ ∀ c ∈ word, isLetterOrDigit c = true := by
  obtain ⟨hpart, hne⟩ := List.mem_filter.1 h
  exact ⟨by simpa using hne, fun c hc => by simpa using forall_mem_split hpart c hc⟩

theorem isLowerOrDigit_toLower (hc : isLetterOrDigit c = true) : isLowerOrDigit c.toLower = true :=
  forall_isLetterOrDigit (P := fun c => isLowerOrDigit c.toLower = true) (by decide) hc

theorem isLetterOrDigit_of_isLowerOrDigit (hc : isLowerOrDigit c = true) :
    isLetterOrDigit c = true := by
  simp only [isLowerOrDigit, Bool.or_eq_true] at hc
  rcases hc with hc | hc <;> simp [isLetterOrDigit, hc]

theorem toLower_of_isLowerOrDigit (hc : isLowerOrDigit c = true) : c.toLower = c :=
  forall_isLetterOrDigit (P := fun c => isLowerOrDigit c = true → c.toLower = c) (by decide)
    (isLetterOrDigit_of_isLowerOrDigit hc) hc

theorem isCanonical_ofText [Libraries] (s : String) : IsCanonical (ofText s) := by
  refine ⟨_, String.toList_ofList.trans (hyphenate_eq false _), fun run hrun => ?_⟩
  obtain ⟨word, hword, rfl⟩ := List.mem_map.1 hrun
  obtain ⟨hne, hletters⟩ := mem_words hword
  refine ⟨by simpa using hne, fun c hc => ?_⟩
  obtain ⟨d, hd, rfl⟩ := List.mem_map.1 hc
  exact isLowerOrDigit_toLower (hletters d hd)

theorem mem_intercalate {runs : List (List Char)} (h : c ∈ List.intercalate ['-'] runs) :
    c = '-' ∨ ∃ run ∈ runs, c ∈ run := by
  induction runs with
  | nil => simp at h
  | cons run runs ih =>
      cases runs with
      | nil => exact .inr ⟨run, by simp, by simpa using h⟩
      | cons next runs =>
          rw [List.intercalate_cons_cons] at h
          rcases List.mem_append.1 h with h | h
          · rcases List.mem_append.1 h with h | h
            · exact .inr ⟨run, List.mem_cons_self, h⟩
            · exact .inl (by simpa using h)
          · rcases ih h with rfl | ⟨run', hrun', hc⟩
            · exact .inl rfl
            · exact .inr ⟨run', List.mem_cons_of_mem _ hrun', hc⟩

theorem words_intercalate {runs : List (List Char)}
    (h : ∀ run ∈ runs, run ≠ [] ∧ ∀ c ∈ run, isLowerOrDigit c = true) :
    words (List.intercalate ['-'] runs) = runs := by
  cases runs with
  | nil => rfl
  | cons run runs =>
      rw [words, split_intercalate_of_forall rfl (List.cons_ne_nil _ _) ?_, List.filter_eq_self]
      · intro run hrun
        simpa using (h run hrun).1
      · intro run hrun c hc
        simpa using isLetterOrDigit_of_isLowerOrDigit ((h run hrun).2 c hc)

theorem IsCanonical.lt_of_mem {s : String} (h : IsCanonical s) (hc : c ∈ s.toList) :
    c.toNat < 0x80 := by
  obtain ⟨runs, hs, hruns⟩ := h
  rcases mem_intercalate (hs ▸ hc) with rfl | ⟨run, hrun, hc⟩
  · decide
  · exact lt_of_isLetterOrDigit (isLetterOrDigit_of_isLowerOrDigit ((hruns run hrun).2 c hc))

theorem ofText_of_isCanonical [Libraries] {s : String} (h : IsCanonical s) : ofText s = s := by
  have hspell : s.toList.flatMap spell = s.toList := by
    have hkept : ∀ c ∈ s.toList, spell c = [c] := fun c hc => if_pos (h.lt_of_mem hc)
    exact (List.flatMap_congr hkept).trans (List.flatMap_singleton' _)
  obtain ⟨runs, hs, hruns⟩ := h
  have hlower : runs.map (List.map Char.toLower) = runs := by
    have hrun : ∀ run ∈ runs, run.map Char.toLower = run := fun run hrun =>
      (List.map_congr_left fun c hc => toLower_of_isLowerOrDigit ((hruns run hrun).2 c hc)).trans
        (List.map_id' run)
    exact (List.map_congr_left hrun).trans (List.map_id' runs)
  rw [ofText, hspell, hs, hyphenate_eq, words_intercalate hruns, hlower, ← hs, String.ofList_toList]

theorem isWellFormed_iff {s : String} :
    isWellFormed s = true ↔ s ≠ "" ∧ ∀ c ∈ s.toList, isSlugChar c = true := by
  simp [isWellFormed]

end Slug

/-- A thing that is reached by a slug. -/
inductive Named
  | post (post : Post)
  | category (category : Category)
  | tag (tag : Tag)
deriving DecidableEq, Repr

namespace Named

def name : Named → String
  | post p => p.title
  | category c => c.name
  | tag t => t.name

def slug : Named → String
  | post p => p.slug
  | category c => c.slug
  | tag t => t.slug

def withName (name : String) : Named → Named
  | post p => post { p with title := name }
  | category c => category { c with name := name }
  | tag t => tag { t with name := name }

def withSlug (slug : String) : Named → Named
  | post p => post { p with slug := slug }
  | category c => category { c with slug := slug }
  | tag t => tag { t with slug := slug }

variable {thing : Named}

@[simp] theorem slug_withSlug (slug : String) (thing : Named) :
    (thing.withSlug slug).slug = slug := by
  cases thing <;> rfl

@[simp] theorem slug_withName (name : String) (thing : Named) :
    (thing.withName name).slug = thing.slug := by
  cases thing <;> rfl

@[simp] theorem withSlug_slug (thing : Named) : thing.withSlug thing.slug = thing := by
  cases thing <;> rfl

/-- Settles the slug of a thing where it stands. A given slug is trimmed and checked; if there is
none, it is derived from the name. -/
def ensureSlug [Libraries] : ExceptT ContentError (StateM Named) Unit := do
  let thing ← get
  let given := trim thing.slug
  if given ≠ "" then
    if Slug.isWellFormed given = true then set (thing.withSlug given)
    else throw (.invalidSlug given)
  else
    let derived := Slug.ofText thing.name
    if derived = "" then throw (.emptySlug thing.name)
    else set (thing.withSlug derived)

/-- What settling the slug of a thing answers, and the thing after it. -/
def settle [Libraries] (thing : Named) : Except ContentError Unit × Named :=
  ensureSlug.run.run thing

/-- When the slug of a thing can be settled: a given slug has the shape of a slug, or there is none
and the name spells a letter or digit. -/
def CanSettle [Libraries] (thing : Named) : Prop :=
  (trim thing.slug ≠ "" ∧ ∀ c ∈ (trim thing.slug).toList, Slug.isSlugChar c = true) ∨
    (trim thing.slug = "" ∧ Slug.ofText thing.name ≠ "")

section
variable [Libraries]

theorem settle_eq (thing : Named) :
    thing.settle =
      if trim thing.slug ≠ "" then
        if Slug.isWellFormed (trim thing.slug) = true then
          (.ok (), thing.withSlug (trim thing.slug))
        else (.error (.invalidSlug (trim thing.slug)), thing)
      else if Slug.ofText thing.name = "" then (.error (.emptySlug thing.name), thing)
      else (.ok (), thing.withSlug (Slug.ofText thing.name)) := by
  have hget : (get : ExceptT ContentError (StateM Named) Named).run.run thing =
      pure (.ok thing, thing) := rfl
  simp only [settle, ensureSlug, ExceptT.run_bind, StateT.run_bind, hget, pure_bind]
  split_ifs <;> rfl

theorem settle_ok : thing.settle.1 = .ok () ↔ thing.CanSettle := by
  rw [settle_eq, CanSettle]
  by_cases hgiven : trim thing.slug = ""
  · by_cases hempty : Slug.ofText thing.name = "" <;> simp [hgiven, hempty]
  · have hiff : Slug.isWellFormed (trim thing.slug) = true ↔
        ∀ c ∈ (trim thing.slug).toList, Slug.isSlugChar c = true := by
      simp [Slug.isWellFormed_iff, hgiven]
    by_cases hformed : Slug.isWellFormed (trim thing.slug) = true
    · simpa [hgiven, hformed] using hiff.1 hformed
    · simpa [hgiven, hformed] using fun hall => hformed (hiff.2 hall)

/-- A slug that has been settled is well-formed, and nothing else has changed. -/
theorem settled {after : Named} (h : thing.settle = (.ok (), after)) :
    Slug.isWellFormed after.slug = true ∧ after = thing.withSlug after.slug := by
  rw [settle_eq] at h
  split_ifs at h with hgiven hformed hempty
  · obtain rfl := (Prod.mk.inj h).2
    simpa using hformed
  · cases h
  · cases h
  · obtain rfl := (Prod.mk.inj h).2
    simpa using Slug.isWellFormed_ofText hempty

theorem settle_error {e : ContentError} {after : Named}
    (h : thing.settle = (.error e, after)) : after = thing := by
  rw [settle_eq] at h
  split_ifs at h <;> cases h <;> rfl

theorem settle_of_isWellFormed (h : Slug.isWellFormed thing.slug = true) :
    thing.settle = (.ok (), thing) := by
  have hgiven := (Slug.isWellFormed_iff.1 h).1
  rw [settle_eq, Slug.trim_of_isWellFormed h, if_pos hgiven, if_pos h, withSlug_slug]

def prepare (now : Timestamp) : Named → Except ContentError Named
  | post p => (p.prepare now).map post
  | category c => c.prepare.map category
  | tag t => t.prepare.map tag

/-- What else is set on a thing before it is saved: the dates of a post. -/
def stamp (now : Timestamp) : Named → Named
  | post p => post { p.latchPublishedDate now with updatedAt := now }
  | category c => category c
  | tag t => tag t

def nameField : Named → String
  | post _ => "title"
  | category _ => "name"
  | tag _ => "name"

theorem settle_eq_settleSlug (thing : Named) :
    thing.settle =
      match settleSlug thing.name thing.slug with
      | .ok slug => (.ok (), thing.withSlug slug)
      | .error e => (.error e, thing) := by
  rw [settle_eq, settleSlug]
  by_cases hblank : isBlankText thing.slug = true
  · have hgiven : trim thing.slug = "" := (trim_eq_empty_iff _).2 hblank
    by_cases hempty : Slug.ofText thing.name = "" <;> simp [hblank, hgiven, hempty]
  · have hgiven : trim thing.slug ≠ "" := fun h => hblank ((trim_eq_empty_iff _).1 h)
    by_cases hformed : Slug.isWellFormed (trim thing.slug) = true <;>
      simp [hblank, hgiven, hformed]

theorem settleSlug_eq (thing : Named) :
    settleSlug thing.name thing.slug = thing.settle.1.map fun _ => thing.settle.2.slug := by
  rw [settle_eq_settleSlug]
  cases settleSlug thing.name thing.slug <;> simp [Except.map]

/-- Before a thing is saved, its name is checked and its slug is settled. -/
theorem prepare_eq (now : Timestamp) (thing : Named) :
    thing.prepare now = do
      require thing.nameField thing.name
      thing.settle.1
      return thing.settle.2.stamp now := by
  rw [settle_eq_settleSlug]
  cases thing with
  | post p =>
      simp only [prepare, Post.prepare, nameField, name, slug]
      cases require "title" p.title with
      | error e => rfl
      | ok u => cases settleSlug p.title p.slug <;> rfl
  | category c =>
      simp only [prepare, Category.prepare, nameField, name, slug]
      cases require "name" c.name with
      | error e => rfl
      | ok u => cases settleSlug c.name c.slug <;> rfl
  | tag t =>
      simp only [prepare, Tag.prepare, nameField, name, slug]
      cases require "name" t.name with
      | error e => rfl
      | ok u => cases settleSlug t.name t.slug <;> rfl

end

end Named

/-- However the characters that are not ASCII are spelled: a derived slug is canonical, and derived
anew it is the same. The slug of a thing is settled exactly if it can be; it then has the shape of
a slug and stays as it is under any other name. A thing whose slug cannot be settled is left as it
was. Whatever is saved has its name checked and its slug settled in this way. -/
theorem slugs_are_canonical [Libraries] :
    (∀ text, Slug.IsCanonical (Slug.ofText text) ∧
        Slug.ofText (Slug.ofText text) = Slug.ofText text) ∧
      ∀ thing : Named,
        (thing.settle.1 = .ok () ↔ thing.CanSettle) ∧
        (∀ after, thing.settle = (.ok (), after) →
          (after.slug ≠ "" ∧ ∀ c ∈ after.slug.toList, Slug.isSlugChar c = true) ∧
            after = thing.withSlug after.slug ∧
              ∀ name, (after.withName name).settle = (.ok (), after.withName name)) ∧
        (∀ e after, thing.settle = (.error e, after) → after = thing) ∧
        (settleSlug thing.name thing.slug = thing.settle.1.map fun _ => thing.settle.2.slug) ∧
        ∀ now, thing.prepare now = do
          require thing.nameField thing.name
          thing.settle.1
          return thing.settle.2.stamp now := by
  refine ⟨fun text => ?_, fun thing => ⟨Named.settle_ok, fun after h => ?_,
    fun e after h => Named.settle_error h, thing.settleSlug_eq, fun now => thing.prepare_eq now⟩⟩
  · have hcanonical := Slug.isCanonical_ofText text
    exact ⟨hcanonical, Slug.ofText_of_isCanonical hcanonical⟩
  · obtain ⟨hformed, honly⟩ := Named.settled h
    refine ⟨Slug.isWellFormed_iff.1 hformed, honly, fun name => ?_⟩
    have hrenamed : Slug.isWellFormed (after.withName name).slug = true := by
      rwa [Named.slug_withName]
    exact Named.settle_of_isWellFormed hrenamed

end Gazette
