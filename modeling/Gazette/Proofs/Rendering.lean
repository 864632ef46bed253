import Gazette.Proofs.Placeholders

/-!
# Rendering in one pass

A template is split by its placeholders, from the left: each is the first that starts after the one
before it has ended. Every template has exactly one such split. What is rendered is the split with
every placeholder replaced, and nothing that is put in has a part in where the others are found.
-/
namespace Gazette.Scaffold
open Gazette.Text

/-- A placeholder starts at the start of a text. -/
def Opens (cs : List Char) : Prop :=
  ∃ (placeholder : Placeholder) (source rest : List Char),
    placeholder.Source source ∧ cs = source ++ rest

/-- No placeholder starts within the first of two texts, not even one that ends in the second. -/
def OpensNowhere (cs more : List Char) : Prop :=
  ∀ skipped rest, cs = skipped ++ rest → rest ≠ [] → ¬ Opens (rest ++ more)

/-- A placeholder of a template, with how it is written and the text between it and the
placeholder before it. -/
structure Part where
  before : List Char
  placeholder : Placeholder
  source : List Char

/-- The split of a text into placeholders with what stands before them, and what stands after the
last one. -/
inductive IsSplit : List Char → List Part → List Char → Prop
  | last {text : List Char} : OpensNowhere text [] → IsSplit text [] text
  | next (part : Part) {parts : List Part} {after last : List Char} :
      part.placeholder.Source part.source →
      OpensNowhere part.before (part.source ++ after) →
      IsSplit after parts last →
      IsSplit (part.before ++ (part.source ++ after)) (part :: parts) last

theorem Placeholder.Source.ne_nil {placeholder : Placeholder} {source : List Char}
    (h : placeholder.Source source) : source ≠ [] := by
  cases h <;> simp

theorem Placeholder.Source.opens {placeholder : Placeholder} {source : List Char}
    (h : placeholder.Source source) (rest : List Char) : Opens (source ++ rest) :=
  ⟨placeholder, source, rest, h, rfl⟩

theorem opensNowhere_nil (more : List Char) : OpensNowhere [] more := by
  intro skipped rest hsame hrest
  exact absurd (List.append_eq_nil_iff.1 hsame.symm).2 hrest

theorem opensNowhere_cons {c : Char} {cs more : List Char} :
    OpensNowhere (c :: cs) more ↔ ¬ Opens (c :: cs ++ more) ∧ OpensNowhere cs more := by
  constructor
  · intro h
    refine ⟨h [] (c :: cs) rfl (by simp), fun skipped rest hsame => ?_⟩
    exact h (c :: skipped) rest (by rw [hsame, List.cons_append])
  · rintro ⟨hhere, hlater⟩ skipped rest hsame hrest
    cases skipped with
    | nil =>
        obtain rfl : c :: cs = rest := hsame
        exact hhere
    | cons d skipped => exact hlater skipped rest (List.cons.inj hsame).2 hrest

/-- A character at which no placeholder starts can be put before a split. -/
theorem IsSplit.exists_cons {c : Char} {cs last : List Char} {parts : List Part}
    (h : IsSplit cs parts last) (hc : ¬ Opens (c :: cs)) :
    ∃ parts' last', IsSplit (c :: cs) parts' last' := by
  cases h with
  | last hnowhere => exact ⟨[], c :: cs, .last (opensNowhere_cons.2 ⟨by simpa using hc, hnowhere⟩)⟩
  | @next part parts after last hsource hnowhere hafter =>
      let longer : Part := { part with before := c :: part.before }
      exact ⟨longer :: parts, last,
        .next longer hsource (opensNowhere_cons.2 ⟨hc, hnowhere⟩) hafter⟩

/-- Every text has a split. The induction is on its length, since a placeholder at its start takes
away more than one character. -/
theorem exists_isSplit (cs : List Char) : ∃ parts last, IsSplit cs parts last := by
  induction hlength : cs.length using Nat.strongRecOn generalizing cs with
  | ind length ih =>
      subst hlength
      by_cases hopens : Opens cs
      · obtain ⟨placeholder, source, rest, hsource, rfl⟩ := hopens
        have hpos : 0 < source.length := List.length_pos_iff.2 hsource.ne_nil
        obtain ⟨parts, last, hrest⟩ := ih rest.length (by simp; omega) rest rfl
        exact ⟨⟨[], placeholder, source⟩ :: parts, last,
          .next ⟨[], placeholder, source⟩ hsource (opensNowhere_nil _) hrest⟩
      · cases cs with
        | nil => exact ⟨[], [], .last (opensNowhere_nil _)⟩
        | cons c cs =>
            obtain ⟨parts, last, hcs⟩ := ih cs.length (by simp) cs rfl
            exact hcs.exists_cons hopens

/-- What stands before the first placeholder is settled by the text. -/
theorem before_eq {p q : Placeholder} {before other source source' after after' : List Char}
    (hp : p.Source source) (hq : q.Source source')
    (hbefore : OpensNowhere before (source ++ after))
    (hother : OpensNowhere other (source' ++ after'))
    (hsame : before ++ (source ++ after) = other ++ (source' ++ after')) : before = other := by
  rcases List.append_eq_append_iff.1 hsame with ⟨skipped, hskip, hrest⟩ | ⟨skipped, hskip, hrest⟩
  · by_cases hempty : skipped = []
    · simp [hskip, hempty]
    · exact absurd (hrest ▸ hp.opens after) (hother before skipped hskip hempty)
  · by_cases hempty : skipped = []
    · simp [hskip, hempty]
    · exact absurd (hrest ▸ hq.opens after') (hbefore other skipped hskip hempty)

theorem not_opensNowhere_append {p : Placeholder} {source : List Char} (hp : p.Source source)
    (before after : List Char) : ¬ OpensNowhere (before ++ (source ++ after)) [] := by
  intro hnowhere
  refine hnowhere before (source ++ after) rfl (by simp [hp.ne_nil]) ?_
  simpa using hp.opens after

theorem IsSplit.unique {cs last last' : List Char} {parts parts' : List Part}
    (h : IsSplit cs parts last) (h' : IsSplit cs parts' last') : parts = parts' ∧ last = last' := by
  induction h generalizing parts' last' with
  | last hnowhere =>
      cases h' with
      | last => exact ⟨rfl, rfl⟩
      | next _ hsource => exact absurd hnowhere (not_opensNowhere_append hsource _ _)
  | @next part parts after last hsource hnowhere hafter ih =>
      generalize hcs : part.before ++ (part.source ++ after) = cs at h'
      cases h' with
      | last hnowhere' => exact absurd hnowhere' (hcs ▸ not_opensNowhere_append hsource _ _)
      | @next part' parts' after' last' hsource' hnowhere' hafter' =>
          have hbefore := before_eq hsource hsource' hnowhere hnowhere' hcs
          rw [hbefore] at hcs
          obtain ⟨hplaceholder, hwritten, rfl⟩ :=
            hsource.unique hsource' (List.append_cancel_left hcs)
          obtain ⟨hparts, hlast⟩ := ih hafter'
          have hpart : part = part' := by
            cases part
            cases part'
            simp_all
          exact ⟨by rw [hpart, hparts], hlast⟩

def Part.pieces (part : Part) : List Piece :=
  part.before.map .char ++ [.slot part.placeholder part.source]

theorem piecesAfter_eq_drop (skipped : Nat) (cs : List Char) :
    piecesAfter skipped cs = piecesAfter 0 (cs.drop skipped) := by
  induction cs generalizing skipped with
  | nil => cases skipped <;> simp [piecesAfter]
  | cons c cs ih =>
      cases skipped with
      | zero => rfl
      | succ skipped => rw [piecesAfter, ih, List.drop_succ_cons]

theorem piecesAfter_source {placeholder : Placeholder} {source : List Char}
    (h : placeholder.Source source) (rest : List Char) :
    piecesAfter 0 (source ++ rest) = .slot placeholder source :: piecesAfter 0 rest := by
  have hread := h.read rest
  cases source with
  | nil => exact absurd rfl h.ne_nil
  | cons c source =>
      have hlength : (source ++ rest).length + 1 - rest.length = source.length + 1 := by
        simp
        omega
      rw [List.cons_append] at hread
      rw [List.cons_append, piecesAfter, hread]
      simp only [hlength, Nat.add_sub_cancel]
      rw [piecesAfter_eq_drop]
      simp

theorem piecesAfter_text {cs more : List Char} (h : OpensNowhere cs more) :
    piecesAfter 0 (cs ++ more) = cs.map .char ++ piecesAfter 0 more := by
  induction cs with
  | nil => simp
  | cons c cs ih =>
      obtain ⟨hhere, hlater⟩ := opensNowhere_cons.1 h
      have hread : readPlaceholder (c :: (cs ++ more)) = none := by
        rw [Option.eq_none_iff_forall_ne_some]
        rintro ⟨placeholder, rest⟩ hread
        obtain ⟨source, hsource, hsame⟩ := readPlaceholder_ok hread
        exact hhere ⟨placeholder, source, rest, hsource, hsame⟩
      rw [List.cons_append, piecesAfter, hread, ih hlater]
      simp

theorem IsSplit.pieces {cs last : List Char} {parts : List Part} (h : IsSplit cs parts last) :
    piecesAfter 0 cs = parts.flatMap Part.pieces ++ last.map .char := by
  induction h with
  | last hnowhere => simpa [piecesAfter] using piecesAfter_text hnowhere
  | next part hsource hnowhere _ ih =>
      rw [piecesAfter_text hnowhere, piecesAfter_source hsource, ih]
      simp [Part.pieces]

/-- What is put in place of a part: the value bound to its name, but an empty one only if the part
has no default, or else the default. -/
def Part.value? (params : Params) (part : Part) : Option String :=
  ((params.get? part.placeholder.name).filter fun value =>
    value ≠ "" ∨ part.placeholder.default = none).or part.placeholder.default

theorem Part.value?_eq (params : Params) (part : Part) :
    part.value? params = part.placeholder.resolve? params := by
  unfold value? Placeholder.resolve?
  cases params.get? part.placeholder.name with
  | none => rfl
  | some value =>
      cases part.placeholder.default with
      | none => simp
      | some default => by_cases h : value = "" <;> simp [h, Option.filter]

theorem render_chars (params : Params) (cs : List Char) :
    (cs.map Piece.char).flatMap (Piece.render params) = cs := by
  induction cs with
  | nil => rfl
  | cons c cs ih => simp [Piece.render, ih]

theorem render_plain {template : String} (h : pieces template = template.toList.map .char)
    (params : Params) : (render template params).text = template := by
  rw [render, h, render_chars, String.ofList_toList]

theorem filterMap_chars {α : Type} {f : Piece → Option α} (h : ∀ c, f (.char c) = none)
    (cs : List Char) : (cs.map Piece.char).filterMap f = [] := by
  simp [h]

theorem Part.render_pieces (params : Params) (part : Part) :
    part.pieces.flatMap (Piece.render params) =
      part.before ++ (part.value? params).elim part.source String.toList := by
  rw [pieces, List.flatMap_append, render_chars, value?_eq]
  cases h : part.placeholder.resolve? params <;> simp [Piece.render, h]

theorem Part.unresolved_pieces (params : Params) (part : Part) :
    part.pieces.filterMap (Piece.unresolved? params) =
      if part.value? params = none then [part.placeholder.name] else [] := by
  rw [pieces, List.filterMap_append, filterMap_chars fun _ => rfl, value?_eq]
  cases h : part.placeholder.resolve? params <;> simp [Piece.unresolved?, h]

theorem placeholders_of_pieces (parts : List Part) (last : List Char) :
    (parts.flatMap Part.pieces ++ last.map Piece.char).filterMap Piece.placeholder? =
      parts.map (·.placeholder) := by
  induction parts with
  | nil => exact filterMap_chars (fun _ => rfl) last
  | cons part parts ih =>
      have hbefore := filterMap_chars (f := Piece.placeholder?) (fun _ => rfl) part.before
      rw [List.flatMap_cons, List.append_assoc, List.filterMap_append, ih, Part.pieces,
        List.filterMap_append, hbefore]
      rfl

theorem unresolved_of_parts (params : Params) (parts : List Part) :
    (parts.flatMap Part.pieces).filterMap (Piece.unresolved? params) =
      (parts.filter fun part => part.value? params = none).map (·.placeholder.name) := by
  induction parts with
  | nil => rfl
  | cons part parts ih =>
      rw [List.flatMap_cons, List.filterMap_append, ih, Part.unresolved_pieces, List.filter_cons]
      by_cases h : part.value? params = none <;> simp [h]

theorem appendNew_eq (names more : List String) :
    appendNew names more = names ++ (more.filter (· ∉ names)).eraseDups := by
  induction more generalizing names with
  | nil => simp [appendNew]
  | cons name more ih =>
      rw [appendNew, ih]
      by_cases hname : name ∈ names
      · simp [hname]
      · simp [hname, List.eraseDups_cons, Bool.beq_eq_decide_eq, Bool.and_comm]

theorem appendNew_nil (names : List String) : appendNew [] names = names.eraseDups := by
  have hfilter : (names.filter fun name => name ∉ ([] : List String)) = names :=
    List.filter_eq_self.2 (by simp)
  rw [appendNew_eq, hfilter, List.nil_append]

/-- The placeholders of a template are those of its one split, in order, and rendering puts values
and defaults in their places at once. A placeholder without either stays as it is written, and its
name is listed where it first stays. -/
theorem render_of_split (template : String) (params : Params) :
    ∃ parts last, IsSplit template.toList parts last ∧
      (∀ parts' last', IsSplit template.toList parts' last' → parts' = parts ∧ last' = last) ∧
      placeholders template = parts.map (·.placeholder) ∧
      (render template params).text = String.ofList (parts.flatMap (fun part =>
        part.before ++ (part.value? params).elim part.source String.toList) ++ last) ∧
      (render template params).unresolved =
        ((parts.filter fun part => part.value? params = none).map
          (·.placeholder.name)).eraseDups := by
  obtain ⟨parts, last, hsplit⟩ := exists_isSplit template.toList
  have hpieces : pieces template = parts.flatMap Part.pieces ++ last.map .char := hsplit.pieces
  refine ⟨parts, last, hsplit, fun parts' last' hother => hother.unique hsplit, ?_, ?_, ?_⟩
  · rw [placeholders, hpieces, placeholders_of_pieces]
  · rw [render, hpieces, List.flatMap_append, List.flatMap_assoc, render_chars]
    simp only [Part.render_pieces]
  · rw [render, hpieces, appendNew_nil, List.filterMap_append, unresolved_of_parts,
      filterMap_chars fun _ => rfl, List.append_nil]

example : render "\x7b\x7b\x7b a \x7d\x7d-\x7b\x7bb|default:'\x7d'\x7d\x7d-\x7b\x7bc\x7d\x7d"
    ⟨[("a", "\x7b\x7bb")]⟩ = ⟨"\x7b\x7b\x7bb-\x7d-\x7b\x7bc\x7d\x7d", ["c"]⟩ := by decide

end Gazette.Scaffold
