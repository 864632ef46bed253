import Gazette.Proofs.Generation
import Gazette.Proofs.Rendering
import Mathlib.Data.List.Basic

/-!
# Which parameters matter

A parameter matters to a set of templates if its name stands in one of their placeholders. The
checker reports the names of the others, as unused or as names that no placeholder could have. It
finds the first by comparing names and the second by a grammar of its own, and yet what it reports
is all that could be bound to anything else: with other parameters that agree on the names that
matter, the same files are made, or the same error is given.
-/
namespace Gazette.Scaffold

variable {template : Template} {templates : TemplateSet} {params other : Params} {name : String}

/-- A name stands in one of the placeholders that a text is split by. -/
def Mentions (text name : String) : Prop :=
  ∃ parts last, IsSplit text.toList parts last ∧ ∃ part ∈ parts, part.placeholder.name = name

def Template.Mentions (template : Template) (name : String) : Prop :=
  Scaffold.Mentions template.output name ∨ Scaffold.Mentions template.contents name

/-- Parameters that bind every name in the placeholders of some templates to the same value, or
neither of them to any. -/
def Agree (templates : TemplateSet) (params other : Params) : Prop :=
  ∀ template ∈ templates, ∀ name, template.Mentions name → params.get? name = other.get? name

theorem Agree.symm (h : Agree templates params other) : Agree templates other params :=
  fun template hmem name hname => (h template hmem name hname).symm

theorem IsSplit.placeholders {text : String} {parts : List Part} {last : List Char}
    (h : IsSplit text.toList parts last) : placeholders text = parts.map (·.placeholder) := by
  rw [Scaffold.placeholders, Scaffold.pieces, h.pieces, placeholders_of_pieces]

theorem mentions_iff (text name : String) :
    Mentions text name ↔ name ∈ (placeholders text).map (·.name) := by
  constructor
  · rintro ⟨parts, last, hsplit, part, hpart, rfl⟩
    rw [hsplit.placeholders, List.map_map]
    exact List.mem_map_of_mem hpart
  · intro hname
    obtain ⟨parts, last, hsplit⟩ := exists_isSplit text.toList
    rw [hsplit.placeholders, List.map_map] at hname
    obtain ⟨part, hpart, rfl⟩ := List.mem_map.1 hname
    exact ⟨parts, last, hsplit, part, hpart, rfl⟩

theorem Template.mentions_iff (template : Template) (name : String) :
    template.Mentions name ↔ name ∈ template.names := by
  rw [Template.Mentions, Template.names, List.map_append, List.mem_append,
    Scaffold.mentions_iff, Scaffold.mentions_iff]

/-- The grammar of the names of parameters is that of the names in placeholders. -/
theorem isParamName_iff (name : String) : isParamName name = true ↔ IsName name.toList := by
  rw [isParamName]
  constructor
  · intro h
    cases hchars : name.toList with
    | nil => simp [hchars] at h
    | cons c cs =>
        simp only [hchars, Bool.and_eq_true, List.all_eq_true] at h
        exact .intro h.1 h.2
  · intro h
    cases hchars : name.toList with
    | nil =>
        rw [hchars] at h
        cases h
    | cons c cs =>
        rw [hchars] at h
        cases h with
        | intro hc hcs => simpa using ⟨hc, hcs⟩

theorem Placeholder.Source.isName {placeholder : Placeholder} {source : List Char}
    (h : placeholder.Source source) : IsName placeholder.name.toList := by
  cases h with
  | bare hname => simpa using hname
  | withDefault hname => simpa using hname

theorem IsSplit.source_of_mem {cs last : List Char} {parts : List Part} {part : Part}
    (h : IsSplit cs parts last) (hmem : part ∈ parts) : part.placeholder.Source part.source := by
  induction h with
  | last => cases hmem
  | next first hsource _ _ ih =>
      rcases List.mem_cons.1 hmem with rfl | hmem
      · exact hsource
      · exact ih hmem

theorem Mentions.isParamName {text : String} (h : Mentions text name) :
    isParamName name = true := by
  obtain ⟨parts, last, hsplit, part, hpart, rfl⟩ := h
  exact (isParamName_iff _).2 (hsplit.source_of_mem hpart).isName

theorem Template.Mentions.isParamName (h : template.Mentions name) : isParamName name = true :=
  h.elim Scaffold.Mentions.isParamName Scaffold.Mentions.isParamName

theorem Params.mem_names_iff (params : Params) (name : String) :
    name ∈ params.names ↔ (params.get? name).isSome = true := by
  rw [names, get?, List.mem_map, ← Option.ne_none_iff_isSome, Ne, List.lookup_eq_none_iff]
  simp

/-- What the checker reports about the parameters themselves is what is bound and not mentioned. -/
theorem mem_reported_iff (templates : TemplateSet) (params : Params) (name : String) :
    (name ∈ (check templates params).unused ∨ name ∈ (check templates params).invalidNames) ↔
      (params.get? name).isSome = true ∧ ∀ template ∈ templates, ¬ template.Mentions name := by
  have hnames : name ∉ templates.flatMap Template.names ↔
      ∀ template ∈ templates, ¬ template.Mentions name := by
    simp [Template.mentions_iff]
  simp only [check, List.mem_filter, Bool.and_eq_true, Bool.not_eq_true',
    List.contains_eq_mem, decide_eq_false_iff_not, hnames, Params.mem_names_iff]
  constructor
  · rintro (⟨hbound, -, hunused⟩ | ⟨hbound, hinvalid⟩)
    · exact ⟨hbound, hunused⟩
    · refine ⟨hbound, fun template _ hmentions => ?_⟩
      rw [hmentions.isParamName] at hinvalid
      cases hinvalid
  · rintro ⟨hbound, hunused⟩
    cases hname : isParamName name with
    | true => exact .inl ⟨hbound, rfl, hunused⟩
    | false => exact .inr ⟨hbound, rfl⟩

theorem Part.value?_congr {part : Part}
    (h : params.get? part.placeholder.name = other.get? part.placeholder.name) :
    part.value? params = part.value? other := by
  rw [value?, value?, h]

theorem Part.pieces_congr {part : Part}
    (h : params.get? part.placeholder.name = other.get? part.placeholder.name) :
    part.pieces.flatMap (Piece.render params) = part.pieces.flatMap (Piece.render other) ∧
      part.pieces.filterMap (Piece.unresolved? params) =
        part.pieces.filterMap (Piece.unresolved? other) := by
  simp only [render_pieces, unresolved_pieces, value?_congr h, and_self]

theorem render_congr {text : String}
    (h : ∀ name, Mentions text name → params.get? name = other.get? name) :
    render text params = render text other := by
  obtain ⟨parts, last, hsplit⟩ := exists_isSplit text.toList
  have hparts : ∀ part ∈ parts, params.get? part.placeholder.name =
      other.get? part.placeholder.name := fun part hpart =>
    h _ ⟨parts, last, hsplit, part, hpart, rfl⟩
  have htext : (parts.flatMap Part.pieces).flatMap (Piece.render params) =
      (parts.flatMap Part.pieces).flatMap (Piece.render other) := by
    rw [List.flatMap_assoc, List.flatMap_assoc]
    exact List.flatMap_congr fun part hpart => (Part.pieces_congr (hparts part hpart)).1
  have hopen : (parts.flatMap Part.pieces).filterMap (Piece.unresolved? params) =
      (parts.flatMap Part.pieces).filterMap (Piece.unresolved? other) := by
    rw [List.filterMap_flatMap, List.filterMap_flatMap]
    exact List.flatMap_congr fun part hpart => (Part.pieces_congr (hparts part hpart)).2
  have hchars : ∀ params : Params,
      (last.map Piece.char).filterMap (Piece.unresolved? params) = [] :=
    fun params => filterMap_chars (fun _ => rfl) last
  simp only [render, pieces, hsplit.pieces, List.flatMap_append, List.filterMap_append, htext,
    hopen, hchars, render_chars]

theorem Template.made_congr
    (h : ∀ name, template.Mentions name → params.get? name = other.get? name) :
    template.made params = template.made other := by
  have houtput : render template.output params = render template.output other :=
    render_congr fun name hname => h name (.inl hname)
  have hcontents : render template.contents params = render template.contents other :=
    render_congr fun name hname => h name (.inr hname)
  rw [made, made, unresolved, unresolved, houtput, hcontents]

theorem Template.generate_congr [Libraries] (h : template.made params = template.made other)
    (strict : Bool) :
    template.generate params strict = template.generate other strict := by
  rw [generate_eq, generate_eq, h]

theorem generate_congr [Libraries] (h : Agree templates params other) (strict : Bool) :
    generate templates params strict = generate templates other strict := by
  induction templates with
  | nil => rw [generate, generate, List.mapM_nil, List.mapM_nil]
  | cons template templates ih =>
      obtain ⟨hhere, hlater⟩ := List.forall_mem_cons.1 h
      rw [generate_cons, generate_cons, ih hlater,
        Template.generate_congr (Template.made_congr hhere)]

/-- The parameters that the checker reports as unused or invalid are those that are bound and stand
in no placeholder. What they are bound to, and whether, has no part in what is made: parameters that
agree on the names in placeholders give the same files or the same error, strict or not, and the
same report of what stays open. -/
theorem unmentioned_irrelevant [Libraries] (templates : TemplateSet) (params : Params) :
    (∀ name,
      (name ∈ (check templates params).unused ∨ name ∈ (check templates params).invalidNames) ↔
        (params.get? name).isSome = true ∧ ∀ template ∈ templates, ¬ template.Mentions name) ∧
    ∀ other, Agree templates params other →
      (∀ strict, generate templates other strict = generate templates params strict) ∧
      (check templates other).unresolved = (check templates params).unresolved := by
  refine ⟨mem_reported_iff templates params, fun other hagree => ⟨fun strict => ?_, ?_⟩⟩
  · exact generate_congr hagree.symm strict
  · have hmade : templates.map (·.made other) = templates.map (·.made params) :=
      List.map_congr_left fun template hmem => Template.made_congr (hagree.symm template hmem)
    rw [check_unresolved, check_unresolved, hmade]

attribute [local instance] Libraries.bare

/-- Braces around a name do not make it one that is looked up. -/
theorem unmentioned_irrelevant_of_letter :
    (∀ strict, generate [.letter] ⟨[("from", "Bob"), ("to", "Ann"), ("\x7b\x7bto\x7d\x7d", "x")]⟩
      strict = generate [.letter] ⟨[("to", "Ann")]⟩ strict) ∧
    ¬ Template.letter.Mentions "from" := by
  obtain ⟨hreported, hirrelevant⟩ := unmentioned_irrelevant [.letter] ⟨[("to", "Ann")]⟩
  have hagree : Agree [.letter] ⟨[("to", "Ann")]⟩
      ⟨[("from", "Bob"), ("to", "Ann"), ("\x7b\x7bto\x7d\x7d", "x")]⟩ := by
    intro template hmem name hname
    obtain rfl := List.mem_singleton.1 hmem
    have hnames : Template.letter.names = ["to", "to", "wish"] := by decide
    simp only [Template.mentions_iff, hnames, List.mem_cons, List.not_mem_nil, or_false] at hname
    rcases hname with rfl | rfl | rfl <;> decide
  have hfrom := (unmentioned_irrelevant [.letter] ⟨[("from", "Bob")]⟩).1 "from"
  exact ⟨(hirrelevant _ hagree).1, (hfrom.1 (.inl (by decide))).2 _ (by simp)⟩

end Gazette.Scaffold
