import Gazette.Scaffold.Generate

/-!
# Checking and generating

The checker and the generator go through the same templates on their own. They agree: what the
checker reports as unresolved is what the files that are made leave open, and it is what decides
whether a strict generator makes the same files or none.
-/
namespace Gazette.Scaffold
open Gazette.Files

variable {template : Template} {templates : TemplateSet} {params : Params} {strict : Bool}
  {file : ProjectFile} {files : List ProjectFile}

def Template.made (template : Template) (params : Params) : ProjectFile where
  path := ⟨(render template.output params).text⟩
  contents := (render template.contents params).text
  template := template.fileName
  unresolved := template.unresolved params

theorem Template.generate_eq [Libraries] (template : Template) (params : Params) (strict : Bool) :
    template.generate params strict =
      if (template.made params).path.isInside = false then
        .error (.unsafePath (template.made params).path)
      else if strict = true ∧ (template.made params).unresolved ≠ [] then
        .error (.unresolved template.fileName (template.made params).unresolved)
      else if (template.made params).path.extension? = some "json" ∧
          Json.isValid (template.made params).contents = false then
        .error (.invalidJson (template.made params).path
          (Libraries.jsonFault (template.made params).contents))
      else .ok (template.made params) := by
  simp only [generate, made, Bool.not_eq_true', Bool.and_eq_true, List.isEmpty_eq_false_iff,
    decide_eq_true_eq, bind, Except.bind]
  rfl

theorem Template.generate_ok [Libraries] (h : template.generate params strict = .ok file) :
    file = template.made params ∧ (strict = true → file.unresolved = []) := by
  rw [generate_eq] at h
  split at h
  · cases h
  · split at h
    · cases h
    · next hopen =>
        split at h
        · cases h
        · cases h
          exact ⟨rfl, fun hstrict => Decidable.not_not.1 fun hnames => hopen ⟨hstrict, hnames⟩⟩

/-- Where a template makes a file, being strict decides only about what is left open in it. -/
theorem Template.generate_strict [Libraries] (h : template.generate params false = .ok file) :
    template.generate params true =
      if file.unresolved = [] then .ok file
      else .error (.unresolved file.template file.unresolved) := by
  obtain ⟨rfl, -⟩ := generate_ok h
  rw [generate_eq] at h ⊢
  simp only [Bool.false_eq_true, false_and, if_false] at h
  split at h
  · cases h
  · next hinside =>
      split at h
      · cases h
      · next hjson =>
          by_cases hopen : (template.made params).unresolved = []
          · simp [hinside, hopen, hjson]
          · simp [hinside, hopen]
            rfl

theorem Template.generate_of_strict [Libraries] (h : template.generate params true = .ok file) :
    template.generate params false = .ok file ∧ file.unresolved = [] := by
  obtain ⟨rfl, hnames⟩ := generate_ok h
  rw [generate_eq] at h ⊢
  simp only [hnames rfl] at h
  exact ⟨by simpa using h, hnames rfl⟩

/-- What files leave open: the name of each template that has something open in its file, with the
open names. -/
def openFiles (files : List ProjectFile) : List (String × List String) :=
  (files.filter fun file => file.unresolved ≠ []).map fun file => (file.template, file.unresolved)

theorem openFiles_cons (file : ProjectFile) (files : List ProjectFile) :
    openFiles (file :: files) =
      if file.unresolved = [] then openFiles files
      else (file.template, file.unresolved) :: openFiles files := by
  by_cases h : file.unresolved = [] <;> simp [openFiles, h]

/-- The checker reports what the files would leave open that the templates come to, also where they
cannot be made. -/
theorem check_unresolved (templates : TemplateSet) (params : Params) :
    (check templates params).unresolved = openFiles (templates.map (·.made params)) := by
  rw [check]
  induction templates with
  | nil => rfl
  | cons template templates ih =>
      have hmade : (template.made params).unresolved = template.unresolved params := rfl
      rw [List.filterMap_cons, List.map_cons, openFiles_cons, ← ih, hmade]
      by_cases h : template.unresolved params = [] <;> simp [h, Template.made]

section
variable [Libraries]

theorem generate_cons (template : Template) (templates : TemplateSet) (params : Params)
    (strict : Bool) : generate (template :: templates) params strict = do
      let file ← template.generate params strict
      let files ← generate templates params strict
      return file :: files :=
  List.mapM_cons

theorem generate_cons_ok (h : generate (template :: templates) params strict = .ok files) :
    ∃ file rest, template.generate params strict = .ok file ∧
      generate templates params strict = .ok rest ∧ files = file :: rest := by
  rw [generate_cons] at h
  cases hfile : template.generate params strict with
  | error e =>
      rw [hfile] at h
      cases h
  | ok file =>
      cases hrest : generate templates params strict with
      | error e =>
          rw [hfile, hrest] at h
          cases h
      | ok rest =>
          rw [hfile, hrest] at h
          cases h
          exact ⟨file, rest, rfl, rfl, rfl⟩

theorem generate_ok (h : generate templates params strict = .ok files) :
    files = templates.map (·.made params) := by
  induction templates generalizing files with
  | nil =>
      cases h
      rfl
  | cons template templates ih =>
      obtain ⟨file, rest, hfile, hrest, rfl⟩ := generate_cons_ok h
      rw [List.map_cons, ← ih hrest, (Template.generate_ok hfile).1]

/-- A strict generator gives up at the first of the files that has something left open in it. -/
theorem generate_strict (h : generate templates params false = .ok files) :
    generate templates params true =
      match openFiles files with
      | [] => .ok files
      | (template, names) :: _ => .error (.unresolved template names) := by
  induction templates generalizing files with
  | nil =>
      cases h
      rfl
  | cons template templates ih =>
      obtain ⟨file, rest, hfile, hrest, rfl⟩ := generate_cons_ok h
      rw [generate_cons, Template.generate_strict hfile, openFiles_cons]
      by_cases hopen : file.unresolved = []
      · rw [if_pos hopen, if_pos hopen, ih hrest]
        cases openFiles rest <;> rfl
      · rw [if_neg hopen, if_neg hopen]
        rfl

theorem generate_of_strict (h : generate templates params true = .ok files) :
    generate templates params false = .ok files ∧ openFiles files = [] := by
  induction templates generalizing files with
  | nil =>
      cases h
      exact ⟨rfl, rfl⟩
  | cons template templates ih =>
      obtain ⟨file, rest, hfile, hrest, rfl⟩ := generate_cons_ok h
      obtain ⟨hfile, hopen⟩ := Template.generate_of_strict hfile
      obtain ⟨hrest, hnone⟩ := ih hrest
      refine ⟨?_, ?_⟩
      · rw [generate_cons, hfile, hrest]
        rfl
      · rw [openFiles_cons, if_pos hopen, hnone]

/-- The checker and both generators agree. Where files are made, the report lists in the order of
the templates what is left open in them; a strict generator then makes the same files if the report
lists nothing, and fails with its first entry otherwise. -/
theorem check_agrees (templates : TemplateSet) (params : Params) :
    (∀ files, generate templates params false = .ok files →
      files.map (·.template) = templates.map (·.fileName) ∧
      (check templates params).unresolved = openFiles files ∧
      generate templates params true =
        match openFiles files with
        | [] => .ok files
        | (template, names) :: _ => .error (.unresolved template names)) ∧
    ∀ files, generate templates params true = .ok files →
      generate templates params false = .ok files ∧
      (check templates params).unresolved = [] := by
  refine ⟨fun files h => ⟨?_, ?_, generate_strict h⟩, fun files h => ?_⟩
  · rw [generate_ok h, List.map_map]
    rfl
  · rw [check_unresolved, generate_ok h]
  · obtain ⟨hfiles, hopen⟩ := generate_of_strict h
    rw [check_unresolved, ← generate_ok h]
    exact ⟨hfiles, hopen⟩

end

def Template.letter : Template where
  fileName := "letter.md.tpl"
  output := "letters/\x7b\x7b to \x7d\x7d.md"
  contents := "Dear \x7b\x7b to \x7d\x7d, \x7b\x7b wish|default:'all the best' \x7d\x7d"

attribute [local instance] Libraries.bare

theorem check_agrees_of_letter :
    generate [.letter] {} true = .error (.unresolved "letter.md.tpl" ["to"]) ∧
    (check [.letter] {}).unresolved = [("letter.md.tpl", ["to"])] ∧
    generate [.letter] ⟨[("to", "Ann")]⟩ false =
      .ok [⟨⟨"letters/Ann.md"⟩, "Dear Ann, all the best", "letter.md.tpl", []⟩] ∧
    (check [.letter] ⟨[("to", "Ann")]⟩).unresolved = [] := by
  obtain ⟨-, hcheck, hstrict⟩ := (check_agrees [.letter] {}).1 [Template.letter.made {}] rfl
  obtain ⟨hfiles, hnone⟩ := (check_agrees [.letter] ⟨[("to", "Ann")]⟩).2
    [⟨⟨"letters/Ann.md"⟩, "Dear Ann, all the best", "letter.md.tpl", []⟩] rfl
  exact ⟨hstrict, hcheck, hfiles, hnone⟩

end Gazette.Scaffold
