/-!
# Splitting character lists

Header values, query strings, paths and table rows are all lists of fields between separators.
-/
namespace Gazette.Text

/-- The fields of a list, cut at every separator; a list without a separator is one field. -/
def split (isSeparator : Char → Bool) : List Char → List (List Char)
  | [] => [[]]
  | c :: cs =>
    if isSeparator c then [] :: split isSeparator cs
    else
      match split isSeparator cs with
      | [] => [[c]]
      | field :: fields => (c :: field) :: fields

/-- The text before and after the first `separator`, if there is one. -/
def splitFirst (separator : Char) : List Char → Option (List Char × List Char)
  | [] => none
  | c :: cs =>
    if c = separator then some ([], cs)
    else (splitFirst separator cs).map fun (before, after) => (c :: before, after)

/-- The rest of a list after an initial part, if the list starts with that part. -/
def dropInitial (start : List Char) (cs : List Char) : Option (List Char) :=
  match start, cs with
  | [], cs => some cs
  | _ :: _, [] => none
  | s :: start, c :: cs => if s = c then dropInitial start cs else none

theorem split_of_forall {p : Char → Bool} {cs : List Char} (h : ∀ c ∈ cs, p c = false) :
    split p cs = [cs] := by
  induction cs with
  | nil => rfl
  | cons c cs ih =>
      obtain ⟨hc, hcs⟩ := List.forall_mem_cons.1 h
      rw [split, hc, ih hcs]
      rfl

theorem split_append_cons {p : Char → Bool} {field rest : List Char} {separator : Char}
    (hfield : ∀ c ∈ field, p c = false) (hseparator : p separator = true) :
    split p (field ++ separator :: rest) = field :: split p rest := by
  induction field with
  | nil => simp [split, hseparator]
  | cons c field ih =>
      obtain ⟨hc, hfield⟩ := List.forall_mem_cons.1 hfield
      rw [List.cons_append, split, hc, ih hfield]
      rfl

theorem splitFirst_eq_some_iff {separator : Char} {cs before after : List Char} :
    splitFirst separator cs = some (before, after) ↔
      separator ∉ before ∧ cs = before ++ separator :: after := by
  induction cs generalizing before with
  | nil => simp [splitFirst]
  | cons c cs ih =>
    by_cases hc : c = separator
    · cases before with
      | nil => simp [splitFirst, hc]
      | cons b before => simp only [splitFirst, hc]; grind
    · cases before with
      | nil => simp [splitFirst, hc]
      | cons b before =>
        have hstep : splitFirst separator (c :: cs) = some (b :: before, after) ↔
            splitFirst separator cs = some (before, after) ∧ c = b := by
          simp [splitFirst, hc]
        rw [hstep, ih]
        grind

theorem dropInitial_eq_some_iff {start cs rest : List Char} :
    dropInitial start cs = some rest ↔ cs = start ++ rest := by
  induction start generalizing cs with
  | nil => simp [dropInitial]
  | cons s start ih =>
    cases cs with
    | nil => simp [dropInitial]
    | cons c cs =>
      by_cases hc : s = c
      · simp [dropInitial, hc, ih]
      · simp [dropInitial, hc, Ne.symm hc]

@[simp] theorem dropInitial_append (start rest : List Char) :
    dropInitial start (start ++ rest) = some rest :=
  dropInitial_eq_some_iff.2 rfl

end Gazette.Text
