import Gazette.Scaffold.Render

/-!
# The grammar of placeholders

A placeholder is found by a scanner, but how one is written can be said without it: tokens with
white space around them, between double braces. The scanner reads exactly the texts of this
grammar, and a text can be read in one way only. A template is then split by its placeholders,
from the left, and what is rendered is this split with every placeholder replaced.
-/
namespace Gazette.Scaffold
open Gazette.Text

def Blanks (cs : List Char) : Prop :=
  ∀ c ∈ cs, isBlank c = true

/-- A text of tokens with white space around them. -/
inductive Spaced : List (List Char) → List Char → Prop
  | nil {blanks : List Char} : Blanks blanks → Spaced [] blanks
  | cons {blanks token text : List Char} {tokens : List (List Char)} :
      Blanks blanks → Spaced tokens text → Spaced (token :: tokens) (blanks ++ token ++ text)

inductive IsName : List Char → Prop
  | intro {c : Char} {cs : List Char} :
      isNameStart c = true → (∀ d ∈ cs, isNameChar d = true) → IsName (c :: cs)

/-- A value and how it is written between quotes. -/
inductive Quotes : List Char → List Char → Prop
  | single {value : List Char} : '\'' ∉ value → Quotes value ('\'' :: value ++ ['\''])
  | double {value : List Char} : '"' ∉ value → Quotes value ('"' :: value ++ ['"'])

inductive Placeholder.Source : Placeholder → List Char → Prop
  | bare {name inner : List Char} :
      IsName name → Spaced [name] inner →
      Source ⟨String.ofList name, none⟩ (['\x7b', '\x7b'] ++ inner ++ ['\x7d', '\x7d'])
  | withDefault {name value quoted inner : List Char} :
      IsName name → Quotes value quoted →
      Spaced [name, ['|'], ['d', 'e', 'f', 'a', 'u', 'l', 't'], [':'], quoted] inner →
      Source ⟨String.ofList name, some (String.ofList value)⟩
        (['\x7b', '\x7b'] ++ inner ++ ['\x7d', '\x7d'])

theorem spaced_nil_iff {text : List Char} : Spaced [] text ↔ Blanks text :=
  ⟨fun h => by cases h; assumption, .nil⟩

theorem Spaced.cons_inv {token text : List Char} {tokens : List (List Char)}
    (h : Spaced (token :: tokens) text) :
    ∃ blanks rest, Blanks blanks ∧ Spaced tokens rest ∧ text = blanks ++ token ++ rest := by
  cases h with
  | cons hblanks hrest => exact ⟨_, _, hblanks, hrest, rfl⟩

theorem isBlank_eq_false_of_isNameStart {c : Char} (h : isNameStart c = true) :
    isBlank c = false := by
  simp only [isNameStart, Bool.or_eq_true, Bool.and_eq_true, decide_eq_true_eq, beq_iff_eq,
    Char.le_def, UInt32.le_iff_toNat_le] at h
  have hbounds : ('A' : Char).val.toNat = 65 ∧ ('Z' : Char).val.toNat = 90 ∧
      ('a' : Char).val.toNat = 97 ∧ ('z' : Char).val.toNat = 122 := by decide
  rcases h with (h | h) | rfl
  · simp [isBlank, ← Char.toNat_val]
    omega
  · simp [isBlank, ← Char.toNat_val]
    omega
  · decide

theorem isNameChar_eq_false_of_isBlank {c : Char} (h : isBlank c = true) :
    isNameChar c = false := by
  cases hstart : isNameStart c with
  | true => exact absurd h (by simp [isBlank_eq_false_of_isNameStart hstart])
  | false =>
      have hdigits : ('0' : Char).val.toNat = 48 ∧ ('9' : Char).val.toNat = 57 := by decide
      simp only [isBlank, Char.toNat, Bool.or_eq_true, Bool.and_eq_true, decide_eq_true_eq,
        beq_iff_eq] at h
      simp only [isNameChar, hstart, Bool.false_or, Bool.and_eq_false_iff, decide_eq_false_iff_not,
        Char.le_def, UInt32.le_iff_toNat_le]
      omega

theorem skipBlanks_append {blanks rest : List Char} {c : Char} (hblanks : Blanks blanks)
    (hc : isBlank c = false) : skipBlanks (blanks ++ c :: rest) = c :: rest := by
  rw [skipBlanks, List.dropWhile_append_of_pos hblanks, List.dropWhile_cons_of_neg (by simp [hc])]

theorem blanks_before_skipBlanks (cs : List Char) :
    ∃ blanks, Blanks blanks ∧ cs = blanks ++ skipBlanks cs :=
  ⟨cs.takeWhile isBlank, List.all_eq_true.1 List.all_takeWhile,
    (List.takeWhile_append_dropWhile).symm⟩

/-- A token that does not start with white space is what comes after the white space. -/
theorem Spaced.skipBlanks {c : Char} {token text : List Char} {tokens : List (List Char)}
    (h : Spaced ((c :: token) :: tokens) text) (hc : isBlank c = false) (rest : List Char) :
    ∃ more, Spaced tokens more ∧
      Scaffold.skipBlanks (text ++ rest) = (c :: token) ++ (more ++ rest) := by
  obtain ⟨blanks, more, hblanks, hmore, rfl⟩ := h.cons_inv
  refine ⟨more, hmore, ?_⟩
  rw [List.append_assoc, List.append_assoc]
  exact skipBlanks_append hblanks hc

theorem head?_eq_of_blanks {blanks rest : List Char} {c : Char} (hblanks : Blanks blanks)
    (hc : isNameChar c = false) : ∀ d ∈ (blanks ++ c :: rest).head?, isNameChar d = false := by
  cases blanks with
  | nil => simpa using hc
  | cons b blanks => simpa using isNameChar_eq_false_of_isBlank (hblanks b (by simp))

theorem Spaced.skipName {name text : List Char} {tokens : List (List Char)}
    (h : Spaced (name :: tokens) text) (hname : IsName name) (rest : List Char) :
    ∃ more, Spaced tokens more ∧ Scaffold.skipBlanks (text ++ rest) = name ++ (more ++ rest) := by
  cases hname with
  | intro hc => exact h.skipBlanks (isBlank_eq_false_of_isNameStart hc) rest

theorem readName_append {name : List Char} (hname : IsName name) (rest : List Char)
    (hrest : ∀ c ∈ rest.head?, isNameChar c = false) :
    readName (name ++ rest) = some (name, rest) := by
  cases hname with
  | @intro c cs hc hcs =>
      have htake : rest.takeWhile isNameChar = [] := by
        cases rest with
        | nil => rfl
        | cons d rest => simp [hrest d (by simp)]
      have hdrop : rest.dropWhile isNameChar = rest := by
        cases rest with
        | nil => rfl
        | cons d rest => exact List.dropWhile_cons_of_neg (by simp [hrest d (by simp)])
      simp [readName, hc, List.takeWhile_append_of_pos hcs, List.dropWhile_append_of_pos hcs,
        htake, hdrop]

theorem readName_ok {cs name rest : List Char} (h : readName cs = some (name, rest)) :
    IsName name ∧ cs = name ++ rest := by
  cases cs with
  | nil => cases h
  | cons c cs =>
      simp only [readName] at h
      split at h
      · next hc =>
          cases h
          refine ⟨.intro hc (List.all_eq_true.1 List.all_takeWhile), ?_⟩
          simp [List.takeWhile_append_dropWhile]
      · cases h

theorem readLiteral_append {value quoted : List Char} (h : Quotes value quoted)
    (rest : List Char) : readLiteral (quoted ++ rest) = some (value, rest) := by
  cases h with
  | single hvalue => simpa [readLiteral] using splitFirst_eq_some_iff.2 ⟨hvalue, rfl⟩
  | double hvalue => simpa [readLiteral] using splitFirst_eq_some_iff.2 ⟨hvalue, rfl⟩

theorem readLiteral_ok {cs value rest : List Char} (h : readLiteral cs = some (value, rest)) :
    ∃ quoted, Quotes value quoted ∧ cs = quoted ++ rest := by
  rw [readLiteral.eq_def] at h
  split at h
  · obtain ⟨hvalue, rfl⟩ := splitFirst_eq_some_iff.1 h
    exact ⟨_, .single hvalue, by simp⟩
  · obtain ⟨hvalue, rfl⟩ := splitFirst_eq_some_iff.1 h
    exact ⟨_, .double hvalue, by simp⟩
  · cases h

/-- Everything that the scanner takes for the end of a placeholder starts with a brace. -/
theorem readDefault_of_brace (rest : List Char) :
    readDefault ('\x7d' :: rest) = some (none, '\x7d' :: rest) := by
  simp [readDefault]

theorem readDefault_append {value quoted text : List Char} (hquoted : Quotes value quoted)
    (htext : Spaced [['d', 'e', 'f', 'a', 'u', 'l', 't'], [':'], quoted] text) (rest : List Char) :
    readDefault ('|' :: text ++ '\x7d' :: rest) = some (some value, '\x7d' :: rest) := by
  obtain ⟨afterWord, hword, hskipWord⟩ := htext.skipBlanks (by decide) ('\x7d' :: rest)
  obtain ⟨afterColon, hcolon, hskipColon⟩ := hword.skipBlanks (by decide) ('\x7d' :: rest)
  obtain ⟨afterQuoted, hlast, hskipQuoted⟩ : ∃ more, Spaced [] more ∧
      skipBlanks (afterColon ++ '\x7d' :: rest) = quoted ++ (more ++ '\x7d' :: rest) := by
    cases hquoted with
    | single => exact hcolon.skipBlanks (by decide) _
    | double => exact hcolon.skipBlanks (by decide) _
  have hend : skipBlanks (afterQuoted ++ '\x7d' :: rest) = '\x7d' :: rest :=
    skipBlanks_append (spaced_nil_iff.1 hlast) (by decide)
  simp [readDefault, hskipWord, hskipColon, hskipQuoted, hend, readLiteral_append hquoted,
    dropInitial]

/-- What the scanner reads after a name is nothing or a default, with the white space before it
skipped already. -/
theorem readDefault_ok {cs rest : List Char} {default : Option (List Char)}
    (h : readDefault cs = some (default, rest)) :
    (default = none ∧ cs = rest) ∨
      ∃ value quoted text, default = some value ∧ Quotes value quoted ∧
        Spaced [['d', 'e', 'f', 'a', 'u', 'l', 't'], [':'], quoted] text ∧
        cs = '|' :: text ++ rest := by
  rw [readDefault.eq_def] at h
  split at h
  · next cs =>
      simp only [Option.bind_eq_bind, Option.bind_eq_some_iff, dropInitial_eq_some_iff,
        Prod.exists] at h
      obtain ⟨afterWord, hword, afterColon, hcolon, value, afterQuoted, hliteral, hend⟩ := h
      obtain ⟨quoted, hquoted, hliteral⟩ := readLiteral_ok hliteral
      cases hend
      obtain ⟨b₁, hb₁, hcs⟩ := blanks_before_skipBlanks cs
      obtain ⟨b₂, hb₂, hafterWord⟩ := blanks_before_skipBlanks afterWord
      obtain ⟨b₃, hb₃, hafterColon⟩ := blanks_before_skipBlanks afterColon
      obtain ⟨b₄, hb₄, hafterQuoted⟩ := blanks_before_skipBlanks afterQuoted
      refine .inr ⟨value, quoted, _, rfl, hquoted,
        .cons hb₁ (.cons hb₂ (.cons hb₃ (.nil hb₄))), ?_⟩
      have hall : cs = b₁ ++ (['d', 'e', 'f', 'a', 'u', 'l', 't'] ++ (b₂ ++ ([':'] ++ (b₃ ++
          (quoted ++ (b₄ ++ skipBlanks afterQuoted)))))) := by
        rw [← hafterQuoted, ← hliteral, ← hafterColon, ← hcolon, ← hafterWord, ← hword, ← hcs]
      rw [hall]
      simp
  · next cs hcs =>
      cases h
      exact .inl ⟨rfl, rfl⟩

/-- The scanner reads what is a placeholder by the grammar, whatever comes after it. -/
theorem Placeholder.Source.read {placeholder : Placeholder} {source : List Char}
    (h : placeholder.Source source) (rest : List Char) :
    readPlaceholder (source ++ rest) = some (placeholder, rest) := by
  cases h with
  | @bare name inner hname hinner =>
      obtain ⟨more, hmore, hskip⟩ := hinner.skipName hname (['\x7d', '\x7d'] ++ rest)
      have hblanks : Blanks more := spaced_nil_iff.1 hmore
      have hread := readName_append hname (more ++ (['\x7d', '\x7d'] ++ rest))
        (head?_eq_of_blanks hblanks (by decide))
      have hend : skipBlanks (more ++ (['\x7d', '\x7d'] ++ rest)) = ['\x7d', '\x7d'] ++ rest :=
        skipBlanks_append hblanks (by decide)
      have hdefault := readDefault_of_brace ('\x7d' :: rest)
      simp only [readPlaceholder, List.append_assoc, dropInitial_append, Option.bind_eq_bind,
        Option.bind_some, hskip, hread, hend]
      simp [hdefault, dropInitial]
  | @withDefault name value quoted inner hname hquoted hinner =>
      obtain ⟨more, hmore, hskip⟩ := hinner.skipName hname (['\x7d', '\x7d'] ++ rest)
      obtain ⟨blanks, text, hblanks, htext, rfl⟩ := hmore.cons_inv
      have hread := readName_append hname
        (blanks ++ '|' :: (text ++ (['\x7d', '\x7d'] ++ rest)))
        (head?_eq_of_blanks hblanks (by decide))
      have hend : skipBlanks (blanks ++ '|' :: (text ++ (['\x7d', '\x7d'] ++ rest))) =
          '|' :: (text ++ (['\x7d', '\x7d'] ++ rest)) :=
        skipBlanks_append hblanks (by decide)
      have hdefault := readDefault_append hquoted htext ('\x7d' :: rest)
      simp only [List.append_assoc, List.cons_append, List.nil_append] at hskip hread hend hdefault
      simp [readPlaceholder, hskip, hread, hend, hdefault, dropInitial]

theorem readPlaceholder_ok {cs rest : List Char} {placeholder : Placeholder}
    (h : readPlaceholder cs = some (placeholder, rest)) :
    ∃ source, placeholder.Source source ∧ cs = source ++ rest := by
  simp only [readPlaceholder, Option.bind_eq_bind, Option.bind_eq_some_iff,
    dropInitial_eq_some_iff, Prod.exists] at h
  obtain ⟨inner, rfl, name, afterName, hname, default, afterDefault, hdefault, closing, rfl, h⟩ := h
  cases h
  obtain ⟨hname, hafterBlanks⟩ := readName_ok hname
  obtain ⟨b₁, hb₁, hinner⟩ := blanks_before_skipBlanks inner
  obtain ⟨b₂, hb₂, hafterName⟩ := blanks_before_skipBlanks afterName
  rcases readDefault_ok hdefault with
    ⟨rfl, hnone⟩ | ⟨value, quoted, text, rfl, hquoted, htext, hsome⟩
  · refine ⟨_, .bare hname (.cons hb₁ (.nil hb₂)), ?_⟩
    have hall : inner = b₁ ++ (name ++ (b₂ ++ (['\x7d', '\x7d'] ++ rest))) := by
      rw [← hnone, ← hafterName, ← hafterBlanks, ← hinner]
    rw [hall]
    simp
  · refine ⟨_, .withDefault hname hquoted (.cons hb₁ (.cons hb₂ htext)), ?_⟩
    have hall : inner = b₁ ++ (name ++ (b₂ ++ ('|' :: text ++ (['\x7d', '\x7d'] ++ rest)))) := by
      rw [← hsome, ← hafterName, ← hafterBlanks, ← hinner]
    rw [hall]
    simp

theorem Placeholder.Source.unique {p q : Placeholder} {source other rest more : List Char}
    (h : p.Source source) (hother : q.Source other) (hsame : source ++ rest = other ++ more) :
    p = q ∧ source = other ∧ rest = more := by
  have hread := h.read rest
  rw [hsame, hother.read more] at hread
  cases hread
  exact ⟨rfl, List.append_cancel_right hsame, rfl⟩

end Gazette.Scaffold
