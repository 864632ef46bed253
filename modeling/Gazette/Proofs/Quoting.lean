import Gazette.Json.Token
import Gazette.Text.Blank
import Mathlib.Data.List.Basic

/-!
# Quoted texts

A JSON text is cut into tokens one character at a time, so what comes first can be scanned first. A
text between quotes, without quotes, backslashes and control characters of its own, is the content
of one token.
-/
namespace Gazette.Json

/-- The tokens that a part of a text completes, and the state after it. -/
def scanThrough (scan : Scan) : List Char → List Token × Scan
  | [] => ([], scan)
  | c :: cs =>
    let (tokens, next) := scan.step c
    let (more, last) := scanThrough next cs
    (tokens ++ more, last)

theorem scanThrough_append (scan : Scan) (cs rest : List Char) :
    scanThrough scan (cs ++ rest) =
      ((scanThrough scan cs).1 ++ (scanThrough (scanThrough scan cs).2 rest).1,
        (scanThrough (scanThrough scan cs).2 rest).2) := by
  induction cs generalizing scan with
  | nil => rfl
  | cons c cs ih => simp only [List.cons_append, scanThrough, ih, List.append_assoc]

theorem scanFrom_append (scan : Scan) (cs rest : List Char) :
    scanFrom scan (cs ++ rest) =
      (scanThrough scan cs).1 ++ scanFrom (scanThrough scan cs).2 rest := by
  induction cs generalizing scan with
  | nil => rfl
  | cons c cs ih =>
      show (scan.step c).1 ++ scanFrom (scan.step c).2 (cs ++ rest) = _
      rw [ih, ← List.append_assoc]
      rfl

def IsPlain (c : Char) : Prop :=
  c ≠ '"' ∧ c ≠ '\\' ∧ 0x20 ≤ c.toNat

instance (c : Char) : Decidable (IsPlain c) :=
  inferInstanceAs (Decidable (_ ∧ _ ∧ _))

/-- Whether all characters of a text are plain can be computed from the text alone, without a search
through all characters there are. -/
theorem forall_isPlain_iff (cs : List Char) :
    (∀ c ∈ cs, IsPlain c) ↔ (cs.all fun c => decide (IsPlain c)) = true := by
  simp

theorem scanThrough_plain {cs : List Char} (h : ∀ c ∈ cs, IsPlain c) (done : List Nat) :
    scanThrough (.text done) cs = ([], .text ((cs.map Char.toNat).reverse ++ done)) := by
  induction cs generalizing done with
  | nil => rfl
  | cons c cs ih =>
      obtain ⟨⟨hquote, hbackslash, hcontrol⟩, hrest⟩ := List.forall_mem_cons.1 h
      have hstep : (Scan.text done).step c = ([], .text (c.toNat :: done)) := by
        simp only [Scan.step, hquote, hbackslash, if_false, Nat.not_lt.2 hcontrol]
      rw [scanThrough, hstep]
      simp [ih hrest]

theorem joinSurrogates_map_toNat (cs : List Char) :
    joinSurrogates (cs.map Char.toNat) = some cs := by
  induction cs with
  | nil => rfl
  | cons c cs ih =>
      have hvalid : c.toNat < 0xd800 ∨ 0xdfff < c.toNat := c.valid.imp_right And.left
      have hhigh : (decide (0xd800 ≤ c.toNat) && decide (c.toNat < 0xdc00)) = false := by
        simp only [Bool.and_eq_false_iff, decide_eq_false_iff_not]
        omega
      have hlow : (decide (0xdc00 ≤ c.toNat) && decide (c.toNat < 0xe000)) = false := by
        simp only [Bool.and_eq_false_iff, decide_eq_false_iff_not]
        omega
      rw [List.map_cons, joinSurrogates.eq_def]
      simp [hhigh, hlow, ih]

theorem toNat_of_mem_repr {n : Nat} {c : Char} (h : c ∈ n.repr.toList) :
    48 ≤ c.toNat ∧ c.toNat ≤ 57 := by
  rw [Nat.toList_repr] at h
  have hdigit := Nat.isDigit_of_mem_toDigits (by decide) (by decide) h
  simp only [Char.isDigit, Bool.and_eq_true, decide_eq_true_eq] at hdigit
  exact hdigit

theorem isPlain_of_mem_repr {n : Nat} {c : Char} (h : c ∈ n.repr.toList) : IsPlain c := by
  obtain ⟨hlow, hhigh⟩ := toNat_of_mem_repr h
  refine ⟨?_, ?_, Nat.le_trans (by decide) hlow⟩
  · rintro rfl
    exact absurd hlow (by decide)
  · rintro rfl
    exact absurd hhigh (by decide)

theorem isBlankText_repr (n : Nat) : Text.isBlankText n.repr = false := by
  obtain ⟨c, hc⟩ := List.exists_mem_of_ne_nil n.repr.toList (by simp [Nat.toList_repr])
  obtain ⟨hlow, hhigh⟩ := toNat_of_mem_repr hc
  refine List.all_eq_false.2 ⟨c, hc, ?_⟩
  simp only [Text.isBlank, Bool.or_eq_true, Bool.and_eq_true, decide_eq_true_eq, beq_iff_eq]
  omega

theorem step_quote (s : String) :
    (Scan.text (s.toList.map Char.toNat).reverse).step '"' = ([.text (some s)], .between) := by
  rw [Scan.step, if_pos rfl, List.reverse_reverse, joinSurrogates_map_toNat]
  simp

/-- A plain text between quotes is one token. What stands before its first quote is scanned before,
and what stands after its last quote is scanned from there. -/
theorem tokenize_quoted {before text : String} {tokens : List Token}
    (hbefore : scanThrough .between before.toList = (tokens, .text []))
    (htext : ∀ c ∈ text.toList, IsPlain c) (after : String) :
    tokenize (before ++ text ++ "\"" ++ after) = tokens ++ .text (some text) :: tokenize after := by
  have hquote : "\"".toList = ['"'] := by decide
  rw [tokenize]
  simp only [String.toList_append, List.append_assoc, hquote, List.singleton_append]
  rw [scanFrom_append, hbefore, scanFrom_append, scanThrough_plain htext, List.append_nil,
    scanFrom, step_quote]
  rfl

end Gazette.Json
