import Gazette.Text.Decimal
import Mathlib.Algebra.Order.Ring.Nat

/-!
# Numbers in digits

A number is read back from its digits, and numbers that are filled up with zeros to the same width
stand in the order of their texts. The proofs go through the last digit, which is how the digits of
a number are found.
-/
namespace Gazette.Text

theorem isDigit_digitChar : ∀ n < 10, isDigit n.digitChar = true := by
  decide

theorem digitValue_digitChar : ∀ n < 10, digitValue n.digitChar = n := by
  decide

theorem decimal_of_lt {n : Nat} (h : n < 10) : decimal n = [n.digitChar] :=
  Nat.toDigits_of_lt_base h

theorem decimal_of_le {n : Nat} (h : 10 ≤ n) :
    decimal n = decimal (n / 10) ++ [(n % 10).digitChar] :=
  Nat.toDigits_of_base_le (by decide) h

theorem forall_isDigit_decimal (n : Nat) : ∀ c ∈ decimal n, isDigit c = true := by
  induction n using Nat.strongRecOn with
  | ind n ih =>
      intro c hc
      rcases Nat.lt_or_ge n 10 with hsmall | hlarge
      · rw [decimal_of_lt hsmall, List.mem_singleton] at hc
        rw [hc]
        exact isDigit_digitChar n hsmall
      · rw [decimal_of_le hlarge, List.mem_append, List.mem_singleton] at hc
        rcases hc with hc | rfl
        · exact ih (n / 10) (by omega) c hc
        · exact isDigit_digitChar (n % 10) (by omega)

theorem decimal_ne_nil (n : Nat) : decimal n ≠ [] := by
  rcases Nat.lt_or_ge n 10 with hsmall | hlarge
  · simp [decimal_of_lt hsmall]
  · simp [decimal_of_le hlarge]

theorem decimalValue_append (digits : List Char) {n : Nat} (h : n < 10) :
    decimalValue (digits ++ [n.digitChar]) = 10 * decimalValue digits + n := by
  simp [decimalValue, digitValue_digitChar n h]

theorem decimalValue_decimal (n : Nat) : decimalValue (decimal n) = n := by
  induction n using Nat.strongRecOn with
  | ind n ih =>
      rcases Nat.lt_or_ge n 10 with hsmall | hlarge
      · rw [decimal_of_lt hsmall]
        simpa [decimalValue] using digitValue_digitChar n hsmall
      · rw [decimal_of_le hlarge, decimalValue_append _ (Nat.mod_lt n (by decide)),
          ih (n / 10) (by omega), Nat.div_add_mod]

theorem decimalValue_padded (width n : Nat) : decimalValue (padded width n) = n := by
  have hzeros : ∀ count,
      (List.replicate count '0').foldl (fun n c => 10 * n + digitValue c) 0 = 0 := by
    intro count
    induction count with
    | zero => rfl
    | succ count ih => exact ih
  rw [padded, decimalValue, List.foldl_append, hzeros]
  exact decimalValue_decimal n

theorem decimalValue_append_zeros (digits : List Char) (count : Nat) :
    decimalValue (digits ++ List.replicate count '0') = decimalValue digits * 10 ^ count := by
  induction count with
  | zero => simp
  | succ count ih =>
      have hlast := decimalValue_append (digits ++ List.replicate count '0') (n := 0) (by decide)
      rw [List.replicate_succ', ← List.append_assoc]
      refine hlast.trans ?_
      rw [ih, Nat.pow_succ, Nat.add_zero, Nat.mul_comm, Nat.mul_assoc]

theorem forall_isDigit_padded (width n : Nat) : ∀ c ∈ padded width n, isDigit c = true := by
  intro c hc
  rcases List.mem_append.1 hc with hzero | hdigit
  · rw [List.eq_of_mem_replicate hzero]
    rfl
  · exact forall_isDigit_decimal n c hdigit

/-- Texts of equal length decide by themselves, whatever comes after. -/
theorem append_lt_append {xs ys : List Char} (hlength : xs.length = ys.length) (h : xs < ys)
    (as bs : List Char) : xs ++ as < ys ++ bs := by
  induction xs generalizing ys with
  | nil =>
      obtain rfl : ys = [] := List.length_eq_zero_iff.1 hlength.symm
      exact absurd h (List.not_lt_nil [])
  | cons x xs ih =>
      cases ys with
      | nil => exact absurd h (List.not_lt_nil _)
      | cons y ys =>
          rw [List.cons_append, List.cons_append, List.cons_lt_cons_iff]
          have hrest : xs.length = ys.length := Nat.succ.inj hlength
          exact (List.cons_lt_cons_iff.1 h).imp id fun h => ⟨h.1, ih hrest h.2⟩

theorem lt_of_append_lt {xs ys as : List Char} (hlength : xs.length = ys.length)
    (h : xs ++ as < ys ++ as) : xs < ys := by
  induction xs generalizing ys with
  | nil =>
      obtain rfl : ys = [] := List.length_eq_zero_iff.1 hlength.symm
      exact absurd h (List.lt_irrefl as)
  | cons x xs ih =>
      cases ys with
      | nil => cases hlength
      | cons y ys =>
          rw [List.cons_append, List.cons_append, List.cons_lt_cons_iff] at h
          have hrest : xs.length = ys.length := Nat.succ.inj hlength
          exact List.cons_lt_cons_iff.2 (h.imp id fun h => ⟨h.1, ih hrest h.2⟩)

theorem length_padded {width n : Nat} (hwidth : 0 < width) (h : n < 10 ^ width) :
    (padded width n).length = width := by
  have hdigits : (decimal n).length ≤ width :=
    (Nat.length_toDigits_le_iff (by decide) hwidth).2 h
  simp [padded, hdigits]

theorem readDigits_padded {width n : Nat} (hwidth : 0 < width) (h : n < 10 ^ width)
    (rest : List Char) : readDigits width (padded width n ++ rest) = some (n, rest) := by
  have htake : (padded width n ++ rest).take width = padded width n :=
    List.take_left' (length_padded hwidth h)
  have hdrop : (padded width n ++ rest).drop width = rest :=
    List.drop_left' (length_padded hwidth h)
  have hdigits : (padded width n).all isDigit = true :=
    List.all_eq_true.2 (forall_isDigit_padded width n)
  simp only [readDigits, htake, hdrop, length_padded hwidth h, hdigits, decimalValue_padded,
    and_self, if_true]

theorem padded_succ {width : Nat} (hwidth : 0 < width) (n : Nat) :
    padded (width + 1) n = padded width (n / 10) ++ [(n % 10).digitChar] := by
  unfold padded decimal
  by_cases h : n < 10
  · have hlast : n % 10 = n := Nat.mod_eq_of_lt h
    obtain ⟨rest, rfl⟩ : ∃ rest, width = rest + 1 := ⟨width - 1, by omega⟩
    rw [Nat.toDigits_of_lt_base h, Nat.div_eq_of_lt h, Nat.toDigits_zero, hlast]
    simp [List.replicate_succ']
  · rw [Nat.toDigits_of_base_le (by decide) (by omega)]
    simp

theorem padded_one {n : Nat} (h : n < 10) : padded 1 n = [n.digitChar] := by
  unfold padded decimal
  rw [Nat.toDigits_of_lt_base h]
  rfl

theorem padded_add {width : Nat} (hwidth : 0 < width) (count : Nat) (hcount : 0 < count)
    (n : Nat) :
    padded (width + count) n = padded width (n / 10 ^ count) ++ padded count (n % 10 ^ count) := by
  induction count, hcount using Nat.le_induction generalizing n with
  | base => rw [pow_one, padded_succ hwidth, padded_one (Nat.mod_lt n (by decide))]
  | succ count hcount ih =>
      have hdiv : n / 10 ^ (count + 1) = n / 10 / 10 ^ count := by
        rw [Nat.div_div_eq_div_mul, pow_succ']
      have hmod : n % 10 ^ (count + 1) / 10 = n / 10 % 10 ^ count := by
        rw [pow_succ', Nat.mod_mul_right_div_self]
      have hlast : n % 10 ^ (count + 1) % 10 = n % 10 :=
        Nat.mod_mod_of_dvd n (Dvd.intro_left (10 ^ count) rfl)
      rw [← Nat.add_assoc, padded_succ (by omega), ih, hdiv, padded_succ hcount, hmod, hlast,
        List.append_assoc]

theorem digitChar_lt : ∀ n < 10, ∀ m < n, m.digitChar < n.digitChar := by
  decide

theorem padded_lt {width m n : Nat} (h : m < n) (hn : n < 10 ^ width) :
    padded width m < padded width n := by
  induction width generalizing m n with
  | zero => omega
  | succ width ih =>
      rcases Nat.eq_zero_or_pos width with rfl | hwidth
      · have hlast := digitChar_lt n hn m h
        rw [padded_one (by omega), padded_one hn, List.cons_lt_cons_iff]
        exact .inl hlast
      · have hdiv : n / 10 < 10 ^ width := by
          rw [pow_succ] at hn
          omega
        rw [padded_succ hwidth, padded_succ hwidth]
        by_cases hless : m / 10 < n / 10
        · have hlength : (padded width (m / 10)).length = (padded width (n / 10)).length := by
            rw [length_padded hwidth hdiv, length_padded hwidth (hless.trans hdiv)]
          exact append_lt_append hlength (ih hless hdiv) _ _
        · have hsame : m / 10 = n / 10 := by omega
          have hlast := digitChar_lt (n % 10) (by omega) (m % 10) (by omega)
          rw [hsame]
          exact List.append_left_lt (List.cons_lt_cons_iff.2 (.inl hlast))

/-- Two texts that start with numbers of one width stand in the order of these numbers, or in the
order of what comes after equal ones. -/
theorem padded_append_lt {width m n : Nat} {as bs : List Char} (hwidth : 0 < width)
    (hn : n < 10 ^ width) (h : m < n ∨ m = n ∧ as < bs) :
    padded width m ++ as < padded width n ++ bs := by
  rcases h with hless | ⟨rfl, hrest⟩
  · have hlength : (padded width m).length = (padded width n).length := by
      rw [length_padded hwidth hn, length_padded hwidth (hless.trans hn)]
    exact append_lt_append hlength (padded_lt hless hn) as bs
  · exact List.append_left_lt hrest

theorem exists_padded_eq_cons (width n : Nat) :
    ∃ c cs, padded width n = c :: cs ∧ c.isDigit := by
  cases hdigits : padded width n with
  | nil => simp [padded, decimal] at hdigits
  | cons c cs =>
      have hc : c ∈ padded width n := hdigits ▸ List.mem_cons_self
      refine ⟨c, cs, rfl, ?_⟩
      rcases List.mem_append.1 hc with hzero | hdigit
      · rw [List.eq_of_mem_replicate hzero]
        rfl
      · exact Nat.isDigit_of_mem_toDigits (by decide) (by decide) hdigit

end Gazette.Text
