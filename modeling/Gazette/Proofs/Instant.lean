import Gazette.Proofs.Calendar
import Gazette.Proofs.Digits
import Gazette.Time.Timestamp
import Mathlib.Data.String.Basic

/-!
# The order of instants

Instants are stored as text and compared as text. From the year 0 to the year 9999 all fields but
the fraction of the second have a fixed width, so these texts stand in the order of the instants.
A fraction is cut behind its last digit that counts, which is right because the sign of the offset
that follows is less than any digit.
-/
namespace Gazette.Timestamp
open Text

def IsBefore (a b : Timestamp) : Prop :=
  a.seconds < b.seconds ∨ a.seconds = b.seconds ∧ a.nanos < b.nanos

/-- Whether the year of an instant is written with four digits and no sign. -/
def HasPlainYear (t : Timestamp) : Prop :=
  0 ≤ t.date.year ∧ t.date.year ≤ 9999

instance (t : Timestamp) : Decidable t.HasPlainYear :=
  inferInstanceAs (Decidable (_ ∧ _))

def offset : List Char :=
  ['+', '0', '0', ':', '0', '0']

/-- A number in groups of three digits, up to the last one that is not zero, and the offset. -/
def groups : Nat → Nat → List Char
  | 0, _ => offset
  | count + 1, n =>
    if n = 0 then offset else padded 3 (n / 1000 ^ count) ++ groups count (n % 1000 ^ count)

theorem offset_lt_padded (width n : Nat) (cs : List Char) : offset < padded width n ++ cs := by
  obtain ⟨c, rest, hdigits, hc⟩ := exists_padded_eq_cons width n
  have hplus : '+' < c := by
    have hzero : '0' ≤ c := by
      simp only [Char.isDigit, Bool.and_eq_true, decide_eq_true_eq] at hc
      exact hc.1
    exact lt_of_lt_of_le (by decide) hzero
  rw [hdigits, List.cons_append]
  exact List.cons_lt_cons_iff.2 (.inl hplus)

theorem groups_lt {count m n : Nat} (h : m < n) (hn : n < 1000 ^ count) :
    groups count m < groups count n := by
  induction count generalizing m n with
  | zero => omega
  | succ count ih =>
      have hpos : 0 < 1000 ^ count := Nat.pow_pos (by decide)
      have hfirst : n / 1000 ^ count < 10 ^ 3 := Nat.div_lt_of_lt_mul hn
      rw [groups, groups, if_neg (by omega : n ≠ 0)]
      split
      · exact offset_lt_padded _ _ _
      · refine padded_append_lt (by decide) hfirst ?_
        have hdiv : m / 1000 ^ count ≤ n / 1000 ^ count := Nat.div_le_div_right h.le
        refine hdiv.lt_or_eq.imp id fun hsame => ⟨hsame, ih ?_ (Nat.mod_lt n hpos)⟩
        have hm := Nat.div_add_mod m (1000 ^ count)
        have hn := Nat.div_add_mod n (1000 ^ count)
        rw [hsame] at hm
        omega

theorem groups_mul {count n : Nat} (h : n < 1000 ^ count) :
    groups (count + 1) (1000 * n) = groups count n := by
  induction count generalizing n with
  | zero =>
      obtain rfl : n = 0 := by omega
      rfl
  | succ count ih =>
      have hdiv : 1000 * n / 1000 ^ (count + 1) = n / 1000 ^ count := by
        rw [Nat.pow_succ', Nat.mul_div_mul_left _ _ (by decide)]
      have hmod : 1000 * n % 1000 ^ (count + 1) = 1000 * (n % 1000 ^ count) := by
        rw [Nat.pow_succ', Nat.mul_mod_mul_left]
      rw [groups, hdiv, hmod, ih (Nat.mod_lt n (Nat.pow_pos (by decide))), groups]
      by_cases hn : n = 0
      · rw [if_pos hn, if_pos (by omega)]
      · rw [if_neg hn, if_neg (by omega)]

theorem groups_of_last {count n : Nat} (h : n % 1000 ≠ 0) :
    groups (count + 1) n = padded (3 * (count + 1)) n ++ offset := by
  induction count generalizing n with
  | zero =>
      rw [groups, if_neg (by omega)]
      simp [groups]
  | succ count ih =>
      have hlast : n % 1000 ^ (count + 1) % 1000 ≠ 0 := by
        rwa [Nat.pow_succ, Nat.mod_mul_left_mod]
      have hcut : padded (3 + 3 * (count + 1)) n =
          padded 3 (n / 1000 ^ (count + 1)) ++
            padded (3 * (count + 1)) (n % 1000 ^ (count + 1)) := by
        rw [padded_add (by decide) _ (by omega), Nat.pow_mul]
      rw [groups, if_neg (by omega), ih hlast, ← List.append_assoc, ← hcut]
      congr 2
      omega

/-- A written fraction is the groups of its nine digits up to the last one that counts. -/
theorem fractionText_append {nanos : Nat} (h : nanos < 1000000000) :
    fractionText nanos ++ offset = if nanos = 0 then offset else '.' :: groups 3 nanos := by
  unfold fractionText
  split
  · rfl
  · rename_i hnanos
    split
    · obtain ⟨n, rfl⟩ : ∃ n, nanos = 1000 * (1000 * n) := ⟨nanos / 1000000, by omega⟩
      have hn : 1000 * (1000 * n) / 1000000 = n := by omega
      rw [hn, groups_mul (by omega), groups_mul (by omega), groups, if_neg (by omega)]
      simp [groups]
    · rename_i hmillis
      split
      · obtain ⟨n, rfl⟩ : ∃ n, nanos = 1000 * n := ⟨nanos / 1000, by omega⟩
        have hn : 1000 * n / 1000 = n := by omega
        rw [hn, groups_mul (by omega), groups_of_last (by omega)]
        rfl
      · rename_i hmicros
        rw [groups_of_last hmicros]
        rfl

theorem fractionText_lt {m n : Nat} (h : m < n) (hn : n < 1000000000) :
    fractionText m ++ offset < fractionText n ++ offset := by
  rw [fractionText_append (h.trans hn), fractionText_append hn, if_neg (by omega : n ≠ 0)]
  split
  · exact List.cons_lt_cons_iff.2 (.inl (by decide))
  · exact List.cons_lt_cons_self.2 (groups_lt h hn)

theorem yearText_eq {year : Int} (h : 0 ≤ year ∧ year ≤ 9999) :
    yearText year = padded 4 year.natAbs := by
  rw [yearText, if_neg (by omega), if_neg (by omega)]

theorem dateText_append_lt {a b : CivilDate} {as bs : List Char}
    (ha : 0 ≤ a.year ∧ a.year ≤ 9999) (hb : 0 ≤ b.year ∧ b.year ≤ 9999)
    (hmonth : b.month < 100) (hday : b.day < 100) (h : a.IsBefore b) :
    dateText a ++ as < dateText b ++ bs := by
  simp only [dateText, yearText_eq ha, yearText_eq hb, List.append_assoc, List.cons_append]
  unfold CivilDate.IsBefore at h
  refine padded_append_lt (by decide) (by omega) ?_
  refine h.imp (by omega) fun ⟨hyear, h⟩ => ⟨by rw [hyear], ?_⟩
  rw [List.cons_lt_cons_self]
  refine padded_append_lt (by decide) hmonth (h.imp id fun ⟨hmonth, h⟩ => ⟨hmonth, ?_⟩)
  rw [List.cons_lt_cons_self]
  exact padded_append_lt (by decide) hday (.inl h)

/-- A leap second shows as the sixtieth of its minute, so no later second of the minute shows as
less. -/
theorem clockText_append_lt {a b : Timestamp} (hday : a.seconds / 86400 = b.seconds / 86400)
    (h : a.IsBefore b) :
    clockText a ++ offset < clockText b ++ offset := by
  have hleap : 1000000000 ≤ a.nanos → (a.seconds % 86400).toNat % 60 = 59 := by
    intro hnanos
    have := a.leap hnanos
    omega
  have hclock : (a.seconds % 86400).toNat < (b.seconds % 86400).toNat ∨
      (a.seconds % 86400).toNat = (b.seconds % 86400).toNat ∧ a.nanos < b.nanos := by
    unfold IsBefore at h
    omega
  have hnanosa := a.nanos_lt
  have hnanosb := b.nanos_lt
  have hbound : (b.seconds % 86400).toNat < 86400 := by omega
  simp only [clockText, List.append_assoc, List.cons_append]
  generalize (a.seconds % 86400).toNat = second at *
  generalize (b.seconds % 86400).toNat = later at *
  have hhour : second / 3600 ≤ later / 3600 := by omega
  refine padded_append_lt (by decide) (by omega) ?_
  refine hhour.lt_or_eq.imp id fun hhour => ⟨hhour, ?_⟩
  have hminute : second / 60 % 60 ≤ later / 60 % 60 := by omega
  rw [List.cons_lt_cons_self]
  refine padded_append_lt (by decide) (by omega) ?_
  refine hminute.lt_or_eq.imp id fun hminute => ⟨hminute, ?_⟩
  have hsecond : second % 60 + a.nanos / 1000000000 ≤ later % 60 + b.nanos / 1000000000 := by omega
  rw [List.cons_lt_cons_self]
  refine padded_append_lt (by decide) (by omega) ?_
  refine hsecond.lt_or_eq.imp id fun hsecond => ⟨hsecond, ?_⟩
  exact fractionText_lt (by omega) (Nat.mod_lt _ (by decide))

theorem storedText_lt {a b : Timestamp} (ha : a.HasPlainYear) (hb : b.HasPlainYear)
    (h : a.IsBefore b) : a.storedText < b.storedText := by
  have hshape : ∀ t : Timestamp,
      t.storedText.toList = dateText t.date ++ ' ' :: (clockText t ++ offset) := by
    intro t
    simp [storedText, offset]
  rw [String.lt_iff_toList_lt, hshape, hshape]
  by_cases hday : a.seconds / 86400 = b.seconds / 86400
  · have hdate : a.date = b.date := congrArg CivilDate.ofDays hday
    rw [hdate]
    exact List.append_left_lt (List.cons_lt_cons_self.2 (clockText_append_lt hday h))
  · have hless : a.seconds / 86400 < b.seconds / 86400 := by
      unfold IsBefore at h
      omega
    obtain ⟨hmonth, hday⟩ := CivilDate.ofDays_bounds (b.seconds / 86400)
    exact dateText_append_lt ha hb hmonth hday (CivilDate.ofDays_isBefore hless)

theorem isBefore_trichotomy (a b : Timestamp) : a.IsBefore b ∨ a = b ∨ b.IsBefore a := by
  rcases lt_trichotomy a.seconds b.seconds with hless | hseconds | hmore
  · exact .inl (.inl hless)
  · rcases lt_trichotomy a.nanos b.nanos with hless | hnanos | hmore
    · exact .inl (.inr ⟨hseconds, hless⟩)
    · cases a
      cases b
      cases hseconds
      cases hnanos
      exact .inr (.inl rfl)
    · exact .inr (.inr (.inr ⟨hseconds.symm, hmore⟩))
  · exact .inr (.inr (.inl hmore))

theorem storedText_lt_iff {a b : Timestamp} (ha : a.HasPlainYear) (hb : b.HasPlainYear) :
    a.storedText < b.storedText ↔ a.IsBefore b := by
  refine ⟨fun h => ?_, storedText_lt ha hb⟩
  rcases isBefore_trichotomy a b with hbefore | rfl | hafter
  · exact hbefore
  · exact absurd h (lt_irrefl _)
  · exact absurd h (storedText_lt hb ha hafter).asymm

theorem storedText_inj {a b : Timestamp} (ha : a.HasPlainYear) (hb : b.HasPlainYear) :
    a.storedText = b.storedText ↔ a = b := by
  refine ⟨fun h => ?_, congrArg storedText⟩
  rcases isBefore_trichotomy a b with hbefore | hsame | hafter
  · exact absurd h (storedText_lt ha hb hbefore).ne
  · exact hsame
  · exact absurd h (storedText_lt hb ha hafter).ne'

end Gazette.Timestamp
