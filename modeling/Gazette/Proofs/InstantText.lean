import Gazette.Proofs.Instant

/-!
# Reading stored instants

An instant is read back from the text that it is stored as, in whatever year it is.
-/
namespace Gazette.Timestamp
open Text

theorem takeWhile_padded (width n : Nat) {c : Char} (hc : isDigit c = false) (rest : List Char) :
    (padded width n ++ c :: rest).takeWhile isDigit = padded width n ∧
      (padded width n ++ c :: rest).dropWhile isDigit = c :: rest := by
  have hdigits := forall_isDigit_padded width n
  constructor
  · rw [List.takeWhile_append_of_pos hdigits, List.takeWhile_cons_of_neg (by simp [hc]),
      List.append_nil]
  · rw [List.dropWhile_append_of_pos hdigits, List.dropWhile_cons_of_neg (by simp [hc])]

theorem readSignedYear_yearText (year : Int) (rest : List Char) :
    readSignedYear (yearText year ++ '-' :: rest) = some (year, '-' :: rest) := by
  obtain ⟨htake, hdrop⟩ := takeWhile_padded 4 year.natAbs (c := '-') rfl rest
  obtain ⟨c, cs, hcons, hc⟩ := exists_padded_eq_cons 4 year.natAbs
  have hfull : (padded 4 year.natAbs).isEmpty = false := by rw [hcons]; rfl
  by_cases hnegative : year < 0
  · have hyear : -((year.natAbs : Nat) : Int) = year := by omega
    rw [yearText, if_pos hnegative, List.cons_append]
    simp only [readSignedYear, htake, hdrop, hfull, decimalValue_padded]
    show some (-((year.natAbs : Nat) : Int), '-' :: rest) = _
    rw [hyear]
  have hyear : ((year.natAbs : Nat) : Int) = year := by omega
  by_cases hlate : year > 9999
  · rw [yearText, if_neg hnegative, if_pos hlate, List.cons_append]
    simp only [readSignedYear, htake, hdrop, hfull, decimalValue_padded]
    show some (((year.natAbs : Nat) : Int), '-' :: rest) = _
    rw [hyear]
  · have hunsigned : c ≠ '+' ∧ c ≠ '-' := by
      constructor <;> rintro rfl <;> cases hc
    rw [yearText, if_neg hnegative, if_neg hlate]
    have hread := readDigits_padded (by decide : 0 < 4) (n := year.natAbs) (by omega)
      ('-' :: rest)
    rw [hcons, List.cons_append] at hread ⊢
    rw [readSignedYear, if_pos hunsigned, readYear, hread]
    show some (((year.natAbs : Nat) : Int), '-' :: rest) = _
    rw [hyear]

theorem expect_cons (c : Char) (cs : List Char) : expect c (c :: cs) = some cs :=
  if_pos rfl

theorem readDate_dateText (days : Int) (rest : List Char) :
    readDate readSignedYear (dateText (CivilDate.ofDays days) ++ rest) =
      some (CivilDate.ofDays days, rest) := by
  obtain ⟨hmonth, hday⟩ := CivilDate.ofDays_bounds days
  have hvalid := CivilDate.isValid_ofDays days
  simp only [readDate, dateText, List.append_assoc, List.cons_append, readSignedYear_yearText,
    expect_cons, readDigits_padded (by decide : 0 < 2) hmonth,
    readDigits_padded (by decide : 0 < 2) hday, Option.bind_eq_bind, Option.bind_some, hvalid,
    if_true]

theorem readFraction_padded {width n : Nat} (hwidth : width ≤ 9) (hpos : 0 < width)
    (h : n < 10 ^ width) {c : Char} (hc : isDigit c = false) (rest : List Char) :
    readFraction ('.' :: (padded width n ++ c :: rest)) =
      some (n * 10 ^ (9 - width), c :: rest) := by
  obtain ⟨htake, hdrop⟩ := takeWhile_padded width n hc rest
  have hlength := length_padded hpos h
  have hfull : (padded width n).isEmpty = false := by
    obtain ⟨d, ds, hcons, -⟩ := exists_padded_eq_cons width n
    rw [hcons]
    rfl
  have hnine : (padded width n ++ List.replicate 9 '0').take 9 =
      padded width n ++ List.replicate (9 - width) '0' := by
    rw [List.take_append, List.take_of_length_le (by omega), List.take_replicate, hlength]
    congr 2
    omega
  simp only [readFraction, htake, hdrop, hfull, hnine, decimalValue_append_zeros,
    decimalValue_padded, Bool.false_eq_true, if_false]

theorem readFraction_fractionText {nanos : Nat} (h : nanos < 1000000000) (rest : List Char) :
    readFraction (fractionText nanos ++ '+' :: rest) = some (nanos, '+' :: rest) := by
  unfold fractionText
  split
  · subst nanos
    rfl
  split
  · have hmillis := readFraction_padded (by decide : 3 ≤ 9) (n := nanos / 1000000) (by decide)
      (by omega) (c := '+') rfl rest
    rw [List.cons_append, hmillis]
    congr 2
    omega
  split
  · have hmicros := readFraction_padded (by decide : 6 ≤ 9) (n := nanos / 1000) (by decide)
      (by omega) (c := '+') rfl rest
    rw [List.cons_append, hmicros]
    congr 2
    omega
  · have hnanos := readFraction_padded (by decide : 9 ≤ 9) (n := nanos) (by decide)
      (by omega) (c := '+') rfl rest
    rw [List.cons_append, hnanos]
    congr 2
    omega

/-- A leap second is read as the last second of its minute with a thousand million more
nanoseconds. -/
theorem readClock_clockText (t : Timestamp) (rest : List Char) :
    readClock (clockText t ++ '+' :: rest) =
      some (((t.seconds % 86400).toNat, t.nanos), '+' :: rest) := by
  have hnanos := t.nanos_lt
  have hleap := t.leap
  have hfraction := readFraction_fractionText (Nat.mod_lt t.nanos (by decide : 0 < 1000000000)) rest
  generalize hsecond : (t.seconds % 86400).toNat = second
  have hbound : second < 86400 := by omega
  have hlast : 1000000000 ≤ t.nanos → second % 60 = 59 := by omega
  have hhour : second / 3600 < 10 ^ 2 := by omega
  have hminute : second / 60 % 60 < 10 ^ 2 := by omega
  have hshown : second % 60 + t.nanos / 1000000000 < 10 ^ 2 := by omega
  simp only [readClock, clockText, hsecond, List.append_assoc, List.cons_append, expect_cons,
    readDigits_padded (by decide : 0 < 2) hhour,
    readDigits_padded (by decide : 0 < 2) hminute,
    readDigits_padded (by decide : 0 < 2) hshown, hfraction, Option.bind_eq_bind,
    Option.bind_some]
  rw [if_neg (by omega)]
  congr 3 <;> omega

theorem readStored?_storedText (t : Timestamp) : readStored? t.storedText = some t := by
  have hshape : t.storedText.toList = dateText t.date ++ ' ' :: (clockText t ++ offset) := by
    simp [storedText, offset]
  have hdays : t.date.toDays * 86400 + ((t.seconds % 86400).toNat : Nat) - 0 = t.seconds := by
    rw [date, CivilDate.toDays_ofDays]
    omega
  have hoffset : readOffset offset = some 0 := by decide
  rw [readStored?, readWith, hshape, date, readDate_dateText]
  simp only [Option.bind_eq_bind, Option.bind_some]
  rw [show offset = '+' :: offset.tail from rfl, readClock_clockText]
  simp only [Option.bind_some]
  rw [show '+' :: offset.tail = offset from rfl, hoffset, Option.bind_some, ← date, hdays]
  exact dif_pos ⟨t.nanos_lt, t.leap⟩

end Gazette.Timestamp
