import Gazette.Json.Reader
import Gazette.Json.Writer
import Gazette.Proofs.Quoting

/-!
# Spelling values

A text spells a value if it is cut into the tokens of the value. White space between tokens makes
no difference. Such a text is read as the value, unless the value is nested too deeply or has a
number in it that is too large.
-/
namespace Gazette.Json

/-- Whether a part of a text is cut into some tokens, and ends where the last of them does or in
white space after it. -/
def Lexes (cs : List Char) (tokens : List Token) : Prop :=
  scanThrough .between cs = (tokens, .between)

theorem Lexes.append {cs ds : List Char} {first later : List Token} (hcs : Lexes cs first)
    (hds : Lexes ds later) : Lexes (cs ++ ds) (first ++ later) := by
  unfold Lexes at hcs hds ⊢
  rw [scanThrough_append, hcs, hds]

theorem Lexes.tokenize {s : String} {tokens : List Token} (h : Lexes s.toList tokens) :
    tokenize s = tokens := by
  have hscan := scanFrom_append .between s.toList []
  rw [List.append_nil, h, scanFrom, Scan.finish, List.append_nil] at hscan
  exact hscan

theorem scanThrough_quote {cs : List Char} {tokens : List Token} {last : Scan} (s : String)
    (h : scanThrough .between cs = (tokens, last)) :
    scanThrough (.text (s.toList.map Char.toNat).reverse) ('"' :: cs) =
      (.text (some s) :: tokens, last) := by
  simp only [scanThrough, step_quote, h]
  rfl

theorem lexes_quoted {s : String} {cs : List Char}
    (h : scanThrough (.text []) cs = ([], .text (s.toList.map Char.toNat).reverse)) :
    Lexes ('"' :: cs ++ ['"']) [.text (some s)] := by
  have hopen : Scan.between.step '"' = ([], .text []) := rfl
  simp only [Lexes, List.cons_append, scanThrough, scanThrough_append, hopen, h, step_quote]
  rfl

theorem scanThrough_unicode {a b c d : Char} {i j k l : Nat} (ha : Text.hexDigit? a = some i)
    (hb : Text.hexDigit? b = some j) (hc : Text.hexDigit? c = some k)
    (hd : Text.hexDigit? d = some l) (done : List Nat) :
    scanThrough (.text done) ['\\', 'u', a, b, c, d] =
      ([], .text ((16 * (16 * (16 * i + j) + k) + l) :: done)) := by
  simp [scanThrough, Scan.step, ha, hb, hc, hd]

/-- Whatever a character is written as in a string, it is read as the character. -/
theorem scanThrough_writeChar (c : Char) (done : List Nat) :
    scanThrough (.text done) (writeChar c) = ([], .text (c.toNat :: done)) := by
  have hdigits : ∀ n < 0x20,
      List.replicate (4 - (Text.hexDigits n).length) '0' ++ Text.hexDigits n =
        ['0', '0', Nat.digitChar (n / 16), Nat.digitChar (n % 16)] ∧
      Text.hexDigit? (Nat.digitChar (n / 16)) = some (n / 16) ∧
        Text.hexDigit? (Nat.digitChar (n % 16)) = some (n % 16) := by
    decide
  have hzero : Text.hexDigit? '0' = some 0 := by decide
  unfold writeChar
  split
  case h_8 hquote hbackslash _ _ _ _ _ =>
    split
    · next hcontrol =>
        obtain ⟨hwritten, hhigh, hlow⟩ := hdigits c.toNat hcontrol
        have hvalue : 16 * (16 * (16 * 0 + 0) + c.toNat / 16) + c.toNat % 16 = c.toNat := by omega
        dsimp only
        rw [List.append_assoc, hwritten]
        have hread := scanThrough_unicode hzero hzero hhigh hlow done
        rwa [hvalue] at hread
    · next hcontrol =>
        have hplain : IsPlain c := ⟨hquote, hbackslash, Nat.le_of_not_lt hcontrol⟩
        exact @scanThrough_plain [c] (by simpa using hplain) done
  all_goals rfl

theorem lexes_writeText (s : String) : Lexes (writeText s) [.text (some s)] := by
  have hchars (cs : List Char) (done : List Nat) : scanThrough (.text done) (cs.flatMap writeChar) =
      ([], .text ((cs.map Char.toNat).reverse ++ done)) := by
    induction cs generalizing done with
    | nil => rfl
    | cons c cs ih =>
        rw [List.flatMap_cons, scanThrough_append, scanThrough_writeChar, ih]
        simp
  exact lexes_quoted (by rw [hchars, List.append_nil])

mutual

def tokens : Json → List Token
  | .null => [.null]
  | .bool value => [.bool value]
  | .number n => [.number n]
  | .text s => [.text (some s)]
  | .array items => .openArray :: itemTokens items ++ [.closeArray]
  | .object members => .openObject :: memberTokens members ++ [.closeObject]

def itemTokens : List Json → List Token
  | [] => []
  | [item] => tokens item
  | item :: next :: items => tokens item ++ .comma :: itemTokens (next :: items)

def memberTokens : List (String × Json) → List Token
  | [] => []
  | [(key, value)] => .text (some key) :: .colon :: tokens value
  | (key, value) :: next :: members =>
    .text (some key) :: .colon :: tokens value ++ .comma :: memberTokens (next :: members)

end

mutual

/-- Whether a value can be read inside of some arrays and objects. -/
def fits (depth : Nat) : Json → Bool
  | .null | .bool _ | .text _ => true
  | .number n => !n.overflows
  | .array items => depth < depthLimit && itemsFit (depth + 1) items
  | .object members => depth < depthLimit && membersFit (depth + 1) members

def itemsFit (depth : Nat) : List Json → Bool
  | [] => true
  | item :: items => fits depth item && itemsFit depth items

def membersFit (depth : Nat) : List (String × Json) → Bool
  | [] => true
  | (_, value) :: members => fits depth value && membersFit depth members

end

theorem itemsFit_texts (depth : Nat) (texts : List String) :
    itemsFit depth (texts.map .text) = true := by
  induction texts with
  | nil => rfl
  | cons s texts ih => simp [itemsFit, fits, ih]

variable {stack : List Frame} {done items : List Json} {rest : List Token} {key : String}
  {members finished : List (String × Json)}

theorem readFrom_item (hne : items ≠ []) :
    readFrom (.array done :: stack) .item (itemTokens items ++ rest) =
      readFrom (.array done :: stack) .value (itemTokens items ++ rest) := by
  cases items with
  | nil => exact absurd rfl hne
  | cons item items => cases items <;> cases item <;> rfl

theorem readFrom_member (hne : members ≠ []) :
    readFrom (.object finished key :: stack) .member (memberTokens members ++ rest) =
      readFrom (.object finished key :: stack) .key (memberTokens members ++ rest) := by
  cases members with
  | nil => exact absurd rfl hne
  | cons member members => cases members <;> rfl

mutual

theorem readFrom_tokens (v : Json) (stack : List Frame) (rest : List Token)
    (h : v.fits stack.length = true) :
    readFrom stack .value (v.tokens ++ rest) =
      readFrom (place v stack).1 (place v stack).2 rest :=
  match v with
  | .null => rfl
  | .bool _ => rfl
  | .text _ => rfl
  | .number n => by
      rw [fits, Bool.not_eq_true'] at h
      simp [tokens, readFrom, Json.take, takeValue, h]
  | .array [] => by
      simp only [fits, Bool.and_eq_true, decide_eq_true_eq] at h
      simp [tokens, itemTokens, readFrom, Json.take, takeValue, h.1]
  | .array (item :: items) => by
      simp only [fits, Bool.and_eq_true, decide_eq_true_eq] at h
      have hopen : readFrom stack .value ((Json.array (item :: items)).tokens ++ rest) =
          readFrom (.array [] :: stack) .item
            (itemTokens (item :: items) ++ .closeArray :: rest) := by
        simp [tokens, readFrom, Json.take, takeValue, h.1]
      rw [hopen, readFrom_item (List.cons_ne_nil _ _),
        readFrom_items (item :: items) (List.cons_ne_nil _ _) [] stack rest h.2]
      rfl
  | .object [] => by
      simp only [fits, Bool.and_eq_true, decide_eq_true_eq] at h
      simp [tokens, memberTokens, readFrom, Json.take, takeValue, h.1]
  | .object (member :: members) => by
      simp only [fits, Bool.and_eq_true, decide_eq_true_eq] at h
      have hopen : readFrom stack .value ((Json.object (member :: members)).tokens ++ rest) =
          readFrom (.object [] "" :: stack) .member
            (memberTokens (member :: members) ++ .closeObject :: rest) := by
        simp [tokens, readFrom, Json.take, takeValue, h.1]
      rw [hopen, readFrom_member (List.cons_ne_nil _ _),
        readFrom_members (member :: members) (List.cons_ne_nil _ _) [] "" stack rest h.2]
      rfl

theorem readFrom_items (items : List Json) (hne : items ≠ []) (done : List Json)
    (stack : List Frame) (rest : List Token) (h : itemsFit (stack.length + 1) items = true) :
    readFrom (.array done :: stack) .value (itemTokens items ++ .closeArray :: rest) =
      readFrom (place (.array (done.reverse ++ items)) stack).1
        (place (.array (done.reverse ++ items)) stack).2 rest :=
  match items with
  | [] => absurd rfl hne
  | [item] => by
      simp only [itemsFit, Bool.and_true] at h
      rw [itemTokens, readFrom_tokens item (.array done :: stack) _ h]
      simp [place, readFrom, Json.take]
  | item :: next :: items => by
      rw [itemsFit, Bool.and_eq_true] at h
      rw [itemTokens, List.append_assoc, readFrom_tokens item (.array done :: stack) _ h.1]
      have hcomma : readFrom (place item (.array done :: stack)).1
          (place item (.array done :: stack)).2
            (.comma :: itemTokens (next :: items) ++ .closeArray :: rest) =
          readFrom (.array (item :: done) :: stack) .value
            (itemTokens (next :: items) ++ .closeArray :: rest) := rfl
      rw [hcomma,
        readFrom_items (next :: items) (List.cons_ne_nil _ _) (item :: done) stack rest h.2,
        List.reverse_cons, List.append_assoc, List.singleton_append]

theorem readFrom_members (members : List (String × Json)) (hne : members ≠ [])
    (finished : List (String × Json)) (key : String) (stack : List Frame) (rest : List Token)
    (h : membersFit (stack.length + 1) members = true) :
    readFrom (.object finished key :: stack) .key
        (memberTokens members ++ .closeObject :: rest) =
      readFrom (place (.object (finished.reverse ++ members)) stack).1
        (place (.object (finished.reverse ++ members)) stack).2 rest :=
  match members with
  | [] => absurd rfl hne
  | [(name, value)] => by
      simp only [membersFit, Bool.and_true] at h
      have hname : readFrom (.object finished key :: stack) .key
          (memberTokens [(name, value)] ++ .closeObject :: rest) =
          readFrom (.object finished name :: stack) .value
            (value.tokens ++ .closeObject :: rest) := rfl
      rw [hname, readFrom_tokens value (.object finished name :: stack) _ h]
      simp [place, readFrom, Json.take]
  | (name, value) :: next :: members => by
      rw [membersFit, Bool.and_eq_true] at h
      have hname : readFrom (.object finished key :: stack) .key
          (memberTokens ((name, value) :: next :: members) ++ .closeObject :: rest) =
          readFrom (.object finished name :: stack) .value
            (value.tokens ++
              (.comma :: memberTokens (next :: members) ++ .closeObject :: rest)) := by
        rw [← List.append_assoc]
        rfl
      have hcomma : readFrom (place value (.object finished name :: stack)).1
          (place value (.object finished name :: stack)).2
            (.comma :: memberTokens (next :: members) ++ .closeObject :: rest) =
          readFrom (.object ((name, value) :: finished) name :: stack) .key
            (memberTokens (next :: members) ++ .closeObject :: rest) := rfl
      rw [hname, readFrom_tokens value (.object finished name :: stack) _ h.1, hcomma,
        readFrom_members (next :: members) (List.cons_ne_nil _ _) _ _ stack rest h.2,
        List.reverse_cons, List.append_assoc, List.singleton_append]

end

theorem read?_of_tokens {s : String} {v : Json} (htokens : tokenize s = v.tokens)
    (hfits : v.fits 0 = true) : read? s = some v := by
  have hread := readFrom_tokens v [] [] hfits
  rw [List.append_nil] at hread
  rw [read?, htokens, hread]
  rfl

end Gazette.Json
