import Gazette.Proofs.Disk
import Mathlib.Data.List.TakeWhile

/-!
# Walks

A path is walked step by step. Its parts that do not count make no difference to the directory
that it leads to, and the path of the parent is the same walk without the last step.
-/
namespace Gazette

namespace Text
variable {p : Char → Bool} {separator : Char}

theorem split_ne_nil (p : Char → Bool) (cs : List Char) : split p cs ≠ [] := by
  cases cs with
  | nil => simp [split]
  | cons c cs =>
      rw [split]
      split
      · simp
      · split <;> simp

theorem split_append (hseparator : p separator = true) (first rest : List Char) :
    split p (first ++ separator :: rest) = split p first ++ split p rest := by
  induction first with
  | nil => simp [split, hseparator]
  | cons c first ih =>
      rw [List.cons_append, split, split, ih]
      cases hc : p c with
      | true => simp
      | false =>
          cases hfirst : split p first with
          | nil => exact absurd hfirst (split_ne_nil p first)
          | cons field fields => simp

theorem forall_mem_split {cs field : List Char} (h : field ∈ split p cs) :
    ∀ c ∈ field, p c = false := by
  induction cs generalizing field with
  | nil =>
      rw [split, List.mem_singleton] at h
      simp [h]
  | cons c cs ih =>
      rw [split] at h
      split at h
      · rcases List.mem_cons.1 h with rfl | h
        · simp
        · exact ih h
      · next hc =>
          cases hcs : split p cs with
          | nil => exact absurd hcs (split_ne_nil _ cs)
          | cons first fields =>
              rw [hcs] at h ih
              rcases List.mem_cons.1 h with rfl | h
              · exact List.forall_mem_cons.2 ⟨by simpa using hc, ih List.mem_cons_self⟩
              · exact ih (List.mem_cons_of_mem _ h)

theorem separator_not_mem_split {cs field : List Char} (h : field ∈ split (· == separator) cs) :
    separator ∉ field :=
  fun hmem => by simpa using forall_mem_split h separator hmem

theorem intercalate_split (separator : Char) (cs : List Char) :
    List.intercalate [separator] (split (· == separator) cs) = cs := by
  induction cs with
  | nil => simp [split]
  | cons c cs ih =>
      rw [split]
      cases hcs : split (· == separator) cs with
      | nil => exact absurd hcs (split_ne_nil _ cs)
      | cons field fields =>
          rw [hcs] at ih
          split
          · next hc =>
              rw [List.intercalate_cons_cons, ih, List.nil_append, List.singleton_append,
                beq_iff_eq.1 hc]
          · cases fields with
            | nil => simpa using ih
            | cons next fields =>
                rw [List.intercalate_cons_cons] at ih ⊢
                rw [List.cons_append, List.cons_append, ih]

theorem split_intercalate_of_forall {fields : List (List Char)} (hseparator : p separator = true)
    (hne : fields ≠ []) (h : ∀ field ∈ fields, ∀ c ∈ field, p c = false) :
    split p (List.intercalate [separator] fields) = fields := by
  induction fields with
  | nil => exact absurd rfl hne
  | cons field fields ih =>
      obtain ⟨hfield, hfields⟩ := List.forall_mem_cons.1 h
      cases fields with
      | nil => simpa using split_of_forall hfield
      | cons next fields =>
          rw [List.intercalate_cons_cons, List.append_assoc, List.singleton_append,
            split_append_cons hfield hseparator, ih (List.cons_ne_nil _ _) hfields]

theorem split_intercalate {fields : List (List Char)} (hne : fields ≠ [])
    (h : ∀ field ∈ fields, separator ∉ field) :
    split (· == separator) (List.intercalate [separator] fields) = fields := by
  refine split_intercalate_of_forall (beq_self_eq_true _) hne fun field hfield c hc => ?_
  exact beq_false_of_ne fun heq => h field hfield (heq ▸ hc)

theorem intercalate_prefix (separator : Char) (first rest : List (List Char)) :
    List.intercalate [separator] first <+: List.intercalate [separator] (first ++ rest) := by
  induction first with
  | nil => simp
  | cons field first ih =>
      cases first with
      | nil =>
          cases rest with
          | nil => simp
          | cons next rest => simp
      | cons next first =>
          rw [List.cons_append, List.cons_append, List.intercalate_cons_cons,
            List.intercalate_cons_cons]
          exact (List.prefix_append_right_inj _).2 ih

end Text

namespace Files.Path
variable {p q : Path} {cs : List Char}

def steps (p : Path) : List (List Char) :=
  (segments p.chars).filter fun segment => !isTrivial segment

theorem segments_append (first rest : List Char) :
    segments (first ++ '/' :: rest) = segments first ++ segments rest :=
  Text.split_append rfl first rest

theorem start_cases (cs : List Char) :
    (∃ rest, cs = '/' :: rest ∧ start cs = (['/'], rest)) ∨
      (cs = ['.'] ∧ start cs = (['.'], [])) ∨
      (∃ rest, cs = '.' :: '/' :: rest ∧ start cs = (['.'], '/' :: rest)) ∨
      (cs.head? ≠ some '/' ∧ start cs = ([], cs)) := by
  unfold start
  split
  · exact .inl ⟨_, rfl, rfl⟩
  · exact .inr (.inl ⟨rfl, rfl⟩)
  · exact .inr (.inr (.inl ⟨_, rfl, rfl⟩))
  · next hslash _ _ =>
      refine .inr (.inr (.inr ⟨fun hhead => ?_, rfl⟩))
      obtain ⟨rest, rfl⟩ := List.head?_eq_some_iff.1 hhead
      exact hslash rest rfl

/-- The parts at the end of a path that do not count are dropped to find its last step. -/
theorem exists_dropWhile_reverse (parts : List (List Char)) :
    ∃ trailing, (∀ part ∈ trailing, isTrivial part = true) ∧
      parts = (parts.reverse.dropWhile isTrivial).reverse ++ trailing := by
  refine ⟨(parts.reverse.takeWhile isTrivial).reverse, fun part hpart => ?_, ?_⟩
  · exact List.mem_takeWhile_imp (List.mem_reverse.1 hpart)
  · rw [← List.reverse_append, List.takeWhile_append_dropWhile, List.reverse_reverse]

theorem steps_start (cs : List Char) :
    (segments cs).filter (fun segment => !isTrivial segment) =
      (segments (start cs).2).filter fun segment => !isTrivial segment := by
  rcases start_cases cs with ⟨rest, rfl, hstart⟩ | ⟨rfl, hstart⟩ | ⟨rest, rfl, hstart⟩ | ⟨-, hstart⟩
  · rw [hstart, ← List.nil_append ('/' :: rest), segments_append]
    simp [segments, Text.split, isTrivial]
  · rw [hstart]
    decide
  · rw [hstart, ← List.singleton_append, segments_append, ← List.nil_append ('/' :: rest),
      segments_append]
    simp [segments, Text.split, isTrivial]
  · rw [hstart]

theorem start_append (cs : List Char) : (start cs).1 ++ (start cs).2 = cs := by
  rcases start_cases cs with ⟨rest, rfl, hstart⟩ | ⟨rfl, hstart⟩ | ⟨rest, rfl, hstart⟩ | ⟨-, hstart⟩
  all_goals rw [hstart]; rfl

/-- The parts that a path has if it is cut off after one that counts. -/
theorem segments_cut {before rest : List (List Char)} {name : List Char}
    (hparts : segments (start cs).2 = before ++ name :: rest) (hname : isTrivial name = false) :
    ∃ before', segments ((start cs).1 ++ List.intercalate ['/'] (before ++ [name])) =
        before' ++ [name] ∧
      (before'.filter fun segment => !isTrivial segment) =
        before.filter fun segment => !isTrivial segment := by
  have hplain : ∀ part ∈ before ++ [name], '/' ∉ part := by
    intro part hpart
    have hmem : part ∈ segments (start cs).2 := by
      rw [hparts]
      grind
    exact Text.separator_not_mem_split hmem
  have hjoined : segments (List.intercalate ['/'] (before ++ [name])) = before ++ [name] :=
    Text.split_intercalate (by simp) hplain
  -- A path starts at the root, is a dot, starts with a dot and a slash, or none of these.
  rcases start_cases cs with
    ⟨rest', rfl, hstart⟩ | ⟨rfl, hstart⟩ | ⟨rest', rfl, hstart⟩ | ⟨-, hstart⟩
  · rw [hstart, ← List.nil_append (['/'] ++ _), List.singleton_append, segments_append, hjoined]
    exact ⟨[] :: before, rfl, rfl⟩
  · rw [hstart] at hparts
    obtain ⟨-, rfl, -⟩ : before = [] ∧ name = [] ∧ rest = [] := by
      simpa [segments, Text.split, List.cons_eq_append_iff] using hparts
    cases hname
  · rw [hstart, ← List.nil_append ('/' :: rest'), segments_append] at hparts
    cases before with
    | nil =>
        obtain ⟨rfl, -⟩ := List.cons.inj hparts
        cases hname
    | cons first before =>
        obtain ⟨rfl, -⟩ := List.cons.inj hparts
        have hjoined : segments (List.intercalate ['/'] (before ++ [name])) = before ++ [name] :=
          Text.split_intercalate (by simp) fun part hpart => hplain part (by simp_all)
        have hslash : List.intercalate ['/'] ([] :: before ++ [name]) =
            '/' :: List.intercalate ['/'] (before ++ [name]) := by
          obtain ⟨next, others, hnext⟩ := List.exists_cons_of_ne_nil
            (List.append_ne_nil_of_right_ne_nil before (List.cons_ne_nil name []))
          rw [List.cons_append, hnext, List.intercalate_cons_cons]
          rfl
        rw [hstart, hslash, segments_append, hjoined]
        exact ⟨['.'] :: before, rfl, rfl⟩
  · rw [hstart]
    exact ⟨before, hjoined, rfl⟩

theorem isAbsolute_of_prefix (h : q.chars <+: p.chars) (hq : q.text ≠ "") :
    q.isAbsolute = p.isAbsolute := by
  obtain ⟨rest, hrest⟩ := h
  unfold isAbsolute
  cases hchars : q.chars with
  | nil => exact absurd (String.toList_eq_nil_iff.1 hchars) hq
  | cons c cs => rw [← hrest, hchars]; rfl

/-- What the path of a parent has to do with a path. It ends in a part that counts, unless nothing
does. -/
structure IsParent (q p : Path) : Prop where
  chars : q.chars <+: p.chars
  isAbsolute : q.isAbsolute = p.isAbsolute
  steps : ∃ last, p.steps = q.steps ++ [last]
  ending :
    q.steps = [] ∨ ∃ before name, segments q.chars = before ++ [name] ∧ isTrivial name = false

theorem filter_trivial {parts : List (List Char)} (h : ∀ part ∈ parts, isTrivial part = true) :
    (parts.filter fun segment => !isTrivial segment) = [] := by
  simpa [List.filter_eq_nil_iff] using h

/-- The parts of a path that is cut off anywhere, without those at its end that do not count. -/
theorem steps_cut {parts rest : List (List Char)}
    (hparts : segments (start p.chars).2 = parts.reverse ++ rest)
    (hchars : q.chars = (start p.chars).1 ++
      List.intercalate ['/'] (parts.dropWhile isTrivial).reverse) :
    q.steps = (parts.reverse.filter fun segment => !isTrivial segment) ∧
      (q.steps = [] ∨
        ∃ before name, segments q.chars = before ++ [name] ∧ isTrivial name = false) := by
  obtain ⟨trailing, htrailing, hreverse⟩ := exists_dropWhile_reverse parts.reverse
  rw [List.reverse_reverse] at hreverse
  rw [hreverse, List.filter_append, filter_trivial htrailing, List.append_nil]
  cases hkept : parts.dropWhile isTrivial with
  | nil =>
      have hnone : q.steps = [] := by
        rw [Path.steps, hchars, hkept]
        rcases start_cases p.chars with ⟨_, -, hstart⟩ | ⟨-, hstart⟩ | ⟨_, -, hstart⟩ | ⟨-, hstart⟩
        all_goals simp [hstart, segments, Text.split, isTrivial]
      exact ⟨hnone, .inl hnone⟩
  | cons name before =>
      have hname : isTrivial name = false := by
        have hhead := List.head?_dropWhile_not isTrivial parts
        rw [hkept] at hhead
        exact hhead
      rw [hreverse, hkept, List.reverse_cons, List.append_assoc, List.append_assoc] at hparts
      rw [hkept, List.reverse_cons] at hchars
      obtain ⟨before', hsegments, hbefore⟩ := segments_cut hparts hname
      rw [← hchars] at hsegments
      refine ⟨?_, .inr ⟨before', name, hsegments, hname⟩⟩
      rw [Path.steps, hsegments, List.reverse_cons, List.filter_append, List.filter_append, hbefore]

theorem chars_cut {parts rest : List (List Char)}
    (hparts : segments (start p.chars).2 = parts.reverse ++ rest)
    (hchars : q.chars = (start p.chars).1 ++
      List.intercalate ['/'] (parts.dropWhile isTrivial).reverse) : q.chars <+: p.chars := by
  obtain ⟨trailing, -, hreverse⟩ := exists_dropWhile_reverse parts.reverse
  rw [List.reverse_reverse] at hreverse
  have hcut := Text.intercalate_prefix '/' (parts.dropWhile isTrivial).reverse (trailing ++ rest)
  rw [← List.append_assoc, ← hreverse, ← hparts, segments, Text.intercalate_split] at hcut
  rw [hchars]
  conv_rhs => rw [← start_append p.chars]
  exact (List.prefix_append_right_inj _).2 hcut

theorem steps_empty (h : p.text = "") : p.steps = [] := by
  simp [Path.steps, chars, h, segments, Text.split, isTrivial]

theorem parent?_cases (p : Path) :
    (p.steps = [] ∧ ∀ q, p.parent? = some q → q.text = "") ∨
      ∃ q last, p.parent? = some q ∧ p.steps = q.steps ++ [last] ∧ q.chars <+: p.chars ∧
        (q.steps = [] ∨
          ∃ before name, segments q.chars = before ++ [name] ∧ isTrivial name = false) := by
  obtain ⟨trailing, htrailing, hbody⟩ := exists_dropWhile_reverse (segments (start p.chars).2)
  have hsteps : p.steps = ((segments (start p.chars).2).reverse.dropWhile isTrivial).reverse.filter
      fun segment => !isTrivial segment := by
    rw [Path.steps, steps_start]
    conv_lhs => rw [hbody]
    rw [List.filter_append, filter_trivial htrailing, List.append_nil]
  unfold parent?
  simp only
  cases hkept : (segments (start p.chars).2).reverse.dropWhile isTrivial with
  | nil =>
      refine .inl ⟨by rw [hsteps, hkept]; rfl, fun q hq => ?_⟩
      rw [Option.ite_none_right_eq_some] at hq
      rw [← Option.some.inj hq.2]
  | cons last rest =>
      rw [hkept, List.reverse_cons] at hbody hsteps
      rw [List.append_assoc] at hbody
      have hlast : isTrivial last = false := by
        have hhead := List.head?_dropWhile_not isTrivial (segments (start p.chars).2).reverse
        rw [hkept] at hhead
        exact hhead
      generalize hq : (⟨String.ofList ((start p.chars).1 ++
        List.intercalate ['/'] (rest.dropWhile isTrivial).reverse)⟩ : Path) = q
      have hchars : q.chars = (start p.chars).1 ++
          List.intercalate ['/'] (rest.dropWhile isTrivial).reverse := by
        rw [← hq, chars, String.toList_ofList]
      obtain ⟨hcut, hending⟩ := steps_cut hbody hchars
      refine .inr ⟨q, last, congrArg some hq, ?_, chars_cut hbody hchars, hending⟩
      rw [hsteps, hcut, List.filter_append]
      simp [hlast]

theorem isParent_of_parent? (h : p.parent? = some q) (hq : q.text ≠ "") : q.IsParent p := by
  rcases parent?_cases p with ⟨-, hnone⟩ | ⟨q', last, hparent, hsteps, habove, hending⟩
  · exact absurd (hnone q h) hq
  · obtain rfl := Option.some.inj (h.symm.trans hparent)
    exact ⟨habove, isAbsolute_of_prefix habove hq, ⟨last, hsteps⟩, hending⟩

theorem exists_isParent {init : List (List Char)} {last : List Char}
    (h : p.steps = init ++ [last]) (hinit : init ≠ []) :
    ∃ q, p.parent? = some q ∧ q.text ≠ "" ∧ q.IsParent p ∧ q.steps = init := by
  rcases parent?_cases p with ⟨hnone, -⟩ | ⟨q, last', hparent, hsteps, -⟩
  · rw [h] at hnone
    exact absurd hnone (by simp)
  · obtain ⟨rfl, rfl⟩ := List.append_singleton_inj.1 (hsteps.symm.trans h)
    have hne : q.text ≠ "" := fun hempty => hinit (steps_empty hempty)
    exact ⟨q, hparent, hne, isParent_of_parent? hparent hne, rfl⟩

theorem chars_join (p : Path) (hq : q.isAbsolute = false) :
    (p.text = "" ∧ p.join q = q) ∨
      (∃ first, p.chars = first ++ ['/'] ∧ (p.join q).chars = first ++ '/' :: q.chars) ∨
      (p.text ≠ "" ∧ (p.join q).chars = p.chars ++ '/' :: q.chars) := by
  unfold join
  rw [hq, if_neg Bool.false_ne_true]
  by_cases hempty : p.text = ""
  · exact .inl ⟨hempty, by simp [hempty]⟩
  · cases hlast : p.chars.getLast? == some '/' with
    | true =>
        obtain ⟨first, hfirst⟩ := List.getLast?_eq_some_iff.1 (beq_iff_eq.1 hlast)
        refine .inr (.inl ⟨first, hfirst, ?_⟩)
        have htext : p.text.toList = first ++ ['/'] := hfirst
        simp [chars, htext]
    | false =>
        refine .inr (.inr ⟨hempty, ?_⟩)
        simp [hempty, chars]

theorem steps_join (p : Path) (hq : q.isAbsolute = false) :
    (p.join q).steps = p.steps ++ q.steps := by
  rcases chars_join p hq with ⟨hempty, hjoin⟩ | ⟨first, hfirst, hjoin⟩ | ⟨-, hjoin⟩
  · have hnone : p.steps = [] := by simp [steps, chars, hempty, segments, Text.split, isTrivial]
    rw [hjoin, hnone, List.nil_append]
  · rw [steps, steps, steps, hjoin, hfirst, segments_append, segments_append, List.filter_append,
      List.filter_append]
    simp [segments, Text.split, isTrivial]
  · rw [steps, hjoin, segments_append, List.filter_append]
    rfl

theorem segments_join (p : Path) (hq : q.isAbsolute = false) :
    ∃ before, segments (p.join q).chars = before ++ segments q.chars := by
  rcases chars_join p hq with ⟨-, hjoin⟩ | ⟨first, -, hjoin⟩ | ⟨-, hjoin⟩
  · exact ⟨[], by rw [hjoin, List.nil_append]⟩
  · exact ⟨segments first, by rw [hjoin, segments_append]⟩
  · exact ⟨segments p.chars, by rw [hjoin, segments_append]⟩

theorem isAbsolute_join (p : Path) (hq : q.isAbsolute = false) :
    (p.join q).isAbsolute = p.isAbsolute := by
  rcases chars_join p hq with ⟨hempty, hjoin⟩ | ⟨first, hfirst, hjoin⟩ | ⟨hne, hjoin⟩
  · rw [hjoin, hq]
    simp [isAbsolute, chars, hempty]
  · rw [isAbsolute, isAbsolute, hjoin, hfirst]
    cases first <;> rfl
  · cases hchars : p.chars with
    | nil => exact absurd (String.toList_eq_nil_iff.1 hchars) hne
    | cons c cs =>
        rw [isAbsolute, isAbsolute, hjoin, hchars]
        rfl

end Files.Path

namespace Files
open Path

structure Path.IsWalkable (p : Path) : Prop where
  noNul : '\x00' ∉ p.chars
  short : p.text.utf8ByteSize ≤ Disk.pathLimit
  nonempty : p.text ≠ ""

theorem Path.IsParent.isWalkable {p q : Path} (h : q.IsParent p) (hp : p.IsWalkable)
    (hq : q.text ≠ "") : q.IsWalkable := by
  obtain ⟨rest, hrest⟩ := h.chars
  have htext : p.text = q.text ++ String.ofList rest := by
    apply String.toList_injective
    rw [String.toList_append, String.toList_ofList]
    exact hrest.symm
  refine ⟨fun hnul => hp.noNul ?_, ?_, hq⟩
  · rw [← hrest]
    exact List.mem_append_left _ hnul
  · have hshort := hp.short
    rw [htext, String.utf8ByteSize_append] at hshort
    omega

namespace Disk
variable {disk before after : Disk} {location place : Location} {path : Path}
  {steps : List (List Char)}

def origin (path : Path) (disk : Disk) : Location :=
  if path.isAbsolute then [] else disk.workingDirectory

theorem start_ok {parts : List (List Char)} :
    disk.start path = .ok (location, parts) ↔
      path.IsWalkable ∧ location = disk.origin path ∧ parts = segments path.chars := by
  unfold start
  split
  · next h => exact ⟨nofun, fun ⟨hwalk, _⟩ => absurd h hwalk.noNul⟩
  · next hnul =>
      split
      · next h => exact ⟨nofun, fun ⟨hwalk, _⟩ => absurd hwalk.short (Nat.not_le.2 h)⟩
      · next hshort =>
          split
          · next h => exact ⟨nofun, fun ⟨hwalk, _⟩ => absurd h hwalk.nonempty⟩
          · next hne =>
              simp only [Except.ok.injEq, Prod.mk.injEq]
              constructor
              · rintro ⟨rfl, rfl⟩
                exact ⟨⟨hnul, Nat.not_lt.1 hshort, hne⟩, rfl, rfl⟩
              · rintro ⟨-, rfl, rfl⟩
                exact ⟨rfl, rfl⟩

theorem isWalkable_of_notFound (h : disk.find path = .error .notFound) (hne : path.text ≠ "") :
    path.IsWalkable := by
  unfold find start at h
  split at h
  · cases h
  · next hnul =>
      split at h
      · cases h
      · next hshort => exact ⟨hnul, Nat.not_lt.1 hshort, hne⟩

/-- The directory that steps lead to. -/
def enter (disk : Disk) (location : Location) (steps : List (List Char)) :
    Except FileError Location := do
  let place ← disk.followAll location steps
  disk.requireDirectory place
  return place

theorem enter_ok :
    disk.enter location steps = .ok place ↔
      disk.followAll location steps = .ok place ∧ disk.node? place = some .directory := by
  unfold enter
  constructor
  · intro h
    obtain ⟨found, hfollow, h⟩ := bind_ok.1 h
    obtain ⟨_, hdirectory, h⟩ := bind_ok.1 h
    cases h
    exact ⟨hfollow, requireDirectory_ok.1 hdirectory⟩
  · rintro ⟨hfollow, hdirectory⟩
    exact bind_ok.2 ⟨place, hfollow, bind_ok.2 ⟨(), requireDirectory_ok.2 hdirectory, rfl⟩⟩

theorem enter_cons (step : List Char) :
    disk.enter location (step :: steps) =
      (disk.follow location step >>= fun place => disk.enter place steps) := by
  unfold enter
  rw [followAll]
  cases disk.follow location step <;> rfl

theorem require_then_enter (location : Location) (steps : List (List Char)) :
    (disk.requireDirectory location >>= fun _ => disk.enter location steps) =
      disk.enter location steps := by
  cases steps with
  | nil =>
      unfold enter
      rw [followAll]
      cases h : disk.requireDirectory location <;> simp [bind, Except.bind, h]
  | cons step steps =>
      rw [enter_cons, follow]
      cases h : disk.requireDirectory location <;> simp [bind, Except.bind]

theorem enter_append (first last : List (List Char)) :
    disk.enter location (first ++ last) =
      (disk.enter location first >>= fun place => disk.enter place last) := by
  induction first generalizing location with
  | nil =>
      rw [List.nil_append, ← require_then_enter location last]
      unfold enter
      rw [followAll]
      show _ = ((disk.requireDirectory location >>= fun _ => pure location) >>= _)
      cases disk.requireDirectory location <;> rfl
  | cons step first ih =>
      rw [List.cons_append, enter_cons, enter_cons]
      cases disk.follow location step with
      | error e => rfl
      | ok next => exact ih

theorem enter_concat {directory : Location} {step : List Char}
    (henter : disk.enter location steps = .ok directory)
    (hfollow : disk.follow directory step = .ok place)
    (hthere : disk.node? place = some .directory) :
    disk.enter location (steps ++ [step]) = .ok place := by
  rw [enter_append, henter]
  show disk.enter directory [step] = .ok place
  rw [enter_cons, hfollow]
  show disk.enter place [] = .ok place
  exact enter_ok.2 ⟨rfl, hthere⟩

/-- The parts of a path that do not count make no difference to the directory it leads to. -/
theorem enter_filter (location : Location) (parts : List (List Char)) :
    disk.enter location (parts.filter fun segment => !isTrivial segment) =
      disk.enter location parts := by
  induction parts generalizing location with
  | nil => rfl
  | cons part parts ih =>
      cases hpart : isTrivial part with
      | true =>
          rw [List.filter_cons_of_neg (by simp [hpart]), ih, enter_cons, follow, hpart,
            ← require_then_enter]
          cases disk.requireDirectory location <;> rfl
      | false =>
          rw [List.filter_cons_of_pos (by simp [hpart]), enter_cons, enter_cons]
          cases disk.follow location part with
          | error e => rfl
          | ok next => exact ih next

theorem follow_prefix {step : List Char} (hback : step ≠ ['.', '.'])
    (h : disk.follow location step = .ok place) : location <+: place := by
  obtain ⟨_, -, h⟩ := bind_ok.1 h
  dsimp only at h
  split at h
  · cases h
    exact List.prefix_refl _
  · split at h
    · cases h
    · cases h
      exact List.prefix_append _ _

theorem enter_prefix (hback : ['.', '.'] ∉ steps) (h : disk.enter location steps = .ok place) :
    location <+: place := by
  induction steps generalizing location with
  | nil =>
      obtain ⟨hall, -⟩ := enter_ok.1 h
      cases hall
      exact List.prefix_refl _
  | cons step steps ih =>
      rw [List.mem_cons, not_or] at hback
      obtain ⟨next, hnext, hrest⟩ := bind_ok.1 ((enter_cons step).symm.trans h)
      exact ( follow_prefix (Ne.symm hback.1) hnext).trans (ih hback.2 hrest)

theorem start_of_walkable (h : path.IsWalkable) (disk : Disk) :
    disk.start path = .ok (disk.origin path, segments path.chars) :=
  start_ok.2 ⟨h, rfl, rfl⟩

theorem find_of_enter (hwalk : path.IsWalkable)
    (h : disk.enter (disk.origin path) path.steps = .ok place) :
    disk.find path = .ok (place, .directory) := by
  rw [Path.steps, enter_filter] at h
  obtain ⟨hall, hdirectory⟩ := enter_ok.1 h
  simp [find, start_of_walkable hwalk disk, hall, hdirectory, bind, Except.bind]

/-- The last part of a path that is not empty stands in the directory that the parts before it lead
to. -/
theorem findLast_cases (hwalk : path.IsWalkable) (disk : Disk) :
    (∃ trailing, (∀ part ∈ trailing, part = []) ∧
        disk.findLast path = .ok (disk.origin path, trailing)) ∨
      ∃ first last trailing, segments path.chars = first ++ last :: trailing.reverse ∧
        (∀ part ∈ trailing, part = []) ∧ last ≠ [] ∧
          disk.findLast path =
            (disk.enter (disk.origin path) first >>=
              fun place => .ok (place, last :: trailing)) := by
  have hempty : ∀ part ∈ (segments path.chars).reverse.takeWhile (· == []), part = [] := by
    intro part hpart
    have htrue := List.mem_takeWhile_imp hpart
    exact beq_iff_eq.1 htrue
  have hparts :=
    List.takeWhile_append_dropWhile (p := (· == [])) (l := (segments path.chars).reverse)
  have hhead := List.head?_dropWhile_not (· == []) (segments path.chars).reverse
  unfold findLast
  rw [start_of_walkable hwalk disk]
  simp only [List.span_eq_takeWhile_dropWhile, bind, Except.bind]
  generalize (segments path.chars).reverse.takeWhile (· == []) = trailing at *
  cases hrest : (segments path.chars).reverse.dropWhile (· == []) with
  | nil => exact .inl ⟨trailing, hempty, rfl⟩
  | cons last before =>
      rw [hrest] at hparts hhead
      refine .inr ⟨before.reverse, last, trailing, ?_, hempty, ne_of_beq_false hhead, ?_⟩
      · rw [← List.reverse_reverse (segments path.chars), ← hparts]
        simp
      · unfold enter
        dsimp only
        cases disk.followAll (disk.origin path) before.reverse with
        | error e => rfl
        | ok place =>
            simp only [bind, Except.bind]
            cases disk.requireDirectory place <;> rfl

theorem createDirectory_of_enter (hwalk : path.IsWalkable)
    (h : disk.enter (disk.origin path) path.steps = .ok place) :
    disk.createDirectory path = .error .alreadyExists := by
  rw [Path.steps, enter_filter] at h
  unfold createDirectory
  rcases findLast_cases hwalk disk with ⟨trailing, hempty, hlast⟩ |
    ⟨first, last, trailing, hparts, hempty, hne, hlast⟩
  · rw [hlast]
    cases trailing with
    | nil => rfl
    | cons part trailing =>
        obtain rfl := hempty part List.mem_cons_self
        rfl
  · rw [hparts, enter_append] at h
    obtain ⟨directory, hfirst, h⟩ := bind_ok.1 h
    obtain ⟨target, htarget, hrest⟩ := bind_ok.1 ((enter_cons last).symm.trans h)
    have htrivial : ∀ part ∈ trailing.reverse, isTrivial part = true := by
      intro part hpart
      rw [hempty part (List.mem_reverse.1 hpart)]
      rfl
    rw [← enter_filter, filter_trivial htrivial] at hrest
    obtain ⟨hhere, hdirectory⟩ := enter_ok.1 hrest
    cases hhere
    rw [hlast, hfirst]
    by_cases hname : last = [] ∨ last = ['.'] ∨ last = ['.', '.']
    · simp [bind, Except.bind, hname]
    · simp [bind, Except.bind, hname, htarget, hdirectory]

theorem isWalkable_of_findLast {parts : List (List Char)}
    (h : disk.findLast path = .ok (location, parts)) : path.IsWalkable := by
  obtain ⟨_, hstart, -⟩ := bind_ok.1 h
  exact (start_ok.1 hstart).1

/-- What is created is a directory at the last step of the path, which is a name. -/
theorem createDirectory_steps (h : disk.createDirectory path = .ok after) :
    ∃ init name directory place, path.steps = init ++ [name] ∧ name ≠ ['.', '.'] ∧
      disk.enter (disk.origin path) init = .ok directory ∧
        disk.follow directory name = .ok place ∧ disk.node? place = none ∧
          after = disk.put place .directory := by
  obtain ⟨⟨location, parts⟩, hlast, hrest⟩ := bind_ok.1 h
  rcases findLast_cases (isWalkable_of_findLast hlast) disk with ⟨trailing, hempty, hfound⟩ |
    ⟨first, last, trailing, hparts, hempty, -, hfound⟩
  · -- No part counts: the last one is no name, so nothing is created.
    obtain ⟨rfl, rfl⟩ := Prod.mk.inj (Except.ok.inj (hlast.symm.trans hfound))
    cases parts with
    | nil => cases hrest
    | cons part parts =>
        obtain rfl := hempty part List.mem_cons_self
        cases hrest
  · obtain ⟨directory, hfirst, hpair⟩ := bind_ok.1 (hfound.symm.trans hlast)
    obtain ⟨rfl, rfl⟩ := Prod.mk.inj (Except.ok.inj hpair)
    simp only at hrest
    split at hrest
    · cases hrest
    · next hname =>
        simp only [not_or] at hname
        obtain ⟨place, hfollow, hrest⟩ := bind_ok.1 hrest
        cases hnode : disk.node? place with
        | some node =>
            rw [hnode] at hrest
            cases hrest
        | none =>
            rw [hnode] at hrest
            refine ⟨_, last, directory, place, ?_, hname.2.2, (enter_filter _ _).trans hfirst,
              hfollow, hnode, (Except.ok.inj hrest).symm⟩
            have htrivial : ∀ part ∈ trailing.reverse, isTrivial part = true := by
              intro part hpart
              rw [hempty part (List.mem_reverse.1 hpart)]
              rfl
            have hcounts : isTrivial last = false := by simp [isTrivial, hname]
            rw [Path.steps, hparts, List.filter_append, List.filter_cons_of_pos (by simp [hcounts]),
              filter_trivial htrivial]

section Ending
variable {before : List (List Char)} {name : List Char} {directory : Location}

theorem steps_of_ending (hparts : segments path.chars = before ++ [name])
    (hname : isTrivial name = false) :
    path.steps = (before.filter fun segment => !isTrivial segment) ++ [name] := by
  rw [Path.steps, hparts, List.filter_append]
  simp [hname]

theorem findLast_of_ending (hwalk : path.IsWalkable)
    (hparts : segments path.chars = before ++ [name]) (hname : isTrivial name = false)
    (disk : Disk) : disk.findLast path =
      (disk.enter (disk.origin path) (before.filter fun segment => !isTrivial segment) >>=
        fun place => .ok (place, [name])) := by
  have hne : name ≠ [] := by
    rintro rfl
    cases hname
  have hspan : (segments path.chars).reverse.span (· == []) = ([], name :: before.reverse) := by
    simp [List.span_eq_takeWhile_dropWhile, hparts, hne]
  unfold findLast
  rw [start_of_walkable hwalk disk, enter_filter, enter]
  simp only [bind, Except.bind, hspan, List.reverse_reverse]
  cases disk.followAll (disk.origin path) before with
  | error e => rfl
  | ok place =>
      dsimp only
      cases disk.requireDirectory place <;> rfl

theorem find_of_ending (hwalk : path.IsWalkable)
    (hparts : segments path.chars = before ++ [name])
    (henter : disk.enter (disk.origin path) (before.filter fun segment => !isTrivial segment) =
      .ok directory)
    (hfollow : disk.follow directory name = .ok place) :
    disk.find path =
      match disk.node? place with
      | some node => .ok (place, node)
      | none => .error .notFound := by
  rw [enter_filter] at henter
  have hall : disk.followAll (disk.origin path) (before ++ [name]) = .ok place := by
    rw [followAll_append, (enter_ok.1 henter).1]
    simp [followAll, bind, Except.bind, hfollow]
  cases hnode : disk.node? place <;>
    simp [find, start_of_walkable hwalk disk, hparts, hall, hnode, bind, Except.bind]

theorem find_of_lost {e : FileError} (hwalk : path.IsWalkable)
    (hparts : segments path.chars = before ++ [name])
    (h : disk.enter (disk.origin path) (before.filter fun segment => !isTrivial segment) =
      .error e) : disk.find path = .error e := by
  rw [enter_filter, enter] at h
  have hall : disk.followAll (disk.origin path) (before ++ [name]) = .error e := by
    rw [followAll_append]
    cases hfirst : disk.followAll (disk.origin path) before with
    | error e' =>
        rw [hfirst] at h
        exact h
    | ok place =>
        rw [hfirst] at h
        cases hrequire : disk.requireDirectory place with
        | error e' =>
            simp only [hrequire, bind, Except.bind] at h
            simp [followAll, follow, hrequire, bind, Except.bind, Except.error.inj h]
        | ok u => simp [hrequire, bind, Except.bind, pure, Except.pure] at h
  simp [find, start_of_walkable hwalk disk, hparts, hall, bind, Except.bind]

/-- Where a path leads to nothing, there is nothing in the directory under its last name. -/
theorem free_of_notFound (hwalk : path.IsWalkable)
    (hparts : segments path.chars = before ++ [name])
    (henter : disk.enter (disk.origin path) (before.filter fun segment => !isTrivial segment) =
      .ok directory)
    (hfollow : disk.follow directory name = .ok place) (h : disk.find path = .error .notFound) :
    disk.node? place = none := by
  have hfound := find_of_ending hwalk hparts henter hfollow
  rw [h] at hfound
  cases hnode : disk.node? place with
  | none => rfl
  | some node =>
      rw [hnode] at hfound
      cases hfound

theorem createDirectory_of_ending (hwalk : path.IsWalkable)
    (hparts : segments path.chars = before ++ [name]) (hname : isTrivial name = false)
    (hback : name ≠ ['.', '.'])
    (henter : disk.enter (disk.origin path) (before.filter fun segment => !isTrivial segment) =
      .ok directory)
    (hfollow : disk.follow directory name = .ok place) (hfree : disk.node? place = none) :
    disk.createDirectory path = .ok (disk.put place .directory) := by
  have hplain : ¬ (name = [] ∨ name = ['.'] ∨ name = ['.', '.']) := by
    simpa [isTrivial, hback] using hname
  unfold createDirectory
  rw [findLast_of_ending hwalk hparts hname, henter]
  simp [bind, Except.bind, hplain, hfollow, hfree]

theorem target_of_ending (hwalk : path.IsWalkable)
    (hparts : segments path.chars = before ++ [name]) (hname : isTrivial name = false)
    (hback : name ≠ ['.', '.'])
    (henter : disk.enter (disk.origin path) (before.filter fun segment => !isTrivial segment) =
      .ok directory)
    (hfollow : disk.follow directory name = .ok place) (hfree : disk.isDirectoryAt place = false) :
    disk.target path = .ok place := by
  have hplain : ¬ (name = [] ∨ name = ['.'] ∨ name = ['.', '.']) := by
    simpa [isTrivial, hback] using hname
  unfold target
  rw [findLast_of_ending hwalk hparts hname, henter]
  simp [bind, Except.bind, hplain, hfollow, hfree]

/-- A file is written at the last step of its path, which is a name. -/
theorem target_steps (h : disk.target path = .ok place) :
    ∃ before name directory, path.IsWalkable ∧ segments path.chars = before ++ [name] ∧
      isTrivial name = false ∧ name ≠ ['.', '.'] ∧
        disk.enter (disk.origin path) (before.filter fun segment => !isTrivial segment) =
          .ok directory ∧
            disk.follow directory name = .ok place ∧ disk.isDirectoryAt place = false := by
  obtain ⟨origin, before, directory, name, hstart, -, hall, hfollow, hplain, hfree⟩ := target_ok h
  obtain ⟨hwalk, rfl, hparts⟩ := start_ok.1 hstart
  simp only [not_or] at hplain
  obtain ⟨_, hdirectory, -⟩ := bind_ok.1 hfollow
  refine ⟨before, name, directory, hwalk, hparts.symm, by simp [isTrivial, hplain], hplain.2.2, ?_,
    hfollow, hfree⟩
  rw [enter_filter]
  exact enter_ok.2 ⟨hall, requireDirectory_ok.1 hdirectory⟩

end Ending

/-- A name leads from a directory to a place in it, unless it is too long. -/
theorem follow_name {name : List Char} (hname : isTrivial name = false)
    (hback : name ≠ ['.', '.']) :
    disk.follow location name = .ok place ↔ disk.node? location = some .directory ∧
      (String.ofList name).utf8ByteSize ≤ nameLimit ∧ place = location ++ [String.ofList name] := by
  unfold follow
  rw [bind_ok]
  simp only [hname, Bool.false_eq_true, if_false, hback, requireDirectory_ok, exists_const]
  refine and_congr_right fun _ => ?_
  split
  · next hlong => exact ⟨nofun, fun ⟨hshort, _⟩ => absurd hshort (Nat.not_le.2 hlong)⟩
  · next hshort => simp [Nat.not_lt.1 hshort, eq_comm]

end Disk
end Files
end Gazette
