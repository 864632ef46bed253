import Gazette.CommandLine.Reader
import Gazette.Proofs.Digits
import Gazette.Proofs.Rules

/-!
# Arguments

How an invocation is written as a command line, and that it is read back from every command line
that it can be written as. Every option is written by its long name, with its value attached, so
that nothing in a value can be taken for an option or for a subcommand. The options that all levels
have may stand on any level that the command goes through, and the options of a level in any order
in which the values of one option stay in sequence.
-/
namespace Gazette

namespace CommandLine
open Text Files

theorem readDigitsFrom_append (value : Int) (first last : List Char) :
    readDigitsFrom false value (first ++ last) =
      (readDigitsFrom false value first >>= fun value => readDigitsFrom false value last) := by
  induction first generalizing value with
  | nil => rfl
  | cons c first ih =>
      simp only [List.cons_append, readDigitsFrom, Bool.false_eq_true, if_false]
      split
      · rfl
      · split
        · rfl
        · split
          · rfl
          · exact ih _

theorem readDigitsFrom_digit (value : Nat) {digit : Nat} (hdigit : digit < 10)
    (hfits : 10 * value + digit < 0x8000000000000000) :
    readDigitsFrom false value [digit.digitChar] = .ok (10 * value + digit : Nat) := by
  have hvalue : ((10 * value + digit : Nat) : Int) = 10 * value + digit := by omega
  simp only [readDigitsFrom, isDigit_digitChar digit hdigit, digitValue_digitChar digit hdigit,
    Bool.not_true, Bool.false_eq_true, if_false]
  rw [if_neg (by omega), if_neg (by omega), hvalue]

theorem readDigitsFrom_decimal {n : Nat} (h : n < 0x8000000000000000) :
    readDigitsFrom false 0 (decimal n) = .ok n := by
  induction n using Nat.strongRecOn with
  | ind n ih =>
      rcases Nat.lt_or_ge n 10 with hsmall | hlarge
      · rw [decimal_of_lt hsmall]
        simpa using readDigitsFrom_digit 0 hsmall (by omega)
      · have hrest := ih (n / 10) (by omega) (by omega)
        have hlast := readDigitsFrom_digit (n / 10) (Nat.mod_lt n (by decide : 0 < 10)) (by omega)
        rw [decimal_of_le hlarge, readDigitsFrom_append, hrest]
        show readDigitsFrom false ((n / 10 : Nat) : Int) _ = _
        rw [hlast, Nat.div_add_mod]

theorem readPort_decimal {n : Nat} (h : n ≤ greatestPort) :
    readPort (String.ofList (decimal n)) = .ok n := by
  have hbound : n < 0x8000000000000000 := Nat.lt_of_le_of_lt h (by decide)
  have hnumber : readNumber (String.ofList (decimal n)) = .ok (n : Int) := by
    rw [readNumber, String.toList_ofList, ← readDigitsFrom_decimal hbound]
    have hdigits := forall_isDigit_decimal n
    cases hcs : decimal n with
    | nil => exact absurd hcs (decimal_ne_nil n)
    | cons c cs =>
        have hc : isDigit c = true := hdigits c (hcs ▸ List.mem_cons_self)
        have hplus : c ≠ '+' := by
          rintro rfl
          cases hc
        have hminus : c ≠ '-' := by
          rintro rfl
          cases hc
        split <;> simp_all
  have hrange : (0 : Int) ≤ n ∧ (n : Int) ≤ greatestPort := ⟨by omega, by omega⟩
  rw [readPort, hnumber]
  show (if (0 : Int) ≤ n ∧ (n : Int) ≤ greatestPort then _ else _) = _
  rw [if_pos hrange]
  rfl

namespace Value

def text? : Value → Option String
  | path p => some p.text
  | text s => some s
  | port n => some (String.ofList (decimal n))
  | pair key value => some (key ++ "=" ++ value)
  | on => none

def kind? : Value → Option ValueKind
  | path _ => some .path
  | text _ => some .text
  | port _ => some .port
  | pair _ _ => some .pair
  | on => none

/-- Whether a value can be written. No path is empty, and the key of a pair is what is read in
front of the first equals sign. -/
def IsWritable : Value → Prop
  | path p => p.text ≠ ""
  | port n => n ≤ greatestPort
  | pair key _ => '=' ∉ key.toList ∧ trim key = key ∧ key ≠ ""
  | text _ | on => True

instance : DecidablePred IsWritable
  | path p => inferInstanceAs (Decidable (p.text ≠ ""))
  | port n => inferInstanceAs (Decidable (n ≤ greatestPort))
  | pair key _ => inferInstanceAs (Decidable ('=' ∉ key.toList ∧ trim key = key ∧ key ≠ ""))
  | text _ | on => inferInstanceAs (Decidable True)

end Value

/-- A pair is cut at the first equals sign. Its key is trimmed, and its value is all the rest. -/
theorem readPair_append {key : String} (hkey : '=' ∉ key.toList) (hblank : trim key ≠ "")
    (value : String) : readPair (key ++ "=" ++ value) = .ok (trim key, value) := by
  have hsplit : splitFirst '=' (key ++ "=" ++ value).toList = some (key.toList, value.toList) :=
    splitFirst_eq_some_iff.2 ⟨hkey, by simp⟩
  have htrim : trimChars key.toList ≠ [] := by
    intro hnone
    exact hblank (by rw [trim, hnone])
  rw [readPair, hsplit]
  dsimp only
  rw [if_neg htrim, String.ofList_toList, trim]

theorem readValue_text {value : Value} {kind : ValueKind} (hvalue : value.IsWritable)
    (hkind : value.kind? = some kind) (spec : OptionSpec) :
    ∃ s, value.text? = some s ∧ readValue spec kind s = .ok value := by
  cases value with
  | path p =>
      cases hkind
      exact ⟨p.text, rfl, if_neg hvalue⟩
  | text s =>
      cases hkind
      exact ⟨s, rfl, rfl⟩
  | port n =>
      cases hkind
      refine ⟨_, rfl, ?_⟩
      rw [readValue, readPort_decimal hvalue]
      rfl
  | pair key value =>
      cases hkind
      obtain ⟨hkey, htrim, hne⟩ := hvalue
      refine ⟨_, rfl, ?_⟩
      rw [readValue, readPair_append hkey (by rwa [htrim]), htrim]
      rfl
  | on => cases hkind

def optionWord (given : String × Value) : String :=
  match given.2.text? with
  | some s => "--" ++ given.1 ++ "=" ++ s
  | none => "--" ++ given.1

theorem toList_optionWord (given : String × Value) :
    (optionWord given).toList = '-' :: '-' :: (given.1.toList ++
      match given.2.text? with
      | some s => '=' :: s.toList
      | none => []) := by
  unfold optionWord
  cases given.2.text? <;> simp

theorem subcommands_ne_hyphen (level : Level) :
    ∀ subcommand ∈ level.subcommands, subcommand.1.toList.head? ≠ some '-' := by
  cases level <;> decide

theorem subcommand?_optionWord (level : Level) (given : String × Value) :
    level.subcommand? (optionWord given) = none := by
  rw [Level.subcommand?, List.lookup_eq_none_iff]
  intro subcommand hsubcommand
  refine bne_iff_ne.2 fun hname => ?_
  refine subcommands_ne_hyphen level subcommand hsubcommand ?_
  rw [← hname, toList_optionWord]
  rfl

theorem options_formed (level : Level) :
    ∀ spec ∈ level.options, spec.long.toList ≠ [] ∧ '=' ∉ spec.long.toList := by
  cases level <;> decide

theorem long?_some {level : Level} {long : String} {spec : OptionSpec}
    (h : level.long? long = some spec) :
    spec.long = long ∧ long.toList ≠ [] ∧ '=' ∉ long.toList := by
  have hlong : spec.long = long := by simpa using List.find?_some h
  exact ⟨hlong, hlong ▸ options_formed level spec (List.mem_of_find?_eq_some h)⟩

/-- Whether an option takes a value. A flag takes none but that it is on. -/
def OptionSpec.Takes (spec : OptionSpec) (value : Value) : Prop :=
  match spec.kind with
  | .value kind | .values kind => value.kind? = some kind
  | .flag => value = .on
  | .help => False

def OptionSpec.IsRepeatable (spec : OptionSpec) : Prop :=
  ∃ kind, spec.kind = .values kind

theorem apply_takes {state : LevelState} {spec : OptionSpec} {value : Value}
    (htakes : spec.Takes value) (hvalue : value.IsWritable)
    (honce : spec.IsRepeatable ∨ state.has spec.long = false) :
    state.apply spec value.text? = .ok (state.add spec value) := by
  unfold LevelState.apply
  unfold OptionSpec.Takes at htakes
  unfold OptionSpec.IsRepeatable at honce
  cases hkind : spec.kind with
  | help => simp [hkind] at htakes
  | flag =>
      simp only [hkind, reduceCtorEq, exists_false, false_or] at htakes honce
      simp [htakes, honce]
  | value kind =>
      simp only [hkind, reduceCtorEq, exists_false, false_or] at htakes honce
      obtain ⟨s, hs, hread⟩ := readValue_text hvalue htakes spec
      rw [hs]
      simp only [honce, hread]
      rfl
  | values kind =>
      simp only [hkind] at htakes
      obtain ⟨s, hs, hread⟩ := readValue_text hvalue htakes spec
      rw [hs]
      simp only [hread]
      rfl

section Reading
variable {state : LevelState} {given : String × Value} {spec : OptionSpec}

theorem takesValue_eq {value : Value} (h : spec.Takes value) :
    LevelState.takesValue spec = value.text?.isSome := by
  unfold OptionSpec.Takes at h
  unfold LevelState.takesValue
  cases hkind : spec.kind <;> rw [hkind] at h <;> cases value <;> first | rfl | cases h

theorem splitFirst_eq_none {separator : Char} {cs : List Char} (h : separator ∉ cs) :
    splitFirst separator cs = none := by
  refine Option.eq_none_iff_forall_not_mem.2 ?_
  rintro ⟨before, after⟩ hsplit
  obtain ⟨-, rfl⟩ := splitFirst_eq_some_iff.1 hsplit
  exact h (by simp)

/-- What stands behind the two hyphens of a word for an option is taken as this option with its
value. -/
theorem takeLong_given (hpending : state.pending = none)
    (hspec : state.level.long? given.1 = some spec) (htakes : spec.Takes given.2)
    (hvalue : given.2.IsWritable) (honce : spec.IsRepeatable ∨ state.has given.1 = false) :
    state.takeLong (given.1.toList ++
        match given.2.text? with
        | some s => '=' :: s.toList
        | none => []) =
      .ok { state with values := state.values ++ [given] } := by
  obtain ⟨hlong, -, hequals⟩ := long?_some hspec
  have hsettle : state.settle = .ok state := by rw [LevelState.settle, hpending]
  have happly := apply_takes htakes hvalue (hlong ▸ honce)
  have htaken := takesValue_eq htakes
  rw [LevelState.add, hlong] at happly
  unfold LevelState.takeLong
  cases htext : given.2.text? with
  | some s =>
      have hsplit : splitFirst '=' (given.1.toList ++ '=' :: s.toList) =
          some (given.1.toList, s.toList) := splitFirst_eq_some_iff.2 ⟨hequals, rfl⟩
      rw [htext] at happly htaken
      dsimp only
      rw [hsplit]
      simp only [String.ofList_toList, hspec, htaken, Option.isSome_some, if_true]
      rw [LevelState.takeOption, hsettle]
      exact happly
  | none =>
      rw [htext] at happly htaken
      dsimp only
      rw [List.append_nil, splitFirst_eq_none hequals]
      simp only [String.ofList_toList, hspec, htaken, Option.isSome_none, Bool.false_eq_true,
        if_false, hsettle]
      exact happly

theorem take_optionWord (outer : List LevelState) (hpending : state.pending = none)
    (hoptions : state.noOptions = false) (hspec : state.level.long? given.1 = some spec)
    (htakes : spec.Takes given.2) (hvalue : given.2.IsWritable)
    (honce : spec.IsRepeatable ∨ state.has given.1 = false) :
    (Reading.on state outer).take (optionWord given) =
      .ok (.on { state with values := state.values ++ [given] } outer) := by
  have htake := takeLong_given hpending hspec htakes hvalue honce
  obtain ⟨-, hne, -⟩ := long?_some hspec
  rw [Reading.take]
  simp only [hoptions, Bool.false_eq_true, if_false, subcommand?_optionWord, ite_self,
    toList_optionWord]
  generalize hrest : (given.1.toList ++
    match given.2.text? with
    | some s => '=' :: s.toList
    | none => []) = rest at htake
  cases rest with
  | nil => exact absurd (List.append_eq_nil_iff.1 hrest).1 hne
  | cons c rest =>
      show Except.map _ (LevelState.takeLong (c :: rest) state) = _
      rw [htake, hoptions]
      rfl

def valuesOf (long : String) (given : List (String × Value)) : List Value :=
  (given.filter (·.1 == long)).map (·.2)

theorem valuesOf_append (long : String) (first last : List (String × Value)) :
    valuesOf long (first ++ last) = valuesOf long first ++ valuesOf long last := by
  simp [valuesOf]

theorem valuesOf_cons_self (given : String × Value) (rest : List (String × Value)) :
    valuesOf given.1 (given :: rest) = given.2 :: valuesOf given.1 rest := by
  simp [valuesOf]

theorem valuesOf_eq_nil {long : String} {given : List (String × Value)} :
    valuesOf long given = [] ↔ ∀ entry ∈ given, entry.1 ≠ long := by
  simp [valuesOf]

theorem lookup_of_not_mem {entries : List (String × List Value)} {long : String}
    (h : long ∉ entries.map (·.1)) : entries.lookup long = none := by
  refine List.lookup_eq_none_iff.2 fun entry hentry => bne_iff_ne.2 ?_
  rintro rfl
  exact h (List.mem_map_of_mem hentry)

theorem mem_valuesOf {long : String} {value : Value} {given : List (String × Value)} :
    value ∈ valuesOf long given ↔ (long, value) ∈ given := by
  simp [valuesOf, List.mem_map, List.mem_filter, and_comm]

theorem has_eq_false_iff {long : String} :
    state.has long = false ↔ valuesOf long state.values = [] := by
  simp [LevelState.has, valuesOf_eq_nil]

/-- Whether a level reads options with their values. It has all of them, and none is given more
often than it may be. -/
def Level.Reads (level : Level) (part : List (String × Value)) : Prop :=
  ∀ given ∈ part, given.2.IsWritable ∧ ∃ spec, level.long? given.1 = some spec ∧
    spec.Takes given.2 ∧ (spec.IsRepeatable ∨ (valuesOf given.1 part).length ≤ 1)

theorem takeAll_cons {reading next : Reading} {word : String} (words : List String)
    (h : reading.take word = .ok next) :
    reading.takeAll (word :: words) = next.takeAll words := by
  rw [Reading.takeAll, h]
  rfl

theorem takeAll_given (state : LevelState) (outer : List LevelState)
    {part : List (String × Value)} (words : List String) (hpending : state.pending = none)
    (hoptions : state.noOptions = false) (hreads : state.level.Reads (state.values ++ part)) :
    (Reading.on state outer).takeAll (part.map optionWord ++ words) =
      (Reading.on { state with values := state.values ++ part } outer).takeAll words := by
  induction part generalizing state with
  | nil => simp
  | cons given part ih =>
      obtain ⟨hvalue, spec, hspec, htakes, honce⟩ := hreads given (by simp)
      have hfirst : spec.IsRepeatable ∨ state.has given.1 = false := by
        refine honce.imp_right fun hlength => has_eq_false_iff.2 ?_
        rw [valuesOf_append, valuesOf_cons_self, List.length_append, List.length_cons] at hlength
        exact List.length_eq_zero_iff.1 (by omega)
      have htaken := take_optionWord outer hpending hoptions hspec htakes hvalue hfirst
      have hrest := ih { state with values := state.values ++ [given] } hpending hoptions
        (by simpa using hreads)
      rw [List.map_cons, List.cons_append, takeAll_cons _ htaken]
      simpa using hrest

end Reading

/-- The words for options with their values: what is given on each level that is left, the name of
the subcommand that it is left through, and what is given on the last level. -/
def lineOf (outer : List (List (String × Value) × String)) (last : List (String × Value)) :
    List String :=
  outer.flatMap (fun part => part.1.map optionWord ++ [part.2]) ++ last.map optionWord

def Leads : List String → Level → Level → Prop
  | [], level, last => level = last
  | name :: names, level, last =>
    ∃ next, level.subcommand? name = some next ∧ next ≠ .help ∧ Leads names next last

/-- A level that was left through a subcommand. -/
structure LevelState.IsLeft (state : LevelState) : Prop where
  pending : state.pending = none
  subcommands : state.level.subcommands ≠ []

/-- The levels of a line are gone through, and each has what was given on it. -/
theorem takeAll_lineOf {outer : List (List (String × Value) × String)}
    {last : List (String × Value)} {level lastLevel : Level} (above : List LevelState)
    (hleads : Leads (outer.map (·.2)) level lastLevel)
    (houter : ∀ part ∈ outer, ∀ level : Level, level.Reads part.1)
    (hlast : lastLevel.Reads last) :
    ∃ states : List LevelState,
      (Reading.on { level := level } above).takeAll (lineOf outer last) =
        .ok (.on { level := lastLevel, values := last } (states ++ above)) ∧
      states.map (·.values) = (outer.map (·.1)).reverse ∧ ∀ state ∈ states, state.IsLeft := by
  -- The induction is on the levels before the last, for whatever levels are left above them.
  induction outer generalizing level above with
  | nil =>
      obtain rfl : level = lastLevel := hleads
      refine ⟨[], ?_, rfl, List.forall_mem_nil _⟩
      have htaken := takeAll_given { level := level } above [] rfl rfl hlast
      simpa [lineOf, Reading.takeAll] using htaken
  | cons part outer ih =>
      obtain ⟨given, name⟩ := part
      obtain ⟨next, hnext, hhelp, hleads⟩ := hleads
      obtain ⟨hgiven, houter⟩ := List.forall_mem_cons.1 houter
      have htaken := takeAll_given { level := level } above (name :: lineOf outer last) rfl rfl
        (hgiven level)
      have hstep : (Reading.on { level := level, values := given } above).take name =
          .ok (.on { level := next } ({ level := level, values := given } :: above)) := by
        rw [Reading.take]
        simp only [LevelState.awaitsValue, Bool.false_eq_true, if_false, hnext]
      obtain ⟨states, hall, hvalues, hleft⟩ :=
        ih ({ level := level, values := given } :: above) hleads houter
      refine ⟨states ++ [{ level := level, values := given }], ?_, ?_, ?_⟩
      · have hline : lineOf ((given, name) :: outer) last =
            given.map optionWord ++ name :: lineOf outer last := by simp [lineOf]
        rw [hline, htaken, List.nil_append, takeAll_cons _ hstep]
        simpa using hall
      · simp [hvalues]
      · intro state hstate
        rcases List.mem_append.1 hstate with hstate | hstate
        · exact hleft state hstate
        · obtain rfl := List.mem_singleton.1 hstate
          refine ⟨rfl, fun hnone => ?_⟩
          rw [Level.subcommand?, show level.subcommands = [] from hnone] at hnext
          cases hnext

def flagValues (isOn : Bool) : List Value :=
  if isOn then [.on] else []

def Invocation.options (i : Invocation) : List (String × List Value) :=
  [("config", (i.config.map .path).toList), ("host", (i.host.map .text).toList),
    ("port", (i.port.map .port).toList), ("data-dir", (i.dataDir.map .path).toList)]

def ProjectParams.options (params : ProjectParams) : List (String × List Value) :=
  [("set", params.set.map fun pair => .pair pair.1 pair.2),
    ("keyword", params.keywords.map .text), ("templates", (params.templates.map .path).toList)]

namespace Command

def options : Command → List (String × List Value)
  | serve => []
  | scaffold args =>
    args.params.options ++
      [("output", [.path args.output]), ("zip", flagValues args.zip),
        ("strict", flagValues args.strict), ("force", flagValues args.force),
        ("dry-run", flagValues args.dryRun)]
  | scaffoldCheck params => params.options
  | addUser username email admin =>
    [("username", [.text username]), ("email", [.text email]), ("admin", flagValues admin)]
  | issueToken username => [("username", [.text username])]

def level : Command → Level
  | serve => .serve
  | scaffold _ => .scaffold
  | scaffoldCheck _ => .scaffoldCheck
  | addUser _ _ _ => .addUser
  | issueToken _ => .issueToken

def names : Command → List String
  | serve => ["serve"]
  | scaffold _ => ["scaffold"]
  | scaffoldCheck _ => ["scaffold-check"]
  | addUser _ _ _ => ["user", "add"]
  | issueToken _ => ["user", "token"]

end Command

namespace Invocation

/-- Whether every value of an invocation can be written. -/
def IsWritable (i : Invocation) : Prop :=
  ∀ entry ∈ i.options ++ i.command.options, ∀ value ∈ entry.2, value.IsWritable

instance (i : Invocation) : Decidable i.IsWritable :=
  inferInstanceAs (Decidable (∀ entry ∈ i.options ++ i.command.options, ∀ value ∈ entry.2, _))

/-- Whether what is given on the levels of a line is what an invocation says. The options that all
levels have may stand on every level and the others on the last one, in any order in which each
option has its values in sequence. -/
structure IsArranged (i : Invocation) (outer : List (List (String × Value) × String))
    (last : List (String × Value)) : Prop where
  names : outer.map (·.2) = i.command.names
  common : ∀ part ∈ outer, ∀ given ∈ part.1, given.1 ∈ commonOptions.map (·.long)
  values : ∀ long, valuesOf long (outer.flatMap (·.1) ++ last) =
    ((i.options ++ i.command.options).lookup long).getD []

def IsWrittenAs (i : Invocation) (words : List String) : Prop :=
  ∃ outer last, i.IsArranged outer last ∧ words = lineOf outer last

end Invocation

theorem leads_names (command : Command) : Leads command.names .root command.level := by
  cases command with
  | serve | scaffold | scaffoldCheck => exact ⟨_, rfl, by decide, rfl⟩
  | addUser | issueToken => exact ⟨_, rfl, by decide, _, rfl, by decide, rfl⟩

def Level.Offers (level : Level) (entry : String × List Value) : Prop :=
  ∃ spec, level.long? entry.1 = some spec ∧ (∀ value ∈ entry.2, spec.Takes value) ∧
    (spec.IsRepeatable ∨ entry.2.length ≤ 1)

section Offers
variable {level : Level} {long : String} {spec : OptionSpec} {α : Type} {make : α → Value}

theorem offers_optional (make : α → Value) (hspec : level.long? long = some spec)
    (htakes : ∀ a, spec.Takes (make a)) (a? : Option α) :
    level.Offers (long, (a?.map make).toList) := by
  refine ⟨spec, hspec, ?_, ?_⟩
  · intro value hvalue
    simp only [Option.mem_toList, Option.map_eq_some_iff] at hvalue
    obtain ⟨a, -, rfl⟩ := hvalue
    exact htakes a
  · cases a? <;> simp

theorem offers_repeated (make : α → Value) (hspec : level.long? long = some spec)
    (hrepeatable : spec.IsRepeatable) (htakes : ∀ a, spec.Takes (make a)) (as : List α) :
    level.Offers (long, as.map make) := by
  refine ⟨spec, hspec, ?_, .inl hrepeatable⟩
  intro value hvalue
  obtain ⟨a, -, rfl⟩ := List.mem_map.1 hvalue
  exact htakes a

theorem offers_once {value : Value} (hspec : level.long? long = some spec)
    (htakes : spec.Takes value) : level.Offers (long, [value]) :=
  offers_optional (fun _ => value) hspec (fun _ => htakes) (some ())

theorem offers_flag (hspec : level.long? long = some spec) (htakes : spec.Takes .on)
    (isOn : Bool) : level.Offers (long, flagValues isOn) := by
  cases isOn
  · exact ⟨spec, hspec, nofun, .inr (by simp [flagValues])⟩
  · exact offers_once hspec htakes

end Offers

theorem offers_common {i : Invocation} (level : Level) :
    ∀ entry ∈ i.options, level.Offers entry := by
  simp only [Invocation.options, List.forall_mem_cons]
  refine ⟨?_, ?_, ?_, ?_, nofun⟩
  · exact offers_optional .path rfl (fun _ => by rfl) _
  · exact offers_optional .text rfl (fun _ => by rfl) _
  · exact offers_optional .port rfl (fun _ => by rfl) _
  · exact offers_optional .path rfl (fun _ => by rfl) _

theorem offers_project {level : Level} (hset : level.long? "set" = projectOptions[0]?)
    (hkeyword : level.long? "keyword" = projectOptions[1]?)
    (htemplates : level.long? "templates" = projectOptions[2]?) (params : ProjectParams) :
    ∀ entry ∈ params.options, level.Offers entry := by
  simp only [ProjectParams.options, List.forall_mem_cons]
  refine ⟨?_, ?_, ?_, nofun⟩
  · exact offers_repeated (fun pair : String × String => .pair pair.1 pair.2) hset ⟨_, rfl⟩
      (fun _ => by rfl) _
  · exact offers_repeated .text hkeyword ⟨_, rfl⟩ (fun _ => by rfl) _
  · exact offers_optional .path htemplates (fun _ => by rfl) _

theorem offers_own (command : Command) :
    ∀ entry ∈ command.options, command.level.Offers entry := by
  cases command with
  | serve => nofun
  | scaffold args =>
      simp only [Command.options, List.forall_mem_append, List.forall_mem_cons]
      refine ⟨offers_project rfl rfl rfl _, offers_once rfl (by rfl), ?_, ?_, ?_, ?_, nofun⟩
      all_goals exact offers_flag rfl (by rfl) _
  | scaffoldCheck params => exact offers_project rfl rfl rfl params
  | addUser username email admin =>
      simp only [Command.options, List.forall_mem_cons]
      exact ⟨offers_once rfl (by rfl), offers_once rfl (by rfl), offers_flag rfl (by rfl) _, nofun⟩
  | issueToken username =>
      simp only [Command.options, List.forall_mem_cons]
      exact ⟨offers_once rfl (by rfl), nofun⟩

/-- The options of a command have other names than those that all levels have. -/
theorem own_not_common (command : Command) :
    ∀ entry ∈ command.options, entry.1 ∉ commonOptions.map (·.long) := by
  have hproject (params : ProjectParams) :
      ∀ entry ∈ params.options, entry.1 ∉ commonOptions.map (·.long) := by
    simp [ProjectParams.options, commonOptions]
  cases command with
  | serve => nofun
  | scaffold args =>
      refine List.forall_mem_append.2 ⟨hproject args.params, ?_⟩
      simp [commonOptions]
  | scaffoldCheck params => exact hproject params
  | addUser | issueToken => simp [Command.options, commonOptions]

theorem common_mem (i : Invocation) :
    ∀ entry ∈ i.options, entry.1 ∈ commonOptions.map (·.long) := by
  simp [Invocation.options, commonOptions]

def Command.Given (command : Command) (values : List (String × Value)) : Prop :=
  ∀ long ∉ commonOptions.map (·.long),
    valuesOf long values = (command.options.lookup long).getD []

section Arranged
variable {i : Invocation} {outer : List (List (String × Value) × String)}
  {last : List (String × Value)}

/-- What is given on a line is a value of an option that the invocation has. -/
theorem Invocation.IsArranged.entry (h : i.IsArranged outer last) {given : String × Value}
    (hgiven : given ∈ outer.flatMap (·.1) ++ last) :
    ∃ values, (given.1, values) ∈ i.options ++ i.command.options ∧ given.2 ∈ values ∧
      valuesOf given.1 (outer.flatMap (·.1) ++ last) = values := by
  have hmem : given.2 ∈ valuesOf given.1 (outer.flatMap (·.1) ++ last) := mem_valuesOf.2 hgiven
  have hvalues := h.values given.1
  cases hlookup : (i.options ++ i.command.options).lookup given.1 with
  | none =>
      rw [hvalues, hlookup] at hmem
      cases hmem
  | some values =>
      rw [hlookup] at hvalues
      obtain ⟨before, after, hentries, -⟩ := List.lookup_eq_some_iff.1 hlookup
      refine ⟨values, ?_, ?_, hvalues⟩
      · rw [hentries]
        simp
      · rwa [hvalues] at hmem

/-- A level reads a part of a line if it has the options of the invocation that are given there. -/
theorem Invocation.IsArranged.reads (h : i.IsArranged outer last) (hi : i.IsWritable)
    {level : Level} {part : List (String × Value)}
    (hpart : part.Sublist (outer.flatMap (·.1) ++ last))
    (hoffers : ∀ given ∈ part, ∀ entry ∈ i.options ++ i.command.options, entry.1 = given.1 →
      level.Offers entry) : level.Reads part := by
  intro given hgiven
  obtain ⟨values, hentry, hvalue, hvalues⟩ := h.entry (hpart.subset hgiven)
  obtain ⟨spec, hspec, htakes, honce⟩ := hoffers given hgiven _ hentry rfl
  have hlength : (valuesOf given.1 part).length ≤ values.length :=
    hvalues ▸ ((hpart.filter _).map _).length_le
  exact ⟨hi _ hentry _ hvalue, spec, hspec, htakes _ hvalue, honce.imp_right hlength.trans⟩

theorem Invocation.IsArranged.reads_outer (h : i.IsArranged outer last) (hi : i.IsWritable) :
    ∀ part ∈ outer, ∀ level : Level, level.Reads part.1 := by
  intro part hpart level
  have hsub : part.1.Sublist (outer.flatMap (·.1) ++ last) :=
    (List.sublist_flatten_of_mem (List.mem_map_of_mem hpart)).trans
      (List.sublist_append_left _ _)
  refine h.reads hi hsub fun given hgiven entry hentry hname => ?_
  rcases List.mem_append.1 hentry with hentry | hentry
  · exact offers_common level entry hentry
  · exact absurd (hname ▸ h.common part hpart given hgiven) (own_not_common i.command entry hentry)

theorem Invocation.IsArranged.reads_last (h : i.IsArranged outer last) (hi : i.IsWritable) :
    i.command.level.Reads last :=
  h.reads hi (List.sublist_append_right _ _) fun _ _ entry hentry _ =>
    (List.mem_append.1 hentry).elim (offers_common _ entry) (offers_own _ entry)

/-- The options that are not common to all levels are given on the last level. -/
theorem Invocation.IsArranged.own (h : i.IsArranged outer last) : i.command.Given last := by
  intro long hlong
  have houter : valuesOf long (outer.flatMap (·.1)) = [] := by
    refine valuesOf_eq_nil.2 fun given hgiven hname => ?_
    obtain ⟨part, hpart, hgiven⟩ := List.mem_flatMap.1 hgiven
    exact hlong (hname ▸ h.common part hpart given hgiven)
  have hcommon : i.options.lookup long = none := by
    refine lookup_of_not_mem fun hmem => ?_
    obtain ⟨entry, hentry, rfl⟩ := List.mem_map.1 hmem
    exact hlong (common_mem i entry hentry)
  have hvalues := h.values long
  rwa [valuesOf_append, houter, List.nil_append, List.lookup_append, hcommon,
    Option.none_or] at hvalues

theorem Invocation.IsArranged.anywhere (h : i.IsArranged outer last) (long : String)
    {value? : Option Value} (hlong : i.options.lookup long = some value?.toList)
    {values : List (String × Value)} (hperm : values.Perm (outer.flatMap (·.1) ++ last)) :
    valuesOf long values = value?.toList := by
  have hall : (valuesOf long values).Perm value?.toList := by
    have hvalues := h.values long
    rw [List.lookup_append, hlong, Option.some_or, Option.getD_some] at hvalues
    exact hvalues ▸ (hperm.filter _).map _
  cases value? with
  | none => exact List.perm_nil.1 hall
  | some value => exact List.perm_singleton.1 hall

end Arranged

section Lookup
variable {long : String} {values : List (String × Value)}

/-- What is found among values is what stands for the values of one option, if all else is passed
over. -/
theorem filterMap_of_valuesOf {α : Type} {find : String × Value → Option α} {make : α → Value}
    (hother : ∀ given, given.1 ≠ long → find given = none)
    (hmake : ∀ a, find (long, make a) = some a) {as : List α}
    (h : valuesOf long values = as.map make) : values.filterMap find = as := by
  induction values generalizing as with
  | nil => exact (List.map_eq_nil_iff.1 h.symm).symm
  | cons given values ih =>
      by_cases hname : given.1 = long
      · subst hname
        rw [valuesOf_cons_self] at h
        obtain ⟨a, rest, rfl, ha, hrest⟩ := List.map_eq_cons_iff.1 h.symm
        have hfirst : find given = some a := by rw [← hmake a, ha]
        rw [List.filterMap_cons_some hfirst, ih hrest.symm]
      · have hrest : valuesOf long values = as.map make := by
          rw [← h, valuesOf, valuesOf, List.filter_cons_of_neg (by simpa using hname)]
        rw [List.filterMap_cons_none (hother given hname), ih hrest]

theorem findSome?_of_valuesOf {α : Type} {find : String × Value → Option α} {make : α → Value}
    (hother : ∀ given, given.1 ≠ long → find given = none)
    (hmake : ∀ a, find (long, make a) = some a) {a? : Option α}
    (h : valuesOf long values = (a?.map make).toList) : values.findSome? find = a? := by
  rw [Option.toList_map] at h
  rw [← List.head?_filterMap, filterMap_of_valuesOf hother hmake h, Option.head?_toList]

theorem path?_of_valuesOf {p? : Option Path} (h : valuesOf long values = (p?.map .path).toList) :
    path? long values = p? := by
  refine findSome?_of_valuesOf ?_ (fun _ => if_pos rfl) h
  rintro ⟨name, value⟩ hname
  cases value <;> first | rfl | exact if_neg hname

theorem text?_of_valuesOf {s? : Option String} (h : valuesOf long values = (s?.map .text).toList) :
    text? long values = s? := by
  refine findSome?_of_valuesOf ?_ (fun _ => if_pos rfl) h
  rintro ⟨name, value⟩ hname
  cases value <;> first | rfl | exact if_neg hname

theorem port?_of_valuesOf {n? : Option Nat} (h : valuesOf long values = (n?.map .port).toList) :
    port? long values = n? := by
  refine findSome?_of_valuesOf ?_ (fun _ => if_pos rfl) h
  rintro ⟨name, value⟩ hname
  cases value <;> first | rfl | exact if_neg hname

theorem pairs_of_valuesOf {set : List (String × String)}
    (h : valuesOf long values = set.map fun pair => .pair pair.1 pair.2) :
    pairs long values = set := by
  refine filterMap_of_valuesOf ?_ (fun _ => if_pos rfl) h
  rintro ⟨name, value⟩ hname
  cases value <;> first | rfl | exact if_neg hname

theorem texts_of_valuesOf {ss : List String} (h : valuesOf long values = ss.map .text) :
    texts long values = ss := by
  refine filterMap_of_valuesOf ?_ (fun _ => if_pos rfl) h
  rintro ⟨name, value⟩ hname
  cases value <;> first | rfl | exact if_neg hname

theorem isOn_of_valuesOf {on : Bool} (h : valuesOf long values = flagValues on) :
    isOn long values = on := by
  cases on with
  | false => exact (@has_eq_false_iff { level := .root, values := values } long).2 h
  | true =>
      have hmem : Value.on ∈ valuesOf long values := h ▸ List.mem_singleton_self _
      exact List.any_eq_true.2 ⟨_, mem_valuesOf.1 hmem, beq_self_eq_true long⟩

end Lookup

section Closing
variable {command : Command} {values : List (String × Value)}

theorem projectParams_of_given {params : ProjectParams}
    (hset : valuesOf "set" values = params.set.map fun pair => .pair pair.1 pair.2)
    (hkeyword : valuesOf "keyword" values = params.keywords.map .text)
    (htemplates : valuesOf "templates" values = (params.templates.map .path).toList) :
    projectParams values = params := by
  rw [projectParams, pairs_of_valuesOf hset, texts_of_valuesOf hkeyword,
    path?_of_valuesOf htemplates]

theorem command?_of_given (h : command.Given values) :
    command? { level := command.level, values := values } = some command := by
  cases command with
  | serve => rfl
  | scaffold args =>
      have hparams : projectParams values = args.params :=
        projectParams_of_given (h "set" (by decide)) (h "keyword" (by decide))
          (h "templates" (by decide))
      have houtput : path? "output" values = some args.output :=
        path?_of_valuesOf (h "output" (by decide))
      simp only [command?, Command.level, hparams, houtput,
        isOn_of_valuesOf (h "zip" (by decide)), isOn_of_valuesOf (h "strict" (by decide)),
        isOn_of_valuesOf (h "force" (by decide)), isOn_of_valuesOf (h "dry-run" (by decide))]
      rfl
  | scaffoldCheck params =>
      exact congrArg (some <| Command.scaffoldCheck ·)
        (projectParams_of_given (h "set" (by decide)) (h "keyword" (by decide))
          (h "templates" (by decide)))
  | addUser username email admin =>
      have husername : text? "username" values = some username :=
        text?_of_valuesOf (h "username" (by decide))
      have hemail : text? "email" values = some email :=
        text?_of_valuesOf (h "email" (by decide))
      simp only [command?, Command.level, husername, hemail,
        isOn_of_valuesOf (h "admin" (by decide))]
      rfl
  | issueToken username =>
      have husername : text? "username" values = some username :=
        text?_of_valuesOf (h "username" (by decide))
      simp only [command?, Command.level, husername]
      rfl

/-- A level can be closed with the options that it requires, if no subcommand is missing. -/
theorem close_eq {state : LevelState} {left : Bool} (hpending : state.pending = none)
    (hleft : left = true ∨ state.level.subcommands = [])
    (hrequired : ∀ spec ∈ state.level.options, spec.required → state.has spec.long) :
    state.close left = .ok state := by
  have hsettle : state.settle = .ok state := by rw [LevelState.settle, hpending]
  have hmissing : (state.level.options.any fun spec => spec.required && !state.has spec.long) =
      false := by
    refine List.any_eq_false.2 fun spec hspec => ?_
    simpa using hrequired spec hspec
  unfold LevelState.close
  rw [hsettle]
  rcases hleft with rfl | hleft
  · simp [hmissing, bind, Except.bind]
  · simp [hleft, hmissing, bind, Except.bind]

theorem not_required_of_subcommands : ∀ level : Level, level.subcommands ≠ [] →
    ∀ spec ∈ level.options, spec.required = false := by
  intro level
  cases level <;> decide

theorem close_left {state : LevelState} (h : state.IsLeft) : state.close true = .ok state := by
  refine close_eq h.pending (.inl rfl) fun spec hspec hrequired => ?_
  rw [not_required_of_subcommands state.level h.subcommands spec hspec] at hrequired
  cases hrequired

theorem mapM_close_left {states : List LevelState} (h : ∀ state ∈ states, state.IsLeft) :
    states.mapM (LevelState.close true) = .ok states := by
  induction states with
  | nil => rfl
  | cons state states ih =>
      obtain ⟨hstate, hstates⟩ := List.forall_mem_cons.1 h
      rw [List.mapM_cons, close_left hstate, ih hstates]
      rfl

theorem close_last (h : command.Given values) :
    LevelState.close false { level := command.level, values := values } =
      .ok { level := command.level, values := values } := by
  have hsubcommands : command.level.subcommands = [] := by cases command <;> rfl
  have hrequired : ∀ spec ∈ command.level.options, spec.required →
      spec.long ∉ commonOptions.map (·.long) ∧
        (command.options.lookup spec.long).getD [] ≠ [] := by
    cases command <;> simp [Command.level, Command.options, ProjectParams.options, Level.options,
      Level.ownOptions, commonOptions, projectOptions, List.lookup_cons]
  refine close_eq rfl (.inr hsubcommands) fun spec hspec hneeded => ?_
  obtain ⟨hcommon, hvalues⟩ := hrequired spec hspec hneeded
  refine (Bool.not_eq_false _).mp fun hnone => hvalues ?_
  rw [← h spec.long hcommon]
  exact has_eq_false_iff.1 hnone

end Closing

theorem read_arranged {i : Invocation} {outer : List (List (String × Value) × String)}
    {last : List (String × Value)} (h : i.IsArranged outer last) (hi : i.IsWritable) :
    read (lineOf outer last) = .ok i := by
  have hleads : Leads (outer.map (·.2)) .root i.command.level := h.names ▸ leads_names i.command
  obtain ⟨states, htaken, hvalues, hleft⟩ :=
    takeAll_lineOf [] hleads (h.reads_outer hi) (h.reads_last hi)
  rw [List.append_nil] at htaken
  have hgiven := h.own
  have hlevels : (Reading.on { level := i.command.level, values := last } states).close =
      .ok ({ level := i.command.level, values := last } :: states) := by
    rw [Reading.close, close_last hgiven]
    show (states.mapM (LevelState.close true) >>= _) = _
    rw [mapM_close_left hleft]
    rfl
  -- The levels are searched from the last one outwards, which makes no difference: an option that
  -- may stand on several of them is given once.
  have hperm : (last ++ states.flatMap (·.values)).Perm (outer.flatMap (·.1) ++ last) := by
    rw [List.flatMap_def, List.flatMap_def, hvalues]
    exact (List.perm_append_comm).trans ((List.reverse_perm _).flatten.append_right last)
  have hconfig := path?_of_valuesOf (h.anywhere "config" rfl hperm)
  have hhost := text?_of_valuesOf (h.anywhere "host" rfl hperm)
  have hport := port?_of_valuesOf (h.anywhere "port" rfl hperm)
  have hdataDir := path?_of_valuesOf (h.anywhere "data-dir" rfl hperm)
  rw [read, htaken]
  show ((Reading.on { level := i.command.level, values := last } states).close >>= _) = _
  rw [hlevels]
  simp only [bind, Except.bind, List.head?_cons, Option.bind_some, command?_of_given hgiven,
    List.flatMap_cons, hconfig, hhost, hport, hdataDir]

/-- It is enough to compare the values of the options that are given or asked for. -/
theorem valuesOf_eq_of_forall_mem {given : List (String × Value)}
    {entries : List (String × List Value)}
    (h : ∀ long ∈ given.map (·.1) ++ entries.map (·.1),
      valuesOf long given = (entries.lookup long).getD []) (long : String) :
    valuesOf long given = (entries.lookup long).getD [] := by
  by_cases hlong : long ∈ given.map (·.1) ++ entries.map (·.1)
  · exact h long hlong
  · obtain ⟨hgiven, hentries⟩ := not_or.1 (mt List.mem_append.2 hlong)
    rw [lookup_of_not_mem hentries]
    refine valuesOf_eq_nil.2 fun entry hentry hname => hgiven ?_
    exact hname ▸ List.mem_map_of_mem hentry

def spread (entries : List (String × List Value)) : List (String × Value) :=
  entries.flatMap fun entry => entry.2.map (entry.1, ·)

theorem valuesOf_spread {entries : List (String × List Value)} (h : (entries.map (·.1)).Nodup)
    (long : String) : valuesOf long (spread entries) = (entries.lookup long).getD [] := by
  induction entries with
  | nil => rfl
  | cons entry entries ih =>
      obtain ⟨hname, hrest⟩ := List.nodup_cons.1 h
      rw [spread, List.flatMap_cons, valuesOf_append, ← spread, ih hrest, List.lookup_cons]
      by_cases hlong : long = entry.1
      · subst hlong
        have hfirst : valuesOf entry.1 (entry.2.map (entry.1, ·)) = entry.2 := by
          simp [valuesOf, List.filter_map, Function.comp_def]
        rw [hfirst, lookup_of_not_mem hname, beq_self_eq_true]
        exact List.append_nil _
      · have hfirst : valuesOf long (entry.2.map (entry.1, ·)) = [] := by
          refine valuesOf_eq_nil.2 fun given hgiven hname => hlong ?_
          obtain ⟨value, -, rfl⟩ := List.mem_map.1 hgiven
          exact hname.symm
        rw [hfirst, List.nil_append, beq_eq_false_iff_ne.2 hlong]

theorem nodup_options (i : Invocation) :
    ((i.options ++ i.command.options).map (·.1)).Nodup := by
  obtain ⟨config, host, port, dataDir, command⟩ := i
  cases command <;> simp [Invocation.options, Command.options, ProjectParams.options]

/-- Every invocation can be written with all options behind the subcommands. -/
theorem isWrittenAs_spread (i : Invocation) :
    i.IsWrittenAs
      (lineOf (i.command.names.map (([], ·))) (spread (i.options ++ i.command.options))) := by
  refine ⟨_, _, ⟨?_, ?_, fun long => ?_⟩, rfl⟩
  · simp [Function.comp_def]
  · simp
  · have hnone : (i.command.names.map (([], ·))).flatMap (·.1) = ([] : List (String × Value)) := by
      simp [List.flatMap_map]
    rw [hnone, List.nil_append, valuesOf_spread (nodup_options i)]

/-- Every invocation can be written as a command line, and it is read back from every command line
that it can be written as. A pair keeps everything behind its first equals sign. -/
theorem read_of_isWrittenAs (i : Invocation) (hi : i.IsWritable) :
    (∃ words, i.IsWrittenAs words) ∧ (∀ words, i.IsWrittenAs words → read words = .ok i) ∧
      ∀ key value : String, '=' ∉ key.toList → trim key ≠ "" →
        readPair (key ++ "=" ++ value) = .ok (trim key, value) := by
  refine ⟨⟨_, isWrittenAs_spread i⟩, ?_, fun key value hkey hblank =>
    readPair_append hkey hblank value⟩
  rintro words ⟨outer, last, harranged, rfl⟩
  exact read_arranged harranged hi

/-- Values that look like options or subcommands, with options on all levels. -/
theorem read_awkward_lines :
    read ["--port=0", "scaffold", "--keyword=", "--set=name=--zip", "--force", "--output==-o",
        "--set=query=a=b=", "--host=serve", "--keyword=user", "--zip", "--data-dir=--",
        "--set=name="] =
      .ok
        { host := some "serve", port := some 0, dataDir := some ⟨"--"⟩,
          command := .scaffold
            { params :=
                { set := [("name", "--zip"), ("query", "a=b="), ("name", "")],
                  keywords := ["", "user"] },
              output := ⟨"=-o"⟩, zip := true, force := true } } ∧
    read ["--data-dir=a b", "user", "--host=", "--port=65535", "add", "--email=--admin",
        "--username=-u=", "--config==", "--admin"] =
      .ok
        { config := some ⟨"="⟩, host := some "", port := some 65535, dataDir := some ⟨"a b"⟩,
          command := .addUser "-u=" "--admin" true } ∧
    readPair " key ==value=" = .ok ("key", "=value=") := by
  refine ⟨?project, ?user, ?pair⟩
  case project =>
    refine (read_of_isWrittenAs _ (by decide)).2.1 _
      ⟨[([("port", .port 0)], "scaffold")],
        [("keyword", .text ""), ("set", .pair "name" "--zip"), ("force", .on),
          ("output", .path ⟨"=-o"⟩), ("set", .pair "query" "a=b="), ("host", .text "serve"),
          ("keyword", .text "user"), ("zip", .on), ("data-dir", .path ⟨"--"⟩),
          ("set", .pair "name" "")], ⟨rfl, by decide, ?_⟩, by decide⟩
    exact valuesOf_eq_of_forall_mem (by decide)
  case user =>
    refine (read_of_isWrittenAs _ (by decide)).2.1 _
      ⟨[([("data-dir", .path ⟨"a b"⟩)], "user"),
          ([("host", .text ""), ("port", .port 65535)], "add")],
        [("email", .text "--admin"), ("username", .text "-u="), ("config", .path ⟨"="⟩),
          ("admin", .on)], ⟨rfl, by decide, ?_⟩, by decide⟩
    exact valuesOf_eq_of_forall_mem (by decide)
  case pair =>
    exact (read_of_isWrittenAs { command := .serve } (by decide)).2.2 " key " "=value=" (by decide)
      (by decide)

end CommandLine
end Gazette
