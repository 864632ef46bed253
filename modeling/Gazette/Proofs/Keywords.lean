import Gazette.Proofs.Generation
import Gazette.Proofs.Rendering
import Gazette.Proofs.Spelling

/-!
# Keywords

Keywords are bound as a JSON list without its brackets, and the manifest of a project puts them
between brackets. Whatever characters the keywords have, they are read back from the list, and
from the manifest if its other values can stand between quotes as they are.
-/
namespace Gazette.Scaffold
open Json

namespace Params
variable {keywords : List String} {name : String}

theorem lookup_cons_ite (name value other : String) (entries : List (String × String)) :
    ((name, value) :: entries).lookup other =
      if other = name then some value else entries.lookup other := by
  by_cases h : other = name <;> simp [List.lookup_cons, h, beq_false_of_ne]

/-- A name that is bound anew has the new value, and the other names have theirs. -/
theorem lookup_insertEntry (name value other : String) (entries : List (String × String)) :
    (insertEntry name value entries).lookup other =
      if other = name then some value else entries.lookup other := by
  induction entries with
  | nil => exact lookup_cons_ite name value other []
  | cons entry entries ih =>
      obtain ⟨n, v⟩ := entry
      rw [insertEntry]
      split
      · next hsame =>
          rw [lookup_cons_ite, lookup_cons_ite, hsame]
          split <;> rfl
      · next hdiffer =>
          split
          · exact lookup_cons_ite name value other _
          · rw [lookup_cons_ite, lookup_cons_ite, ih]
            by_cases h : other = n
            · have hname : other ≠ name := fun heq => hdiffer (heq.symm.trans h)
              rw [if_pos h, if_neg hname, if_pos h]
            · rw [if_neg h, if_neg h]

theorem get?_insert (params : Params) (name value other : String) :
    (params.insert name value).get? other =
      if other = name then some value else params.get? other :=
  lookup_insertEntry name value other params.entries

theorem ofList_eq (pairs : List (String × String)) :
    ofList pairs = pairs.foldl (fun params pair => params.insert pair.1 pair.2) {} := rfl

theorem get?_ofList (pairs : List (String × String)) (name : String) :
    (ofList pairs).get? name = pairs.reverse.lookup name := by
  have hfold (params : Params) :
      (pairs.foldl (fun params pair => params.insert pair.1 pair.2) params).get? name =
        (pairs.reverse.lookup name).or (params.get? name) := by
    induction pairs generalizing params with
    | nil => rfl
    | cons pair pairs ih =>
        rw [List.foldl_cons, ih, get?_insert, List.reverse_cons, List.lookup_append,
          lookup_cons_ite, Option.or_assoc]
        by_cases h : name = pair.1 <;> simp [h]
  have hnone : ({} : Params).get? name = none := rfl
  rw [ofList_eq, hfold, hnone, Option.or_none]

theorem toList_keywordList (keywords : List String) :
    (keywordList keywords).toList = List.intercalate [',', ' '] (keywords.map writeText) := by
  have hcomma : ", ".toList = [',', ' '] := by decide
  have hrender (k : String) : (Json.text k).render.toList = writeText k := by
    rw [Json.render, String.toList_ofList, write]
  rw [keywordList, String.toList_intercalate, hcomma, List.map_map]
  exact congrArg _ (List.map_congr_left fun k _ => hrender k)

/-- The list of keywords is cut into the tokens of the keywords, whatever characters they have. -/
theorem lexes_keywordList (keywords : List String) :
    Lexes (keywordList keywords).toList (itemTokens (keywords.map .text)) := by
  rw [toList_keywordList]
  induction keywords with
  | nil => rfl
  | cons k keywords ih =>
      cases keywords with
      | nil => simpa [itemTokens, tokens] using lexes_writeText k
      | cons next keywords =>
          have hcomma : Lexes [',', ' '] [.comma] := rfl
          rw [List.map_cons, List.map_cons, List.intercalate_cons_cons]
          exact ((lexes_writeText k).append hcomma).append ih

theorem keywordList_ne_empty (h : keywords ≠ []) : keywordList keywords ≠ "" := by
  intro hempty
  have hlist := toList_keywordList keywords
  rw [hempty] at hlist
  cases keywords with
  | nil => exact h rfl
  | cons k keywords =>
      cases keywords with
      | nil => simp [writeText] at hlist
      | cons next keywords =>
          rw [List.map_cons, List.map_cons, List.intercalate_cons_cons] at hlist
          simp [writeText] at hlist

theorem read?_keywordList (keywords : List String) :
    read? ("[" ++ keywordList keywords ++ "]") = some (.array (keywords.map .text)) := by
  have hopen : Lexes ['['] [.openArray] := rfl
  have hclose : Lexes [']'] [.closeArray] := rfl
  have hlexes := (hopen.append (lexes_keywordList keywords)).append hclose
  refine read?_of_tokens (Lexes.tokenize ?_) ?_
  · simpa [tokens] using hlexes
  · simpa [fits, depthLimit] using itemsFit_texts 1 keywords

theorem get?_ofPairs (pairs : List (String × String)) (h : keywords ≠ []) (name : String) :
    (ofPairs pairs keywords).get? name =
      if name = "keywords" then some (keywordList keywords) else pairs.reverse.lookup name := by
  rw [ofPairs, List.isEmpty_eq_false_iff.2 h, if_neg Bool.false_ne_true, get?_insert, get?_ofList]

end Params

theorem toList_ofLines (lines : List String) :
    (ofLines lines).toList = lines.flatMap fun line => line.toList ++ ['\n'] := by
  have hend : "\n".toList = ['\n'] := by decide
  rw [ofLines, String.toList_join, List.flatMap_map]
  exact List.flatMap_congr fun line _ => by rw [String.toList_append, hend]

def manifestBefore : String :=
  ofLines (manifestLines.take 7) ++ "  \"keywords\": "

def manifestAfter : String :=
  ",\n" ++ ofLines (manifestLines.drop 8)

theorem manifest_split : ofLines manifestLines =
    manifestBefore ++ "[\x7b\x7b keywords|default:'\"react\"' \x7d\x7d]" ++ manifestAfter := by
  rw [← String.toList_inj, manifestBefore, manifestAfter]
  simp only [toList_ofLines, String.toList_append, manifestLines, List.take_succ_cons,
    List.take_zero, List.drop_succ_cons, List.drop_zero, List.flatMap_cons, List.flatMap_nil]
  repeat rw [String.toList_ofList]
  decide +kernel

/-- The placeholders of the manifest that come before the keywords. All of them stand between
quotes. -/
def quotedParts : List Part :=
  [ { before := "\x7b\n  \"name\": \"".toList
      placeholder := { name := "project_name" }
      source := "\x7b\x7b project_name \x7d\x7d".toList },
    { before := "\",\n  \"version\": \"".toList
      placeholder := { name := "version", default := some "1.0.0" }
      source := "\x7b\x7b version|default:'1.0.0' \x7d\x7d".toList },
    { before := "\",\n  \"private\": true,\n  \"description\": \"".toList
      placeholder := { name := "description", default := some "" }
      source := "\x7b\x7b description|default:'' \x7d\x7d".toList },
    { before := "\",\n  \"author\": \"".toList
      placeholder := { name := "author", default := some "" }
      source := "\x7b\x7b author|default:'' \x7d\x7d".toList },
    { before := "\",\n  \"license\": \"".toList
      placeholder := { name := "license", default := some "MIT" }
      source := "\x7b\x7b license|default:'MIT' \x7d\x7d".toList } ]

def keywordsPart : Part :=
  { before := "\",\n  \"keywords\": [".toList
    placeholder := { name := "keywords", default := some "\"react\"" }
    source := "\x7b\x7b keywords|default:'\"react\"' \x7d\x7d".toList }

theorem keywordsPart_placeholder :
    keywordsPart.placeholder = { name := "keywords", default := some "\"react\"" } := rfl

theorem keywordsPart_before :
    keywordsPart.before = "\",\n  \"keywords\": ".toList ++ ['['] := by
  unfold keywordsPart
  repeat rw [String.toList_ofList]
  rfl

theorem pieces_manifestBefore : pieces manifestBefore =
    quotedParts.flatMap Part.pieces ++ "\",\n  \"keywords\": ".toList.map .char := by
  rw [pieces, manifestBefore, String.toList_append, toList_ofLines]
  simp only [manifestLines, quotedParts, List.take_succ_cons, List.take_zero, List.flatMap_cons,
    List.flatMap_nil]
  repeat rw [String.toList_ofList]
  decide +kernel

theorem pieces_manifestLines : pieces (ofLines manifestLines) =
    quotedParts.flatMap Part.pieces ++ keywordsPart.pieces ++
      (']' :: manifestAfter.toList).map .char := by
  rw [pieces, toList_ofLines, manifestAfter, String.toList_append, toList_ofLines]
  unfold keywordsPart
  simp only [manifestLines, quotedParts, List.drop_succ_cons, List.drop_zero, List.flatMap_cons,
    List.flatMap_nil, String.toList_append]
  repeat rw [String.toList_ofList]
  decide +kernel

/-- What stands in the place of a placeholder. -/
def Part.filling (params : Params) (part : Part) : String :=
  (part.value? params).getD (String.ofList part.source)

def filledParts (params : Params) (parts : List Part) : List Char :=
  parts.flatMap fun part => part.before ++ (part.filling params).toList

theorem render_parts (params : Params) (parts : List Part) :
    (parts.flatMap Part.pieces).flatMap (Piece.render params) = filledParts params parts := by
  rw [List.flatMap_assoc]
  refine List.flatMap_congr fun part _ => ?_
  rw [Part.render_pieces, Part.filling]
  cases part.value? params <;> simp

theorem placeholders_manifest :
    placeholders (ofLines manifestLines) =
      (quotedParts ++ [keywordsPart]).map (·.placeholder) := by
  rw [placeholders, pieces_manifestLines, ← List.flatMap_singleton Part.pieces keywordsPart,
    ← List.flatMap_append, placeholders_of_pieces]

theorem toList_render_manifestBefore (params : Params) :
    (render manifestBefore params).text.toList =
      filledParts params quotedParts ++ "\",\n  \"keywords\": ".toList := by
  rw [render, String.toList_ofList, pieces_manifestBefore, List.flatMap_append, render_parts,
    render_chars]

theorem render_manifest {params : Params} {keywords : String}
    (h : params.get? "keywords" = some keywords) (hne : keywords ≠ "") :
    (render (ofLines manifestLines) params).text =
      (render manifestBefore params).text ++ "[" ++ keywords ++ "]" ++ manifestAfter := by
  have hvalue : keywordsPart.value? params = some keywords := by
    rw [Part.value?_eq, Placeholder.resolve?, keywordsPart_placeholder, h]
    simp [hne]
  have hfilled : keywordsPart.pieces.flatMap (Piece.render params) =
      "\",\n  \"keywords\": ".toList ++ '[' :: keywords.toList := by
    rw [Part.render_pieces, hvalue, keywordsPart_before, List.append_assoc]
    rfl
  have hopen : "[".toList = ['['] := by decide
  have hclose : "]".toList = [']'] := by decide
  rw [← String.toList_inj, render, String.toList_ofList, pieces_manifestLines, List.flatMap_append,
    List.flatMap_append, render_parts, render_chars, hfilled]
  simp only [String.toList_append, toList_render_manifestBefore, hopen, hclose]
  simp

def manifestRest : List (String × Json) :=
  [ ("dependencies", .object
      [ ("react", .text "^18.2.0"), ("react-dom", .text "^18.2.0"),
        ("react-scripts", .text "5.0.1") ]),
    ("scripts", .object
      [ ("start", .text "react-scripts start"), ("build", .text "react-scripts build"),
        ("test", .text "react-scripts test"), ("eject", .text "react-scripts eject"),
        ("lint", .text "eslint src") ]),
    ("eslintConfig", .object [("extends", .array [.text "react-app", .text "react-app/jest"])]),
    ("browserslist", .object
      [ ("production", .array [.text ">0.2%", .text "not dead", .text "not op_mini all"]),
        ("development", .array
          [ .text "last 1 chrome version", .text "last 1 firefox version",
            .text "last 1 safari version" ]) ]) ]

/-- The manifest with some values and keywords. -/
def manifestOf (name version description author license : String) (keywords : List String) :
    Json :=
  .object
    (("name", .text name) :: ("version", .text version) :: ("private", .bool true) ::
      ("description", .text description) :: ("author", .text author) ::
      ("license", .text license) :: ("keywords", .array (keywords.map .text)) :: manifestRest)

def tailTokens : List Token :=
  .closeArray :: .comma :: (memberTokens manifestRest ++ [Token.closeObject])

theorem lexes_manifestAfter : Lexes (']' :: manifestAfter.toList) tailTokens := by
  unfold Lexes
  rw [manifestAfter, String.toList_append, toList_ofLines]
  simp only [manifestLines, List.drop_succ_cons, List.drop_zero, List.flatMap_cons,
    List.flatMap_nil, String.toList_append]
  repeat rw [String.toList_ofList]
  decide +kernel

/-- A string that is closed and followed by the key of the next string. -/
theorem scanThrough_member {literal : String} {key : List Token} (s : String)
    (h : ∃ cs, literal = String.ofList ('"' :: cs) ∧ scanThrough .between cs = (key, .text [])) :
    scanThrough (.text (s.toList.map Char.toNat).reverse) literal.toList =
      (.text (some s) :: key, .text []) := by
  obtain ⟨cs, rfl, hcs⟩ := h
  rw [String.toList_ofList]
  exact scanThrough_quote s hcs

def headTokens (name version description author license : String) : List Token :=
  [ .openObject, .text (some "name"), .colon, .text (some name), .comma,
    .text (some "version"), .colon, .text (some version), .comma,
    .text (some "private"), .colon, .bool true, .comma,
    .text (some "description"), .colon, .text (some description), .comma,
    .text (some "author"), .colon, .text (some author), .comma,
    .text (some "license"), .colon, .text (some license), .comma,
    .text (some "keywords"), .colon ]

theorem lexes_head {name version description author license : String}
    (h : ∀ value ∈ [name, version, description, author, license], ∀ c ∈ value.toList, IsPlain c) :
    Lexes ("\x7b\n  \"name\": \"".toList ++ name.toList ++
        ("\",\n  \"version\": \"".toList ++ version.toList ++
          ("\",\n  \"private\": true,\n  \"description\": \"".toList ++ description.toList ++
            ("\",\n  \"author\": \"".toList ++ author.toList ++
              ("\",\n  \"license\": \"".toList ++ license.toList ++ [])))) ++
        "\",\n  \"keywords\": ".toList)
      (headTokens name version description author license) := by
  have hname : scanThrough .between "\x7b\n  \"name\": \"".toList =
      ([.openObject, .text (some "name"), .colon], .text []) := by
    rw [String.toList_ofList]
    decide +kernel
  have hversion := @scanThrough_member "\",\n  \"version\": \""
    [.comma, .text (some "version"), .colon] name ⟨_, rfl, by decide +kernel⟩
  have hdescription :=
    @scanThrough_member "\",\n  \"private\": true,\n  \"description\": \""
      [.comma, .text (some "private"), .colon, .bool true, .comma, .text (some "description"),
        .colon] version ⟨_, rfl, by decide +kernel⟩
  have hauthor := @scanThrough_member "\",\n  \"author\": \""
    [.comma, .text (some "author"), .colon] description ⟨_, rfl, by decide +kernel⟩
  have hlicense := @scanThrough_member "\",\n  \"license\": \""
    [.comma, .text (some "license"), .colon] author ⟨_, rfl, by decide +kernel⟩
  have hkeywords : scanThrough (.text (license.toList.map Char.toNat).reverse)
      "\",\n  \"keywords\": ".toList =
        ([.text (some license), .comma, .text (some "keywords"), .colon], .between) := by
    rw [String.toList_ofList]
    exact scanThrough_quote license (by decide +kernel)
  have hplain (value : String)
      (hmem : value ∈ [name, version, description, author, license]) :
      scanThrough (.text []) value.toList =
        ([], .text (value.toList.map Char.toNat).reverse) := by
    rw [scanThrough_plain (h value hmem), List.append_nil]
  simp only [List.forall_mem_cons] at hplain
  obtain ⟨hname', hversion', hdescription', hauthor', hlicense', -⟩ := hplain
  simp only [Lexes, scanThrough_append, hname, hname', hversion, hversion', hdescription,
    hdescription', hauthor, hauthor', hlicense, hlicense', List.append_nil, hkeywords]
  rfl

/-- Values that can stand between quotes as they are become the values of the first members. -/
theorem lexes_manifestBefore {params : Params}
    (h : ∀ part ∈ quotedParts, ∀ c ∈ (part.filling params).toList, IsPlain c) :
    ∃ name version description author license,
      Lexes (render manifestBefore params).text.toList
        (headTokens name version description author license) := by
  simp only [quotedParts, List.forall_mem_cons] at h
  obtain ⟨hname, hversion, hdescription, hauthor, hlicense, -⟩ := h
  have hhead := lexes_head (by
    simpa only [List.forall_mem_cons] using
      ⟨hname, hversion, hdescription, hauthor, hlicense, List.forall_mem_nil _⟩)
  rw [toList_render_manifestBefore]
  exact ⟨_, _, _, _, _, hhead⟩

theorem tokens_manifestOf (name version description author license : String)
    (keywords : List String) :
    (manifestOf name version description author license keywords).tokens =
      headTokens name version description author license ++ [Token.openArray] ++
        itemTokens (keywords.map .text) ++ tailTokens := by
  simp [manifestOf, manifestRest, headTokens, tailTokens, tokens, memberTokens]

theorem fits_manifestOf (name version description author license : String)
    (keywords : List String) :
    (manifestOf name version description author license keywords).fits 0 = true := by
  have hkeywords := itemsFit_texts 2 keywords
  simp [manifestOf, manifestRest, fits, itemsFit, membersFit, depthLimit, hkeywords]

theorem get?_manifestOf (name version description author license : String)
    (keywords : List String) :
    (manifestOf name version description author license keywords).get? "keywords" =
      some (.array (keywords.map .text)) :=
  rfl

/-- Values that can stand between quotes as they are leave the manifest a value, with the keywords
among its members. -/
theorem read?_manifest {params : Params} {keywords : List String} (hne : keywords ≠ [])
    (hbound : params.get? "keywords" = some (Params.keywordList keywords))
    (hplain : ∀ part ∈ quotedParts, ∀ c ∈ (part.filling params).toList, IsPlain c) :
    ∃ document, read? (render (ofLines manifestLines) params).text = some document ∧
      document.get? "keywords" = some (.array (keywords.map .text)) := by
  obtain ⟨name, version, description, author, license, hbefore⟩ := lexes_manifestBefore hplain
  have hopen : Lexes ['['] [.openArray] := rfl
  have hlexes := ((hbefore.append hopen).append (Params.lexes_keywordList keywords)).append
    lexes_manifestAfter
  have htokens := tokens_manifestOf name version description author license keywords
  have hliteral : "[".toList = ['['] ∧ "]".toList = [']'] := by decide
  have hdocument : read? (render (ofLines manifestLines) params).text =
      some (manifestOf name version description author license keywords) := by
    refine read?_of_tokens (Lexes.tokenize ?_) (fits_manifestOf _ _ _ _ _ _)
    rw [render_manifest hbound (Params.keywordList_ne_empty hne), htokens]
    simpa [hliteral] using hlexes
  exact ⟨_, hdocument, get?_manifestOf _ _ _ _ _ _⟩

def Template.manifest : Template where
  fileName := "package.json.tpl"
  output := "package.json"
  contents := ofLines manifestLines

/-- Whether every value that is put into the manifest, apart from its keywords, can stand between
quotes as it is. -/
def StandsQuoted (params : Params) : Prop :=
  ∀ placeholder ∈ placeholders Template.manifest.contents, placeholder.name ≠ "keywords" →
    ∀ value ∈ placeholder.resolve? params, ∀ c ∈ value.toList, IsPlain c

theorem isPlain_source {part : Part} (h : part ∈ quotedParts) :
    part.placeholder.name ≠ "keywords" ∧ ∀ c ∈ part.source, IsPlain c := by
  have hall : ∀ part ∈ quotedParts,
      part.placeholder.name ≠ "keywords" ∧ ∀ c ∈ part.source, IsPlain c := by
    simp only [quotedParts, forall_isPlain_iff, List.forall_mem_cons]
    repeat rw [String.toList_ofList]
    decide +kernel
  exact hall part h

theorem StandsQuoted.filling {params : Params} (h : StandsQuoted params) {part : Part}
    (hpart : part ∈ quotedParts) : ∀ c ∈ (part.filling params).toList, IsPlain c := by
  obtain ⟨hname, hsource⟩ := isPlain_source hpart
  have hplaceholder : part.placeholder ∈ placeholders Template.manifest.contents := by
    rw [Template.manifest, placeholders_manifest]
    exact List.mem_map_of_mem (List.mem_append_left _ hpart)
  rw [Part.filling, Part.value?_eq]
  cases hvalue : part.placeholder.resolve? params with
  | none => simpa using hsource
  | some value => exact h _ hplaceholder hname value hvalue

/-- A manifest that is a value is made, unless something must not be left open: its path is always
the same. -/
theorem Template.generate_manifest [Libraries] {params : Params} {document : Json} {strict : Bool}
    (h : read? (render (ofLines manifestLines) params).text = some document)
    (hopen : strict = true → manifest.unresolved params = []) :
    manifest.generate params strict = .ok (manifest.made params) := by
  have hpath : (manifest.made params).path = ⟨"package.json"⟩ :=
    congrArg _ (render_plain (by decide) params)
  have hinside : (Files.Path.mk "package.json").isInside = true := by decide
  have hvalid : Json.isValid (manifest.made params).contents = true := by
    rw [Json.isValid, Template.made, manifest, h]
    rfl
  have hnames : (manifest.made params).unresolved = manifest.unresolved params := by
    rw [Template.made]
  have hclosed : ¬ (strict = true ∧ manifest.unresolved params ≠ []) :=
    fun hleft => hleft.2 (hopen hleft.1)
  rw [Template.generate_eq, hpath, hinside, hvalid, hnames, if_neg (by decide), if_neg hclosed,
    if_neg (by simp)]

/-- Keywords are bound to a list that is read back as they are, whatever the pairs bind them to, and
other names to the last value that is given for them. The list stands between the brackets of the
manifest as it is bound. If the other values can stand between quotes as they are, the manifest is
made and read back with the keywords as a member. -/
theorem keywords_survive [Libraries] (pairs : List (String × String)) (keywords : List String)
    (h : keywords ≠ []) :
    ∃ list, (∀ name, (Params.ofPairs pairs keywords).get? name =
        if name = "keywords" then some list else pairs.reverse.lookup name) ∧
      read? ("[" ++ list ++ "]") = some (.array (keywords.map .text)) ∧
      Template.manifest ∈ TemplateSet.bundled ∧
      Template.manifest.contents =
        manifestBefore ++ "[\x7b\x7b keywords|default:'\"react\"' \x7d\x7d]" ++ manifestAfter ∧
      (render Template.manifest.contents (Params.ofPairs pairs keywords)).text =
        (render manifestBefore (Params.ofPairs pairs keywords)).text ++ "[" ++ list ++ "]" ++
          manifestAfter ∧
      (StandsQuoted (Params.ofPairs pairs keywords) →
        ∃ document,
          read? (render Template.manifest.contents (Params.ofPairs pairs keywords)).text =
            some document ∧
          document.get? "keywords" = some (.array (keywords.map .text)) ∧
          ∀ strict,
            (strict = true → Template.manifest.unresolved (Params.ofPairs pairs keywords) = []) →
              Template.manifest.generate (Params.ofPairs pairs keywords) strict =
                .ok (Template.manifest.made (Params.ofPairs pairs keywords))) := by
  have hget := Params.get?_ofPairs pairs h
  have hbound : (Params.ofPairs pairs keywords).get? "keywords" =
      some (Params.keywordList keywords) := by
    rw [hget, if_pos rfl]
  refine ⟨Params.keywordList keywords, hget, Params.read?_keywordList keywords, ?_, ?_,
    render_manifest hbound (Params.keywordList_ne_empty h), fun hquoted => ?_⟩
  · simp [TemplateSet.bundled, Template.manifest]
  · exact manifest_split
  · obtain ⟨document, hread, hmember⟩ := read?_manifest h hbound fun part => hquoted.filling
    exact ⟨document, hread, hmember, fun _ => Template.generate_manifest hread⟩

attribute [local instance] Libraries.bare

/-- Neither a keyword with quotes in it nor one that looks like a placeholder is lost. -/
theorem quoted_keywords_survive :
    ∃ document, read? (render Template.manifest.contents
        (Params.ofPairs [("project_name", "demo"), ("keywords", "x")]
          ["\"a\\\n", "\x7b\x7b author \x7d\x7d"])).text = some document ∧
      document.get? "keywords" =
        some (.array [.text "\"a\\\n", .text "\x7b\x7b author \x7d\x7d"]) := by
  obtain ⟨_, _, _, _, _, _, hmanifest⟩ :=
    keywords_survive [("project_name", "demo"), ("keywords", "x")]
      ["\"a\\\n", "\x7b\x7b author \x7d\x7d"] (by decide)
  have hquoted : StandsQuoted (Params.ofPairs [("project_name", "demo"), ("keywords", "x")]
      ["\"a\\\n", "\x7b\x7b author \x7d\x7d"]) := by
    unfold StandsQuoted
    rw [Template.manifest, placeholders_manifest]
    simp only [quotedParts, keywordsPart_placeholder, forall_isPlain_iff, List.map_append,
      List.map_cons, List.map_nil]
    decide +kernel
  obtain ⟨document, hread, hmember, -⟩ := hmanifest hquoted
  exact ⟨document, hread, hmember⟩

end Gazette.Scaffold
