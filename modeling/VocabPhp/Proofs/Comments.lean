import VocabPhp.Proofs.Collapsing
import VocabPhp.Proofs.FileNames
import VocabPhp.Proofs.Filling
import VocabPhp.Proofs.Wrapping

/-!
# Comments with descriptions

The comments of a field and of a class show its description, wrapped into lines with a margin.
Breaks of the description are collapsed, so that no line is without a margin, but nothing is done
about the end of a comment in it.

* `Php.comment?`: a comment reaches to the first end of one.
* `commentOf`, `IsLine`: what a comment of some lines holds.
* `infix_fieldComment_iff`, `infix_classComment_iff`: a comment holds the end of one exactly if
  something that is put into it does. Wrapping neither makes nor breaks one.
* `comments_closed_iff`: which comments are closed by their own ends.
* `comments_end_early`: a description can end its comment.
-/

namespace VocabPhp

/-! ## The end of a comment -/

namespace Php

/-- What ends a comment. -/
def commentEnd : List Char := ['*', '/']

/-- Reads a comment whose opening has been read: what it holds, up to the first end of a comment,
and the text after that. -/
def comment? : List Char → Option (List Char × List Char)
  | [] => none
  | '*' :: '/' :: rest => some ([], rest)
  | c :: cs => (comment? cs).map fun r => (c :: r.1, r.2)

theorem comment?_cons {c : Char} {cs : List Char} (h : ¬ commentEnd <+: c :: cs) :
    comment? (c :: cs) = (comment? cs).map fun r => (c :: r.1, r.2) := by
  rw [comment?]
  rintro rest rfl rfl
  exact h (by simp [commentEnd])

/-- A text with an end of a comment after it is read up to that end exactly if it has none in it. -/
theorem comment?_append_iff (content rest : List Char) :
    comment? (content ++ commentEnd ++ rest) = some (content, rest) ↔
      ¬ commentEnd <:+: content := by
  induction content with
  | nil => simp [comment?, commentEnd]
  | cons c cs ih =>
    by_cases hend : commentEnd <+: c :: cs
    · refine iff_of_false ?_ (not_not.2 hend.isInfix)
      obtain ⟨more, hmore⟩ := hend
      rw [← hmore]
      simp [commentEnd, comment?]
    · -- The end that is put after the text begins with no slash, so none begins in front of it.
      have hnone : ¬ commentEnd <+: c :: (cs ++ commentEnd ++ rest) := by
        cases cs with
        | nil => simp [commentEnd]
        | cons d cs => simpa [commentEnd] using hend
      rw [List.cons_append, List.cons_append, comment?_cons hnone, List.infix_cons_iff,
        not_or, ← ih]
      simp [hend]

end Php

/-! ## Lines of a comment -/

/-- Lines that are led by a margin and a space, the first one by a text of its own. -/
def leadLines (lead margin : List Char) : List (List Char) → List (List Char)
  | [] => []
  | l :: ls => (lead ++ ' ' :: l) :: ls.map (margin ++ ' ' :: ·)

/-- What a comment holds: lines, after the one that opens it, and the blanks in front of its end. -/
def commentOf (lines : List (List Char)) (blanks : List Char) : List Char :=
  '\n' :: (lines.flatMap (· ++ ['\n']) ++ blanks)

/-- What a comment holds has a margin: each of its lines, after the one that opens it, begins with
the indentation, a space and a star, and its end follows on the indentation and a space. -/
def HasMargin (indentation content : String) : Prop :=
  ∃ lines, Text.pieces '\n' content.toList = [] :: (lines ++ [indentation.toList ++ [' ']]) ∧
    ∀ l ∈ lines, indentation.toList ++ [' ', '*'] <+: l

/-- A line that begins with a margin. -/
structure IsLine (margin l : List Char) : Prop where
  prefixed : margin <+: l
  noNewline : '\n' ∉ l

instance (margin l : List Char) : Decidable (IsLine margin l) :=
  decidable_of_iff (margin <+: l ∧ '\n' ∉ l) ⟨fun h => ⟨h.1, h.2⟩, fun h => ⟨h.1, h.2⟩⟩

theorem IsLine.append {margin lead cs : List Char} (h : IsLine margin lead) (hcs : '\n' ∉ cs) :
    IsLine margin (lead ++ ' ' :: cs) := by
  refine ⟨h.prefixed.trans (List.prefix_append _ _), fun hmem => ?_⟩
  rcases List.mem_append.1 hmem with hmem | hmem
  · exact h.noNewline hmem
  · exact hcs (by simpa using hmem)

theorem isLine_leadLines {margin lead : List Char} {ls : List (List Char)}
    (hlead : IsLine margin lead) (hmargin : IsLine margin margin) (h : ∀ l ∈ ls, '\n' ∉ l) :
    ∀ l ∈ leadLines lead margin ls, IsLine margin l := by
  cases ls with
  | nil => exact List.forall_mem_nil _
  | cons m ls =>
    refine List.forall_mem_cons.2 ⟨hlead.append (h m List.mem_cons_self), ?_⟩
    rw [List.forall_mem_map]
    exact fun m' hm' => hmargin.append (h m' (List.mem_cons_of_mem _ hm'))

theorem flatMap_leadLines (lead margin : List Char) {ls : List (List Char)} (h : ls ≠ []) :
    (leadLines lead margin ls).flatMap (· ++ ['\n']) =
      lead ++ ' ' :: ('\n' :: (margin ++ [' '])).intercalate ls ++ ['\n'] := by
  obtain ⟨l, ls, rfl⟩ := List.exists_cons_of_ne_nil h
  clear h
  induction ls generalizing lead l with
  | nil => simp [leadLines, List.intercalate_singleton]
  | cons l' ls ih =>
    have hrest := ih margin l'
    simp only [leadLines, List.map_cons, List.flatMap_cons] at hrest ⊢
    rw [hrest, List.intercalate_cons_cons]
    simp

theorem exists_mem_append_iff {p : List Char → Prop} {ls ls' : List (List Char)} :
    (∃ l ∈ ls ++ ls', p l) ↔ (∃ l ∈ ls, p l) ∨ ∃ l ∈ ls', p l := by
  simp only [List.mem_append, or_and_right, exists_or]

/-- The end of a comment lies in a text after a label without one exactly if it lies in the text. -/
theorem infix_label_iff {label : List Char} (h : ¬ Php.commentEnd <:+: label) (cs : List Char) :
    Php.commentEnd <:+: label ++ ' ' :: cs ↔ Php.commentEnd <:+: cs := by
  rw [Text.infix_append_cons_iff (by decide), or_iff_right h]

/-- The end of a comment lies on a led line exactly if it lies in the lead or on the line. -/
theorem exists_mem_leadLines_iff {lead margin : List Char} (hmargin : ¬ Php.commentEnd <:+: margin)
    {ls : List (List Char)} (h : ls ≠ []) :
    (∃ l ∈ leadLines lead margin ls, Php.commentEnd <:+: l) ↔
      Php.commentEnd <:+: lead ∨ ∃ l ∈ ls, Php.commentEnd <:+: l := by
  have hspace : ' ' ∉ Php.commentEnd := by decide
  obtain ⟨l, ls, rfl⟩ := List.exists_cons_of_ne_nil h
  rw [leadLines, List.exists_mem_cons_iff, List.exists_mem_cons_iff,
    Text.infix_append_cons_iff hspace, or_assoc]
  simp [infix_label_iff hmargin]

theorem infix_commentOf_iff {blanks : List Char} (hblanks : ¬ Php.commentEnd <:+: blanks)
    (lines : List (List Char)) :
    Php.commentEnd <:+: commentOf lines blanks ↔ ∃ l ∈ lines, Php.commentEnd <:+: l := by
  have hnewline : '\n' ∉ Php.commentEnd := by decide
  have hnil : ¬ Php.commentEnd <:+: [] := by decide
  rw [commentOf, ← List.nil_append ('\n' :: _), Text.infix_append_cons_iff hnewline,
    or_iff_right hnil, Text.infix_flatMap_append_iff hnewline, or_iff_left hblanks]

theorem hasMargin_of_lines {indentation content : String} {lines : List (List Char)}
    (hcontent : content.toList = commentOf lines (indentation.toList ++ [' ']))
    (hindentation : '\n' ∉ indentation.toList)
    (hlines : ∀ l ∈ lines, IsLine (indentation.toList ++ [' ', '*']) l) :
    HasMargin indentation content := by
  have hlast : '\n' ∉ indentation.toList ++ [' '] := by simp [hindentation]
  refine ⟨lines, ?_, fun l hl => (hlines l hl).prefixed⟩
  rw [hcontent, commentOf, ← List.nil_append ('\n' :: _),
    Text.pieces_append_cons List.not_mem_nil,
    Text.pieces_flatMap_append (fun l hl => (hlines l hl).noNewline) hlast]

/-! ## Descriptions -/

/-- The end of a comment lies on a line of a wrapped text exactly if it lies in the text. -/
theorem commentEnd_infix_wrapped_iff (width : Nat) (text : List Char) :
    (∃ l ∈ Text.wrapped width text, Php.commentEnd <:+: l) ↔ Php.commentEnd <:+: text := by
  have hblank : ∀ c ∈ Php.commentEnd, Text.isBlank c = false := by
    simp [Php.commentEnd, Text.isBlank]
  exact Text.infix_wrapped_iff hblank (by simp [Php.commentEnd]) width text

/-! ## Comments of fields -/

/-- What the comment of a field holds. -/
def fieldComment (f : Field) : String := String.join [
  "\n",
  "     * ", Text.wordWrap f.description descriptionWidth "\n     * ", "\n",
  "     *\n",
  "     * @var ", f.typeUnion, "\n",
  "     "]

/-- The declaration of a field begins with its comment. -/
theorem declaration_eq (f : Field) : declaration f =
    String.join ["    /**", fieldComment f, "*/", "\n", "    public $", f.handle, ";\n"] := by
  have hopening : "    /**\n" = "    /**" ++ "\n" := rfl
  have hclosing : "     */\n" = "     " ++ ("*/" ++ "\n") := rfl
  rw [declaration, fieldComment, hopening, hclosing]
  simp [-String.reduceAppend, String.append_assoc]

/-- Before one of several fields of a trait stand the declarations of others. -/
theorem exists_intercalate_declaration_append (before after : List Field) (f : Field) :
    ∃ rest, "\n".intercalate ((before ++ f :: after).map declaration) =
      String.join (before.map renderField) ++ declaration f ++ rest := by
  induction before with
  | nil =>
    cases after with
    | nil => exact ⟨"", by simp⟩
    | cons g after =>
      refine ⟨"\n" ++ "\n".intercalate ((g :: after).map declaration), ?_⟩
      simp [String.intercalate_cons_cons, String.append_assoc]
  | cons g before ih =>
    obtain ⟨rest, hrest⟩ := ih
    refine ⟨rest, ?_⟩
    have hne : (before ++ f :: after).map declaration ≠ [] := by simp
    rw [List.cons_append, List.map_cons, String.intercalate_cons_of_ne_nil hne, hrest,
      List.map_cons, String.join_cons, renderField_eq]
    simp [String.append_assoc]

/-- A trait has the comment of a field after its opening and the fields before it. -/
theorem exists_renderTrait (s : Settings) {set : FieldSet} {before after : List Field} {f : Field}
    (h : set.fields = before ++ f :: after) : ∃ rest, renderTrait s set =
      String.join [traitOpening s set, String.join (before.map renderField),
        "    /**", fieldComment f, "*/", rest] := by
  obtain ⟨rest, hrest⟩ := exists_intercalate_declaration_append before after f
  refine ⟨String.join ["\n", "    public $", f.handle, ";\n", rest, "\x7d\n"], ?_⟩
  rw [renderTrait_eq, h, hrest, declaration_eq]
  simp [-String.reduceAppend, String.append_assoc]

/-- The lines of the comment of a field. -/
def fieldLines (f : Field) : List (List Char) :=
  leadLines "     *".toList "     *".toList (Text.wrapped descriptionWidth f.description.toList) ++
    ["     *".toList, "     * @var".toList ++ ' ' :: f.typeUnion.toList]

theorem toList_fieldComment (f : Field) :
    (fieldComment f).toList = commentOf (fieldLines f) "     ".toList := by
  rw [fieldComment, commentOf, fieldLines, List.flatMap_append,
    flatMap_leadLines _ _ (Text.wrapped_ne_nil _ _)]
  simp [Text.toList_wordWrap]

/-- The comment of a field holds an end of a comment exactly if its description or its types do. -/
theorem infix_fieldComment_iff (f : Field) : Php.commentEnd <:+: (fieldComment f).toList ↔
    Php.commentEnd <:+: f.description.toList ∨ Php.commentEnd <:+: f.typeUnion.toList := by
  have hmargin : ¬ Php.commentEnd <:+: "     *".toList := by decide
  have htype : ¬ Php.commentEnd <:+: "     * @var".toList := by decide
  rw [toList_fieldComment, infix_commentOf_iff (by decide), fieldLines, exists_mem_append_iff,
    exists_mem_leadLines_iff hmargin (Text.wrapped_ne_nil _ _), commentEnd_infix_wrapped_iff,
    List.exists_mem_cons_iff, List.exists_mem_cons_iff, infix_label_iff htype, or_iff_right hmargin,
    or_iff_right hmargin]
  simp

theorem hasMargin_fieldComment {f : Field} (hdescription : '\n' ∉ f.description.toList)
    (htypes : '\n' ∉ f.typeUnion.toList) : HasMargin "    " (fieldComment f) := by
  have hmargin : IsLine "     *".toList "     *".toList := by decide
  have htype : IsLine "     *".toList "     * @var".toList := by decide
  refine hasMargin_of_lines (toList_fieldComment f) (by decide) ?_
  rw [fieldLines, List.forall_mem_append, List.forall_mem_cons, List.forall_mem_singleton]
  exact ⟨isLine_leadLines hmargin hmargin fun l => Text.newline_not_mem_wrapped hdescription,
    hmargin, htype.append htypes⟩

/-! ## Comments of classes -/

/-- The opening of a model, down to the comment of its class. -/
def modelOpening (s : Settings) : String := String.join [
  renderHeader s, "\n",
  "use ", s.parentModel, ";\n",
  "\n"]

/-- What the comment of a class holds. -/
def classComment (s : Settings) (m : ClassModel) : String := String.join [
  "\n",
  " * schema.org version: ", s.release, "\n",
  " * ", m.name, " - ", Text.wordWrap m.description descriptionWidth "\n * ", "\n",
  " *\n",
  " * @author    nystudio107\n",
  " * @package   Seomatic\n",
  " * @see       ", m.scope, "\n",
  " "]

/-- A model has the comment of its class after its opening. -/
theorem exists_renderModel (s : Settings) (m : ClassModel) : ∃ rest, renderModel s m =
    String.join [modelOpening s, "/**", classComment s m, "*/", rest] := by
  have hlayout : Layout.modelFile = Layout.modelFile.take 22 ++ Layout.modelFile.drop 22 :=
    (List.take_append_drop ..).symm
  have hopening : "/**\n" = "/**" ++ "\n" := rfl
  have hclosing : " */\n" = " " ++ ("*/" ++ "\n") := rfl
  rw [renderModel, hlayout, Template.fill_append]
  generalize Template.fill _ (Layout.modelFile.drop 22) = rest
  refine ⟨"\n" ++ rest, ?_⟩
  simp only [modelSlots, Layout.modelFile, List.take, Template.fill, List.map_cons, List.map_nil,
    Piece.fill, Table.find?_ofList, hopening, hclosing]
  simp [-String.reduceAppend, String.append_assoc, modelOpening, classComment]

/-- The lines of the comment of a class. -/
def classLines (s : Settings) (m : ClassModel) : List (List Char) :=
  (" * schema.org version:".toList ++ ' ' :: s.release.toList) ::
    leadLines (" *".toList ++ ' ' :: (m.name.toList ++ " -".toList)) " *".toList
      (Text.wrapped descriptionWidth m.description.toList) ++
    [" *".toList, " * @author    nystudio107".toList, " * @package   Seomatic".toList,
      " * @see      ".toList ++ ' ' :: m.scope.toList]

theorem toList_classComment (s : Settings) (m : ClassModel) :
    (classComment s m).toList = commentOf (classLines s m) " ".toList := by
  rw [classComment, commentOf, classLines, List.cons_append, List.flatMap_cons, List.flatMap_append,
    flatMap_leadLines _ _ (Text.wrapped_ne_nil _ _)]
  simp [Text.toList_wordWrap]

/-- The comment of a class holds an end of a comment exactly if what is put into it does. -/
theorem infix_classComment_iff (s : Settings) (m : ClassModel) :
    Php.commentEnd <:+: (classComment s m).toList ↔ Php.commentEnd <:+: s.release.toList ∨
      Php.commentEnd <:+: m.name.toList ∨ Php.commentEnd <:+: m.description.toList ∨
        Php.commentEnd <:+: m.scope.toList := by
  have hmargin : ¬ Php.commentEnd <:+: " *".toList := by decide
  have hversion : ¬ Php.commentEnd <:+: " * schema.org version:".toList := by decide
  have hauthor : ¬ Php.commentEnd <:+: " * @author    nystudio107".toList := by decide
  have hpackage : ¬ Php.commentEnd <:+: " * @package   Seomatic".toList := by decide
  have hsee : ¬ Php.commentEnd <:+: " * @see      ".toList := by decide
  have hname : Php.commentEnd <:+: " *".toList ++ ' ' :: (m.name.toList ++ " -".toList) ↔
      Php.commentEnd <:+: m.name.toList := by
    have hdash : ¬ Php.commentEnd <:+: ['-'] := by decide
    have htoList : " -".toList = ' ' :: ['-'] := rfl
    rw [infix_label_iff hmargin, htoList, Text.infix_append_cons_iff (by decide),
      or_iff_left hdash]
  rw [toList_classComment, infix_commentOf_iff (by decide), classLines, exists_mem_append_iff,
    List.exists_mem_cons_iff, infix_label_iff hversion,
    exists_mem_leadLines_iff hmargin (Text.wrapped_ne_nil _ _), hname, commentEnd_infix_wrapped_iff,
    List.exists_mem_cons_iff, List.exists_mem_cons_iff, List.exists_mem_cons_iff,
    List.exists_mem_cons_iff, infix_label_iff hsee, or_iff_right hmargin, or_iff_right hauthor,
    or_iff_right hpackage]
  simp [or_assoc]

theorem hasMargin_classComment {s : Settings} {m : ClassModel}
    (hdescription : '\n' ∉ m.description.toList) (hrelease : '\n' ∉ s.release.toList)
    (hname : '\n' ∉ m.name.toList) (hscope : '\n' ∉ m.scope.toList) :
    HasMargin "" (classComment s m) := by
  have hmargin : IsLine " *".toList " *".toList := by decide
  have hversion : IsLine " *".toList " * schema.org version:".toList := by decide
  have hauthor : IsLine " *".toList " * @author    nystudio107".toList := by decide
  have hpackage : IsLine " *".toList " * @package   Seomatic".toList := by decide
  have hsee : IsLine " *".toList " * @see      ".toList := by decide
  have hlead : '\n' ∉ m.name.toList ++ " -".toList := by simp [hname]
  refine hasMargin_of_lines (toList_classComment s m) (by decide) ?_
  rw [classLines, List.forall_mem_append, List.forall_mem_cons, List.forall_mem_cons,
    List.forall_mem_cons, List.forall_mem_cons, List.forall_mem_singleton]
  exact ⟨⟨hversion.append hrelease, isLine_leadLines (hmargin.append hlead) hmargin
    fun l => Text.newline_not_mem_wrapped hdescription⟩, hmargin, hauthor, hpackage,
    hsee.append hscope⟩

/-! ## The ends of comments -/

/-- A comment holds that text and ends in front of that rest, and not earlier. -/
def EndsAfter (content rest : String) : Prop :=
  Php.comment? (content ++ "*/" ++ rest).toList = some (content.toList, rest.toList)

theorem endsAfter_iff (content rest : String) :
    EndsAfter content rest ↔ ¬ Php.commentEnd <:+: content.toList := by
  rw [EndsAfter, String.toList_append, String.toList_append]
  exact Php.comment?_append_iff content.toList rest.toList

/-- Comments with a description. They are closed by their own ends exactly if neither the
description nor anything else that is put into them holds such an end. All of their lines have the
margin unless something else than the description holds a newline. -/
theorem comments_closed_iff (v : Option Json) (s : Settings) :
    (∀ (set : FieldSet) (before after : List Field) (f : Field),
      set.fields = before ++ f :: after → f.description = displayText v true →
      ∃ rest,
        renderTrait s set = String.join [traitOpening s set, String.join (before.map renderField),
          "    /**", fieldComment f, "*/", rest] ∧
        (EndsAfter (fieldComment f) rest ↔ ¬ Php.commentEnd <:+: (displayText v true).toList ∧
          ¬ Php.commentEnd <:+: f.typeUnion.toList) ∧
        ('\n' ∉ f.typeUnion.toList → HasMargin "    " (fieldComment f))) ∧
    ∀ m : ClassModel, m.description = displayText v true →
      ∃ rest,
        renderModel s m = String.join [modelOpening s, "/**", classComment s m, "*/", rest] ∧
        (EndsAfter (classComment s m) rest ↔ ¬ Php.commentEnd <:+: (displayText v true).toList ∧
          ¬ Php.commentEnd <:+: s.release.toList ∧ ¬ Php.commentEnd <:+: m.name.toList ∧
          ¬ Php.commentEnd <:+: m.scope.toList) ∧
        ('\n' ∉ s.release.toList → '\n' ∉ m.name.toList → '\n' ∉ m.scope.toList →
          HasMargin "" (classComment s m)) := by
  have hnewline := newline_not_mem_displayText v
  constructor
  · intro set before after f hfields hdescription
    obtain ⟨rest, hrest⟩ := exists_renderTrait s hfields
    refine ⟨rest, hrest, ?_, hasMargin_fieldComment (hdescription ▸ hnewline)⟩
    rw [endsAfter_iff, infix_fieldComment_iff, not_or, hdescription]
  · intro m hdescription
    obtain ⟨rest, hrest⟩ := exists_renderModel s m
    refine ⟨rest, hrest, ?_, hasMargin_classComment (hdescription ▸ hnewline)⟩
    rw [endsAfter_iff, infix_classComment_iff, not_or, not_or, not_or, hdescription]
    tauto

/-! ### One comment -/

/-- The nodes of a class and a property of it that have the same comment. -/
def searchNodes (comment : String) : List Json := [
  .object [("@id", .string "schema:Search"), ("@type", .string "rdfs:Class"),
    ("rdfs:label", .string "Search"), ("rdfs:comment", .string comment)],
  .object [("@id", .string "schema:pattern"), ("@type", .string "rdf:Property"),
    ("rdfs:label", .string "pattern"), ("rdfs:comment", .string comment),
    ("schema:domainIncludes", .object [("@id", .string "schema:Search")]),
    ("schema:rangeIncludes", .object [("@id", .string "schema:Text")])]]

/-- The class. -/
def searchClass (comment : String) : ClassDecl :=
  { plainClass "schema:Search" "Search" [] with description := comment, rawDescription := comment }

/-- The property. -/
def searchPattern (comment : String) : PropertyDecl :=
  { plainProperty "schema:pattern" "pattern" "schema:Search" with description := comment }

/-- The vocabulary of the two. -/
def search (comment : String) : Vocabulary where
  classes := .ofList [("schema:Search", searchClass comment)]
  attached := .ofList [("schema:Search", .ofList [("schema:pattern", searchPattern comment)])]
  members := ∅
  superseded := ∅

/-- The field of the property. -/
def searchField (comment : String) : Field := .ofProperty .schemaOrg (searchPattern comment)

/-- The fields of the class. -/
def searchFields (comment : String) : FieldSet :=
  (search comment).fieldSet {} (searchClass comment)

/-- The model of the class. -/
def searchModel (comment : String) : ClassModel :=
  .resolve {} (searchClass comment) ["Search"] ((search comment).fieldSets {})

/-- A comment in which stars and slashes stand apart. -/
def productComment : String := "Such as 6 * 7 / 2."

/-- A comment with a pattern for paths. -/
def globComment : String := "Such as src/*/main.c."

/-- Stars and slashes that stand apart end no comment. -/
theorem comments_closed_iff_product :
    (∃ rest, renderTrait {} (searchFields productComment) = String.join [
          traitOpening {} (searchFields productComment), "", "    /**",
          fieldComment (searchField productComment), "*/", rest] ∧
      EndsAfter (fieldComment (searchField productComment)) rest ∧
      HasMargin "    " (fieldComment (searchField productComment))) ∧
    ∃ rest, renderModel {} (searchModel productComment) = String.join [modelOpening {}, "/**",
          classComment {} (searchModel productComment), "*/", rest] ∧
      EndsAfter (classComment {} (searchModel productComment)) rest ∧
      HasMargin "" (classComment {} (searchModel productComment)) := by
  obtain ⟨hfields, hmodels⟩ := comments_closed_iff (some (.string productComment)) {}
  constructor
  · obtain ⟨rest, htext, hends, hmargin⟩ := hfields (searchFields productComment) [] []
      (searchField productComment) (by decide +kernel) (by decide +kernel)
    exact ⟨rest, htext, hends.2 (by decide +kernel), hmargin (by decide +kernel)⟩
  · obtain ⟨rest, htext, hends, hmargin⟩ := hmodels (searchModel productComment)
      (by decide +kernel)
    exact ⟨rest, htext, hends.2 (by decide +kernel),
      hmargin (by decide) (by decide) (by decide)⟩

/-- A comment that holds the end of one ends there. -/
theorem ends_early {content early : String} (rest : String)
    (hcontent : early.toList ++ Php.commentEnd <+: content.toList)
    (hearly : ¬ Php.commentEnd <:+: early.toList) :
    ¬ EndsAfter content rest ∧
      ∃ late, Php.comment? (content ++ "*/" ++ rest).toList = some (early.toList, late) := by
  have hinfix : Php.commentEnd <:+: content.toList :=
    (List.suffix_append _ _).isInfix.trans hcontent.isInfix
  refine ⟨fun h => (endsAfter_iff content rest).1 h hinfix, ?_⟩
  obtain ⟨late, hlate⟩ := hcontent
  refine ⟨late ++ ("*/" ++ rest).toList, ?_⟩
  have hread := (Php.comment?_append_iff early.toList (late ++ ("*/" ++ rest).toList)).2 hearly
  have htext : (content ++ "*/" ++ rest).toList =
      early.toList ++ Php.commentEnd ++ (late ++ ("*/" ++ rest).toList) := by
    simp [← hlate]
  rw [htext, hread]

/-- A pattern for paths ends the comments of its class and of its field in their middle, and what
comes after that is code. -/
theorem comments_end_early : ∃ v report shelf,
    Vocabulary.ofNodes .schemaOrg (searchNodes globComment) = .ok v ∧
    generate (ε := Empty) {} v Shelf.sink ∅ = (.ok report, shelf) ∧
    (∃ rest, shelf.find? "SearchTrait.php" = some (String.join [
          traitOpening {} (searchFields globComment), "", "    /**",
          fieldComment (searchField globComment), "*/", rest]) ∧
      ¬ EndsAfter (fieldComment (searchField globComment)) rest ∧
      ∃ late, Php.comment? (fieldComment (searchField globComment) ++ "*/" ++ rest).toList =
        some ("\n     * Such as src/".toList, late)) ∧
    ∃ rest, shelf.find? "Search.php" = some (String.join [
          modelOpening {}, "/**", classComment {} (searchModel globComment), "*/", rest]) ∧
      ¬ EndsAfter (classComment {} (searchModel globComment)) rest ∧
      ∃ late, Php.comment? (classComment {} (searchModel globComment) ++ "*/" ++ rest).toList =
        some ("\n * schema.org version: unknown\n * Search - Such as src/".toList, late) := by
  have hread : Vocabulary.ofNodes .schemaOrg (searchNodes globComment) =
      .ok (search globComment) := eq_ok_of_toOption (by decide +kernel)
  have hparents : ∀ c ∈ (search globComment).namespaced {},
      ((search globComment).hierarchy {}).parentsOf c.name = [] := by decide
  have hclass : searchClass globComment ∈ (search globComment).namespaced {} := by decide
  obtain ⟨report, shelf, h⟩ := exists_generate_of_parentless (s := {}) hparents
  have hkept : ∀ a ∈ offers {} (search globComment) (Shelf.sink : Sink Shelf Empty) ∅,
      shelf.find? a.name = some a.content := by
    have hnodup : report.files.Nodup := files_of_ok h ▸ (by decide)
    have hshelf : shelf = _ := congrArg Prod.snd (h.symm.trans (generate_shelf_eq h))
    intro a ha
    rw [hshelf]
    exact find?_offers_of_nodup h hnodup ha
  refine ⟨_, report, shelf, hread, h, ?_, ?_⟩
  · have hfields : (searchFields globComment).fields = [] ++ searchField globComment :: [] := by
      decide +kernel
    have hname : Php.traitName (searchFields globComment).safeName ++ ".php" =
        "SearchTrait.php" := by decide
    obtain ⟨rest, hrest⟩ := exists_renderTrait {} hfields
    have hfile := hkept _ (declarations_mem_offers h hclass _ List.mem_cons_self)
    have hcontent : "\n     * Such as src/".toList ++ Php.commentEnd <+:
        (fieldComment (searchField globComment)).toList := by decide
    refine ⟨rest, ?_, ends_early rest hcontent (by decide)⟩
    rw [← hname]
    exact hfile.trans (congrArg some hrest)
  · have hmodel : (search globComment).model {} (searchClass globComment) =
        .ok (searchModel globComment) :=
      (Vocabulary.model_eq_ok_iff _ _ _ _).2
        ⟨[], Hierarchy.ancestors_of_parentless (hparents _ hclass), rfl⟩
    have hname : (searchModel globComment).safeName ++ ".php" = "Search.php" := by decide
    obtain ⟨rest, hrest⟩ := exists_renderModel {} (searchModel globComment)
    obtain ⟨m, hm, hmem⟩ := exists_model_of_ok h hclass
    obtain rfl : searchModel globComment = m := Except.ok.inj (hmodel.symm.trans hm)
    have hcontent : "\n * schema.org version: unknown\n * Search - Such as src/".toList ++
        Php.commentEnd <+: (classComment {} (searchModel globComment)).toList := by decide +kernel
    refine ⟨rest, ?_, ends_early rest hcontent (by decide)⟩
    rw [← hname]
    exact (hkept _ hmem).trans (congrArg some hrest)

end VocabPhp
