import VocabPhp.Artifact.Render
import VocabPhp.Proofs.Table

/-!
# Written templates and the files made of them

A file is made from a layout, of which the text is scanned from left to right: a slot gives its
value, and all else stands as it is. A value is not scanned, whatever it holds.

* `Template.Filled`: the rule for a written template with its slots filled.
* `Template.Readable`, `Template.renders_fill`: a template that can be read from its written form,
  and has values for all of its slots, is filled by that rule.
* `renderFields_eq`: the fields of a trait are separated by blank lines.
* `files_render_layouts`: every file is its layout with the values of its slots.
-/

namespace VocabPhp

namespace Template

variable {slots : Slots}

/-! ## Filling a written template -/

/-- `Filled slots cs out`: the text `out` is the written template `cs` with the value of its slot in
place of each slot, and everything else as it stands. A slot reaches from its opening to the first
closing brace after it. There is no rule for a slot without a value, so none is left, and none for
the text of a value, which is put in as it is. -/
inductive Filled (slots : Slots) : List Char → List Char → Prop
  | nil : Filled slots [] []
  | char {c cs out} : ¬ ['\x7b', '@'] <+: c :: cs → Filled slots cs out →
      Filled slots (c :: cs) (c :: out)
  | slot {name cs out value} : '\x7d' ∉ name → slots.find? (String.ofList name) = some value →
      Filled slots cs out →
      Filled slots ('\x7b' :: '@' :: (name ++ '\x7d' :: cs)) (value.toList ++ out)

theorem ofChars_char {c : Char} {cs : List Char} (h : ¬ ['\x7b', '@'] <+: c :: cs) :
    ofChars (c :: cs) = .text (String.singleton c) :: ofChars cs := by
  rw [ofChars]
  rintro cs' rfl rfl
  exact h (by simp)

theorem ofChars_slot {name : List Char} (h : '\x7d' ∉ name) (cs : List Char) :
    ofChars ('\x7b' :: '@' :: (name ++ '\x7d' :: cs)) =
      .slot (String.ofList name) :: ofChars cs := by
  have hname : ∀ c ∈ name, decide (c ≠ '\x7d') = true := fun c hc =>
    decide_eq_true fun heq => h (heq ▸ hc)
  have hdrop : (name ++ '\x7d' :: cs).dropWhile (fun c => decide (c ≠ '\x7d')) = '\x7d' :: cs := by
    rw [List.dropWhile_append_of_pos hname]
    rfl
  have htake : (name ++ '\x7d' :: cs).takeWhile (fun c => decide (c ≠ '\x7d')) = name := by
    rw [List.takeWhile_append_of_pos hname]
    simp
  rw [ofChars]
  split
  · next hnil => exact absurd (hdrop.symm.trans hnil) (List.cons_ne_nil _ _)
  · next rest hcons =>
    obtain ⟨-, rfl⟩ := List.cons.inj (hdrop.symm.trans hcons)
    rw [htake]

/-- Scanning a written template from left to right gives the text with the values in its slots. -/
theorem substitute_of_filled {cs out : List Char} (h : Filled slots cs out) :
    substitute slots (String.ofList cs) = String.ofList out := by
  rw [substitute, ofText, String.toList_ofList]
  induction h with
  | nil => simp [ofChars, fill]
  | char hc _ ih =>
    rw [ofChars_char hc, fill_cons, ih, ← String.toList_inj]
    simp [Piece.fill]
  | slot hname hvalue _ ih =>
    rw [ofChars_slot hname, fill_cons, ih, Piece.fill, hvalue, ← String.toList_inj]
    simp

/-! ## The written form of a template -/

/-- Tells whether a text holds no opening of a slot and cannot end in one that goes on after it. -/
def isPlain : List Char → Bool
  | [] => true
  | ['\x7b'] => false
  | '\x7b' :: '@' :: _ => false
  | _ :: cs => isPlain cs

/-- A template that can be read from its written form, with slots of some names. -/
inductive Readable (names : List String) : Template → Prop
  | nil : Readable names []
  | text {s t} : isPlain s = true → Readable names t → Readable names (.text (String.ofList s) :: t)
  | slot {name t} : name.contains '\x7d' = false → String.ofList name ∈ names → Readable names t →
      Readable names (.slot (String.ofList name) :: t)

/-- Plain text stands as it is. -/
theorem Filled.text {s cs out : List Char} (hs : isPlain s = true) (h : Filled slots cs out) :
    Filled slots (s ++ cs) (s ++ out) := by
  induction s using isPlain.induct with
  | case1 => exact h
  | case2 => simp [isPlain] at hs
  | case3 => simp [isPlain] at hs
  | case4 c s hsingle hopening ih =>
    rw [isPlain] at hs
    · refine .char (fun hprefix => ?_) (ih hs)
      -- An opening would lie in the text or begin with its last character.
      cases s with
      | nil =>
        obtain ⟨rfl, -⟩ := List.cons_prefix_cons.1 hprefix
        exact hsingle rfl rfl
      | cons d s =>
        obtain ⟨rfl, hd⟩ := List.cons_prefix_cons.1 hprefix
        obtain ⟨rfl, -⟩ := List.cons_prefix_cons.1 hd
        exact hopening s rfl rfl
    · exact hsingle
    · exact hopening

theorem source_cons (p : Piece) (t : Template) : source (p :: t) = p.source ++ source t := by
  rw [← String.toList_inj]
  simp [source]

/-- A readable template is filled as it is written. -/
theorem filled_source {values : List (String × String)} {t : Template}
    (h : t.Readable (values.map (·.1))) :
    Filled (.ofList values) t.source.toList (t.fill (.ofList values)).toList := by
  induction h with
  | nil => exact .nil
  | text hplain _ ih =>
    rw [source_cons, fill_cons, String.toList_append, String.toList_append, Piece.source,
      Piece.fill, String.toList_ofList]
    exact ih.text hplain
  | @slot name t hbrace hname _ ih =>
    obtain ⟨value, hvalue⟩ : ∃ value,
        Table.find? (.ofList values) (String.ofList name) = some value := by
      rw [← Option.isSome_iff_exists, ← Table.mem_keys_iff, Table.mem_keys_ofList]
      exact hname
    have hslot : (Piece.slot (String.ofList name)).source.toList ++ (source t).toList =
        '\x7b' :: '@' :: (name ++ '\x7d' :: (source t).toList) := by
      simp [Piece.source]
    rw [source_cons, fill_cons, String.toList_append, String.toList_append, hslot, Piece.fill,
      hvalue]
    exact .slot (by simpa using hbrace) hvalue ih

theorem Readable.mem_of_slot {names : List String} {t : Template} {name : String}
    (h : t.Readable names) (hslot : .slot name ∈ t) : name ∈ names := by
  induction h with
  | nil => exact absurd hslot List.not_mem_nil
  | text _ _ ih => exact ih (by simpa using hslot)
  | slot _ hname _ ih =>
    rcases List.mem_cons.1 hslot with heq | hslot
    · cases heq
      exact hname
    · exact ih hslot

/-- A text is a template with values in its slots: all of them are given, the rule makes this text
and no other one of what is written, and so does scanning it from left to right. -/
def Renders (t : Template) (values : List (String × String)) (text : String) : Prop :=
  (∀ name, .slot name ∈ t → name ∈ values.map (·.1)) ∧
    (∀ out, Filled (.ofList values) t.source.toList out ↔ out = text.toList) ∧
    text = substitute (.ofList values) t.source

theorem renders_fill {t : Template} {values : List (String × String)}
    (h : t.Readable (values.map (·.1))) : t.Renders values (t.fill (.ofList values)) := by
  have hfilled := filled_source h
  have hscan {out : List Char} (hout : Filled (.ofList values) t.source.toList out) :
      substitute (.ofList values) t.source = String.ofList out := by
    simpa using substitute_of_filled hout
  have htext : t.fill (.ofList values) = substitute (.ofList values) t.source := by
    rw [hscan hfilled, String.ofList_toList]
  refine ⟨fun _ => h.mem_of_slot, fun out => ⟨fun hout => ?_, fun hout => hout ▸ hfilled⟩, htext⟩
  rw [htext, hscan hout, String.toList_ofList]

end Template

/-! ## Layouts -/

theorem Layout.readable_header : header.Readable ["namespace"] := by
  repeat' constructor

theorem Layout.readable_field :
    field.Readable ["propertyDescription", "propertyType", "propertyHandle"] := by
  repeat' constructor

theorem Layout.readable_interfaceFile :
    interfaceFile.Readable ["header", "schemaVersion", "schemaName", "schemaScope",
      "schemaInterfaceName"] := by
  repeat' constructor

theorem Layout.readable_traitFile :
    traitFile.Readable ["header", "schemaVersion", "schemaName", "schemaScope", "schemaTraitName",
      "schemaPropertiesAsFields"] := by
  repeat' constructor

theorem Layout.readable_modelFile :
    modelFile.Readable ["header", "parentModel", "parentModelName", "schemaVersion", "schemaName",
      "schemaDescription", "schemaScope", "schemaClass", "schemaInterfaces", "schemaTraits",
      "staticType", "schemaTypeName", "schemaTypeScope", "schemaTypeExtends",
      "schemaTypeDescription", "schemaPropertyNames", "schemaPropertyExpectedTypes",
      "schemaPropertyDescriptions", "googleRequiredSchema", "googleRecommendedSchema"] := by
  repeat' constructor

/-! ## Fields of a trait -/

/-- The declaration of a field, down to the end of its last line. -/
def declaration (f : Field) : String := String.join [
  "    /**\n",
  "     * ", Text.wordWrap f.description descriptionWidth "\n     * ", "\n",
  "     *\n",
  "     * @var ", f.typeUnion, "\n",
  "     */\n",
  "    public $", f.handle] ++ ";\n"

theorem renderField_eq (f : Field) : renderField f = declaration f ++ "\n" := by
  simp only [renderField, declaration, Layout.field, Template.fill, List.map_cons, List.map_nil,
    Piece.fill, Table.find?_ofList]
  simp [-String.reduceAppend, String.append_assoc]

/-- A list of declarations ends in the semicolon of the last one. -/
theorem exists_intercalate_declaration (f : Field) (fields : List Field) :
    ∃ text, "\n".intercalate ((f :: fields).map declaration) = text ++ ";\n" := by
  induction fields generalizing f with
  | nil =>
    rw [List.map_singleton, String.intercalate_singleton]
    exact ⟨_, rfl⟩
  | cons g fields ih =>
    obtain ⟨text, htext⟩ := ih g
    refine ⟨declaration f ++ "\n" ++ text, ?_⟩
    rw [List.map_cons] at htext
    rw [List.map_cons, List.map_cons, String.intercalate_cons_cons, htext, ← String.append_assoc]

/-- Fields with a blank line after each are fields with one between each two, and one at the end. -/
theorem join_renderField (f : Field) (fields : List Field) :
    String.join ((f :: fields).map renderField) =
      "\n".intercalate ((f :: fields).map declaration) ++ "\n" := by
  induction fields generalizing f with
  | nil => simp [renderField_eq]
  | cons g fields ih =>
    have hcons : "\n".intercalate ((f :: g :: fields).map declaration) =
        declaration f ++ "\n" ++ "\n".intercalate ((g :: fields).map declaration) :=
      String.intercalate_cons_cons
    rw [List.map_cons, String.join_cons, ih, renderField_eq, hcons, ← String.append_assoc]

theorem dropBlankLine_append (text : String) :
    dropBlankLine (text ++ ";\n" ++ "\n") = text ++ ";\n" := by
  simp [dropBlankLine]

/-- A blank line stands between each two fields, and none after the last one. -/
theorem renderFields_eq (fields : List Field) :
    renderFields fields = "\n".intercalate (fields.map declaration) := by
  cases fields with
  | nil => rfl
  | cons f fields =>
    obtain ⟨text, htext⟩ := exists_intercalate_declaration f fields
    rw [renderFields, join_renderField, htext, dropBlankLine_append]

/-- The line before the closing brace of a trait is not blank. -/
theorem body_not_blank (fields : List Field) :
    ¬ ['\n', '\n'] <:+ ("\x7b\n" ++ "\n".intercalate (fields.map declaration)).toList := by
  cases fields with
  | nil => decide
  | cons f fields =>
    obtain ⟨text, htext⟩ := exists_intercalate_declaration f fields
    rw [htext]
    simp [← List.reverse_prefix]

/-- The opening of a trait, down to its brace. -/
def traitOpening (s : Settings) (f : FieldSet) : String := String.join [
  renderHeader s, "\n",
  "/**\n",
  " * schema.org version: ", s.release, "\n",
  " * Trait for ", f.name, ".\n",
  " *\n",
  " * @author    nystudio107\n",
  " * @package   Seomatic\n",
  " * @see       ", f.scope, "\n",
  " */\n",
  "trait ", Php.traitName f.safeName, "\n",
  "\x7b\n"]

/-- A trait holds its fields between braces. -/
theorem renderTrait_eq (s : Settings) (f : FieldSet) : renderTrait s f =
    traitOpening s f ++ "\n".intercalate (f.fields.map declaration) ++ "\x7d\n" := by
  simp only [renderTrait, renderFields_eq, traitOpening, Layout.traitFile, Template.fill,
    List.map_cons, List.map_nil, Piece.fill, Table.find?_ofList]
  simp [-String.reduceAppend, String.append_assoc]

/-! ## Files -/

/-- Every file is its layout with the values of its slots. All slots have values, and what is put
into one is not filled again. A trait has its fields between braces, with a blank line between each
two of them and none before the closing brace. -/
theorem files_render_layouts (s : Settings) :
    Layout.header.Renders [("namespace", s.modelNamespace)] (renderHeader s) ∧
    (∀ f : FieldSet, Layout.interfaceFile.Renders [
      ("header", renderHeader s),
      ("schemaVersion", s.release),
      ("schemaName", f.name),
      ("schemaScope", f.scope),
      ("schemaInterfaceName", Php.interfaceName f.safeName)] (renderInterface s f)) ∧
    (∀ f : Field, Layout.field.Renders [
      ("propertyDescription", Text.wordWrap f.description descriptionWidth "\n     * "),
      ("propertyType", f.typeUnion),
      ("propertyHandle", f.handle)] (renderField f) ∧
      renderField f = declaration f ++ "\n") ∧
    (∀ f : FieldSet, Layout.traitFile.Renders [
      ("header", renderHeader s),
      ("schemaVersion", s.release),
      ("schemaName", f.name),
      ("schemaScope", f.scope),
      ("schemaTraitName", Php.traitName f.safeName),
      ("schemaPropertiesAsFields", renderFields f.fields)] (renderTrait s f) ∧
      renderFields f.fields = "\n".intercalate (f.fields.map declaration) ∧
      renderTrait s f =
        traitOpening s f ++ "\n".intercalate (f.fields.map declaration) ++ "\x7d\n" ∧
      ¬ ['\n', '\n'] <:+ ("\x7b\n" ++ "\n".intercalate (f.fields.map declaration)).toList) ∧
    ∀ m : ClassModel, Layout.modelFile.Renders [
      ("header", renderHeader s),
      ("parentModel", s.parentModel),
      ("parentModelName", s.parentName),
      ("schemaVersion", s.release),
      ("schemaName", m.name),
      ("schemaDescription", Text.wordWrap m.description descriptionWidth "\n * "),
      ("schemaScope", m.scope),
      ("schemaClass", m.safeName),
      ("schemaInterfaces", ", ".intercalate (m.safeChain.map Php.interfaceName)),
      ("schemaTraits", String.join (m.safeChain.map useTrait)),
      ("staticType", s.dialect.staticType),
      ("schemaTypeName", Php.quote m.name),
      ("schemaTypeScope", Php.quote m.scope),
      ("schemaTypeExtends", Php.quote m.superclass),
      ("schemaTypeDescription", Php.quote m.rawDescription),
      ("schemaPropertyNames", Php.list m.handles),
      ("schemaPropertyExpectedTypes",
        Php.map (m.fields.map fun f => (f.handle, Php.list f.ranges)) arrayIndent),
      ("schemaPropertyDescriptions",
        Php.map (m.fields.map fun f => (f.handle, Php.quote f.description)) arrayIndent),
      ("googleRequiredSchema", Php.list m.rules.required),
      ("googleRecommendedSchema", Php.list m.rules.recommended)] (renderModel s m) := by
  refine ⟨?header, fun f => ?interface, fun f => ⟨?field, renderField_eq f⟩,
    fun f => ⟨?trait, renderFields_eq f.fields, renderTrait_eq s f, body_not_blank f.fields⟩,
    fun m => ?model⟩
  case header => exact Template.renders_fill Layout.readable_header
  case interface => exact Template.renders_fill Layout.readable_interfaceFile
  case field => exact Template.renders_fill Layout.readable_field
  case trait => exact Template.renders_fill Layout.readable_traitFile
  case model => exact Template.renders_fill Layout.readable_modelFile

end VocabPhp
