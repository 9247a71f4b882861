import VocabPhp.Proofs.Refusals

/-!
# What the dialect changes

A dialect gives the static fields of a model a type or none. The layout of a model has a slot for it
in each of these fields, right after `public static `. Cut at these slots, the layout consists of
parts that are filled alike in all dialects, whatever is put into their slots.

* `Template.fill_intercalate`, `Template.fill_congr`: a template that is cut at a slot is filled
  part by part, and only the values of its own slots matter to a part.
* `Layout.modelParts`, `Layout.modelParts_end`: the parts of the layout of a model.
* `renderModel_eq_intercalate`: a model is its filled parts with the type of static fields in
  between.
* `Plan.ofVocabulary_inDialect`: the plans of a vocabulary in all dialects.
* `generate_dialects`: runs in two dialects differ in nothing else.
-/

namespace VocabPhp

/-- The settings, for a dialect. -/
def Settings.inDialect (s : Settings) (d : Dialect) : Settings := { s with dialect := d }

variable {s : Settings} {v : Vocabulary}

/-! ## Templates in parts -/

namespace Template

variable {slots slots' : Slots}

/-- Only the slots of a template matter. -/
theorem fill_congr {t : Template}
    (h : ∀ name, .slot name ∈ t → slots.find? name = slots'.find? name) :
    t.fill slots = t.fill slots' := by
  unfold fill
  congr 1
  refine List.map_congr_left fun p hp => ?_
  cases p with
  | text => rfl
  | slot name => rw [Piece.fill, Piece.fill, h name hp]

theorem toList_source (t : Template) :
    t.source.toList = t.flatMap fun p => p.source.toList := by
  simp [source, String.toList_join, List.flatMap, Function.comp_def]

/-- Parts with a piece between each two are filled with what this piece is filled to in between. -/
theorem fill_intercalate (slots : Slots) (p : Piece) (parts : List Template) :
    fill slots ([p].intercalate parts) = (p.fill slots).intercalate (parts.map (fill slots)) := by
  induction parts with
  | nil => rfl
  | cons t parts ih =>
    cases parts with
    | nil => simp [List.intercalate]
    | cons u parts =>
      rw [List.intercalate_cons_cons, fill_append, fill_append, ih, List.map_cons, List.map_cons,
        List.map_cons, String.intercalate_cons_cons]
      simp [fill]

end Template

/-! ## The layout of a model -/

/-- The parts of the layout of a model between the types of its static fields. -/
def Layout.modelParts : List Template := modelFile.splitOn (.slot "staticType")

/-- There are five parts. Every part but the last ends before the name of a static field, and no
part has a slot for the type of one. -/
theorem Layout.modelParts_end : modelParts.length = 5 ∧
    (∀ part ∈ modelParts.dropLast, part.getLast? = some (.text "    public static ")) ∧
    ∀ part ∈ modelParts, .slot "staticType" ∉ part := by
  refine ⟨?_, ?_, ?_⟩ <;> decide +kernel

/-- As it is written, the layout has `public static ` nowhere else. -/
theorem Layout.count_static_modelFile :
    modelFile.source.toList.tails.countP ("public static ".toList.isPrefixOf ·) = 4 := by
  rw [Template.toList_source]
  decide +kernel

/-- The texts of a model between the types of its static fields. -/
def modelTexts (s : Settings) (m : ClassModel) : List String :=
  Layout.modelParts.map (Template.fill (modelSlots s m))

/-- Slots other than that for the type of static fields have the same values in all dialects. -/
theorem find?_modelSlots_inDialect {name : String} (hname : name ≠ "staticType") (s : Settings)
    (d : Dialect) (m : ClassModel) :
    (modelSlots (s.inDialect d) m).find? name = (modelSlots s m).find? name := by
  have hslot : ∀ value : String, (if "staticType" = name then some value else none) = none :=
    fun value => if_neg hname.symm
  rw [modelSlots, modelSlots, Table.find?_ofList, Table.find?_ofList]
  simp only [List.reverse_cons, List.reverse_nil, List.nil_append, List.cons_append,
    List.findSome?_cons, hslot]
  rfl

/-- The texts of a model are the same in all dialects. -/
theorem modelTexts_inDialect (s : Settings) (d : Dialect) (m : ClassModel) :
    modelTexts (s.inDialect d) m = modelTexts s m := by
  refine List.map_congr_left fun part hpart => Template.fill_congr fun name hname => ?_
  have hstatic : name ≠ "staticType" := by
    rintro rfl
    exact Layout.modelParts_end.2.2 part hpart hname
  exact find?_modelSlots_inDialect hstatic s d m

/-- A model is its texts with the type of static fields between each two. -/
theorem renderModel_eq_intercalate (s : Settings) (d : Dialect) (m : ClassModel) :
    renderModel (s.inDialect d) m = d.staticType.intercalate (modelTexts s m) := by
  have hlayout : Layout.modelFile = [.slot "staticType"].intercalate Layout.modelParts :=
    (List.intercalate_splitOn _).symm
  have hslot : (Piece.slot "staticType").fill (modelSlots (s.inDialect d) m) = d.staticType := by
    rw [Piece.fill, modelSlots, Table.find?_ofList]
    rfl
  rw [← modelTexts_inDialect s d m, renderModel, hlayout, Template.fill_intercalate, hslot]
  rfl

/-- Without a type for static fields, a model is its texts joined. -/
theorem intercalate_empty (texts : List String) : "".intercalate texts = String.join texts := by
  induction texts with
  | nil => rfl
  | cons text texts ih =>
    cases texts with
    | nil => simp
    | cons text' texts => rw [String.intercalate_cons_cons, ih, String.join_cons]; simp

/-- Every text of a model but the last ends before the name of a static field. -/
theorem suffix_of_mem_modelTexts {m : ClassModel} {text : String}
    (h : text ∈ (modelTexts s m).dropLast) : "public static ".toList <:+ text.toList := by
  rw [modelTexts, ← List.map_dropLast] at h
  obtain ⟨part, hpart, rfl⟩ := List.mem_map.1 h
  obtain ⟨before, rfl⟩ := List.getLast?_eq_some_iff.1 (Layout.modelParts_end.2.1 part hpart)
  have hend : "public static ".toList <:+ "    public static ".toList := by decide
  have hlast : Template.fill (modelSlots s m) [.text "    public static "] =
      "    public static " := by
    simp [Template.fill, Piece.fill]
  rw [Template.fill_append, String.toList_append, hlast]
  exact hend.trans (List.suffix_append _ _)

/-! ## Plans and runs -/

namespace Plan

/-- The report does not tell the dialect: files are named for their classes. -/
theorem report_ofModels_inDialect (s : Settings) (d : Dialect) (v : Vocabulary)
    (models : List ClassModel) :
    (ofModels (s.inDialect d) v models).report = (ofModels s v models).report := by
  have hname (t : Settings) (m : ClassModel) : (modelFile t m).name = m.safeName ++ ".php" := rfl
  have hdeclarations (c : ClassDecl) : declarationsOf (s.inDialect d)
      ((v.selected (s.inDialect d)).fieldSet (s.inDialect d) c) =
    declarationsOf s ((v.selected s).fieldSet s c) := rfl
  have hclasses : (v.selected (s.inDialect d)).namespaced (s.inDialect d) =
    (v.selected s).namespaced s := rfl
  simp only [report, artifacts, ofModels, List.map_append, List.map_map, Function.comp_def, hname,
    hdeclarations, hclasses]

/-- The plans of a vocabulary in all dialects: the same cycle, or the same models. -/
theorem ofVocabulary_inDialect (s : Settings) (v : Vocabulary) :
    (∃ cycle, ∀ d, ofVocabulary (s.inDialect d) v = .error cycle) ∨
      ∃ models, List.Forall₂ (fun c m => (v.selected s).model s c = .ok m)
          ((v.selected s).namespaced s) models ∧
        ∀ d, ofVocabulary (s.inDialect d) v = .ok (ofModels (s.inDialect d) v models) := by
  -- Neither the classes shown nor their chains depend on the dialect.
  have hshown (d : Dialect) : chains ((v.selected (s.inDialect d)).hierarchy (s.inDialect d))
      ((v.selected (s.inDialect d)).namespaced (s.inDialect d)) =
    chains ((v.selected s).hierarchy s) ((v.selected s).namespaced s) := rfl
  rcases hchains : chains ((v.selected s).hierarchy s) ((v.selected s).namespaced s) with
    cycle | chained
  · refine .inl ⟨cycle, fun d => ?_⟩
    simp only [ofVocabulary, hshown, hchains]
  · exact .inr ⟨_, forall₂_model_of_chains hchains, fun d =>
      ofVocabulary_of_chains ((hshown d).trans hchains)⟩

end Plan

/-- Runs on a vocabulary in the two dialects, with sinks that refuse nothing. They end with the same
cycle and save nothing, or they give the same report and save the same files in the same order: the
same traits and interfaces, and then models of the same classes. The model of a class has the same
name in both, and its text is that of five texts, one after the other in the first dialect and with
`string ` between each two in the second. These are the five parts that the layout of a model has
between the types of its static fields, with their slots filled. Each of them but the last ends in
the `public static ` of the layout, and the layout has that nowhere else. -/
theorem generate_dialects {σ ε σ' ε' : Type} {sink : Sink σ ε} {sink' : Sink σ' ε'}
    (hsink : ∀ a st, (sink a st).1 = .ok ()) (hsink' : ∀ a st, (sink' a st).1 = .ok ())
    (s : Settings) (v : Vocabulary) (st : σ) (st' : σ') :
    ((∃ cycle,
        generate (s.inDialect .craft3) v sink st = (.error (.cycle cycle), st) ∧
        generate (s.inDialect .craft4) v sink' st' = (.error (.cycle cycle), st') ∧
        offers (s.inDialect .craft3) v sink st = [] ∧
        offers (s.inDialect .craft4) v sink' st' = []) ∨
      ∃ report next next' models,
        generate (s.inDialect .craft3) v sink st = (.ok report, next) ∧
        generate (s.inDialect .craft4) v sink' st' = (.ok report, next') ∧
        List.Forall₂ (fun c m => (v.selected s).model s c = .ok m) ((v.selected s).namespaced s)
          models ∧
        offers (s.inDialect .craft3) v sink st =
          ((v.selected s).namespaced s).flatMap
              (fun c => Plan.declarationsOf s ((v.selected s).fieldSet s c)) ++
            models.map (Plan.modelFile (s.inDialect .craft3)) ∧
        offers (s.inDialect .craft4) v sink' st' =
          ((v.selected s).namespaced s).flatMap
              (fun c => Plan.declarationsOf s ((v.selected s).fieldSet s c)) ++
            models.map (Plan.modelFile (s.inDialect .craft4))) ∧
    (∀ m : ClassModel,
      (Plan.modelFile (s.inDialect .craft3) m).name =
        (Plan.modelFile (s.inDialect .craft4) m).name ∧
      renderModel (s.inDialect .craft3) m = String.join (modelTexts s m) ∧
      renderModel (s.inDialect .craft4) m = "string ".intercalate (modelTexts s m) ∧
      (modelTexts s m).length = 5 ∧
      ∀ text ∈ (modelTexts s m).dropLast, "public static ".toList <:+ text.toList) ∧
    Layout.modelFile = [.slot "staticType"].intercalate Layout.modelParts ∧
    (∀ part ∈ Layout.modelParts.dropLast, part.getLast? = some (.text "    public static ")) ∧
    Layout.modelFile.source.toList.tails.countP ("public static ".toList.isPrefixOf ·) = 4 := by
  refine ⟨?runs, fun m => ⟨?name, ?bare, renderModel_eq_intercalate s .craft4 m, ?five,
    fun text => suffix_of_mem_modelTexts⟩, (List.intercalate_splitOn _).symm,
    Layout.modelParts_end.2.1, Layout.count_static_modelFile⟩
  case name => rw [Plan.modelFile, Plan.modelFile]
  case bare => rw [renderModel_eq_intercalate, ← intercalate_empty]; rfl
  case five => rw [modelTexts, List.length_map, Layout.modelParts_end.1]
  case runs =>
    obtain ⟨cycle, hplan⟩ | ⟨models, hmodels, hplan⟩ := Plan.ofVocabulary_inDialect s v
    · obtain ⟨hrun, hoffers⟩ := generate_of_plan_error (hplan .craft3) sink st
      obtain ⟨hrun', hoffers'⟩ := generate_of_plan_error (hplan .craft4) sink' st'
      exact .inl ⟨cycle, hrun, hrun', hoffers, hoffers'⟩
    · obtain ⟨hrun, hoffers⟩ := generate_of_takes (hplan .craft3)
        (Sink.takes_of_never_refuses hsink st _)
      obtain ⟨hrun', hoffers'⟩ := generate_of_takes (hplan .craft4)
        (Sink.takes_of_never_refuses hsink' st' _)
      rw [Plan.report_ofModels_inDialect] at hrun hrun'
      exact .inr ⟨_, _, _, models, hrun, hrun', hmodels, hoffers, hoffers'⟩

/-! ### A class that looks like a layout -/

/-- A class with the name of a static field, and with the slot for the type of one in its
comment. -/
def posingClass : ClassDecl where
  id := "schema:Posing"
  soleTag := some "rdfs:Class"
  name := "public static $schemaTypeName"
  description := "public static \x7b@staticType\x7d$schemaTypeName"
  rawDescription := "public static \x7b@staticType\x7d$schemaTypeName"
  superclasses := []
  superseded := false

/-- A vocabulary of one class that looks like a layout. -/
def posing : Vocabulary where
  classes := .ofList [("schema:Posing", posingClass)]
  attached := ∅
  members := ∅
  superseded := ∅

/-- What the class says of itself is in the model of both dialects, and only the static fields
differ. -/
theorem generate_dialects_posing : ∃ report shelf shelf' m,
    generate (ε := Empty) (Settings.inDialect {} .craft3) posing Shelf.sink ∅ =
      (.ok report, shelf) ∧
    generate (ε := Empty) (Settings.inDialect {} .craft4) posing Shelf.sink ∅ =
      (.ok report, shelf') ∧
    m.name = "public static $schemaTypeName" ∧
    offers (ε := Empty) (Settings.inDialect {} .craft3) posing Shelf.sink ∅ =
      Plan.declarationsOf {} (posing.fieldSet {} posingClass) ++
        [⟨"Schemapublic_static__schemaTypeName.php", String.join (modelTexts {} m)⟩] ∧
    offers (ε := Empty) (Settings.inDialect {} .craft4) posing Shelf.sink ∅ =
      Plan.declarationsOf {} (posing.fieldSet {} posingClass) ++
        [⟨"Schemapublic_static__schemaTypeName.php", "string ".intercalate (modelTexts {} m)⟩] := by
  have hshelf : ∀ (a : Artifact) (st : Shelf), (Shelf.sink (ε := Empty) a st).1 = .ok () :=
    fun _ _ => rfl
  have hclasses : (posing.selected {}).namespaced {} = [posingClass] := by decide +kernel
  have hparentless : ∀ c ∈ (posing.selected {}).namespaced {},
      ((posing.selected {}).hierarchy {}).parentsOf c.name = [] := by
    rw [hclasses]
    decide +kernel
  obtain ⟨hruns, htexts, -⟩ := generate_dialects hshelf hshelf {} posing ∅ ∅
  obtain ⟨cycle, hcycle, -⟩ | ⟨report, shelf, shelf', models, hrun, hrun', hmodels, hoffers,
    hoffers'⟩ := hruns
  · obtain ⟨report, shelf, hrun⟩ := exists_generate_of_parentless hparentless
    rw [show (Settings.inDialect {} .craft3) = {} from rfl, hrun] at hcycle
    cases hcycle
  · rw [hclasses] at hmodels hoffers hoffers'
    obtain ⟨m, rest, hm, hrest, rfl⟩ := List.forall₂_cons_left_iff.1 hmodels
    obtain rfl := List.forall₂_nil_left_iff.1 hrest
    obtain ⟨names, -, rfl⟩ := (Vocabulary.model_eq_ok_iff _ _ _ _).1 hm
    obtain ⟨-, hbare, htyped, -⟩ := htexts (.resolve {} posingClass (posingClass.name :: names)
      ((posing.selected {}).fieldSets {}))
    have hname (s : Settings) (m : ClassModel) :
        Plan.modelFile s m = ⟨m.safeName ++ ".php", renderModel s m⟩ := rfl
    rw [List.map_singleton, hname, hbare] at hoffers
    rw [List.map_singleton, hname, htyped] at hoffers'
    exact ⟨report, shelf, shelf', _, hrun, hrun', rfl, hoffers, hoffers'⟩

end VocabPhp
