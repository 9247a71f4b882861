import VocabPhp.Artifact.Render
import VocabPhp.Proofs.Literals
import VocabPhp.Proofs.Table

/-!
# What the methods of a model return

A model tells its fields by methods that return array literals. PHP reads these as the data that
they were written from, whatever the strings in them hold.

* `Returns`: a method of a model returns a value.
* `literals_read_back`: what literals are read as, and what the five methods return.
-/

namespace VocabPhp

/-- A template in which some text is no piece. -/
inductive Template.Lacks (text : List Char) : Template → Prop
  | nil : Lacks text []
  | text {s t} : (s == text) = false → Lacks text t → Lacks text (.text (String.ofList s) :: t)
  | slot {name t} : Lacks text t → Lacks text (.slot name :: t)

theorem Template.Lacks.not_mem {text : List Char} {t : Template} (h : t.Lacks text) :
    .text (String.ofList text) ∉ t := by
  induction h with
  | nil => exact List.not_mem_nil
  | text hne _ ih =>
    have hneq := ne_of_beq_false hne
    simpa [String.ofList_inj, hneq.symm] using ih
  | slot _ ih => simpa using ih

/-- The first line of a method. -/
def Layout.heading (method : String) : Piece :=
  .text ("    public function " ++ method ++ "(): array\n")

/-- The lines of a method, down to what it returns. -/
def Layout.opening (method : String) : Template :=
  [heading method, .text "    \x7b\n", .text "        return "]

/-- The layout of a model has one method of that name, which consists of a `return`, and what stands
after the `return` is read as a literal of the value, down to the semicolon. -/
def Returns (s : Settings) (m : ClassModel) (method : String) (value : Php.Value) : Prop :=
  ∃ before slot after body,
    Layout.modelFile = before ++ Layout.opening method ++
      (.slot slot :: .text ";\n" :: .text "    \x7d\n" :: after) ∧
    Layout.heading method ∉ before ++ after ∧
    renderModel s m = Template.fill (modelSlots s m) (before ++ Layout.opening method) ++ body ∧
    ∀ v rest, Php.Reads .literal body.toList v rest ↔ v = value ∧
      rest = (";\n" ++ ("    \x7d\n" ++ Template.fill (modelSlots s m) after)).toList

/-- A method returns what the literal in its slot is read as. -/
theorem returns_of_slot {s : Settings} {m : ClassModel} {method slot : String} {value : Php.Value}
    {heading : List Char} (n : Nat) (l : Php.Literal)
    (hheading : Layout.heading method = .text (String.ofList heading))
    (hlayout : Layout.modelFile.drop n = Layout.opening method ++
      .slot slot :: .text ";\n" :: .text "    \x7d\n" :: Layout.modelFile.drop (n + 6))
    (hlacks : Template.Lacks heading (Layout.modelFile.take n ++ Layout.modelFile.drop (n + 6)))
    (hslot : (modelSlots s m).find? slot = some l.text) (hvalue : l.value = value) :
    Returns s m method value := by
  have hsplit : Layout.modelFile = Layout.modelFile.take n ++ Layout.opening method ++
      .slot slot :: .text ";\n" :: .text "    \x7d\n" :: Layout.modelFile.drop (n + 6) := by
    rw [List.append_assoc, ← hlayout, List.take_append_drop]
  refine ⟨_, slot, _, l.text ++ (";\n" ++ ("    \x7d\n" ++
    Template.fill (modelSlots s m) (Layout.modelFile.drop (n + 6)))), hsplit,
    hheading ▸ hlacks.not_mem, ?_, fun v rest => ?_⟩
  · have hfill : Piece.fill (modelSlots s m) (.slot slot) = l.text := by
      rw [Piece.fill, hslot, Option.getD_some]
    conv_lhs => rw [renderModel, hsplit, Template.fill_append, Template.fill_cons,
      Template.fill_cons, Template.fill_cons, hfill, Piece.fill, Piece.fill]
  · rw [String.toList_append, ← hvalue]
    exact l.reads_iff _ rest v

/-- What the methods of a model return. -/
theorem renderModel_returns (s : Settings) (m : ClassModel) :
    Returns s m "getSchemaPropertyNames" (.strings m.handles) ∧
    Returns s m "getSchemaPropertyExpectedTypes"
      (.array (m.fields.map fun f => (some f.handle, .strings f.ranges))) ∧
    Returns s m "getSchemaPropertyDescriptions"
      (.array (m.fields.map fun f => (some f.handle, .string f.description))) ∧
    Returns s m "getGoogleRequiredSchema" (.strings m.rules.required) ∧
    Returns s m "getGoogleRecommendedSchema" (.strings m.rules.recommended) := by
  refine ⟨?names, ?types, ?descriptions, ?required, ?recommended⟩
  case names =>
    have hheading : Layout.heading "getSchemaPropertyNames" =
      .text "    public function getSchemaPropertyNames(): array\n" := rfl
    refine returns_of_slot 79 (.list m.handles) hheading rfl ?_ ?_ rfl
    · repeat' constructor
    · simp [modelSlots, Table.find?_ofList, Php.Literal.list]
  case types =>
    have hheading : Layout.heading "getSchemaPropertyExpectedTypes" =
      .text "    public function getSchemaPropertyExpectedTypes(): array\n" := rfl
    refine returns_of_slot 89 (.map (m.fields.map fun f => (f.handle, .list f.ranges)) arrayIndent)
      hheading rfl ?_ ?_ ?_
    · repeat' constructor
    · simp [modelSlots, Table.find?_ofList, Php.Literal.map, Php.Literal.list, Function.comp_def]
    · simp [Php.Literal.map, Php.Literal.list, Function.comp_def]
  case descriptions =>
    have hheading : Layout.heading "getSchemaPropertyDescriptions" =
      .text "    public function getSchemaPropertyDescriptions(): array\n" := rfl
    refine returns_of_slot 99
      (.map (m.fields.map fun f => (f.handle, .quote f.description)) arrayIndent)
      hheading rfl ?_ ?_ ?_
    · repeat' constructor
    · simp [modelSlots, Table.find?_ofList, Php.Literal.map, Php.Literal.quote, Function.comp_def]
    · simp [Php.Literal.map, Php.Literal.quote, Function.comp_def]
  case required =>
    have hheading : Layout.heading "getGoogleRequiredSchema" =
      .text "    public function getGoogleRequiredSchema(): array\n" := rfl
    refine returns_of_slot 109 (.list m.rules.required) hheading rfl ?_ ?_ rfl
    · repeat' constructor
    · simp [modelSlots, Table.find?_ofList, Php.Literal.list]
  case recommended =>
    have hheading : Layout.heading "getGoogleRecommendedSchema" =
      .text "    public function getGoogleRecommendedSchema(): array\n" := rfl
    refine returns_of_slot 119 (.list m.rules.recommended) hheading rfl ?_ ?_ rfl
    · repeat' constructor
    · simp [modelSlots, Table.find?_ofList, Php.Literal.list]

/-- What literals are read as. A string is read back as itself, a list as its strings in their
order, and a map as its keys in their order, each with what its own literal is read as; each literal
ends at its own end, whatever follows it. So the methods of a model return the handles of its
fields, the ranges and the description of each field, and the fields that a search engine asks
for. -/
theorem literals_read_back :
    (∀ (text : String) (rest rest' : List Char) (v : Php.Value),
      Php.Reads .literal ((Php.quote text).toList ++ rest) v rest' ↔
        v = .string text ∧ rest' = rest) ∧
    (∀ (items : List String) (rest rest' : List Char) (v : Php.Value),
      Php.Reads .literal ((Php.list items).toList ++ rest) v rest' ↔
        v = .array (items.map fun text => (none, .string text)) ∧ rest' = rest) ∧
    (∀ (entries : List (String × Php.Literal)) (indent : Nat) (rest rest' : List Char)
        (v : Php.Value),
      Php.Reads .literal
          ((Php.map (entries.map fun e => (e.1, e.2.text)) indent).toList ++ rest) v rest' ↔
        v = .array (entries.map fun e => (some e.1, e.2.value)) ∧ rest' = rest) ∧
    ∀ (s : Settings) (m : ClassModel),
      Returns s m "getSchemaPropertyNames" (.strings m.handles) ∧
      Returns s m "getSchemaPropertyExpectedTypes"
        (.array (m.fields.map fun f => (some f.handle, .strings f.ranges))) ∧
      Returns s m "getSchemaPropertyDescriptions"
        (.array (m.fields.map fun f => (some f.handle, .string f.description))) ∧
      Returns s m "getGoogleRequiredSchema" (.strings m.rules.required) ∧
      Returns s m "getGoogleRecommendedSchema" (.strings m.rules.recommended) := by
  exact ⟨fun text => (Php.Literal.quote text).reads_iff,
    fun items => (Php.Literal.list items).reads_iff,
    fun entries indent => (Php.Literal.map entries indent).reads_iff,
    renderModel_returns⟩

end VocabPhp
