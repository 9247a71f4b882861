import VocabPhp.Proofs.Inheritance
import VocabPhp.Proofs.Superseded

/-!
# Classes outside the namespace

A graph may declare classes of other vocabularies. Their labels may be those of classes of the
namespace and their parents may lie in it, but they are chosen by their identifiers before anything
is put under a label. So a run does not notice them, nor what is attached to them.

* `Vocabulary.AgreesIn`: two vocabularies say the same about the namespace.
* `Vocabulary.AgreesIn.namespaced_selected`, `Vocabulary.AgreesIn.propertiesOf?_selected`: then they
  show the same classes with the same properties, whether superseded resources are left out or not.
* `generate_ignores_foreign`: runs on them do the same.
-/

namespace VocabPhp

variable {ns : Namespace} {s : Settings} {v w : Vocabulary}

namespace Vocabulary

/-- Two vocabularies say the same about a namespace: they have the same classes with identifiers of
it, the same properties of such classes, and the same superseded resources. -/
structure AgreesIn (ns : Namespace) (v w : Vocabulary) : Prop where
  classes : v.classes.filter (fun _ c => ns.contains c.id) =
    w.classes.filter fun _ c => ns.contains c.id
  attached : v.attached.filter (fun id _ => ns.contains id) =
    w.attached.filter fun id _ => ns.contains id
  superseded : v.superseded = w.superseded

/-- The classes of the namespace are those of a part of the table. -/
theorem namespaced_eq_values (s : Settings) (v : Vocabulary) :
    v.namespaced s = (v.classes.filter fun _ c => s.vocabulary.contains c.id).values :=
  (Table.values_filter (fun c : ClassDecl => s.vocabulary.contains c.id) v.classes).symm

namespace AgreesIn

theorem find?_attached (h : v.AgreesIn ns w) {id : String} (hid : ns.contains id = true) :
    v.attached.find? id = w.attached.find? id := by
  have hfind (t : Table (Table PropertyDecl)) :
      (t.filter fun id _ => ns.contains id).find? id = t.find? id := by
    rw [Table.find?_filter, hid]
    cases t.find? id <;> rfl
  rw [← hfind, h.attached, hfind]

/-- To leave out superseded classes is to leave them out of each part of the table. -/
theorem withoutSuperseded (h : v.AgreesIn ns w) :
    v.withoutSuperseded.classes.filter (fun _ c => ns.contains c.id) =
      w.withoutSuperseded.classes.filter fun _ c => ns.contains c.id := by
  unfold Vocabulary.withoutSuperseded
  rw [Table.filter_comm, h.classes, h.superseded, Table.filter_comm]

/-- They show the same classes. -/
theorem namespaced_selected (h : v.AgreesIn s.vocabulary w) :
    (v.selected s).namespaced s = (w.selected s).namespaced s := by
  rw [namespaced_eq_values, namespaced_eq_values, selected, selected]
  split
  · rw [h.withoutSuperseded]
  · rw [h.classes]

/-- They show the same properties of the classes of the namespace. -/
theorem propertiesOf?_selected (h : v.AgreesIn s.vocabulary w) {id : String}
    (hid : s.vocabulary.contains id = true) :
    (v.selected s).propertiesOf? id = (w.selected s).propertiesOf? id := by
  unfold propertiesOf? selected
  split
  · rw [find?_attached_withoutSuperseded, find?_attached_withoutSuperseded, h.find?_attached hid,
      h.superseded]
  · exact h.find?_attached hid

end AgreesIn

end Vocabulary

/-- The plan does not depend on what lies outside the namespace. -/
theorem Plan.ofVocabulary_eq_of_agreesIn (h : v.AgreesIn s.vocabulary w) :
    ofVocabulary s v = ofVocabulary s w := by
  rw [ofVocabulary_eq_ofShown, ofVocabulary_eq_ofShown, h.superseded]
  refine ofShown_congr h.namespaced_selected (fun c hc => ?_) _
  exact h.propertiesOf?_selected ((Vocabulary.mem_namespaced_iff c).1 hc).2

/-- Vocabularies that say the same about the namespace may differ in all other classes, whatever
their labels and parents, in the properties of these and in the members of enumerations: runs with
the same settings offer the same files to a sink, in the same order, and end alike. -/
theorem generate_ignores_foreign (h : v.AgreesIn s.vocabulary w) {σ ε : Type} (sink : Sink σ ε)
    (st : σ) :
    generate s v sink st = generate s w sink st ∧ offers s v sink st = offers s w sink st :=
  generate_eq_of_plan_eq (Plan.ofVocabulary_eq_of_agreesIn h) sink st

/-! ### Works of another vocabulary -/

/-- To articles and works come classes of another vocabulary with their labels. The foreign work has
the greatest identifier of all works, calls itself an article and has a property. -/
def foreignWorks : Vocabulary where
  classes := (twoWorks.classes.insert "zoo:Article" (plainClass "zoo:Article" "Article" [])).insert
    "zoo:Work" (plainClass "zoo:Work" "Work" ["schema:Article"])
  attached := twoWorks.attached.insert "zoo:Work"
    (.ofList [("schema:cage", plainProperty "schema:cage" "cage" "zoo:Work")])
  members := .ofList [("schema:Work", ["zoo:Article"])]
  superseded := ∅

/-- If the foreign classes counted, works would be above articles and below them. They do not, and
the run is that on the other classes alone. -/
theorem generate_ignores_foreign_works :
    (foreignWorks.classes.values.map fun c => (c.name, Hierarchy.parentNames .schemaOrg c)) =
      [("Article", ["Work"]), ("Work", []), ("Work", []), ("Article", []), ("Work", ["Article"])] ∧
    foreignWorks.AgreesIn .schemaOrg twoWorks ∧ ∃ report shelf,
      generate (ε := Empty) {} twoWorks Shelf.sink ∅ = (.ok report, shelf) ∧
        generate (ε := Empty) {} foreignWorks Shelf.sink ∅ = (.ok report, shelf) := by
  have hagree : foreignWorks.AgreesIn .schemaOrg twoWorks := by
    constructor <;> decide +kernel
  obtain ⟨report, shelf, hrun⟩ : ∃ report shelf,
      generate (ε := Empty) {} twoWorks Shelf.sink ∅ = (.ok report, shelf) :=
    exists_generate_eq_ok (fun _ _ => rfl) exists_ancestors_twoWorks ∅
  refine ⟨by decide +kernel, hagree, report, shelf, hrun, ?_⟩
  rw [(generate_ignores_foreign hagree Shelf.sink ∅).1, hrun]

end VocabPhp
