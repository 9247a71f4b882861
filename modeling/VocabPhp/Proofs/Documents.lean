import VocabPhp.Vocabulary.Document
import VocabPhp.Proofs.Reading
import VocabPhp.Proofs.Table
import VocabPhp.Proofs.Run

/-!
# A document's text and its value

The nodes of a document are read off its text, or found in the value that the text is read as. The
value does not show which names the text repeats, and a value is no document if it is an array.

* `Json.membersOfText`: the members of an object in the order of its text, with all repetitions.
* `Json.Reader.Decodes`: a reader of fields takes the values that a function of values takes.
* `Document.nodesOfText_eq_ok_iff`: when nodes are read off a text.
* `Vocabulary.ofText_agrees_iff`: when a text and its value have the same vocabulary.
-/

namespace VocabPhp

namespace Json

namespace Reader

variable {α : Type} {cs q r : List Char} {depth : Nat} {v : Json}

theorem whole_eq_ok_iff {read : Reader α} {text : String} {a : α} :
    whole read text = .ok a ↔ ∃ r, Reads (read text.toList) a r ∧ skipBlanks r = [] := by
  unfold whole
  split
  · next h => simp [h]
  · next h =>
    simp only [h, reads_ok_iff, and_assoc, exists_and_left, exists_eq_left']
    split
    · next hrest => simp [hrest]
    · next hrest => simp [hrest]

/-- Reads the members of an object, in the order of the text and with all repetitions. -/
def memberList (depth : Nat) : Reader (List (String × Json)) := fun cs =>
  match h : skipBlanks cs with
  | '\x7b' :: r =>
    match foldMembers .keep
        (fun ms name => .ok ((value .keep depth).map fun v => ms ++ [(name, v)])) [] r with
    | .error f => .error f
    | .ok (members, r') => .ok (members, ⟨r'.1, Nat.lt_trans r'.2 (length_lt_of_skipBlanks h)⟩)
  | _ => .error (shapeFault cs)

theorem reads_memberList_iff {members : List (String × Json)} :
    Reads (memberList depth cs) members r ↔
      ∃ q, skipBlanks cs = '\x7b' :: q ∧ Entries .keep (value .keep depth) q members r := by
  have hfold (q : List Char) : Reads (foldMembers .keep (fun ms name =>
      .ok ((value .keep depth).map fun v => ms ++ [(name, v)])) [] q) members r ↔
        Entries .keep (value .keep depth) q members r := by
    rw [reads_foldMembers_iff (f := fun name v ms => ms ++ [(name, v)])]
    simp [← List.flatMap_def]
  simp only [← hfold]
  unfold memberList
  split
  · next h =>
    simp only [h, List.cons.injEq, true_and, exists_eq_left']
    split
    · next hmembers => simp [hmembers]
    · next hmembers => simp [hmembers]
  · next h =>
    simp only [not_reads_error, false_iff]
    rintro ⟨q, hq, -⟩
    exact h q hq

/-! ## Records of one field -/

theorem reads_fieldByPosition_iff {field : Reader α} {a : Option α} :
    Reads (fieldByPosition field cs) a r ↔ skipBlanks cs = ']' :: r ∧ a = none ∨
      ∃ c q b p, skipBlanks cs = c :: q ∧ c ≠ ']' ∧ Reads (field (c :: q)) b p ∧
        skipBlanks p = ']' :: r ∧ a = some b := by
  unfold fieldByPosition
  split
  · next h => simp [h]
  · next h =>
    simp only [h, List.cons.injEq, and_assoc, exists_and_left, exists_eq_left']
    split
    · next hclose => simp [hclose, and_comm, eq_comm]
    · next hclose =>
      split
      · next hfield => simp [hclose, hfield]
      · next hfield =>
        simp only [hclose, hfield, reads_ok_iff, and_assoc, exists_and_left, exists_eq_left']
        split
        · next hnext => simp [hnext]
        · next hnext =>
          split
          · next hend => simp [hclose, hnext, hend, and_comm, eq_comm]
          · next hend => simp [hnext, hend]

theorem reads_oneField_array_iff {name : String} {field : Reader α} {a : Option α}
    (h : skipBlanks cs = '[' :: q) :
    Reads (oneField name field cs) a r ↔ Reads (fieldByPosition field q) a r := by
  unfold oneField
  split
  · next h' => simp [h] at h'
  · next h' =>
    obtain ⟨rfl, rfl⟩ := List.cons.inj (h.symm.trans h')
    simp only [if_pos]
    split
    · next hread => simp [hread]
    · next hread => simp [hread]

theorem reads_oneField_object_iff {name : String} {field : Reader α} {a : Option α}
    (h : skipBlanks cs = '\x7b' :: q) :
    Reads (oneField name field cs) a r ↔ Reads (fieldByName name field q) a r := by
  unfold oneField
  split
  · next h' => simp [h] at h'
  · next h' =>
    obtain ⟨rfl, rfl⟩ := List.cons.inj (h.symm.trans h')
    simp only [if_neg (show ¬ '\x7b' = '[' by decide), if_pos]
    split
    · next hread => simp [hread]
    · next hread => simp [hread]

theorem not_reads_oneField {name : String} {field : Reader α} {a : Option α}
    (harray : ∀ q, skipBlanks cs ≠ '[' :: q) (hobject : ∀ q, skipBlanks cs ≠ '\x7b' :: q) :
    ¬ Reads (oneField name field cs) a r := by
  unfold oneField
  split
  · simp
  · next c q h =>
    have hc : c ≠ '[' := fun hc => harray q (hc ▸ h)
    have hc' : c ≠ '\x7b' := fun hc => hobject q (hc ▸ h)
    simp [hc, hc']

theorem reads_arrayOf_iff {item : Reader α} {as : List α} :
    Reads (arrayOf item cs) as r ↔
      ∃ q, skipBlanks cs = '[' :: q ∧ Reads (elements item q) as r := by
  unfold arrayOf
  split
  · next h => simp [h]
  · next h =>
    simp only [h, List.cons.injEq, and_assoc, exists_and_left, exists_eq_left']
    split
    · next hopen =>
      split
      · next hitems => simp [hitems]
      · next hitems => simp [hopen, hitems]
    · next hopen => simp [hopen]

theorem reads_word_iff {chars : List Char} {a b : α} :
    Reads (word chars a cs) b r ↔ a = b ∧ ∃ h, expect chars cs = .ok ⟨r, h⟩ := by
  unfold word
  cases h : expect chars cs with
  | error f => simp
  | ok q =>
    obtain ⟨q, hq⟩ := q
    simp only [reads_ok_iff, Except.ok.injEq, Subtype.mk.injEq]
    constructor
    · rintro ⟨rfl, rfl⟩
      exact ⟨rfl, hq, rfl⟩
    · rintro ⟨rfl, -, rfl⟩
      exact ⟨rfl, rfl⟩

theorem reads_nullOr_null_iff {read : Reader α} {a : Option α} (h : skipBlanks cs = 'n' :: q) :
    Reads (nullOr read cs) a r ↔ Reads (word ['u', 'l', 'l'] none q) a r := by
  unfold nullOr
  split
  · next h' =>
    obtain ⟨-, rfl⟩ := List.cons.inj (h.symm.trans h')
    split
    · next hword => simp [hword]
    · next hword => simp [hword]
  · next h' => exact absurd h (h' q)

theorem reads_nullOr_iff {read : Reader α} {a : Option α} (h : ∀ q, skipBlanks cs ≠ 'n' :: q) :
    Reads (nullOr read cs) a r ↔ ∃ b, Reads (read cs) b r ∧ some b = a := by
  unfold nullOr
  split
  · next h' => exact absurd h' (h _)
  · exact reads_map_iff

/-- The first character of a scalar tells whether it is null. -/
theorem shape_of_scalarFrom {use : Use} {c : Char} (h : Reads (scalarFrom use c cs) v r) :
    (v = .null ↔ c = 'n') ∧ v.array? = none ∧ v.object? = none := by
  by_cases hquote : c = '"'
  · subst hquote
    obtain ⟨s, -, rfl⟩ := reads_scalarFrom_quote_iff.1 h
    simp [array?, object?]
  by_cases hminus : c = '-'
  · subst hminus
    obtain ⟨n, -, rfl⟩ := reads_scalarFrom_minus_iff.1 h
    simp [array?, object?]
  simp only [scalarFrom, if_neg hquote, if_neg hminus] at h
  split at h
  · next hn =>
    obtain ⟨rfl, -⟩ := reads_word_iff.1 h
    simp [hn, array?, object?]
  · next hn =>
    split at h
    · obtain ⟨rfl, -⟩ := reads_word_iff.1 h
      simp [hn, array?, object?]
    · split at h
      · obtain ⟨rfl, -⟩ := reads_word_iff.1 h
        simp [hn, array?, object?]
      · simp at h

/-- The first character of a value tells whether it is null, an array or an object. -/
theorem shape_of_value {use : Use} {c : Char} (h : Reads (value use depth cs) v r)
    (hcs : skipBlanks cs = c :: q) :
    (v = .null ↔ c = 'n') ∧ (c ≠ '[' → v.array? = none) ∧ (c ≠ '\x7b' → v.object? = none) := by
  by_cases harray : c = '['
  · subst harray
    obtain ⟨d, vs, -, -, rfl⟩ := (reads_value_array_iff hcs).1 h
    simp [object?]
  by_cases hobject : c = '\x7b'
  · subst hobject
    obtain ⟨d, as, -, -, rfl⟩ := (reads_value_object_iff hcs).1 h
    simp [array?]
  by_cases hdigit : c.isDigit
  · obtain ⟨n, -, rfl⟩ := (reads_value_digit_iff hcs hdigit).1 h
    have hn : c ≠ 'n' := by
      rintro rfl
      simp at hdigit
    simp [hn, array?, object?]
  · have hscalar := (reads_value_scalar_iff hcs harray hobject hdigit).1 h
    obtain ⟨hnull, harray', hobject'⟩ := shape_of_scalarFrom hscalar
    exact ⟨hnull, fun _ => harray', fun _ => hobject'⟩

/-- A reader of fields reads exactly the values that `decode` takes, up to their ends. -/
def Decodes (depth : Nat) (field : Reader α) (decode : Json → Option α) : Prop :=
  ∀ ⦃cs v r⦄, Reads (value .keep depth cs) v r →
    ∀ a r', Reads (field cs) a r' ↔ decode v = some a ∧ r' = r

/-- The items of an array, if it is not null. -/
def itemsOrNull : Json → Option (Option (List Json))
  | .null => some none
  | .array items => some (some items)
  | _ => none

theorem decodes_itemsOrNull (depth : Nat) :
    Decodes (depth + 1) (nullOr (arrayOf (value .keep depth))) itemsOrNull := by
  intro cs v r h a r'
  cases hcs : skipBlanks cs with
  | nil => exact absurd h (not_reads_value_of_blank hcs)
  | cons c q =>
    obtain ⟨hnull, harray, -⟩ := shape_of_value h hcs
    by_cases hn : c = 'n'
    · obtain rfl := hnull.2 hn
      subst hn
      have hscalar := (reads_value_scalar_iff hcs (by decide) (by decide) (by decide)).1 h
      obtain ⟨-, hle, hword⟩ := reads_word_iff.1 hscalar
      rw [reads_nullOr_null_iff hcs, reads_word_iff, hword]
      constructor
      · rintro ⟨rfl, hle', heq⟩
        exact ⟨rfl, by simpa [eq_comm] using heq⟩
      · rintro ⟨heq, rfl⟩
        exact ⟨by simpa [itemsOrNull] using heq, hle, rfl⟩
    rw [reads_nullOr_iff (by simp [hcs, hn])]
    by_cases hopen : c = '['
    · subst hopen
      obtain ⟨d, vs, ⟨⟩, hitems, rfl⟩ := (reads_value_array_iff hcs).1 h
      constructor
      · rintro ⟨vs', hread, rfl⟩
        obtain ⟨q', hq', hitems'⟩ := reads_arrayOf_iff.1 hread
        obtain ⟨-, rfl⟩ := List.cons.inj (hcs.symm.trans hq')
        obtain ⟨rfl, rfl⟩ := hitems.unique hitems'
        exact ⟨rfl, rfl⟩
      · rintro ⟨heq, rfl⟩
        exact ⟨vs, reads_arrayOf_iff.2 ⟨q, hcs, hitems⟩, by simpa [itemsOrNull] using heq⟩
    · have hnone : itemsOrNull v = none := by
        cases v <;> simp_all [itemsOrNull, array?]
      simp [reads_arrayOf_iff, hcs, hopen, hnone]

/-- A record in the form of an array holds the field as its only element. -/
theorem reads_fieldByPosition_some_iff {field : Reader α} {decode : Json → Option α}
    {vs : List Json} (hfield : Decodes depth field decode)
    (h : Reads (elements (value .keep depth) cs) vs r) (a : α) (r' : List Char) :
    Reads (fieldByPosition field cs) (some a) r' ↔
      ∃ v, vs = [v] ∧ decode v = some a ∧ r' = r := by
  rw [reads_fieldByPosition_iff]
  obtain ⟨hclose, rfl⟩ | ⟨c, q, hopen, hne, hitems⟩ := reads_elements_iff.1 h
  · simp [hclose]
  · simp only [hopen, List.cons.injEq, and_assoc, exists_and_left, exists_eq_left']
    cases hitems with
    | @last _ v p _ head closes =>
      constructor
      · rintro (⟨hc, -⟩ | ⟨-, b, p', hread, hclose, hb⟩)
        · exact absurd hc hne
        · obtain ⟨hdecode, rfl⟩ := (hfield head b p').1 hread
          obtain rfl : a = b := Option.some.inj hb
          obtain ⟨-, rfl⟩ := List.cons.inj (closes.symm.trans hclose)
          exact ⟨v, rfl, hdecode, rfl⟩
      · rintro ⟨w, hw, hdecode, rfl⟩
        obtain rfl : v = w := List.singleton_inj.1 hw
        exact .inr ⟨hne, a, p, (hfield head a p).2 ⟨hdecode, rfl⟩, closes, rfl⟩
    | more head comma next opens tail =>
      constructor
      · rintro (⟨hc, -⟩ | ⟨-, b, p', hread, hclose, -⟩)
        · exact absurd hc hne
        · obtain ⟨-, rfl⟩ := (hfield head b p').1 hread
          simp [comma] at hclose
      · rintro ⟨w, hw, -⟩
        obtain ⟨-, rfl⟩ := List.cons.inj hw
        cases tail

/-- What a record of one field makes of a member: it keeps the field's value, once. -/
def takeField (name : String) (decode : Json → Option α) (found : Option α)
    (member : String × Json) : Option (Option α) :=
  if member.1 = name then
    match found with
    | some _ => none
    | none => (decode member.2).map some
  else some found

theorem reads_fieldByName_iff {field : Reader α} {decode : Json → Option α}
    {members : List (String × Json)} (hfield : Decodes depth field decode)
    (h : Entries .keep (value .keep depth) cs members r) (name : String) (a : Option α)
    (r' : List Char) :
    Reads (fieldByName name field cs) a r' ↔
      members.foldlM (takeField name decode) none = some a ∧ r' = r := by
  unfold fieldByName
  refine h.reads_iff (fun found key q v q' hv t p => ?_) none a r'
  unfold takeField
  by_cases hkey : key = name
  · cases found with
    | some b => simp [hkey]
    | none =>
      simp only [if_pos hkey, Except.ok.injEq, exists_eq_left', reads_map_iff, hfield hv,
        Option.map_eq_some_iff]
      constructor
      · rintro ⟨b, ⟨hb, rfl⟩, rfl⟩
        exact ⟨⟨b, hb, rfl⟩, rfl⟩
      · rintro ⟨⟨b, hb, rfl⟩, rfl⟩
        exact ⟨b, ⟨hb, rfl⟩, rfl⟩
  · have hskip := reads_skipValue hv
    simp only [if_neg hkey, Except.ok.injEq, exists_eq_left', reads_map_iff, Option.some.injEq]
    constructor
    · rintro ⟨_, hread, rfl⟩
      exact ⟨rfl, (hread.unique hskip).2⟩
    · rintro ⟨rfl, rfl⟩
      exact ⟨(), hskip, rfl⟩

theorem foldlM_takeField_some_iff {name : String} {decode : Json → Option α}
    {members : List (String × Json)} {a b : α} :
    members.foldlM (takeField name decode) (some b) = some (some a) ↔
      members.filter (·.1 = name) = [] ∧ b = a := by
  induction members with
  | nil => simp
  | cons m members ih =>
    rw [List.foldlM_cons]
    by_cases hname : m.1 = name
    · simp [takeField, hname]
    · simp [takeField, hname, ih]

/-- A record takes the field from the only member with its name. -/
theorem foldlM_takeField_eq_some_iff {name : String} {decode : Json → Option α}
    {members : List (String × Json)} {a : α} :
    members.foldlM (takeField name decode) none = some (some a) ↔
      ∃ v, members.filter (·.1 = name) = [(name, v)] ∧ decode v = some a := by
  induction members with
  | nil => simp
  | cons m members ih =>
    obtain ⟨name', v⟩ := m
    rw [List.foldlM_cons]
    by_cases hname : name' = name
    · subst hname
      have hstep : takeField name' decode none (name', v) = (decode v).map some := by
        simp [takeField]
      rw [hstep, List.filter_cons_of_pos (by simp)]
      simp only [List.cons.injEq, Prod.mk.injEq, true_and, and_assoc, exists_eq_left']
      cases hv : decode v with
      | none => simp
      | some b => simpa using foldlM_takeField_some_iff
    · simp [takeField, hname, ih]

end Reader

/-- The members of an object, in the order of its text and with all repetitions. -/
def membersOfText (text : String) : Except Fault (List (String × Json)) :=
  Reader.whole (Reader.memberList (maxDepth - 1)) text

theorem membersOfText_eq_ok_iff {text : String} {members : List (String × Json)} :
    membersOfText text = .ok members ↔ ∃ q r, Reader.skipBlanks text.toList = '\x7b' :: q ∧
      Reader.Entries .keep (Reader.value .keep (maxDepth - 1)) q members r ∧
      Reader.skipBlanks r = [] := by
  unfold membersOfText
  simp only [Reader.whole_eq_ok_iff, Reader.reads_memberList_iff]
  constructor
  · rintro ⟨r, ⟨q, hopen, hmembers⟩, hrest⟩
    exact ⟨q, r, hopen, hmembers, hrest⟩
  · rintro ⟨q, r, hopen, hmembers, hrest⟩
    exact ⟨r, ⟨q, hopen, hmembers⟩, hrest⟩

/-- Of members with one name, the last stays in the value of a text. -/
theorem ofText_eq_object_iff {text : String} {entries : List (String × Json)} :
    ofText text = .ok (.object entries) ↔
      ∃ members, membersOfText text = .ok members ∧ (Table.ofList members).entries = entries := by
  simp only [ofText, Reader.whole_eq_ok_iff, membersOfText_eq_ok_iff, Table.entries_ofList]
  constructor
  · rintro ⟨r, hread, hrest⟩
    cases hcs : Reader.skipBlanks text.toList with
    | nil => exact absurd hread (Reader.not_reads_value_of_blank hcs)
    | cons c q =>
      obtain ⟨-, -, hobject⟩ := Reader.shape_of_value hread hcs
      obtain rfl : c = '\x7b' := Decidable.of_not_not fun hc => by
        simpa [object?] using hobject hc
      obtain ⟨d, members, ⟨⟩, hmembers, heq⟩ := (Reader.reads_value_object_iff hcs).1 hread
      exact ⟨members, ⟨q, r, rfl, hmembers, hrest⟩, (Json.object.inj heq).symm⟩
  · rintro ⟨members, ⟨q, r, hopen, hmembers, hrest⟩, rfl⟩
    exact ⟨r, (Reader.reads_value_object_iff hopen).2 ⟨maxDepth - 1, members, rfl, hmembers, rfl⟩,
      hrest⟩

end Json

namespace Document

open Json

/-- The text of a document names its graph, and does not repeat the name. -/
def NamesGraphOnce (text : String) : Prop :=
  ∃ members, membersOfText text = .ok members ∧ (members.map Prod.fst).count "@graph" = 1

/-- The nodes of an object are those of its last graph. A text must have no other one. -/
theorem nodes?_and_once_iff {members : List (String × Json)} {nodes : List Json} :
    nodes? (.object (Table.ofList members).entries) = some nodes ∧
        (members.map Prod.fst).count "@graph" = 1 ↔
      ∃ v, members.filter (·.1 = "@graph") = [("@graph", v)] ∧
        Reader.itemsOrNull v = some (some nodes) := by
  have hnodes {v : Json} (h : members.filter (·.1 = "@graph") = [("@graph", v)]) :
      nodes? (.object (Table.ofList members).entries) = v.array? := by
    have hfind := Table.find?_ofList_of_filter h
    rw [Table.find?, ← Table.lookup_eq_findIn] at hfind
    simp [nodes?, field?, object?, hfind]
  have hcount : (members.map Prod.fst).count "@graph" =
      (members.filter (·.1 = "@graph")).length := by
    rw [List.count, List.countP_map, List.countP_eq_length_filter]
    rfl
  have hitems {v : Json} : v.array? = some nodes ↔ Reader.itemsOrNull v = some (some nodes) := by
    cases v <;> simp [array?, Reader.itemsOrNull]
  constructor
  · rintro ⟨hsome, honce⟩
    rw [hcount, List.length_eq_one_iff] at honce
    obtain ⟨⟨name, v⟩, hm⟩ := honce
    obtain rfl : name = "@graph" := by
      have := List.mem_filter.1 (hm ▸ List.mem_singleton_self _)
      simpa using this.2
    rw [hnodes hm, hitems] at hsome
    exact ⟨v, hm, hsome⟩
  · rintro ⟨v, hm, hv⟩
    refine ⟨(hnodes hm).trans (hitems.2 hv), ?_⟩
    rw [hcount, hm]
    rfl

/-! ### The shapes of a text -/

section Shapes

variable {text : String} {v : Json} {nodes : List Json} {q r : List Char}

theorem nodesOfText_eq_ok_iff_reads : nodesOfText text = .ok nodes ↔
    ∃ r, Reader.Reads (Reader.oneField "@graph" (Reader.nullOr nodeList) text.toList)
      (some (some nodes)) r ∧ Reader.skipBlanks r = [] := by
  rw [← Reader.whole_eq_ok_iff]
  unfold nodesOfText
  split
  · next h => simp [h]
  · next h => simp [h]
  · next x hne h =>
    simp only [reduceCtorEq, false_iff, h, Except.ok.injEq]
    exact hne nodes

/-- An object has the nodes of its value if it names its graph once, and else none. -/
theorem nodesOfText_object_iff (hcs : Reader.skipBlanks text.toList = '\x7b' :: q)
    (hread : Reader.Reads (Reader.value .keep maxDepth text.toList) v r)
    (hrest : Reader.skipBlanks r = []) :
    nodesOfText text = .ok nodes ↔ nodes? v = some nodes ∧ NamesGraphOnce text := by
  obtain ⟨d, members, ⟨⟩, hentries, rfl⟩ := (Reader.reads_value_object_iff hcs).1 hread
  have hmembers := membersOfText_eq_ok_iff.2 ⟨q, r, hcs, hentries, hrest⟩
  have honce : NamesGraphOnce text ↔ (members.map Prod.fst).count "@graph" = 1 := by
    simp [NamesGraphOnce, hmembers]
  have hfield := Reader.reads_fieldByName_iff (Reader.decodes_itemsOrNull (maxDepth - 2)) hentries
    "@graph" (some (some nodes))
  rw [← Table.entries_ofList, honce, nodes?_and_once_iff, ← Reader.foldlM_takeField_eq_some_iff,
    nodesOfText_eq_ok_iff_reads]
  simp only [Reader.reads_oneField_object_iff hcs]
  constructor
  · rintro ⟨r', h, -⟩
    exact ((hfield r').1 h).1
  · intro h
    exact ⟨r, (hfield r).2 ⟨h, rfl⟩, hrest⟩

/-- An array has the nodes of its only element. -/
theorem nodesOfText_array_iff (hcs : Reader.skipBlanks text.toList = '[' :: q)
    (hread : Reader.Reads (Reader.value .keep maxDepth text.toList) v r)
    (hrest : Reader.skipBlanks r = []) :
    nodesOfText text = .ok nodes ↔ v = .array [.array nodes] := by
  obtain ⟨d, vs, ⟨⟩, hitems, rfl⟩ := (Reader.reads_value_array_iff hcs).1 hread
  have hitem {w : Json} : Reader.itemsOrNull w = some (some nodes) ↔ w = .array nodes := by
    cases w <;> simp [Reader.itemsOrNull]
  have hfield := Reader.reads_fieldByPosition_some_iff (Reader.decodes_itemsOrNull (maxDepth - 2))
    hitems (some nodes)
  simp only [hitem] at hfield
  rw [nodesOfText_eq_ok_iff_reads, array.injEq]
  simp only [Reader.reads_oneField_array_iff hcs]
  constructor
  · rintro ⟨r', h, -⟩
    obtain ⟨w, rfl, rfl, -⟩ := (hfield r').1 h
    rfl
  · rintro rfl
    exact ⟨r, (hfield r).2 ⟨_, rfl, rfl, rfl⟩, hrest⟩

/-- Any other text has no nodes. -/
theorem nodesOfText_ne_ok (harray : ∀ q, Reader.skipBlanks text.toList ≠ '[' :: q)
    (hobject : ∀ q, Reader.skipBlanks text.toList ≠ '\x7b' :: q) :
    nodesOfText text ≠ .ok nodes := by
  rw [ne_eq, nodesOfText_eq_ok_iff_reads]
  rintro ⟨r, h, -⟩
  exact Reader.not_reads_oneField harray hobject h

end Shapes

/-- The nodes of a text whose value is `v`. -/
theorem nodesOfText_eq_ok_iff {text : String} {v : Json} (hv : ofText text = .ok v)
    (nodes : List Json) : nodesOfText text = .ok nodes ↔
      nodes? v = some nodes ∧ NamesGraphOnce text ∨ v = .array [.array nodes] := by
  obtain ⟨r, hread, hrest⟩ := Reader.whole_eq_ok_iff.1 hv
  cases hcs : Reader.skipBlanks text.toList with
  | nil => exact absurd hread (Reader.not_reads_value_of_blank hcs)
  | cons c q =>
    obtain ⟨-, hnoArray, hnoObject⟩ := Reader.shape_of_value hread hcs
    have hne (h : c ≠ '[') : v ≠ .array [.array nodes] := by
      rintro rfl
      simpa [array?] using hnoArray h
    have hnone (h : c ≠ '\x7b') : nodes? v = none := by
      simp [nodes?, field?, hnoObject h]
    by_cases hobject : c = '\x7b'
    · subst hobject
      rw [nodesOfText_object_iff hcs hread hrest]
      simp [hne (by decide)]
    by_cases harray : c = '['
    · subst harray
      rw [nodesOfText_array_iff hcs hread hrest]
      simp [hnone (by decide)]
    · have hneither : nodesOfText text ≠ .ok nodes :=
        nodesOfText_ne_ok (by simp [hcs, harray]) (by simp [hcs, hobject])
      simp [hneither, hne harray, hnone hobject]

end Document

namespace Vocabulary

open Json Document

variable {ns : Namespace} {g : Vocabulary}

theorem ofDocument_eq_ok_iff (document : Json) :
    ofDocument ns document = .ok g ↔
      ∃ nodes, nodes? document = some nodes ∧ ofNodes ns nodes = .ok g := by
  unfold ofDocument
  split
  · next h => simp [h]
  · next h =>
    split
    · next hnodes => simp [h, hnodes]
    · next hnodes => simp [h, hnodes]

theorem ofText_eq_ok_iff_nodes (text : String) :
    ofText ns text = .ok g ↔
      ∃ nodes, nodesOfText text = .ok nodes ∧ ofNodes ns nodes = .ok g := by
  unfold ofText
  split
  · next h => simp [h]
  · next h =>
    split
    · next hnodes => simp [h, hnodes]
    · next hnodes => simp [h, hnodes]

/-- A value that is not an object has no vocabulary. -/
theorem ofDocument_ne_ok {document : Json} (h : document.object? = none) (g : Vocabulary) :
    ofDocument ns document ≠ .ok g := by
  rw [ne_eq, ofDocument_eq_ok_iff]
  simp [nodes?, field?, h]

theorem ofText_eq_ok_iff_ofDocument {text : String} {v : Json} (hv : Json.ofText text = .ok v)
    (g : Vocabulary) : ofText ns text = .ok g ↔ (ofDocument ns v = .ok g ∧ NamesGraphOnce text) ∨
      ∃ nodes, v = .array [.array nodes] ∧ ofNodes ns nodes = .ok g := by
  rw [ofText_eq_ok_iff_nodes, ofDocument_eq_ok_iff]
  simp only [nodesOfText_eq_ok_iff hv]
  constructor
  · rintro ⟨nodes, ⟨hnodes, honce⟩ | harray, hg⟩
    · exact .inl ⟨⟨nodes, hnodes, hg⟩, honce⟩
    · exact .inr ⟨nodes, harray, hg⟩
  · rintro (⟨⟨nodes, hnodes, hg⟩, honce⟩ | ⟨nodes, harray, hg⟩)
    · exact ⟨nodes, .inl ⟨hnodes, honce⟩, hg⟩
    · exact ⟨nodes, .inr harray, hg⟩

/-- A text has the vocabulary of its value, if it is an object that names its graph once. It also
has one if it is an array of one list of nodes, where its value has none. Apart from that the two
agree. -/
theorem ofText_agrees_iff (ns : Namespace) {text : String} {v : Json}
    (hv : Json.ofText text = .ok v) :
    (∀ entries, v = .object entries → ∃ members,
      Json.membersOfText text = .ok members ∧ (Table.ofList members).entries = entries) ∧
    (∀ g, ofText ns text = .ok g ↔
      (ofDocument ns v = .ok g ∧ NamesGraphOnce text) ∨
        ∃ nodes, v = .array [.array nodes] ∧ ofNodes ns nodes = .ok g) ∧
    (v.object? = none → ∀ g, ofDocument ns v ≠ .ok g) ∧
    ((∀ g, ofText ns text = .ok g ↔ ofDocument ns v = .ok g) ↔
      (∀ nodes g, v = .array [.array nodes] → ofNodes ns nodes ≠ .ok g) ∧
        ∀ g, ofDocument ns v = .ok g → NamesGraphOnce text) := by
  have htext (g : Vocabulary) : ofText ns text = .ok g ↔ _ := ofText_eq_ok_iff_ofDocument hv g
  refine ⟨fun entries h => ofText_eq_object_iff.1 (h ▸ hv), htext, ofDocument_ne_ok, ?_⟩
  constructor
  · intro hagree
    constructor
    · intro nodes g harray hg
      have hdocument := (hagree g).1 ((htext g).2 (.inr ⟨nodes, harray, hg⟩))
      exact ofDocument_ne_ok (by rw [harray]; rfl) g hdocument
    · intro g hg
      obtain ⟨-, honce⟩ | ⟨nodes, harray, -⟩ := (htext g).1 ((hagree g).2 hg)
      · exact honce
      · exact absurd hg (ofDocument_ne_ok (by rw [harray]; rfl) g)
  · rintro ⟨harray, honce⟩ g
    rw [htext]
    constructor
    · rintro (⟨hg, -⟩ | ⟨nodes, hv, hg⟩)
      · exact hg
      · exact absurd hg (harray nodes g hv)
    · intro hg
      exact .inl ⟨hg, honce g hg⟩

/-! ### A name beside the graph, and a second graph -/

/-- A document with a name and without nodes. -/
def namedText : String := "\x7b\"name\":null,\"@graph\":[]\x7d"

/-- A document with two graphs. -/
def repeatedText : String := "\x7b\"@graph\":[],\"@graph\":[]\x7d"

theorem ofText_agrees_named : ∃ v, Json.ofText namedText = .ok v ∧
    ∀ g, ofText .schemaOrg namedText = .ok g ↔ ofDocument .schemaOrg v = .ok g := by
  have honce : ((membersOfText namedText).toOption.map
      fun members => (members.map Prod.fst).count "@graph") = some 1 := by decide +kernel
  obtain ⟨members, hmembers, hcount⟩ := Option.map_eq_some_iff.1 honce
  have hmembers := eq_ok_of_toOption hmembers
  have hv := ofText_eq_object_iff.2 ⟨members, hmembers, rfl⟩
  refine ⟨_, hv, (ofText_agrees_iff .schemaOrg hv).2.2.2.2 ⟨?_, ?_⟩⟩
  · intro nodes g harray
    cases harray
  · intro g _
    exact ⟨members, hmembers, hcount⟩

/-- A list of nodes in place of a document: the text is accepted and its value is not. A graph that
is named twice: the text is not accepted and its value is. -/
theorem ofText_disagrees :
    (Json.ofText "[[]]" = .ok (.array [.array []]) ∧
      ofText .schemaOrg "[[]]" = .ok ⟨∅, ∅, ∅, ∅⟩ ∧
      ofDocument .schemaOrg (.array [.array []]) = .error (.document .missingGraph)) ∧
    ∃ v g, Json.ofText repeatedText = .ok v ∧
      ofText .schemaOrg repeatedText ≠ .ok g ∧
      ofDocument .schemaOrg v = .ok g := by
  refine ⟨⟨by with_unfolding_all rfl, by decide +kernel, rfl⟩, ?_⟩
  have hdocument : ((Json.ofText repeatedText).toOption.bind
      fun v => (ofDocument .schemaOrg v).toOption).isSome := by decide +kernel
  have htext : (ofText .schemaOrg repeatedText).toOption.isNone := by
    decide +kernel
  obtain ⟨g, hg⟩ := Option.isSome_iff_exists.1 hdocument
  obtain ⟨v, hv, hg⟩ := Option.bind_eq_some_iff.1 hg
  refine ⟨v, g, eq_ok_of_toOption hv, ?_, eq_ok_of_toOption hg⟩
  intro h
  rw [h] at htext
  cases htext

end Vocabulary

end VocabPhp
