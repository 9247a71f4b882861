import VocabPhp.Php.Literal

/-!
# Reading PHP literals

The rule by which PHP reads string and array literals, and what the written literals are read as.

* `Reads`: a text begins with a literal of a value, and this is the text after it. White space
  before a token does not matter.
* `Reads.unique`: a text begins with at most one literal.
* `Literal`: a text that is read as a value whatever follows it.
* `Literal.quote`, `Literal.list`, `Literal.map`: the written literals of a string, a list and a map
  of literals are such texts.
-/

namespace VocabPhp.Php

/-! ## The rule -/

/-- What a literal denotes: a string, or an array, whose elements may have keys. -/
inductive Value
  | string (s : String)
  | array (elements : List (Option String × Value))

/-- The array of some strings, without keys. -/
def Value.strings (items : List String) : Value := .array (items.map fun s => (none, .string s))

/-- The tokens of literals. -/
inductive Token
  | opening
  | closing
  | comma
  | arrow
  | string (s : String)
  deriving DecidableEq, Repr

/-- White space between tokens. -/
def isSpace (c : Char) : Bool := c = ' ' || c = '\n' || c = '\r' || c = '\t'

/-- Reads a string whose opening quote has been read: its characters, and the text after its closing
quote. A backslash before a backslash or a quote denotes that character, and every other character
denotes itself. -/
def readQuoted : List Char → Option (List Char × List Char)
  | [] => none
  | '\'' :: cs => some ([], cs)
  | '\\' :: '\\' :: cs => (readQuoted cs).map fun r => ('\\' :: r.1, r.2)
  | '\\' :: '\'' :: cs => (readQuoted cs).map fun r => ('\'' :: r.1, r.2)
  | c :: cs => (readQuoted cs).map fun r => (c :: r.1, r.2)

/-- The first token of a text, and the text after it. -/
def token? (cs : List Char) : Option (Token × List Char) :=
  match cs.dropWhile isSpace with
  | '[' :: rest => some (.opening, rest)
  | ']' :: rest => some (.closing, rest)
  | ',' :: rest => some (.comma, rest)
  | '=' :: '>' :: rest => some (.arrow, rest)
  | '\'' :: rest => (readQuoted rest).map fun r => (.string (String.ofList r.1), r.2)
  | _ => none

/-- What a text begins with: a literal, the elements of an array with its closing bracket, or what
follows one of them. -/
inductive Part
  | literal
  | elements
  | more

/-- `Reads part cs v rest`: the text `cs` begins with that part of the literal of `v`, and `rest` is
the text after it. -/
inductive Reads : Part → List Char → Value → List Char → Prop
  | string {cs rest s} : token? cs = some (.string s, rest) → Reads .literal cs (.string s) rest
  | array {cs cs₁ rest v} : token? cs = some (.opening, cs₁) → Reads .elements cs₁ v rest →
      Reads .literal cs v rest
  | empty {cs rest} : token? cs = some (.closing, rest) → Reads .elements cs (.array []) rest
  | item {cs cs₁ rest v es} : Reads .literal cs v cs₁ → Reads .more cs₁ (.array es) rest →
      Reads .elements cs (.array ((none, v) :: es)) rest
  | entry {cs cs₁ cs₂ cs₃ rest k v es} : token? cs = some (.string k, cs₁) →
      token? cs₁ = some (.arrow, cs₂) → Reads .literal cs₂ v cs₃ →
      Reads .more cs₃ (.array es) rest → Reads .elements cs (.array ((some k, v) :: es)) rest
  | last {cs rest} : token? cs = some (.closing, rest) → Reads .more cs (.array []) rest
  | comma {cs cs₁ rest v} : token? cs = some (.comma, cs₁) → Reads .elements cs₁ v rest →
      Reads .more cs v rest

/-- A text begins with at most one token. -/
theorem token?_unique {cs rest rest' : List Char} {t t' : Token} (h : token? cs = some (t, rest))
    (h' : token? cs = some (t', rest')) : t = t' ∧ rest = rest' := by
  simpa [h] using h'

/-- A literal that begins with the token of a string ends with it. -/
theorem Reads.rest_eq_of_string {cs cs₁ rest : List Char} {v : Value} {k : String}
    (h : Reads .literal cs v rest) (hk : token? cs = some (.string k, cs₁)) : rest = cs₁ := by
  cases h with
  | string hs => exact (token?_unique hs hk).2
  | array ho _ => cases (token?_unique ho hk).1

/-- No literal begins with a closing bracket. -/
theorem Reads.literal_ne_closing {cs cs₁ rest : List Char} {v : Value}
    (h : Reads .literal cs v rest) : token? cs ≠ some (.closing, cs₁) := by
  intro hc
  cases h with
  | string hs => cases (token?_unique hs hc).1
  | array ho _ => cases (token?_unique ho hc).1

/-- What follows an element is a comma or the closing bracket. -/
theorem Reads.more_ne_arrow {cs cs₁ rest : List Char} {v : Value} (h : Reads .more cs v rest) :
    token? cs ≠ some (.arrow, cs₁) := by
  intro ha
  cases h with
  | last hc => cases (token?_unique hc ha).1
  | comma hc _ => cases (token?_unique hc ha).1

/-- A text begins with at most one literal. -/
theorem Reads.unique {part : Part} {cs rest rest' : List Char} {v v' : Value}
    (h : Reads part cs v rest) (h' : Reads part cs v' rest') : v = v' ∧ rest = rest' := by
  induction h generalizing v' rest' with
  | string hs =>
    cases h' with
    | string hs' =>
      obtain ⟨⟨rfl⟩, rfl⟩ := token?_unique hs hs'
      exact ⟨rfl, rfl⟩
    | array ho' _ => cases (token?_unique hs ho').1
  | array ho _ ih =>
    cases h' with
    | string hs' => cases (token?_unique ho hs').1
    | array ho' hes' =>
      obtain ⟨-, rfl⟩ := token?_unique ho ho'
      exact ih hes'
  | empty hc =>
    cases h' with
    | empty hc' => exact ⟨rfl, (token?_unique hc hc').2⟩
    | item hv' _ => exact absurd hc hv'.literal_ne_closing
    | entry hk' _ _ _ => cases (token?_unique hc hk').1
  | item hv hes ihv ihes =>
    cases h' with
    | empty hc' => exact absurd hc' hv.literal_ne_closing
    | item hv' hes' =>
      obtain ⟨rfl, rfl⟩ := ihv hv'
      simpa using ihes hes'
    | entry hk' ha' _ _ =>
      -- The string would be an element and a key at once: an arrow follows a key only.
      obtain rfl := hv.rest_eq_of_string hk'
      exact absurd ha' hes.more_ne_arrow
  | entry hk ha _ _ ihv ihes =>
    cases h' with
    | empty hc' => cases (token?_unique hk hc').1
    | item hv' hes' =>
      obtain rfl := hv'.rest_eq_of_string hk
      exact absurd ha hes'.more_ne_arrow
    | entry hk' ha' hv' hes' =>
      obtain ⟨⟨rfl⟩, rfl⟩ := token?_unique hk hk'
      obtain ⟨-, rfl⟩ := token?_unique ha ha'
      obtain ⟨rfl, rfl⟩ := ihv hv'
      simpa using ihes hes'
  | last hc =>
    cases h' with
    | last hc' => exact ⟨rfl, (token?_unique hc hc').2⟩
    | comma hc' _ => cases (token?_unique hc hc').1
  | comma hc _ ih =>
    cases h' with
    | last hc' => cases (token?_unique hc hc').1
    | comma hc' hes' =>
      obtain ⟨-, rfl⟩ := token?_unique hc hc'
      exact ih hes'

/-! ## Tokens -/

/-- A string between its quotes is read back, and the text after the closing quote is left. -/
theorem readQuoted_escape (cs rest : List Char) :
    readQuoted (cs.flatMap escape ++ '\'' :: rest) = some (cs, rest) := by
  induction cs with
  | nil => rfl
  | cons c cs ih =>
    by_cases hb : c = '\\'
    · subst hb
      simp [escape, readQuoted, ih]
    by_cases hq : c = '\''
    · subst hq
      simp [escape, readQuoted, ih]
    -- A character that is not escaped is neither of the two, so it begins no escape.
    rw [List.flatMap_cons, escape, if_neg (by simp [hb, hq]), List.singleton_append,
      List.cons_append, readQuoted]
    · simp [ih]
    · exact hq
    · exact fun _ h => absurd h hb
    · exact fun _ h => absurd h hb

@[simp] theorem token?_quote (s : String) (rest : List Char) :
    token? ((quote s).toList ++ rest) = some (.string s, rest) := by
  have hread := readQuoted_escape s.toList rest
  simp [token?, quote, quoteChars, isSpace, hread]

/-- White space before a token does not matter. -/
theorem token?_append_of_space {blanks : List Char} (h : ∀ c ∈ blanks, isSpace c = true)
    (cs : List Char) : token? (blanks ++ cs) = token? cs := by
  rw [token?, token?, List.dropWhile_append_of_pos h]

theorem isSpace_of_mem_replicate {n : Nat} {c : Char} (h : c ∈ List.replicate n ' ') :
    isSpace c = true := by
  obtain rfl := List.eq_of_mem_replicate h
  rfl

/-- What a text begins with is determined from its first token on. -/
theorem Reads.congr {part : Part} {cs cs' rest : List Char} {v : Value} (h : Reads part cs v rest)
    (htoken : token? cs' = token? cs) : Reads part cs' v rest := by
  induction h generalizing cs' with
  | string hs => exact .string (htoken.trans hs)
  | array ho hes _ => exact .array (htoken.trans ho) hes
  | empty hc => exact .empty (htoken.trans hc)
  | item _ hes ihv _ => exact .item (ihv htoken) hes
  | entry hk ha hv hes _ _ => exact .entry (htoken.trans hk) ha hv hes
  | last hc => exact .last (htoken.trans hc)
  | comma hc hes _ => exact .comma (htoken.trans hc) hes

/-! ## Elements -/

/-- A text that is read as an element of an array wherever more of the array follows. -/
def IsElement (text : List Char) (e : Option String × Value) : Prop :=
  ∀ es cs rest, Reads .more cs (.array es) rest →
    Reads .elements (text ++ cs) (.array (e :: es)) rest

/-- Elements with a comma and white space between each two are read in their order, up to the
closing bracket. -/
theorem reads_elements {ι : Type} {text : ι → List Char} {element : ι → Option String × Value}
    (h : ∀ i, IsElement (text i) (element i)) (blanks : List Char)
    (hblanks : ∀ c ∈ blanks, isSpace c = true) {cs rest : List Char}
    (hclose : token? cs = some (.closing, rest)) (items : List ι) :
    Reads .elements ((',' :: blanks).intercalate (items.map text) ++ cs)
      (.array (items.map element)) rest := by
  induction items with
  | nil => exact .empty hclose
  | cons i items ih =>
    cases items with
    | nil =>
      rw [List.map_singleton, List.map_singleton, List.intercalate_singleton]
      exact h i [] cs rest (.last hclose)
    | cons j items =>
      -- The comma and the white space after it lead to the elements that are left.
      have hcomma : ∀ more, token? ((',' :: blanks) ++ more) = some (.comma, blanks ++ more) :=
        fun more => rfl
      rw [List.map_cons, List.map_cons, List.map_cons, List.intercalate_cons_cons,
        List.append_assoc, List.append_assoc]
      exact h i _ _ rest (.comma (hcomma _) (ih.congr (token?_append_of_space hblanks _)))

/-! ## Literals -/

/-- A text that is read as a value whatever follows it. -/
structure Literal where
  text : String
  value : Value
  reads (rest : List Char) : Reads .literal (text.toList ++ rest) value rest

namespace Literal

/-- It is read as nothing else and ends at its own end. -/
theorem reads_iff (l : Literal) (rest rest' : List Char) (v : Value) :
    Reads .literal (l.text.toList ++ rest) v rest' ↔ v = l.value ∧ rest' = rest := by
  constructor
  · intro h
    exact h.unique (l.reads rest)
  · rintro ⟨rfl, rfl⟩
    exact l.reads rest'

/-- The literal of a string. -/
def quote (s : String) : Literal where
  text := Php.quote s
  value := .string s
  reads rest := .string (token?_quote s rest)

theorem isElement (l : Literal) : IsElement l.text.toList (none, l.value) :=
  fun _ _ _ hmore => .item (l.reads _) hmore

/-- An entry of a map is read as its key with the value of its literal. -/
theorem isElement_entry (l : Literal) (indent : Nat) (k : String) :
    IsElement (entry indent (k, l.text)).toList (some k, l.value) := by
  intro es cs rest hmore
  have hspaces : ∀ c ∈ List.replicate indent ' ', isSpace c = true :=
    fun c => isSpace_of_mem_replicate
  have hspace : ∀ c ∈ [' '], isSpace c = true := by simp [isSpace]
  have htext : (entry indent (k, l.text)).toList ++ cs = List.replicate indent ' ' ++
      ((Php.quote k).toList ++ ([' '] ++ '=' :: '>' :: ([' '] ++ (l.text.toList ++ cs)))) := by
    simp [entry, spaces]
  rw [htext]
  refine .entry ((token?_append_of_space hspaces _).trans (token?_quote k _))
    (token?_append_of_space hspace _) ?_ hmore
  exact (l.reads cs).congr (token?_append_of_space hspace _)

theorem reads_list (items : List String) (rest : List Char) :
    Reads .literal ((Php.list items).toList ++ rest) (.strings items) rest := by
  have hclose : token? (']' :: rest) = some (.closing, rest) := rfl
  have helements := reads_elements (fun s => (quote s).isElement) [' '] (by simp [isSpace])
    hclose items
  have htext : (Php.list items).toList ++ rest =
      '[' :: ([',', ' '].intercalate (items.map fun s => (quote s).text.toList) ++
        ']' :: rest) := by
    simp [Php.list, quote, String.toList_intercalate, Function.comp_def]
  rw [htext]
  exact .array rfl helements

/-- The literal of a list of strings. -/
def list (items : List String) : Literal where
  text := Php.list items
  value := .strings items
  reads := reads_list items

theorem reads_map (entries : List (String × Literal)) (indent : Nat) (rest : List Char) :
    Reads .literal ((Php.map (entries.map fun e => (e.1, e.2.text)) indent).toList ++ rest)
      (.array (entries.map fun e => (some e.1, e.2.value))) rest := by
  by_cases hnil : entries = []
  · have htext : (Php.map (entries.map fun e => (e.1, e.2.text)) indent).toList ++ rest =
        '[' :: ']' :: rest := by
      simp [Php.map, hnil]
    rw [htext, hnil]
    exact .array rfl (.empty rfl)
  · have hclose : token? ('\n' :: List.replicate indent ' ' ++ ']' :: rest) =
        some (.closing, rest) := by
      refine token?_append_of_space (fun c hc => ?_) (']' :: rest)
      rcases List.mem_cons.1 hc with rfl | hc
      · rfl
      · exact isSpace_of_mem_replicate hc
    have helements := reads_elements (fun e : String × Literal =>
      e.2.isElement_entry (indent + 4) e.1) ['\n'] (by simp [isSpace]) hclose entries
    have htext : (Php.map (entries.map fun e => (e.1, e.2.text)) indent).toList ++ rest =
        '[' :: '\n' :: ([',', '\n'].intercalate
          (entries.map fun e => (entry (indent + 4) (e.1, e.2.text)).toList) ++
            ('\n' :: List.replicate indent ' ' ++ ']' :: rest)) := by
      simp [Php.map, spaces, hnil, String.toList_intercalate, Function.comp_def]
    rw [htext]
    exact .array rfl (helements.congr rfl)

/-- The literal of an array with keys and literals of their values. -/
def map (entries : List (String × Literal)) (indent : Nat) : Literal where
  text := Php.map (entries.map fun e => (e.1, e.2.text)) indent
  value := .array (entries.map fun e => (some e.1, e.2.value))
  reads := reads_map entries indent

end Literal

end VocabPhp.Php
