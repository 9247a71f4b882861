import VocabPhp.Proofs.Filling

/-!
# Scanning for slots

A written template is scanned from left to right. An opening begins a slot, which reaches to the
next closing brace, and the scan goes on behind that brace. An opening without a closing brace
behind it ends the scan, and what is left stays as it is. So two texts can be scanned apart if the
first one leaves no slot open and no opening lies across their seam.

* `Template.Scanned`, `Template.scanned_iff`: the rule for a scan, for any text and any values. It
  has exactly one result, and that is the text with its slots filled.
* `Template.Closed`, `Template.SplitsOpening`: texts that leave no slot open, and seams in an
  opening.
* `Template.ofChars_append`: the pieces of two texts.
* `Template.substitute_compositional`: filling two texts, and a slot between them.
* `Template.closed_iff_substitute_append`: texts that leave a slot open cannot be filled apart.
-/

namespace VocabPhp

namespace Template

/-! ## The rule -/

/-- `Scanned slots cs out`: scanning the written template `cs` gives the text `out`. A slot gives
its value, or stays as it is written if it has none. Behind an opening that no closing brace follows
nothing is changed. -/
inductive Scanned (slots : Slots) : List Char → List Char → Prop
  | nil : Scanned slots [] []
  | char {c cs out} : ¬ ['\x7b', '@'] <+: c :: cs → Scanned slots cs out →
      Scanned slots (c :: cs) (c :: out)
  | slot {name cs out} : '\x7d' ∉ name → Scanned slots cs out →
      Scanned slots ('\x7b' :: '@' :: (name ++ '\x7d' :: cs))
        (((Piece.slot (String.ofList name)).fill slots).toList ++ out)
  | unclosed {cs} : '\x7d' ∉ cs → Scanned slots ('\x7b' :: '@' :: cs) ('\x7b' :: '@' :: cs)

variable {slots : Slots} {cs ds out : List Char}

theorem ofChars_unclosed (h : '\x7d' ∉ cs) :
    ofChars ('\x7b' :: '@' :: cs) = [.text (String.ofList ('\x7b' :: '@' :: cs))] := by
  rw [ofChars]
  split
  · rfl
  · next brace rest hdrop =>
    have hmem : brace ∈ cs :=
      (List.dropWhile_sublist _).subset (hdrop ▸ List.mem_cons_self)
    have hbrace := List.head_dropWhile_not (fun c => decide (c ≠ '\x7d'))
      (hdrop ▸ List.cons_ne_nil brace rest)
    simp only [hdrop, List.head_cons, decide_eq_false_iff_not, not_not] at hbrace
    exact absurd (hbrace ▸ hmem) h

/-- Every text can be scanned. -/
theorem exists_scanned (slots : Slots) : ∀ cs : List Char, ∃ out, Scanned slots cs out
  | [] => ⟨[], .nil⟩
  | c :: cs => by
    by_cases hopening : ['\x7b', '@'] <+: c :: cs
    · obtain ⟨rest, hrest⟩ := hopening
      obtain ⟨rfl, rfl⟩ := List.cons.inj hrest
      by_cases hbrace : '\x7d' ∈ rest
      · obtain ⟨name, rest', rfl, hname⟩ := List.eq_append_cons_of_mem hbrace
        obtain ⟨out, hout⟩ := exists_scanned slots rest'
        exact ⟨_, .slot hname hout⟩
      · exact ⟨_, .unclosed hbrace⟩
    · obtain ⟨out, hout⟩ := exists_scanned slots cs
      exact ⟨_, .char hopening hout⟩
termination_by cs => cs.length

/-- Filling the slots of a text gives what a scan gives. -/
theorem Scanned.eq_fill (h : Scanned slots cs out) : out = (fill slots (ofChars cs)).toList := by
  induction h with
  | nil => simp [ofChars, fill]
  | char hc _ ih =>
    rw [ofChars_char hc, fill_cons, ih]
    simp [Piece.fill]
  | slot hname _ ih => rw [ofChars_slot hname, fill_cons, String.toList_append, ih]
  | unclosed hbrace =>
    rw [ofChars_unclosed hbrace]
    simp [fill, Piece.fill]

/-- A text has exactly one scan, and this fills its slots. -/
theorem scanned_iff {text : String} :
    Scanned slots text.toList out ↔ out = (substitute slots text).toList := by
  rw [substitute, ofText]
  constructor
  · exact Scanned.eq_fill
  · rintro rfl
    obtain ⟨out, hout⟩ := exists_scanned slots text.toList
    rwa [← hout.eq_fill]

/-! ## Without values -/

theorem Scanned.eq_self (h : Scanned ∅ cs out) : out = cs := by
  induction h with
  | nil => rfl
  | char _ _ ih => rw [ih]
  | slot _ _ ih =>
    have hnone (name : String) : Table.find? (∅ : Slots) name = none := Table.find?_empty name
    rw [ih]
    simp [Piece.fill, Piece.source, hnone]
  | unclosed => rfl

theorem substitute_empty (text : String) : substitute ∅ text = text :=
  String.toList_inj.1 (scanned_iff.2 rfl).eq_self

/-! ## Two texts -/

/-- A text leaves no slot open: every opening that a scan of it meets has a closing brace behind
it. -/
inductive Closed : List Char → Prop
  | nil : Closed []
  | char {c cs} : ¬ ['\x7b', '@'] <+: c :: cs → Closed cs → Closed (c :: cs)
  | slot {name cs} : '\x7d' ∉ name → Closed cs → Closed ('\x7b' :: '@' :: (name ++ '\x7d' :: cs))

/-- The seam of two texts lies within an opening. -/
def SplitsOpening (cs ds : List Char) : Prop := cs.getLast? = some '\x7b' ∧ ds.head? = some '@'

/-- The pieces of two texts are those of the first one and those of the second one. -/
theorem ofChars_append (h : Closed cs) (hseam : ¬ SplitsOpening cs ds) :
    ofChars (cs ++ ds) = ofChars cs ++ ofChars ds := by
  induction h with
  | nil => rw [List.nil_append, ofChars, List.nil_append]
  | @char c cs hc _ ih =>
    have hrest : ¬ SplitsOpening cs ds := by
      rintro ⟨hlast, hhead⟩
      exact hseam ⟨by rw [List.getLast?_cons, hlast]; rfl, hhead⟩
    have happend : ¬ ['\x7b', '@'] <+: c :: (cs ++ ds) := by
      -- The opening would lie in the first text or across the seam.
      rw [List.cons_prefix_cons]
      rintro ⟨rfl, rest, hat⟩
      cases cs with
      | nil => exact hseam ⟨rfl, by rw [← List.nil_append ds, ← hat]; rfl⟩
      | cons d cs =>
        obtain ⟨rfl, -⟩ := List.cons.inj hat
        exact hc ⟨cs, rfl⟩
    rw [List.cons_append, ofChars_char happend, ofChars_char hc, ih hrest, List.cons_append]
  | @slot name cs hname _ ih =>
    have hrest : ¬ SplitsOpening cs ds := by
      rintro ⟨hlast, hhead⟩
      exact hseam ⟨by simp [List.getLast?_cons, hlast], hhead⟩
    have hslot : '\x7b' :: '@' :: (name ++ '\x7d' :: cs) ++ ds =
        '\x7b' :: '@' :: (name ++ '\x7d' :: (cs ++ ds)) := by simp
    rw [hslot, ofChars_slot hname, ofChars_slot hname, ih hrest, List.cons_append]

theorem substitute_append {a b : String} (ha : Closed a.toList)
    (hseam : ¬ SplitsOpening a.toList b.toList) :
    substitute slots (a ++ b) = substitute slots a ++ substitute slots b := by
  rw [substitute, ofText, String.toList_append, ofChars_append ha hseam, fill_append]
  rfl

theorem substitute_source {name : String} (h : '\x7d' ∉ name.toList) (b : String) :
    substitute slots ((Piece.slot name).source ++ b) =
      (Piece.slot name).fill slots ++ substitute slots b := by
  have hsource : ((Piece.slot name).source ++ b).toList =
      '\x7b' :: '@' :: (name.toList ++ '\x7d' :: b.toList) := by
    simp [Piece.source]
  rw [substitute, ofText, hsource, ofChars_slot h, fill_cons, String.ofList_toList]
  rfl

/-- Every text is filled by exactly one scan, and without values it stays as it is. A text that
leaves no slot open is filled apart from what follows, unless their seam lies within an opening. So
a slot behind such a text gives its value, whatever this is, or the slot itself if it has none. -/
theorem substitute_compositional (slots : Slots) :
    (∀ (text : String) (out : List Char),
      Scanned slots text.toList out ↔ out = (substitute slots text).toList) ∧
    (∀ text : String, substitute ∅ text = text) ∧
    ∀ a : String, Closed a.toList →
      (∀ b : String, ¬ SplitsOpening a.toList b.toList →
        substitute slots (a ++ b) = substitute slots a ++ substitute slots b) ∧
      ∀ name b : String, '\x7d' ∉ name.toList →
        substitute slots (a ++ ("\x7b@" ++ name ++ "\x7d") ++ b) =
          substitute slots a ++ (slots.find? name).getD ("\x7b@" ++ name ++ "\x7d") ++
            substitute slots b := by
  refine ⟨fun _ _ => scanned_iff, substitute_empty, fun a ha => ⟨fun b => substitute_append ha, ?_⟩⟩
  intro name b hname
  have hseam : ¬ SplitsOpening a.toList ((Piece.slot name).source ++ b).toList := by
    simp [SplitsOpening, Piece.source]
  have hwhole : substitute slots (a ++ ((Piece.slot name).source ++ b)) =
      substitute slots a ++ ((Piece.slot name).fill slots ++ substitute slots b) := by
    rw [substitute_append ha hseam, substitute_source hname]
  simpa only [String.append_assoc, Piece.source, Piece.fill] using hwhole

/-- A text that ends in an opening brace, with a value that looks like a slot, before a space and
before a slot. Behind both stands a slot that is never closed. -/
theorem substitute_compositional_braces :
    Closed "\x7b@a\x7d\x7b".toList ∧
      ¬ SplitsOpening "\x7b@a\x7d\x7b".toList " @a\x7d\x7b@a".toList ∧ '\x7d' ∉ "c".toList ∧
      substitute (.ofList [("a", "\x7b@c\x7d"), ("c", "x")])
        ("\x7b@a\x7d\x7b" ++ " @a\x7d\x7b@a") = "\x7b@c\x7d\x7b @a\x7d\x7b@a" ∧
      substitute (.ofList [("a", "\x7b@c\x7d"), ("c", "x")])
          ("\x7b@a\x7d\x7b" ++ ("\x7b@" ++ "c" ++ "\x7d") ++ " @a\x7d\x7b@a") =
        "\x7b@c\x7d\x7bx @a\x7d\x7b@a" := by
  have hclosed : Closed "\x7b@a\x7d\x7b".toList :=
    @Closed.slot ['a'] ['\x7b'] (by decide) (.char (by decide) .nil)
  have hseam : ¬ SplitsOpening "\x7b@a\x7d\x7b".toList " @a\x7d\x7b@a".toList := by
    simp [SplitsOpening]
  have hname : '\x7d' ∉ "c".toList := by decide
  refine ⟨hclosed, hseam, hname, ?_, ?_⟩
  · rw [((substitute_compositional _).2.2 _ hclosed).1 _ hseam]
    decide +kernel
  · rw [((substitute_compositional _).2.2 _ hclosed).2 _ _ hname]
    decide +kernel

/-! ## Slots that are left open -/

theorem closed_or_open (h : Scanned slots cs out) : Closed cs ∨
    ∃ front name, Closed front ∧ '\x7d' ∉ name ∧ cs = front ++ '\x7b' :: '@' :: name := by
  induction h with
  | nil => exact .inl .nil
  | char hc _ ih =>
    obtain hclosed | ⟨front, name, hfront, hname, rfl⟩ := ih
    · exact .inl (.char hc hclosed)
    · refine .inr ⟨_ :: front, name, .char (fun hprefix => hc ?_) hfront, hname, rfl⟩
      exact hprefix.trans (List.prefix_append _ _)
  | @slot slot _ _ hslot _ ih =>
    obtain hclosed | ⟨front, name, hfront, hname, rfl⟩ := ih
    · exact .inl (.slot hslot hclosed)
    · exact .inr ⟨'\x7b' :: '@' :: (slot ++ '\x7d' :: front), name, .slot hslot hfront, hname,
        by simp⟩
  | unclosed hname => exact .inr ⟨[], _, .nil, hname, rfl⟩

/-- The texts that leave no slot open are those that can be filled apart from whatever follows. -/
theorem closed_iff_substitute_append {a : String} : Closed a.toList ↔
    ∀ (slots : Slots) (b : String), ¬ SplitsOpening a.toList b.toList →
      substitute slots (a ++ b) = substitute slots a ++ substitute slots b := by
  refine ⟨fun ha slots b => substitute_append ha, fun happend => ?_⟩
  obtain ⟨out, hout⟩ := exists_scanned ∅ a.toList
  refine (closed_or_open hout).resolve_right ?_
  rintro ⟨front, name, hfront, hname, ha⟩
  -- A closing brace behind the text would make a slot of its end, and this may have an empty value.
  have hempty : (Table.ofList [(String.ofList name, "")]).find? (String.ofList name) = some "" := by
    simp [Table.find?_ofList]
  have hopen : ofChars a.toList = ofChars front ++ ofChars ('\x7b' :: '@' :: name) := by
    rw [ha, ofChars_append hfront (by simp [SplitsOpening])]
  have hslot : ofChars (a ++ "\x7d").toList = ofChars front ++ [.slot (String.ofList name)] := by
    have htext : (a ++ "\x7d").toList = front ++ '\x7b' :: '@' :: (name ++ ['\x7d']) := by simp [ha]
    rw [htext, ofChars_append hfront (by simp [SplitsOpening]), ofChars_slot hname, ofChars]
  have hlengths := congrArg String.length
    (happend (.ofList [(String.ofList name, "")]) "\x7d" (by simp [SplitsOpening]))
  rw [substitute, substitute, ofText, ofText, hslot, hopen, ofChars_unclosed hname] at hlengths
  have hat : "@".length = 1 := rfl
  simp [fill, Piece.fill, hempty, hat] at hlengths
  omega

end Template

end VocabPhp
