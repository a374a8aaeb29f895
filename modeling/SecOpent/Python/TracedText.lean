import SecOpent.Python.Regex

/-!
# Texts with the origin of their parts

A text that is put together from literals and from the texts of fields. Forgetting the origins gives the
text. A match of a pattern comes from a field if it lies within the part that the field was put in at.
Where no word goes on from a part into what is around it, the part is matched as if it were alone.

## Main definitions

* `TracedText`, `TracedText.text`: parts with origins, and the text without them
* `TracedText.Exposes`: a match of the pattern comes from a field
* `TracedText.IsRow`: no word goes on from a field into the literals around it

## Main results

* `TracedText.text_append`, `TracedText.text_join`: the text of what is put together
* `TracedText.IsRow.exposes_iff`: what a row exposes is what its fields match, each read alone
-/

namespace Python

/-- A part of a text, and the field that it comes from; a literal comes from none. -/
structure TracedPart (Field : Type*) where
  origin : Option Field
  text : String
  deriving DecidableEq, Repr

/-- A text in parts. -/
abbrev TracedText (Field : Type*) := List (TracedPart Field)

namespace TracedText

open Regex

variable {Field : Type*}

/-- A literal. -/
def lit (text : String) : TracedText Field := [⟨none, text⟩]

/-- The text of a field. -/
def field (origin : Field) (text : String) : TracedText Field := [⟨some origin, text⟩]

/-- The text without its origins. -/
def text (t : TracedText Field) : String := String.join (t.map TracedPart.text)

/-- `sep.join`. -/
def join (sep : String) : List (TracedText Field) → TracedText Field
  | [] => []
  | [t] => t
  | t :: t' :: rest => t ++ lit sep ++ join sep (t' :: rest)

/-- The parts that come from a field. -/
def fields (t : TracedText Field) : List String :=
  t.filterMap fun part => part.origin.map fun _ => part.text

variable {t t' : TracedText Field} {part : TracedPart Field} {s : String}

/-! ## The text -/

@[simp] theorem text_lit : text (lit s : TracedText Field) = s := String.empty_append

@[simp] theorem text_field (origin : Field) : text (field origin s) = s := String.empty_append

@[simp] theorem text_append : text (t ++ t') = text t ++ text t' := by
  rw [text, List.map_append, String.join_append]
  rfl

theorem text_cons : text (part :: t) = part.text ++ text t := by
  rw [text, List.map_cons, String.join_cons]
  rfl

@[simp] theorem text_flatMap {α : Type*} (f : α → TracedText Field) (items : List α) :
    text (items.flatMap f) = String.join (items.map fun item => text (f item)) := by
  induction items with
  | nil => rfl
  | cons item items ih => rw [List.flatMap_cons, text_append, ih, List.map_cons, String.join_cons]

/-- **Forgetting the origins** of a joined text. -/
theorem text_join (sep : String) (parts : List (TracedText Field)) :
    text (join sep parts) = sep.intercalate (parts.map text) := by
  induction parts with
  | nil => exact String.intercalate_nil.symm
  | cons t parts ih =>
    cases parts with
    | nil => exact String.intercalate_singleton.symm
    | cons t' rest =>
      rw [join, text_append, text_append, text_lit, ih]
      exact String.intercalate_cons_cons.symm

/-! ## The fields -/

@[simp] theorem fields_lit : fields (lit s : TracedText Field) = [] := rfl

@[simp] theorem fields_field (origin : Field) : fields (field origin s) = [s] := rfl

@[simp] theorem fields_append : fields (t ++ t') = fields t ++ fields t' := List.filterMap_append

@[simp] theorem fields_flatMap {α : Type*} (f : α → TracedText Field) (items : List α) :
    fields (items.flatMap f) = items.flatMap fun item => fields (f item) := by
  induction items with
  | nil => rfl
  | cons item items ih => rw [List.flatMap_cons, fields_append, ih, List.flatMap_cons]

@[simp] theorem fields_join (sep : String) (parts : List (TracedText Field)) :
    fields (join sep parts) = parts.flatMap fields := by
  induction parts with
  | nil => rfl
  | cons t parts ih =>
    cases parts with
    | nil => exact (List.append_nil _).symm
    | cons t' rest =>
      rw [join, fields_append, fields_append, fields_lit, ih, List.append_nil]
      exact List.flatMap_cons.symm

theorem mem_fields : s ∈ fields t ↔ ∃ part ∈ t, part.origin.isSome ∧ part.text = s := by
  simp only [fields, List.mem_filterMap, Option.map_eq_some_iff]
  constructor
  · rintro ⟨part, hpart, origin, horigin, rfl⟩
    exact ⟨part, hpart, by rw [horigin, Option.isSome_some], rfl⟩
  · rintro ⟨part, hpart, hsome, rfl⟩
    obtain ⟨origin, horigin⟩ := Option.isSome_iff_exists.mp hsome
    exact ⟨part, hpart, origin, horigin, rfl⟩

/-! ## Matches that come from a field -/

variable (word : Char → Bool)

/-- A match of the pattern in the text lies within a part that comes from a field. -/
def Exposes (r : Regex) (t : TracedText Field) : Prop :=
  ∃ before part after, t = before ++ part :: after ∧ part.origin.isSome ∧
    ∃ a m b, part.text.toList = a ++ (m ++ b) ∧
      Matches word r (lastChar none ((text before).toList ++ a)) m (b ++ (text after).toList)

/-- No word goes on from a field to its left or to its right, where the text stands between `before` and
`after`. -/
def Apart : Option Char → TracedText Field → Option Char → Prop
  | _, [], _ => True
  | before, part :: t, after =>
    (part.origin.isSome → atWord word before = false ∧
      atWord word ((text t).toList.head?.or after) = false) ∧
    Apart (lastChar before part.text.toList) t after

/-- The fields stand apart, wherever the text is put in, if no word goes on after it. -/
def IsRow (t : TracedText Field) : Prop :=
  ∀ before after, atWord word after = false → Apart word before t after

variable {word} {r : Regex} {before after : Option Char}

theorem atWord_lastChar (h : atWord word before = false) (a : Str) :
    atWord word (lastChar before a) = atWord word (lastChar none a) := by
  cases a with
  | nil => exact h
  | cons c a => rfl

theorem atWord_head?_append {a b : Str} (h : atWord word b.head? = false) :
    atWord word (a ++ b).head? = atWord word a.head? := by
  cases a with
  | nil => exact h
  | cons c a => rfl

theorem apart_append : Apart word before (t ++ t') after ↔
    Apart word before t ((text t').toList.head?.or after) ∧
      Apart word (lastChar before (text t).toList) t' after := by
  induction t generalizing before with
  | nil => exact (true_and _).symm.to_iff
  | cons part t ih =>
    rw [List.cons_append, Apart, Apart, ih, text_append, text_cons, String.toList_append,
      String.toList_append, lastChar_append, List.head?_append, Option.or_assoc, and_assoc]

/-! ## Rows -/

namespace IsRow

theorem nil : IsRow word ([] : TracedText Field) := fun _ _ _ => trivial

theorem of_lit : IsRow word (lit s : TracedText Field) := fun _ _ _ => ⟨nofun, trivial⟩

theorem lit_append (h : IsRow word t) : IsRow word (lit s ++ t) :=
  fun _ _ hafter => ⟨nofun, h _ _ hafter⟩

/-- A field between literals that end and start with no character of a word. -/
theorem slot {origin : Field} {value s' : String} {c d : Char} (h : IsRow word t)
    (hleft : lastChar none s.toList = some c) (hc : word c = false)
    (hright : s'.toList.head? = some d) (hd : word d = false) :
    IsRow word (lit s ++ field origin value ++ (lit s' ++ t)) := by
  intro before after hafter
  refine ⟨nofun, fun _ => ⟨?_, ?_⟩, h.lit_append _ _ hafter⟩
  · rw [lastChar_of_eq_some hleft before]
    exact hc
  · change atWord word ((text (lit s' ++ t)).toList.head?.or after) = false
    rw [text_append, text_lit, String.toList_append, List.head?_append, hright]
    exact hd

/-- A field at the end of a row. -/
theorem last_slot {origin : Field} {value : String} {c : Char}
    (hleft : lastChar none s.toList = some c) (hc : word c = false) :
    IsRow word (lit s ++ field origin value) := by
  intro before after hafter
  refine ⟨nofun, fun _ => ⟨?_, hafter⟩, trivial⟩
  rw [lastChar_of_eq_some hleft before]
  exact hc

/-- Rows one after another. -/
theorem append (h : IsRow word t) (h' : IsRow word t')
    (hright : atWord word (text t').toList.head? = false) : IsRow word (t ++ t') := by
  intro before after hafter
  refine apart_append.mpr ⟨h _ _ ?_, h' _ _ hafter⟩
  -- After the first row comes the second, or what comes after an empty second one.
  cases hhead : (text t').toList.head? with
  | none => exact hafter
  | some d =>
    rw [hhead] at hright
    exact hright

/-- Rows of items. -/
theorem flatMap {α : Type*} {f : α → TracedText Field} {items : List α}
    (h : ∀ item, IsRow word (f item))
    (hright : ∀ item, atWord word (text (f item)).toList.head? = false) :
    IsRow word (items.flatMap f) ∧ atWord word (text (items.flatMap f)).toList.head? = false := by
  induction items with
  | nil => exact ⟨nil, rfl⟩
  | cons item items ih =>
    rw [List.flatMap_cons, text_append, String.toList_append, atWord_head?_append ih.2]
    exact ⟨(h item).append ih.1 ih.2, hright item⟩

/-- Rows with a separator between them. -/
theorem join {sep : String} {parts : List (TracedText Field)} {c : Char}
    (hsep : sep.toList.head? = some c) (hc : word c = false) (h : ∀ t ∈ parts, IsRow word t) :
    IsRow word (join sep parts) := by
  induction parts with
  | nil => exact nil
  | cons t parts ih =>
    obtain ⟨ht, hparts⟩ := List.forall_mem_cons.mp h
    cases parts with
    | nil => exact ht
    | cons t' rest =>
      rw [TracedText.join, List.append_assoc]
      -- A row ends where the separator starts.
      refine ht.append (ih hparts).lit_append ?_
      rw [text_append, text_lit, String.toList_append, List.head?_append, hsep]
      exact hc

end IsRow

/-! ## What a row exposes -/

/-- The characters at the sides of a field are in no word. -/
theorem IsRow.sides (h : IsRow word (t ++ part :: t')) (hpart : part.origin.isSome) :
    atWord word (lastChar none (text t).toList) = false ∧
      atWord word (text t').toList.head? = false := by
  obtain ⟨hleft, hright⟩ := (apart_append.mp (h none none rfl)).2.1 hpart
  rw [Option.or_none] at hright
  exact ⟨hleft, hright⟩

/-- **A row exposes** what its fields match, each read alone. -/
theorem IsRow.exposes_iff (h : IsRow word t) :
    Exposes word r t ↔ ∃ s ∈ fields t, ¬NoMatch word r s.toList := by
  simp only [mem_fields, NoMatch, not_forall, not_not]
  constructor
  · rintro ⟨before, part, after, rfl, hpart, a, m, b, htext, hmatch⟩
    -- What is around the field looks to the pattern as if there were nothing.
    obtain ⟨hleft, hright⟩ := h.sides hpart
    refine ⟨part.text, ⟨part, List.mem_append_right _ List.mem_cons_self, hpart, rfl⟩, a, m, b, htext,
      hmatch.congr ?_ (atWord_head?_append hright)⟩
    rw [lastChar_append, atWord_lastChar hleft]
  · rintro ⟨_, ⟨part, hmem, hpart, rfl⟩, a, m, b, htext, hmatch⟩
    obtain ⟨before, after, rfl⟩ := List.append_of_mem hmem
    obtain ⟨hleft, hright⟩ := h.sides hpart
    refine ⟨before, part, after, rfl, hpart, a, m, b, htext,
      hmatch.congr ?_ (atWord_head?_append hright).symm⟩
    rw [lastChar_append, atWord_lastChar hleft]

end TracedText

end Python
