import Mathlib.Data.List.Sort
import Mathlib.Data.Nat.Digits.Defs
import SecOpent.Python.Text

/-!
# JSON values and their text

What `json.dumps` writes for a value, with `ensure_ascii=False`, `sort_keys=True`,
`separators=(",", ":")` and `allow_nan=False`: strings with their control characters, quotes and
backslashes escaped, and the members of an object in the order of their keys. The text determines
the value up to the order of members.

## Main definitions

* `Json`: null, booleans, integers, floats, strings, lists and objects
* `Json.canonical`: the value with the members of every object sorted by key
* `Json.render`: the text of a value, its members as they stand
* `Json.dumps`: the text of the value in canonical order

## Main results

* `escape_unique`: the text of a string can be read back
* `render_unique`: a rendered value is determined by its text, whatever follows it
* `dumps_inj`: equal texts are texts of values that are equal up to the order of members
* `perm_of_canonical_eq`: objects that are equal up to that order have the same members
-/

namespace Python

/-! ## Numbers -/

/-- A character of a number. -/
def isNumberChar (c : Char) : Bool :=
  c.isDigit || c == '-' || c == '+' || c == '.' || c == 'e'

/-- `repr` of an integer. -/
def intRepr (n : ℤ) : Str :=
  if n < 0 then '-' :: Nat.toDigits 10 n.natAbs else Nat.toDigits 10 n.natAbs

/-- A float other than the infinities and `nan`, by its `repr`: a number text with a point or an
exponent. -/
structure FloatRepr where
  text : Str
  number : ∀ c ∈ text, isNumberChar c = true
  marked : '.' ∈ text ∨ 'e' ∈ text

/-- `0.0`. -/
def FloatRepr.zero : FloatRepr := ⟨['0', '.', '0'], List.all_eq_true.mp (by decide), by decide⟩

/-! ## Values -/

/-- A JSON value, as Python's `None`, `bool`, `int`, `float`, `str`, `list` and `dict`. -/
inductive Json
  | null
  | bool (value : Bool)
  | int (value : ℤ)
  | float (value : FloatRepr)
  | text (value : String)
  | list (items : List Json)
  | object (fields : List (String × Json))

/-- The order of `sort_keys`: by code points. -/
def KeyLe (a b : String × Json) : Prop := a.1 ≤ b.1

instance : DecidableRel KeyLe := fun a b => inferInstanceAs (Decidable (a.1 ≤ b.1))

namespace Json

mutual

/-- The value with the members of every object in the order of their keys. -/
def canonical : Json → Json
  | .list items => .list (canonicalItems items)
  | .object fields => .object ((canonicalFields fields).insertionSort KeyLe)
  | .null => .null
  | .bool value => .bool value
  | .int value => .int value
  | .float value => .float value
  | .text value => .text value

/-- The items of a list in canonical order. -/
def canonicalItems : List Json → List Json
  | [] => []
  | item :: items => canonical item :: canonicalItems items

/-- The members of an object, with canonical values. -/
def canonicalFields : List (String × Json) → List (String × Json)
  | [] => []
  | (key, value) :: fields => (key, canonical value) :: canonicalFields fields

end

end Json

/-! ## Strings -/

/-- A hexadecimal digit of `\u00XY`. -/
def hexChar (n : ℕ) : Char := Nat.digitChar n

/-- `ESCAPE_DCT`: the text of one character inside a string. -/
def escapeChar (c : Char) : Str :=
  if c = '"' then ['\\', '"']
  else if c = '\\' then ['\\', '\\']
  else if c = '\n' then ['\\', 'n']
  else if c = '\r' then ['\\', 'r']
  else if c = '\t' then ['\\', 't']
  else if c.toNat = 8 then ['\\', 'b']
  else if c.toNat = 12 then ['\\', 'f']
  else if c.toNat < 32 then ['\\', 'u', '0', '0', hexChar (c.toNat / 16), hexChar (c.toNat % 16)]
  else [c]

/-- The text of a string, after its opening quote. -/
def escape : Str → Str
  | [] => ['"']
  | c :: s => escapeChar c ++ escape s

/-! ## Text -/

namespace Json

mutual

/-- The text of a value. -/
def render : Json → Str
  | .null => ['n', 'u', 'l', 'l']
  | .bool true => ['t', 'r', 'u', 'e']
  | .bool false => ['f', 'a', 'l', 's', 'e']
  | .int value => intRepr value
  | .float value => value.text
  | .text value => '"' :: escape value.toList
  | .list [] => ['[', ']']
  | .list (item :: items) => '[' :: (render item ++ renderItems items)
  | .object [] => ['{', '}']
  | .object ((key, value) :: fields) =>
    '{' :: '"' :: (escape key.toList ++ ':' :: (render value ++ renderFields fields))

/-- The items after the first one, up to the closing bracket. -/
def renderItems : List Json → Str
  | [] => [']']
  | item :: items => ',' :: (render item ++ renderItems items)

/-- The members after the first one, up to the closing brace. -/
def renderFields : List (String × Json) → Str
  | [] => ['}']
  | (key, value) :: fields =>
    ',' :: '"' :: (escape key.toList ++ ':' :: (render value ++ renderFields fields))

end

/-- `json.dumps`. -/
def dumps (value : Json) : Str := value.canonical.render

end Json

/-! ## Strings can be read back -/

/-- Reads the text of one character. -/
def unescapeChar : Str → Option (Char × Str)
  | '\\' :: '"' :: rest => some ('"', rest)
  | '\\' :: '\\' :: rest => some ('\\', rest)
  | '\\' :: 'n' :: rest => some ('\n', rest)
  | '\\' :: 'r' :: rest => some ('\r', rest)
  | '\\' :: 't' :: rest => some ('\t', rest)
  | '\\' :: 'b' :: rest => some (Char.ofNat 8, rest)
  | '\\' :: 'f' :: rest => some (Char.ofNat 12, rest)
  | '\\' :: 'u' :: '0' :: '0' :: a :: b :: rest =>
    some (Char.ofNat (16 * (a.toNat - 48) + (if b.isDigit then b.toNat - 48 else b.toNat - 87)), rest)
  | '\\' :: _ => none
  | '"' :: _ => none
  | c :: rest => some (c, rest)
  | [] => none

theorem ofNat_control (n : ℕ) (h : n < 32) :
    Char.ofNat (16 * ((hexChar (n / 16)).toNat - 48) +
      (if (hexChar (n % 16)).isDigit then (hexChar (n % 16)).toNat - 48
        else (hexChar (n % 16)).toNat - 87)) = Char.ofNat n := by
  have hall : ∀ m < 32, Char.ofNat (16 * ((hexChar (m / 16)).toNat - 48) +
      (if (hexChar (m % 16)).isDigit then (hexChar (m % 16)).toNat - 48
        else (hexChar (m % 16)).toNat - 87)) = Char.ofNat m := by decide
  exact hall n h

theorem unescapeChar_escapeChar (c : Char) (rest : Str) :
    unescapeChar (escapeChar c ++ rest) = some (c, rest) := by
  unfold escapeChar
  split_ifs with h1 h2 h3 h4 h5 h6 h7 h8
  · simp [unescapeChar, h1]
  · simp [unescapeChar, h2]
  · simp [unescapeChar, h3]
  · simp [unescapeChar, h4]
  · simp [unescapeChar, h5]
  · have hc : Char.ofNat 8 = c := by rw [← h6, Char.ofNat_toNat]
    simp only [← hc, List.cons_append, List.nil_append, unescapeChar]
  · have hc : Char.ofNat 12 = c := by rw [← h7, Char.ofNat_toNat]
    simp only [← hc, List.cons_append, List.nil_append, unescapeChar]
  · simp [unescapeChar, ofNat_control _ h8]
  · simp only [List.cons_append, List.nil_append]
    unfold unescapeChar
    split <;> simp_all

theorem escapeChar_inj {c d : Char} {r s : Str} (h : escapeChar c ++ r = escapeChar d ++ s) :
    c = d ∧ r = s := by
  have hread := congrArg unescapeChar h
  rw [unescapeChar_escapeChar, unescapeChar_escapeChar] at hread
  simpa using hread

/-- No character inside a string begins like its end. -/
theorem escapeChar_append_ne (c : Char) (r s : Str) : escapeChar c ++ r ≠ '"' :: s := by
  intro h
  have hread := congrArg unescapeChar h
  rw [unescapeChar_escapeChar] at hread
  simp [unescapeChar] at hread

/-- **The text of a string can be read back**, whatever follows it. -/
theorem escape_unique {s t r r' : Str} (h : escape s ++ r = escape t ++ r') : s = t ∧ r = r' := by
  induction s generalizing t with
  | nil =>
    cases t with
    | nil => simpa [escape] using h
    | cons d t => exact absurd h.symm (by simpa [escape] using escapeChar_append_ne d _ _)
  | cons c s ih =>
    cases t with
    | nil => exact absurd h (by simpa [escape] using escapeChar_append_ne c _ _)
    | cons d t =>
      simp only [escape, List.append_assoc] at h
      obtain ⟨rfl, hrest⟩ := escapeChar_inj h
      obtain ⟨rfl, rfl⟩ := ih hrest
      exact ⟨rfl, rfl⟩

/-! ## Numbers can be read back -/

theorem isNumberChar_of_isDigit {c : Char} (h : c.isDigit = true) : isNumberChar c = true := by
  simp [isNumberChar, h]

theorem isNumberChar_of_mem_intRepr {n : ℤ} {c : Char} (h : c ∈ intRepr n) :
    isNumberChar c = true := by
  have hdigit : ∀ m, c ∈ Nat.toDigits 10 m → isNumberChar c = true := fun m hm =>
    isNumberChar_of_isDigit (Nat.isDigit_of_mem_toDigits (by norm_num) (by norm_num) hm)
  unfold intRepr at h
  split at h
  · rcases List.mem_cons.mp h with rfl | h
    · rfl
    · exact hdigit _ h
  · exact hdigit _ h

theorem intRepr_ne_nil (n : ℤ) : intRepr n ≠ [] := by
  unfold intRepr
  split
  · simp
  · exact Nat.toDigits_ne_nil

/-- An integer has neither point nor exponent. -/
theorem not_marked_intRepr (n : ℤ) : '.' ∉ intRepr n ∧ 'e' ∉ intRepr n := by
  have hdigit : ∀ {c : Char} {m : ℕ}, c.isDigit = false → c ∉ Nat.toDigits 10 m := by
    intro c m hc hm
    have := Nat.isDigit_of_mem_toDigits (by norm_num) (by norm_num) hm
    simp [hc] at this
  unfold intRepr
  split
  · exact ⟨by simpa using hdigit (by decide), by simpa using hdigit (by decide)⟩
  · exact ⟨hdigit (by decide), hdigit (by decide)⟩

theorem toDigits_ten_inj {m n : ℕ} (h : Nat.toDigits 10 m = Nat.toDigits 10 n) : m = n := by
  rw [← Nat.ofDigitChars_toDigits (b := 10) (n := m) (by norm_num) le_rfl, h,
    Nat.ofDigitChars_toDigits (by norm_num) le_rfl]

theorem intRepr_inj {m n : ℤ} (h : intRepr m = intRepr n) : m = n := by
  have hminus : ∀ {k : ℕ} {s : Str}, Nat.toDigits 10 k ≠ '-' :: s := by
    intro k s hk
    have hmem : '-' ∈ Nat.toDigits 10 k := by simp [hk]
    have := Nat.isDigit_of_mem_toDigits (by norm_num) (by norm_num) hmem
    simp at this
  unfold intRepr at h
  split at h
  · split at h
    · have := toDigits_ten_inj (List.cons.inj h).2
      omega
    · exact absurd h.symm hminus
  · split at h
    · exact absurd h hminus
    · have := toDigits_ten_inj h
      omega

/-- What may follow a value: nothing, or a character that is not of a number. -/
def Delimited (r : Str) : Prop := ∀ c ∈ r.head?, isNumberChar c = false

theorem number_unique {s t r r' : Str} (hs : ∀ c ∈ s, isNumberChar c = true)
    (ht : ∀ c ∈ t, isNumberChar c = true) (hr : Delimited r) (hr' : Delimited r')
    (h : s ++ r = t ++ r') : s = t ∧ r = r' := by
  have htake : ∀ {s r : Str}, (∀ c ∈ s, isNumberChar c = true) → Delimited r →
      (s ++ r).takeWhile isNumberChar = s := by
    intro s r hs hr
    rw [List.takeWhile_append_of_pos hs]
    cases r with
    | nil => simp
    | cons c r => simp [hr c (by simp)]
  have hst : s = t := by rw [← htake hs hr, h, htake ht hr']
  subst hst
  exact ⟨rfl, List.append_cancel_left h⟩

/-! ## Values can be read back -/

namespace Json

/-- The kinds of values that differ in their first character. -/
inductive Kind
  | null | bool | number | text | list | object
  deriving DecidableEq

/-- The kind of a value. -/
def kind : Json → Kind
  | .null => .null
  | .bool _ => .bool
  | .int _ | .float _ => .number
  | .text _ => .text
  | .list _ => .list
  | .object _ => .object

/-- The kind of the value that begins with this character. -/
def kindOf (c : Char) : Option Kind :=
  if isNumberChar c then some .number
  else if c = 'n' then some .null
  else if c = 't' ∨ c = 'f' then some .bool
  else if c = '"' then some .text
  else if c = '[' then some .list
  else if c = '{' then some .object
  else none

theorem kindOf_head_number {s : Str} (hs : ∀ c ∈ s, isNumberChar c = true) (hne : s ≠ [])
    (r : Str) : (s ++ r).head?.bind kindOf = some .number := by
  cases s with
  | nil => exact absurd rfl hne
  | cons c s => simp [kindOf, hs c (by simp)]

theorem kindOf_head (a : Json) (r : Str) : (a.render ++ r).head?.bind kindOf = some a.kind := by
  cases a with
  | null => rfl
  | bool value => cases value <;> rfl
  | int value =>
    rw [render]
    exact kindOf_head_number (fun c => isNumberChar_of_mem_intRepr) (intRepr_ne_nil value) r
  | float value =>
    rw [render]
    refine kindOf_head_number value.number ?_ r
    intro hnil
    have := value.marked
    simp [hnil] at this
  | text value => rfl
  | list items => cases items <;> rfl
  | object fields => cases fields <;> rfl

/-- No value begins with a closing bracket. -/
theorem render_append_ne (a : Json) (r s : Str) : a.render ++ r ≠ ']' :: s := by
  intro h
  have hkind := kindOf_head a r
  rw [h] at hkind
  cases hkind

theorem delimited_cons {c : Char} (r : Str) (h : isNumberChar c = false) : Delimited (c :: r) := by
  intro d hd
  cases hd
  exact h

theorem delimited_renderItems (items : List Json) (r : Str) : Delimited (renderItems items ++ r) := by
  cases items with
  | nil => exact delimited_cons _ (by decide)
  | cons item items => exact delimited_cons _ (by decide)

theorem delimited_renderFields (fields : List (String × Json)) (r : Str) :
    Delimited (renderFields fields ++ r) := by
  cases fields with
  | nil => exact delimited_cons _ (by decide)
  | cons field fields => exact delimited_cons _ (by decide)

mutual

/-- **A value is determined by its text**, whatever follows it. -/
theorem render_unique (a b : Json) {r s : Str} (hr : Delimited r) (hs : Delimited s)
    (h : a.render ++ r = b.render ++ s) : a = b ∧ r = s := by
  -- The first character tells which kind of value it is.
  have hkind : a.kind = b.kind := by
    have hhead := kindOf_head a r
    rw [h, kindOf_head b s] at hhead
    exact (Option.some.inj hhead).symm
  cases a with
  | null =>
    cases b <;> cases hkind
    simpa [render] using h
  | bool value =>
    cases b with
    | bool value' => cases value <;> cases value' <;> simp [render] at h ⊢ <;> exact h
    | _ => cases hkind
  | int value =>
    cases b with
    | int value' =>
      rw [render, render] at h
      obtain ⟨hvalue, hrest⟩ := number_unique (fun c => isNumberChar_of_mem_intRepr)
        (fun c => isNumberChar_of_mem_intRepr) hr hs h
      exact ⟨by rw [intRepr_inj hvalue], hrest⟩
    | float value' =>
      -- A float is marked by a point or an exponent, an integer is not.
      rw [render, render] at h
      obtain ⟨hvalue, -⟩ := number_unique (fun c => isNumberChar_of_mem_intRepr) value'.number hr hs
        h
      have hmarked := value'.marked
      rw [← hvalue] at hmarked
      exact absurd hmarked (not_or.mpr (not_marked_intRepr value))
    | _ => cases hkind
  | float value =>
    cases b with
    | int value' =>
      rw [render, render] at h
      obtain ⟨hvalue, -⟩ := number_unique value.number (fun c => isNumberChar_of_mem_intRepr) hr hs h
      have hmarked := value.marked
      rw [hvalue] at hmarked
      exact absurd hmarked (not_or.mpr (not_marked_intRepr value'))
    | float value' =>
      rw [render, render] at h
      obtain ⟨hvalue, hrest⟩ := number_unique value.number value'.number hr hs h
      refine ⟨?_, hrest⟩
      cases value
      cases value'
      cases hvalue
      rfl
    | _ => cases hkind
  | text value =>
    cases b with
    | text value' =>
      simp only [render, List.cons_append, List.cons.injEq, true_and] at h
      obtain ⟨hvalue, hrest⟩ := escape_unique h
      exact ⟨by rw [String.toList_injective hvalue], hrest⟩
    | _ => cases hkind
  | list items =>
    cases b with
    | list items' =>
      -- An item begins with no bracket, so an empty list differs from one with items.
      match items, items', h with
      | [], [], h => simpa [render] using h
      | [], item' :: items', h =>
        simp only [render, List.cons_append, List.cons.injEq, true_and, List.append_assoc] at h
        exact absurd h.symm (render_append_ne item' _ _)
      | item :: items, [], h =>
        simp only [render, List.cons_append, List.cons.injEq, true_and, List.append_assoc] at h
        exact absurd h (render_append_ne item _ _)
      | item :: items, item' :: items', h =>
        simp only [render, List.cons_append, List.cons.injEq, true_and, List.append_assoc] at h
        obtain ⟨rfl, hrest⟩ := render_unique item item' (delimited_renderItems items r)
          (delimited_renderItems items' s) h
        obtain ⟨rfl, rfl⟩ := renderItems_unique items items' hrest
        exact ⟨rfl, rfl⟩
    | _ => cases hkind
  | object fields =>
    cases b with
    | object fields' =>
      match fields, fields', h with
      | [], [], h => simpa [render] using h
      | [], (key', value') :: fields', h => simp [render] at h
      | (key, value) :: fields, [], h => simp [render] at h
      | (key, value) :: fields, (key', value') :: fields', h =>
        simp only [render, List.cons_append, List.cons.injEq, true_and, List.append_assoc] at h
        obtain ⟨hkey, hvalue⟩ := escape_unique h
        simp only [List.cons.injEq, true_and] at hvalue
        obtain ⟨rfl, hrest⟩ := render_unique value value' (delimited_renderFields fields r)
          (delimited_renderFields fields' s) hvalue
        obtain ⟨rfl, rfl⟩ := renderFields_unique fields fields' hrest
        exact ⟨by rw [String.toList_injective hkey], rfl⟩
    | _ => cases hkind

theorem renderItems_unique (items items' : List Json) {r s : Str}
    (h : renderItems items ++ r = renderItems items' ++ s) : items = items' ∧ r = s := by
  match items, items', h with
  | [], [], h => simpa [renderItems] using h
  | [], item' :: items', h => simp [renderItems] at h
  | item :: items, [], h => simp [renderItems] at h
  | item :: items, item' :: items', h =>
    simp only [renderItems, List.cons_append, List.cons.injEq, true_and, List.append_assoc] at h
    obtain ⟨rfl, hrest⟩ := render_unique item item' (delimited_renderItems items r)
      (delimited_renderItems items' s) h
    obtain ⟨rfl, rfl⟩ := renderItems_unique items items' hrest
    exact ⟨rfl, rfl⟩

theorem renderFields_unique (fields fields' : List (String × Json)) {r s : Str}
    (h : renderFields fields ++ r = renderFields fields' ++ s) : fields = fields' ∧ r = s := by
  match fields, fields', h with
  | [], [], h => simpa [renderFields] using h
  | [], (key', value') :: fields', h => simp [renderFields] at h
  | (key, value) :: fields, [], h => simp [renderFields] at h
  | (key, value) :: fields, (key', value') :: fields', h =>
    simp only [renderFields, List.cons_append, List.cons.injEq, true_and, List.append_assoc] at h
    obtain ⟨hkey, hvalue⟩ := escape_unique h
    simp only [List.cons.injEq, true_and] at hvalue
    obtain ⟨rfl, hrest⟩ := render_unique value value' (delimited_renderFields fields r)
      (delimited_renderFields fields' s) hvalue
    obtain ⟨rfl, rfl⟩ := renderFields_unique fields fields' hrest
    exact ⟨by rw [String.toList_injective hkey], rfl⟩

end

theorem delimited_nil : Delimited [] := fun _ hc => by cases hc

/-- **Equal texts are texts of values that are equal up to the order of members.** -/
theorem dumps_inj {a b : Json} (h : a.dumps = b.dumps) : a.canonical = b.canonical := by
  have happend : a.canonical.render ++ [] = b.canonical.render ++ [] := by simpa [dumps] using h
  exact (render_unique _ _ delimited_nil delimited_nil happend).1

/-- Objects that are equal up to the order of members have the same members. -/
theorem perm_of_canonical_eq {fields fields' : List (String × Json)}
    (h : (object fields).canonical = (object fields').canonical) :
    (canonicalFields fields).Perm (canonicalFields fields') := by
  simp only [canonical, object.injEq] at h
  have hsorted := List.perm_insertionSort KeyLe (canonicalFields fields)
  rw [h] at hsorted
  exact hsorted.symm.trans (List.perm_insertionSort _ _)

end Json

end Python
