import SecOpent.Python.JsonDecoder
import SecOpent.Python.JsonEquality

/-!
# The text of a JSON value and what is decoded of it

`json.dumps` writes every character of a string either as it is or, with `ensure_ascii`, in ASCII: as an
escape of four hexadecimal digits, or two of them for a character outside of the basic plane. Its
separators have a space after them or not. Whatever the style, `json.loads` reads the value back.

A number is read up to the first character that is not of it, so a value is read back before a comma, a
closing bracket or white space, and at the end of the text. One lemma for each piece of the text says so:
a character, a string, a number, a name, the items of a container.

## Main definitions

* `JsonStyle`: the options of `json.dumps`
* `Json.write`: the text of a value
* `Json.depth`: how many containers are in each other
* `Json.Writable`: integers that Python prints, and floats as it prints them
* `Json.decoded`: the value that is read back

## Main results

* `scanString_write`: a string is read back
* `scanNumber_intRepr`, `scanNumber_literal`: so is a number
* `itemsOf_joined`: and so are the items of a container
* `scanOnce_write`: a value is read back at the start of a text
* `loads_write`, `loads_written`: a text with nothing but the value is decoded to it
* `uncontrolled_write`: the text of a value has no control character
* `write_compact`: the text of `Json.render` is the one without spaces
* `decoded_inj`: what is read back is of one value
-/

namespace Python

/-- The options of `json.dumps`. -/
structure JsonStyle where
  /-- `ensure_ascii`. -/
  ensureAscii : Bool
  /-- `", "` and `": "` are the separators, and not `","` and `":"`. -/
  spaced : Bool
  deriving DecidableEq, Repr

namespace JsonStyle

/-- `ensure_ascii=False` and `separators=(",", ":")`. -/
def compact : JsonStyle := ⟨false, false⟩

/-- The defaults of `json.dumps`. -/
def default : JsonStyle := ⟨true, true⟩

/-- What follows the mark of a separator. -/
def space (style : JsonStyle) : Str := if style.spaced then [' '] else []

end JsonStyle

/-! ## Writing -/

/-- `\uXXXX`. -/
def escapeUnit (n : ℕ) : Str :=
  ['\\', 'u', hexChar (n / 4096 % 16), hexChar (n / 256 % 16), hexChar (n / 16 % 16), hexChar (n % 16)]

/-- The surrogates of a character outside of the basic plane. -/
def surrogates (n : ℕ) : ℕ × ℕ :=
  (0xd800 + (n - 0x10000) / 0x400 % 0x400, 0xdc00 + (n - 0x10000) % 0x400)

/-- The characters with an escape of one letter. -/
def shortEscape (c : Char) (otherwise : Str) : Str :=
  if c = '"' then ['\\', '"']
  else if c = '\\' then ['\\', '\\']
  else if c = '\n' then ['\\', 'n']
  else if c = '\r' then ['\\', 'r']
  else if c = '\t' then ['\\', 't']
  else if c.toNat = 8 then ['\\', 'b']
  else if c.toNat = 12 then ['\\', 'f']
  else otherwise

/-- `ESCAPE_DCT` and `py_encode_basestring_ascii`: the text of one character. -/
def asciiEscapeChar (c : Char) : Str :=
  shortEscape c
    (if 32 ≤ c.toNat ∧ c.toNat ≤ 126 then [c]
    else if c.toNat < 0x10000 then escapeUnit c.toNat
    else escapeUnit (surrogates c.toNat).1 ++ escapeUnit (surrogates c.toNat).2)

/-- `encode_basestring` has the same escapes of one letter. -/
theorem escapeChar_eq (c : Char) : escapeChar c = shortEscape c
    (if c.toNat < 32 then ['\\', 'u', '0', '0', hexChar (c.toNat / 16), hexChar (c.toNat % 16)]
    else [c]) := rfl

namespace JsonStyle

/-- The text of one character of a string. -/
def char (style : JsonStyle) (c : Char) : Str :=
  if style.ensureAscii then asciiEscapeChar c else escapeChar c

/-- The text of a string, with its quotes. -/
def string (style : JsonStyle) (s : String) : Str := '"' :: (s.toList.flatMap style.char ++ ['"'])

/-- Texts after the first one, up to the closing character. -/
def joinedTail (style : JsonStyle) (close : Char) : List Str → Str
  | [] => [close]
  | text :: texts => ',' :: (style.space ++ (text ++ style.joinedTail close texts))

/-- Texts with separators between them, up to the closing character. -/
def joined (style : JsonStyle) (close : Char) : List Str → Str
  | [] => [close]
  | text :: texts => text ++ style.joinedTail close texts

/-- The text of a member of an object. -/
def member (style : JsonStyle) (key : String) (value : Str) : Str :=
  style.string key ++ ':' :: (style.space ++ value)

end JsonStyle

namespace Json

mutual

/-- `json.dumps`, the members of every object as they stand. -/
def write (style : JsonStyle) : Json → Str
  | .null => ['n', 'u', 'l', 'l']
  | .bool true => ['t', 'r', 'u', 'e']
  | .bool false => ['f', 'a', 'l', 's', 'e']
  | .int value => intRepr value
  | .float value => value.text
  | .text value => style.string value
  | .list items => '[' :: style.joined ']' (writeItems style items)
  | .object fields => '{' :: style.joined '}' (writeFields style fields)

/-- The texts of the items of a list. -/
def writeItems (style : JsonStyle) : List Json → List Str
  | [] => []
  | item :: items => write style item :: writeItems style items

/-- The texts of the members of an object. -/
def writeFields (style : JsonStyle) : List (String × Json) → List Str
  | [] => []
  | (key, value) :: fields => style.member key (write style value) :: writeFields style fields

end

theorem writeItems_eq_map (style : JsonStyle) (items : List Json) :
    writeItems style items = items.map (write style) := by
  induction items with
  | nil => rfl
  | cons item items ih => rw [writeItems, ih, List.map_cons]

theorem writeFields_eq_map (style : JsonStyle) (fields : List (String × Json)) :
    writeFields style fields =
      fields.map fun field => style.member field.1 (write style field.2) := by
  induction fields with
  | nil => rfl
  | cons field fields ih => rw [writeFields, ih, List.map_cons]

mutual

/-- How many containers are in each other. -/
def depth : Json → ℕ
  | .list items => depthItems items + 1
  | .object fields => depthFields fields + 1
  | .null => 0
  | .bool _ => 0
  | .int _ => 0
  | .float _ => 0
  | .text _ => 0

/-- How many containers are in each other, in the items of a list. -/
def depthItems : List Json → ℕ
  | [] => 0
  | item :: items => max (depth item) (depthItems items)

/-- How many containers are in each other, in the members of an object. -/
def depthFields : List (String × Json) → ℕ
  | [] => 0
  | (_, value) :: fields => max (depth value) (depthFields fields)

end

theorem depthItems_le_iff {items : List Json} {n : ℕ} :
    depthItems items ≤ n ↔ ∀ item ∈ items, item.depth ≤ n := by
  induction items with
  | nil => simp [depthItems]
  | cons item items ih => rw [depthItems, max_le_iff, ih, List.forall_mem_cons]

theorem depthFields_le_iff {fields : List (String × Json)} {n : ℕ} :
    depthFields fields ≤ n ↔ ∀ field ∈ fields, field.2.depth ≤ n := by
  induction fields with
  | nil => simp [depthFields]
  | cons field fields ih => rw [depthFields, max_le_iff, ih, List.forall_mem_cons]

end Json

/-! ## What can be written -/

/-- `0`, or digits that do not start with a zero. -/
def IsDecimal (s : Str) : Prop :=
  s = ['0'] ∨ ∃ c t, s = c :: t ∧ c ≠ '0' ∧ ∀ d ∈ c :: t, d.isDigit = true

/-- Nothing, or a mark, a sign and digits. -/
def IsPart (marks signs : List Char) (s : Str) : Prop :=
  s = [] ∨ ∃ mark ∈ marks, ∃ sign digits, s = mark :: (sign ++ digits) ∧
    (sign = [] ∨ ∃ c ∈ signs, sign = [c]) ∧ digits ≠ [] ∧ ∀ d ∈ digits, d.isDigit = true

/-- What `float.__repr__` prints: an integer with a fraction, an exponent or both. -/
def IsLiteral (s : Str) : Prop :=
  ∃ sign int fraction exponent, s = sign ++ (int ++ (fraction ++ exponent)) ∧
    (sign = [] ∨ sign = ['-']) ∧ IsDecimal int ∧ IsPart ['.'] [] fraction ∧
    IsPart ['e'] ['+', '-'] exponent ∧ fraction ++ exponent ≠ []

namespace Json

mutual

/-- Every integer has few enough digits for `int.__repr__`, and every float is printed as
`float.__repr__` does. -/
def Writable : Json → Prop
  | .list items => WritableItems items
  | .object fields => WritableFields fields
  | .int value => (Nat.toDigits 10 value.natAbs).length ≤ JsonDecoder.intMaxStrDigits
  | .float value => IsLiteral value.text
  | .null => True
  | .bool _ => True
  | .text _ => True

/-- Every item can be written. -/
def WritableItems : List Json → Prop
  | [] => True
  | item :: items => Writable item ∧ WritableItems items

/-- The value of every member can be written. -/
def WritableFields : List (String × Json) → Prop
  | [] => True
  | (_, value) :: fields => Writable value ∧ WritableFields fields

end

theorem writableItems_iff {items : List Json} :
    WritableItems items ↔ ∀ item ∈ items, Writable item := by
  induction items with
  | nil => simp [WritableItems]
  | cons item items ih => simp [WritableItems, ih]

theorem writableFields_iff {fields : List (String × Json)} :
    WritableFields fields ↔ ∀ field ∈ fields, Writable field.2 := by
  induction fields with
  | nil => simp [WritableFields]
  | cons field fields ih => simp [WritableFields, ih]

/-! ## What is read back -/

/-- The code points of a text. -/
def points (s : String) : List ℕ := s.toList.map Char.toNat

mutual

/-- The value that `json.loads` makes of the text. -/
def decoded : Json → JsonDecoder.Value
  | .null => .null
  | .bool value => .bool value
  | .int value => .int value
  | .float value => .float value.text
  | .text value => .text (points value)
  | .list items => .list (decodedItems items)
  | .object fields => .dict (Dict.ofItems (decodedFields fields)).items

/-- The values of the items of a list. -/
def decodedItems : List Json → List JsonDecoder.Value
  | [] => []
  | item :: items => decoded item :: decodedItems items

/-- The keys and values of an object. -/
def decodedFields : List (String × Json) → List (List ℕ × JsonDecoder.Value)
  | [] => []
  | (key, value) :: fields => (points key, decoded value) :: decodedFields fields

end

theorem decodedItems_eq_map (items : List Json) : decodedItems items = items.map decoded := by
  induction items with
  | nil => rfl
  | cons item items ih => rw [decodedItems, ih, List.map_cons]

theorem decodedFields_eq_map (fields : List (String × Json)) :
    decodedFields fields = fields.map fun field => (points field.1, field.2.decoded) := by
  induction fields with
  | nil => rfl
  | cons field fields ih => rw [decodedFields, ih, List.map_cons]

end Json

namespace JsonDecoder

/-! ## Strings -/

theorem codeUnits_plain {c : Char} (hslash : c ≠ '\\') (t : Str) :
    codeUnits (c :: t) = (codeUnits t).map fun units => c.toNat :: units := by
  rw [codeUnits]
  · rintro a b d e s rfl
    exact absurd rfl hslash
  · rintro d s rfl
    exact absurd rfl hslash

/-- A hexadecimal digit is no quote, no backslash and no control character. -/
theorem hexChar_plain : ∀ n < 16, hexChar n ≠ '"' ∧ hexChar n ≠ '\\' ∧ 32 ≤ (hexChar n).toNat := by
  decide

theorem stringBody_hexChar {n : ℕ} (hn : n < 16) (t : Str) :
    stringBody (hexChar n :: t) = (stringBody t).map fun found => (hexChar n :: found.1, found.2) := by
  obtain ⟨hquote, hslash, hcontrol⟩ := hexChar_plain n hn
  exact stringBody_plain hquote hslash hcontrol t

theorem ofHex_four (a b c d : ℕ) (ha : a < 16) (hb : b < 16) (hc : c < 16) (hd : d < 16) :
    ofHex [hexChar a, hexChar b, hexChar c, hexChar d] = ((a * 16 + b) * 16 + c) * 16 + d := by
  simp only [ofHex, ofBase, hexChar, List.map_cons, List.map_nil, List.foldl_cons, List.foldl_nil,
    hexValue_digitChar a ha, hexValue_digitChar b hb, hexValue_digitChar c hc, hexValue_digitChar d hd]
  omega

theorem stringBody_escapeUnit (n : ℕ) (t : Str) :
    stringBody (escapeUnit n ++ t) =
      (stringBody t).map fun found => (escapeUnit n ++ found.1, found.2) := by
  have hdigit : ∀ m : ℕ, m % 16 < 16 := fun m => Nat.mod_lt _ (by norm_num)
  simp only [escapeUnit, List.cons_append, List.nil_append]
  rw [stringBody, stringBody_hexChar (hdigit _), stringBody_hexChar (hdigit _),
    stringBody_hexChar (hdigit _), stringBody_hexChar (hdigit _)]
  simp only [Option.map_map, Function.comp_def]

theorem codeUnits_escapeUnit {n : ℕ} (hn : n < 0x10000) (t : Str) :
    codeUnits (escapeUnit n ++ t) = (codeUnits t).map fun units => n :: units := by
  have hdigit : ∀ m : ℕ, m % 16 < 16 := fun m => Nat.mod_lt _ (by norm_num)
  have hhex : ∀ m : ℕ, isHexDigit (hexChar (m % 16)) = true := fun m =>
    isHexDigit_digitChar _ (hdigit m)
  have hvalue : ofHex [hexChar (n / 4096 % 16), hexChar (n / 256 % 16), hexChar (n / 16 % 16),
      hexChar (n % 16)] = n := by
    rw [ofHex_four _ _ _ _ (hdigit _) (hdigit _) (hdigit _) (hdigit _)]
    omega
  simp only [escapeUnit, List.cons_append, List.nil_append]
  rw [codeUnits, if_pos, hvalue]
  simp only [List.all_cons, List.all_nil, hhex, Bool.and_self]

/-- The code units of a character: its surrogates if it is written as two escapes. -/
def charUnits (style : JsonStyle) (c : Char) : List ℕ :=
  if style.ensureAscii ∧ 0x10000 ≤ c.toNat then [(surrogates c.toNat).1, (surrogates c.toNat).2]
  else [c.toNat]

theorem charUnits_of_lt {style : JsonStyle} {c : Char} (h : c.toNat < 0x10000) :
    charUnits style c = [c.toNat] := if_neg fun hunits => absurd hunits.2 (Nat.not_le.mpr h)

/-- What a text reads as: it is kept by `scanstring`, and stands for these code units. -/
structure StandsFor (text : Str) (units : List ℕ) : Prop where
  body : ∀ t, stringBody (text ++ t) = (stringBody t).map fun found => (text ++ found.1, found.2)
  codeUnits : ∀ t, codeUnits (text ++ t) = (codeUnits t).map fun found => units ++ found

theorem standsFor_plain {c : Char} (hquote : c ≠ '"') (hslash : c ≠ '\\')
    (hcontrol : 32 ≤ c.toNat) : StandsFor [c] [c.toNat] :=
  ⟨fun t => stringBody_plain hquote hslash hcontrol t, fun t => codeUnits_plain hslash t⟩

theorem standsFor_escapeUnit {n : ℕ} (hn : n < 0x10000) : StandsFor (escapeUnit n) [n] :=
  ⟨stringBody_escapeUnit n, codeUnits_escapeUnit hn⟩

theorem StandsFor.append {text text' : Str} {units units' : List ℕ} (h : StandsFor text units)
    (h' : StandsFor text' units') : StandsFor (text ++ text') (units ++ units') := by
  refine ⟨fun t => ?_, fun t => ?_⟩
  · rw [List.append_assoc, h.body, h'.body, Option.map_map]
    simp only [Function.comp_def, List.append_assoc]
  · rw [List.append_assoc, h.codeUnits, h'.codeUnits, Option.map_map]
    simp only [Function.comp_def, List.append_assoc]

/-- An escape of one letter. -/
theorem standsFor_simple {c : Char} {unit : ℕ} (hc : c ≠ 'u') (h : simpleEscape c = some unit) :
    StandsFor ['\\', c] [unit] := by
  refine ⟨fun t => ?_, fun t => ?_⟩
  · rw [List.cons_append, List.cons_append, stringBody]
    rfl
  · rw [List.cons_append, List.cons_append, List.nil_append, JsonDecoder.codeUnits, h]
    · rfl
    · rintro a b d e s rfl
      exact absurd rfl hc

theorem standsFor_short {c : Char} {otherwise : Str}
    (h : c ≠ '"' → c ≠ '\\' → StandsFor otherwise [c.toNat]) :
    StandsFor (shortEscape c otherwise) [c.toNat] := by
  rw [shortEscape]
  split_ifs with hquote hslash hline hreturn htab hback hfeed
  · subst hquote
    exact standsFor_simple (by decide) rfl
  · subst hslash
    exact standsFor_simple (by decide) rfl
  · subst hline
    exact standsFor_simple (by decide) rfl
  · subst hreturn
    exact standsFor_simple (by decide) rfl
  · subst htab
    exact standsFor_simple (by decide) rfl
  · rw [hback]
    exact standsFor_simple (by decide) rfl
  · rw [hfeed]
    exact standsFor_simple (by decide) rfl
  · exact h hquote hslash

theorem standsFor_escapeChar (c : Char) : StandsFor (escapeChar c) [c.toNat] := by
  rw [escapeChar_eq]
  refine standsFor_short fun hquote hslash => ?_
  split_ifs with hcontrol
  · -- Control characters are escaped by two zeros and two digits.
    have hunit : ['\\', 'u', '0', '0', hexChar (c.toNat / 16), hexChar (c.toNat % 16)] =
        escapeUnit c.toNat := by
      rw [escapeUnit, Nat.div_eq_of_lt (show c.toNat < 4096 by omega),
        Nat.div_eq_of_lt (show c.toNat < 256 by omega),
        Nat.mod_eq_of_lt (show c.toNat / 16 < 16 by omega)]
      rfl
    rw [hunit]
    exact standsFor_escapeUnit (by omega)
  · exact standsFor_plain hquote hslash (by omega)

theorem surrogates_lt (n : ℕ) :
    (0xd800 ≤ (surrogates n).1 ∧ (surrogates n).1 ≤ 0xdbff) ∧
      (0xdc00 ≤ (surrogates n).2 ∧ (surrogates n).2 ≤ 0xdfff) := by
  unfold surrogates
  omega

/-- A character outside of the basic plane has no escape of one letter. -/
theorem shortEscape_of_le {c : Char} (hc : 0x10000 ≤ c.toNat) (otherwise : Str) :
    shortEscape c otherwise = otherwise := by
  have hne : ∀ d : Char, d.toNat < 0x10000 → c ≠ d := by
    rintro d hd rfl
    omega
  rw [shortEscape, if_neg (hne _ (by decide)), if_neg (hne _ (by decide)), if_neg (hne _ (by decide)),
    if_neg (hne _ (by decide)), if_neg (hne _ (by decide)), if_neg (by omega), if_neg (by omega)]

theorem standsFor_char (style : JsonStyle) (c : Char) :
    StandsFor (style.char c) (charUnits style c) := by
  rw [JsonStyle.char]
  split_ifs with hascii
  · by_cases hplane : c.toNat < 0x10000
    · rw [charUnits_of_lt hplane]
      refine standsFor_short fun hquote hslash => ?_
      rw [if_pos hplane]
      split_ifs with hprintable
      · exact standsFor_plain hquote hslash hprintable.1
      · exact standsFor_escapeUnit hplane
    · obtain ⟨⟨-, hhigh⟩, -, hlow⟩ := surrogates_lt c.toNat
      rw [charUnits, if_pos ⟨hascii, Nat.not_lt.mp hplane⟩, asciiEscapeChar, shortEscape_of_le (by omega),
        if_neg (by omega), if_neg hplane]
      exact (standsFor_escapeUnit (by omega)).append (standsFor_escapeUnit (by omega))
  · rw [charUnits, if_neg fun hunits => hascii hunits.1]
    exact standsFor_escapeChar c

/-- No character is a surrogate. -/
theorem not_surrogate (c : Char) : c.toNat < 0xd800 ∨ 0xdfff < c.toNat := by
  rcases c.valid with h | h
  · exact Or.inl h
  · exact Or.inr h.1

theorem joinSurrogates_cons {a : ℕ} (ha : a < 0xd800 ∨ 0xdfff < a) (units : List ℕ) :
    joinSurrogates (a :: units) = a :: joinSurrogates units := by
  cases units with
  | nil => rfl
  | cons b units =>
    rw [joinSurrogates, if_neg]
    omega

theorem joinSurrogates_charUnits (style : JsonStyle) (c : Char) (units : List ℕ) :
    joinSurrogates (charUnits style c ++ units) = c.toNat :: joinSurrogates units := by
  rw [charUnits]
  split_ifs with hunits
  · obtain ⟨⟨hhigh, hhigh'⟩, hlow, hlow'⟩ := surrogates_lt c.toNat
    have hmax : c.toNat < 0x110000 := by
      rcases c.valid with h | h
      · exact lt_trans h (by norm_num)
      · exact h.2
    have hvalue : 0x10000 + ((surrogates c.toNat).1 - 0xd800) * 0x400 +
        ((surrogates c.toNat).2 - 0xdc00) = c.toNat := by
      unfold surrogates
      omega
    rw [List.cons_append, List.cons_append, List.nil_append, joinSurrogates,
      if_pos ⟨hhigh, hhigh', hlow, hlow'⟩, hvalue]
  · exact joinSurrogates_cons (not_surrogate c) units

/-- **A string is read back**, whatever follows it. -/
theorem scanString_write (style : JsonStyle) (s : String) (t : Str) :
    scanString (s.toList.flatMap style.char ++ '"' :: t) = .ok (Json.points s, t) := by
  have hbody : ∀ chars : Str, stringBody (chars.flatMap style.char ++ '"' :: t) =
      some (chars.flatMap style.char, t) := by
    intro chars
    induction chars with
    | nil => rfl
    | cons c chars ih =>
      rw [List.flatMap_cons, List.append_assoc, (standsFor_char style c).body, ih]
      rfl
  have hunits : ∀ chars : Str, codeUnits (chars.flatMap style.char) =
      some (chars.flatMap (charUnits style)) := by
    intro chars
    induction chars with
    | nil => rfl
    | cons c chars ih =>
      rw [List.flatMap_cons, (standsFor_char style c).codeUnits, ih]
      rfl
  have hjoin : ∀ chars : Str, joinSurrogates (chars.flatMap (charUnits style)) =
      chars.map Char.toNat := by
    intro chars
    induction chars with
    | nil => rfl
    | cons c chars ih => rw [List.flatMap_cons, joinSurrogates_charUnits, ih, List.map_cons]
  rw [scanString, hbody]
  dsimp only
  rw [hunits]
  dsimp only
  rw [hjoin]
  rfl

/-! ## Numbers -/

/-- What may follow a value that is read back: nothing, a comma, a closing bracket or white space. -/
def Followed (rest : Str) : Prop :=
  ∀ c ∈ rest.head?, c = ',' ∨ c = ']' ∨ c = '}' ∨ isJsonSpace c = true

/-- No digit follows. -/
def NoDigit (rest : Str) : Prop := ∀ c ∈ rest.head?, c.isDigit = false

/-- What follows a value is neither of a number nor of one of its marks. -/
theorem Followed.apart {rest : Str} (h : Followed rest) :
    ∀ c ∈ rest.head?, c.isDigit = false ∧ c ≠ '.' ∧ c ≠ 'e' ∧ c ≠ 'E' := by
  intro c hc
  rcases h c hc with rfl | rfl | rfl | hspace
  · decide
  · decide
  · decide
  · simp only [isJsonSpace, Bool.or_eq_true, beq_iff_eq] at hspace
    rcases hspace with ((rfl | rfl) | rfl) | rfl <;> decide

theorem Followed.noDigit {rest : Str} (h : Followed rest) : NoDigit rest :=
  fun c hc => (h.apart c hc).1

theorem digits_noDigit {s rest : Str} (hs : ∀ d ∈ s, d.isDigit = true) (hrest : NoDigit rest) :
    digits (s ++ rest) = (s, rest) := by
  have hstop : rest.takeWhile Char.isDigit = [] ∧ rest.dropWhile Char.isDigit = rest := by
    cases rest with
    | nil => exact ⟨rfl, rfl⟩
    | cons c rest =>
      have hc : c.isDigit = false := hrest c rfl
      exact ⟨List.takeWhile_cons_of_neg (by simp [hc]), List.dropWhile_cons_of_neg (by simp [hc])⟩
  rw [digits, List.takeWhile_append_of_pos hs, List.dropWhile_append_of_pos hs, hstop.1, hstop.2,
    List.append_nil]

theorem intPart_decimal {int rest : Str} (hint : IsDecimal int) (hrest : NoDigit rest) :
    intPart (int ++ rest) = some (int, rest) := by
  rcases hint with rfl | ⟨c, t, rfl, hc, hdigits⟩
  · rfl
  · rw [List.cons_append, intPart, if_neg hc, if_pos (hdigits c List.mem_cons_self),
      digits_noDigit (fun d hd => hdigits d (List.mem_cons_of_mem _ hd)) hrest]

/-- A number does not start with a sign that it does not have. -/
theorem isDigit_head_decimal {int : Str} (hint : IsDecimal int) :
    ∃ c t, int = c :: t ∧ c.isDigit = true := by
  rcases hint with rfl | ⟨c, t, rfl, -, hdigits⟩
  · exact ⟨'0', [], rfl, by decide⟩
  · exact ⟨c, t, rfl, hdigits c List.mem_cons_self⟩

theorem signPart_digits {signs : List Char} (hsigns : ∀ c ∈ signs, c.isDigit = false)
    {sign digits rest : Str} (hsign : sign = [] ∨ ∃ c ∈ signs, sign = [c])
    (hdigits : ∃ c t, digits = c :: t ∧ c.isDigit = true) :
    signPart signs (sign ++ (digits ++ rest)) = (sign, digits ++ rest) := by
  rcases hsign with rfl | ⟨c, hc, rfl⟩
  · obtain ⟨c, t, rfl, hc⟩ := hdigits
    have hmem : c ∉ signs := by
      intro hmem
      rw [hsigns c hmem] at hc
      cases hc
    rw [List.nil_append, List.cons_append, signPart, if_neg hmem]
  · rw [List.cons_append, List.nil_append, signPart, if_pos hc]

theorem optionalPart_nil {marks signs : List Char} {rest : Str}
    (hrest : ∀ c ∈ rest.head?, c ∉ marks) : optionalPart marks signs rest = ([], rest) := by
  cases rest with
  | nil => rfl
  | cons c rest =>
    rw [optionalPart]
    dsimp only
    rw [if_neg fun h => hrest c rfl h.1]

theorem optionalPart_part {marks signs : List Char} (hsigns : ∀ c ∈ signs, c.isDigit = false)
    {part rest : Str} (hpart : IsPart marks signs part) (hdigit : NoDigit rest)
    (hmark : part = [] → ∀ c ∈ rest.head?, c ∉ marks) :
    optionalPart marks signs (part ++ rest) = (part, rest) := by
  rcases hpart with rfl | ⟨mark, hmem, sign, ds, rfl, hsign, hne, hdigits⟩
  · exact optionalPart_nil (hmark rfl)
  · have hhead : ∃ c t, ds = c :: t ∧ c.isDigit = true := by
      cases ds with
      | nil => exact absurd rfl hne
      | cons c t => exact ⟨c, t, rfl, hdigits c List.mem_cons_self⟩
    rw [List.cons_append, List.append_assoc, optionalPart, signPart_digits hsigns hsign hhead]
    dsimp only
    rw [digits_noDigit hdigits hdigit, if_pos ⟨hmem, hne⟩]
    rfl

/-- **A number is read as its parts**, before a character that is not of a number. -/
theorem scanNumber_parts {sign int fraction exponent rest : Str}
    (hsign : sign = [] ∨ sign = ['-']) (hint : IsDecimal int) (hfraction : IsPart ['.'] [] fraction)
    (hexponent : IsPart ['e'] ['+', '-'] exponent) (hrest : Followed rest) :
    scanNumber (sign ++ (int ++ (fraction ++ (exponent ++ rest)))) =
      if fraction ++ exponent ≠ [] then .ok (.float (sign ++ int ++ fraction ++ exponent), rest)
      else if intMaxStrDigits < int.length then .error .valueError
      else .ok (.int (if sign = [] then ofDecimal int else -ofDecimal int), rest) := by
  have hsign' : sign = [] ∨ ∃ c ∈ ['-'], sign = [c] := by
    rcases hsign with rfl | rfl
    · exact Or.inl rfl
    · exact Or.inr ⟨'-', List.mem_singleton_self _, rfl⟩
  have hexponent' : IsPart ['e', 'E'] ['+', '-'] exponent := by
    rcases hexponent with rfl | ⟨mark, hmem, tail⟩
    · exact Or.inl rfl
    · exact Or.inr ⟨mark, List.mem_cons.mpr (Or.inl (List.mem_singleton.mp hmem)), tail⟩
  -- The integer ends at the point, at the `e` or at what follows the number.
  have hexponentHead : ∀ c ∈ (exponent ++ rest).head?, c.isDigit = false ∧ c ≠ '.' := by
    rcases hexponent with rfl | ⟨mark, hmem, ds, digits, rfl, -⟩
    · intro c hc
      obtain ⟨hdigit, hpoint, -⟩ := hrest.apart c hc
      exact ⟨hdigit, hpoint⟩
    · rintro c ⟨⟩
      rw [List.mem_singleton.mp hmem]
      decide
  have hfractionHead : NoDigit (fraction ++ (exponent ++ rest)) := by
    rcases hfraction with rfl | ⟨mark, hmem, ds, digits, rfl, -⟩
    · exact fun c hc => (hexponentHead c hc).1
    · rintro c ⟨⟩
      rw [List.mem_singleton.mp hmem]
      decide
  have hpoint : fraction = [] → ∀ c ∈ (exponent ++ rest).head?, c ∉ ['.'] := by
    intro _ c hc hmem
    exact (hexponentHead c hc).2 (List.mem_singleton.mp hmem)
  have hmark : exponent = [] → ∀ c ∈ rest.head?, c ∉ ['e', 'E'] := by
    intro _ c hc hmem
    obtain ⟨-, -, he, hE⟩ := hrest.apart c hc
    simp only [List.mem_cons, List.not_mem_nil, or_false] at hmem
    exact hmem.elim he hE
  rw [scanNumber, signPart_digits (List.forall_mem_singleton.2 rfl) hsign'
    (isDigit_head_decimal hint)]
  dsimp only
  rw [intPart_decimal hint hfractionHead]
  dsimp only
  rw [optionalPart_part (by simp) hfraction (fun c hc => (hexponentHead c hc).1) hpoint]
  dsimp only
  rw [optionalPart_part (by simp) hexponent' hrest.noDigit hmark]

theorem ofDecimal_concat (s : Str) (c : Char) :
    ofDecimal (s ++ [c]) = 10 * ofDecimal s + (c.toNat - 48) := by
  rw [ofDecimal, List.map_append, List.map_singleton, ofBase_concat]
  rfl

theorem digitChar_value : ∀ n < 10, n.digitChar.toNat - 48 = n := by decide

/-- **The digits of a number** are decimal, and stand for it. -/
theorem toDigits_ten_spec (n : ℕ) :
    IsDecimal (Nat.toDigits 10 n) ∧ ofDecimal (Nat.toDigits 10 n) = n := by
  induction n using Nat.strong_induction_on with
  | _ n ih =>
    rw [Nat.toDigits_eq_if (by norm_num)]
    split
    case isTrue h =>
      refine ⟨?_, ?_⟩
      · have hall : ∀ m < 10, m.digitChar = '0' ∨ m.digitChar ≠ '0' ∧ m.digitChar.isDigit = true := by
          decide
        rcases hall n h with hzero | ⟨hne, hdigit⟩
        · exact Or.inl (by rw [hzero])
        · refine Or.inr ⟨_, _, rfl, hne, fun d hd => ?_⟩
          rw [List.mem_singleton.mp hd]
          exact hdigit
      · rw [ofDecimal, List.map_singleton, ofBase, List.foldl_cons, List.foldl_nil,
          digitChar_value n h]
        omega
    case isFalse h =>
      have hmod : n % 10 < 10 := Nat.mod_lt _ (by norm_num)
      obtain ⟨hdecimal, hvalue⟩ := ih (n / 10) (by omega)
      have hdigit : (n % 10).digitChar.isDigit = true := by
        have hall : ∀ m < 10, m.digitChar.isDigit = true := by decide
        exact hall _ hmod
      refine ⟨?_, ?_⟩
      · rcases hdecimal with hzero | ⟨c, t, hdigits, hne, hall⟩
        · -- A number of more than one digit does not start with a zero.
          rw [hzero] at hvalue
          have hten : n / 10 = 0 := hvalue.symm
          omega
        · refine Or.inr ⟨c, t ++ [(n % 10).digitChar], by rw [hdigits]; rfl, hne, ?_⟩
          intro d hd
          rcases List.mem_append.mp (List.cons_append ▸ hd) with hd | hd
          · exact hall d hd
          · rw [List.mem_singleton.mp hd]
            exact hdigit
      · rw [ofDecimal_concat, hvalue, digitChar_value _ hmod]
        omega

/-- **An integer is read back** as far as Python prints it. -/
theorem scanNumber_intRepr {n : ℤ} (hn : (Nat.toDigits 10 n.natAbs).length ≤ intMaxStrDigits)
    {rest : Str} (hrest : Followed rest) : scanNumber (intRepr n ++ rest) = .ok (.int n, rest) := by
  obtain ⟨hdecimal, hvalue⟩ := toDigits_ten_spec n.natAbs
  have hread := fun sign hsign => @scanNumber_parts sign (Nat.toDigits 10 n.natAbs) [] [] rest hsign
    hdecimal (Or.inl rfl) (Or.inl rfl) hrest
  simp only [List.nil_append, List.append_nil, ne_eq, not_true_eq_false, if_false,
    if_neg (Nat.not_lt.mpr hn), hvalue] at hread
  rw [intRepr]
  split_ifs with hneg
  · have hminus := hread ['-'] (Or.inr rfl)
    rw [if_neg (List.cons_ne_nil _ _)] at hminus
    rw [List.cons_append]
    refine hminus.trans ?_
    rw [show -(n.natAbs : ℤ) = n by omega]
  · have hplain := hread [] (Or.inl rfl)
    rw [if_pos rfl, List.nil_append] at hplain
    refine hplain.trans ?_
    rw [show (n.natAbs : ℤ) = n by omega]

/-- **A float is read back** as its text. -/
theorem scanNumber_literal {s rest : Str} (hs : IsLiteral s) (hrest : Followed rest) :
    scanNumber (s ++ rest) = .ok (.float s, rest) := by
  obtain ⟨sign, int, fraction, exponent, rfl, hsign, hint, hfraction, hexponent, hne⟩ := hs
  have hread := scanNumber_parts hsign hint hfraction hexponent hrest
  rw [if_pos hne] at hread
  simp only [List.append_assoc] at hread ⊢
  exact hread

/-! ## Flat values -/

/-- What begins with a digit is no name. -/
theorem scanName_digit {c : Char} (hc : c.isDigit = true) (s : Str) : scanName (c :: s) = none := by
  have hne : ∀ d : Char, d.isDigit = false → d ≠ c := by
    rintro d hd rfl
    rw [hc] at hd
    cases hd
  rw [scanName, List.findSome?_eq_none_iff]
  intro entry hentry
  simp only [names, List.mem_cons, List.not_mem_nil, or_false] at hentry
  obtain ⟨d, name, hname, hd⟩ : ∃ d name, entry.1 = d :: name ∧ d.isDigit = false := by
    rcases hentry with rfl | rfl | rfl | rfl | rfl | rfl <;> exact ⟨_, _, rfl, by decide⟩
  rw [hname, List.isPrefixOf, beq_false_of_ne (hne d hd)]
  rfl

/-- A minus sign and a digit are no name: the name with a minus sign goes on with a letter. -/
theorem scanName_minus {c : Char} (hc : c.isDigit = true) (s : Str) :
    scanName ('-' :: c :: s) = none := by
  have hne : 'I' ≠ c := by
    rintro rfl
    cases hc
  rw [scanName, List.findSome?_eq_none_iff]
  intro entry hentry
  simp only [names, List.mem_cons, List.not_mem_nil, or_false] at hentry
  rcases hentry with rfl | rfl | rfl | rfl | rfl | rfl <;> simp [List.isPrefixOf, hne]

/-- A number is read as a value. -/
theorem scanOnce_number {depth : ℕ} {sign int tail : Str} (hsign : sign = [] ∨ sign = ['-'])
    (hint : IsDecimal int) :
    scanOnce depth (sign ++ (int ++ tail)) = scanNumber (sign ++ (int ++ tail)) := by
  obtain ⟨c, t, rfl, hc⟩ := isDigit_head_decimal hint
  have hne : ∀ d : Char, d.isDigit = false → c ≠ d := by
    rintro d hd rfl
    rw [hc] at hd
    cases hd
  rcases hsign with rfl | rfl
  · rw [List.nil_append, List.cons_append, scanOnce_flat (hne _ (by decide)) (hne _ (by decide)),
      scanFlat_of_not_quote fun s' heq => hne '"' (by decide) (List.cons.inj heq).1,
      scanName_digit hc]
  · rw [List.cons_append, List.nil_append, List.cons_append, scanOnce_flat (by decide) (by decide),
      scanFlat_of_not_quote fun s' heq => absurd (List.cons.inj heq).1 (by decide),
      scanName_minus hc]

/-- The start of a text that is a value: no white space, no closing bracket and no byte order mark. -/
def Starts (text : Str) : Prop :=
  ∃ c t, text = c :: t ∧ isJsonSpace c = false ∧ c ∉ [']', '}', '\ufeff']

theorem starts_cons {c : Char} (t : Str) (h : isJsonSpace c = false ∧ c ∉ [']', '}', '\ufeff']) :
    Starts (c :: t) := ⟨c, t, rfl, h⟩

theorem starts_number {sign int : Str} (hsign : sign = [] ∨ sign = ['-']) (hint : IsDecimal int)
    (tail : Str) : Starts (sign ++ (int ++ tail)) := by
  obtain ⟨c, t, rfl, hc⟩ := isDigit_head_decimal hint
  rcases hsign with rfl | rfl
  · refine starts_cons _ ⟨?_, fun hmem => ?_⟩
    · rw [isJsonSpace, Bool.or_eq_false_iff, Bool.or_eq_false_iff, Bool.or_eq_false_iff]
      simp only [beq_eq_false_iff_ne]
      refine ⟨⟨⟨?_, ?_⟩, ?_⟩, ?_⟩ <;> rintro rfl <;> cases hc
    · simp only [List.mem_cons, List.not_mem_nil, or_false] at hmem
      rcases hmem with rfl | rfl | rfl <;> revert hc <;> decide
  · exact starts_cons _ (by decide)

theorem Starts.append {text : Str} (h : Starts text) (t : Str) : Starts (text ++ t) := by
  obtain ⟨c, text, rfl, hc⟩ := h
  exact ⟨c, text ++ t, rfl, hc⟩

theorem skipSpace_cons {c : Char} (h : isJsonSpace c = false) (t : Str) : skipSpace (c :: t) = c :: t :=
  List.dropWhile_cons_of_neg (by rw [h]; exact Bool.false_ne_true)

theorem Starts.skipSpace_eq {text : Str} (h : Starts text) : skipSpace text = text := by
  obtain ⟨c, text, rfl, hspace, -⟩ := h
  exact skipSpace_cons hspace text

/-- The white space before a text is skipped. -/
theorem Starts.skipSpace_append {text : Str} (h : Starts text) {before : Str}
    (hbefore : ∀ c ∈ before, isJsonSpace c = true) : skipSpace (before ++ text) = text := by
  rw [skipSpace, List.dropWhile_append_of_pos hbefore, ← skipSpace, h.skipSpace_eq]

theorem isJsonSpace_space (style : JsonStyle) : ∀ c ∈ style.space, isJsonSpace c = true := by
  intro c hc
  rw [JsonStyle.space] at hc
  split at hc
  · rw [List.mem_singleton.mp hc]
    decide
  · cases hc

/-! ## Containers -/

/-- A text is read as a value before whatever may follow it. -/
structure ReadsAs {α : Type} (read : Str → Except LoadError (α × Str)) (text : Str) (a : α) : Prop where
  starts : Starts text
  read : ∀ {rest}, Followed rest → read (text ++ rest) = .ok (a, rest)

theorem followed_nil : Followed [] := fun _ hc => by cases hc

theorem followed_joinedTail (style : JsonStyle) {close : Char} (hclose : close = ']' ∨ close = '}')
    (texts : List Str) (rest : Str) : Followed (style.joinedTail close texts ++ rest) := by
  cases texts with
  | nil =>
    rintro c ⟨⟩
    rcases hclose with rfl | rfl
    · exact Or.inr (Or.inl rfl)
    · exact Or.inr (Or.inr (Or.inl rfl))
  | cons text texts =>
    rintro c ⟨⟩
    exact Or.inl rfl

theorem skipSpace_joinedTail (style : JsonStyle) {close : Char} (hclose : close = ']' ∨ close = '}')
    (texts : List Str) (rest : Str) :
    skipSpace (style.joinedTail close texts ++ rest) = style.joinedTail close texts ++ rest := by
  cases texts with
  | nil => exact skipSpace_cons (by rcases hclose with rfl | rfl <;> decide) _
  | cons text texts => exact skipSpace_cons (by decide) _

/-- Every item has a comma or the closing character after it. -/
theorem length_lt_joinedTail (style : JsonStyle) (close : Char) (texts : List Str) :
    texts.length < (style.joinedTail close texts).length := by
  induction texts with
  | nil => exact Nat.one_pos
  | cons text texts ih =>
    rw [JsonStyle.joinedTail, List.length_cons, List.length_cons, List.length_append,
      List.length_append]
    omega

section Items

variable {α : Type} {read : Str → Except LoadError (α × Str)} {close : Char}

theorem itemsUpTo_joined (style : JsonStyle) (hclose : close = ']' ∨ close = '}') {text : Str} {a : α}
    {texts : List Str} {values : List α} (hfirst : ReadsAs read text a)
    (hvalues : List.Forall₂ (ReadsAs read) texts values) {n : ℕ} (hn : texts.length < n) (rest : Str) :
    itemsUpTo read close n (text ++ (style.joinedTail close texts ++ rest)) =
      .ok (a :: values, rest) := by
  induction hvalues generalizing text a n with
  | nil =>
    obtain ⟨n, rfl⟩ : ∃ k, n = k + 1 := ⟨n - 1, by omega⟩
    rw [itemsUpTo, hfirst.read (followed_joinedTail style hclose [] rest)]
    dsimp only
    rw [skipSpace_joinedTail style hclose]
    simp only [JsonStyle.joinedTail, List.cons_append, List.nil_append, if_true]
  | @cons text' a' texts values hnext hvalues ih =>
    obtain ⟨n, rfl⟩ : ∃ k, n = k + 1 := ⟨n - 1, by omega⟩
    have hlength : texts.length < n := by
      rw [List.length_cons] at hn
      omega
    have hcomma : (',' : Char) ≠ close := by
      rcases hclose with rfl | rfl <;> decide
    rw [itemsUpTo, hfirst.read (followed_joinedTail style hclose _ rest)]
    dsimp only
    rw [skipSpace_joinedTail style hclose]
    simp only [JsonStyle.joinedTail, List.cons_append, List.append_assoc]
    -- The next item comes after the comma and the white space of the separator.
    rw [if_neg hcomma, if_pos trivial,
      (hnext.starts.append _).skipSpace_append (isJsonSpace_space style), ih hnext hlength]
    rfl

/-- **The items of a container are read back**, each as its text is. -/
theorem itemsOf_joined (style : JsonStyle) (hclose : close = ']' ∨ close = '}') {texts : List Str}
    {values : List α} (hvalues : List.Forall₂ (ReadsAs read) texts values) (rest : Str) :
    itemsOf read close (style.joined close texts ++ rest) = .ok (values, rest) := by
  cases hvalues with
  | nil =>
    have hspace : isJsonSpace close = false := by rcases hclose with rfl | rfl <;> decide
    rw [JsonStyle.joined, List.cons_append, List.nil_append, itemsOf, skipSpace_cons hspace]
    exact if_pos rfl
  | @cons text a texts values hfirst hvalues =>
    obtain ⟨c, t, rfl, hspace, hbrackets⟩ := hfirst.starts
    have hne : c ≠ close := by
      rintro rfl
      rcases hclose with rfl | rfl <;> exact hbrackets (by decide)
    have hskip := (hfirst.starts.append (style.joinedTail close texts ++ rest)).skipSpace_eq
    have hlength := length_lt_joinedTail style close texts
    rw [JsonStyle.joined, List.append_assoc, itemsOf, hskip, List.cons_append]
    dsimp only
    rw [if_neg hne, ← List.cons_append]
    refine itemsUpTo_joined style hclose hfirst hvalues ?_ rest
    simp only [List.length_append]
    omega

end Items

theorem readsAs_member (style : JsonStyle) {scan : Str → Except LoadError (Value × Str)}
    (key : String) {text : Str} {value : Value} (h : ReadsAs scan text value) :
    ReadsAs (member scan) (style.member key text) (Json.points key, value) := by
  refine ⟨starts_cons _ (by decide), fun {rest} hrest => ?_⟩
  simp only [JsonStyle.member, JsonStyle.string, List.cons_append, List.append_assoc,
    List.nil_append]
  rw [JsonDecoder.member, if_pos rfl, scanString_write]
  dsimp only
  rw [memberValue, skipSpace_cons (by decide)]
  dsimp only
  rw [if_pos rfl, (h.starts.append rest).skipSpace_append (isJsonSpace_space style), h.read hrest]
  rfl

theorem readsAs_number {depth : ℕ} {sign int tail s : Str} {v : Value} (hsign : sign = [] ∨ sign = ['-'])
    (hint : IsDecimal int) (hs : s = sign ++ (int ++ tail))
    (hread : ∀ {rest}, Followed rest → scanNumber (s ++ rest) = .ok (v, rest)) :
    ReadsAs (scanOnce depth) s v := by
  subst hs
  refine ⟨starts_number hsign hint tail, fun {rest} hrest => ?_⟩
  rw [← hread hrest, List.append_assoc, List.append_assoc, scanOnce_number hsign hint]

/-! ## Values -/

/-- **A value is read back at the start of a text**, in whatever style it is written. -/
theorem scanOnce_write (style : JsonStyle) (v : Json) (hv : v.Writable) {depth : ℕ}
    (hdepth : v.depth ≤ depth) : ReadsAs (scanOnce depth) (v.write style) v.decoded := by
  induction v using Json.induction generalizing depth with
  | null =>
    refine ⟨starts_cons _ (by decide), fun _ => ?_⟩
    rw [Json.write, List.cons_append, scanOnce_flat (by decide) (by decide)]
    rfl
  | bool value =>
    cases value
    all_goals
      refine ⟨starts_cons _ (by decide), fun _ => ?_⟩
      rw [Json.write, List.cons_append, scanOnce_flat (by decide) (by decide)]
      rfl
  | int value =>
    obtain ⟨hdecimal, -⟩ := toDigits_ten_spec value.natAbs
    obtain ⟨sign, hsign, hrepr⟩ : ∃ sign, (sign = [] ∨ sign = ['-']) ∧
        intRepr value = sign ++ (Nat.toDigits 10 value.natAbs ++ []) := by
      rw [intRepr, List.append_nil]
      split_ifs with hneg
      · exact ⟨['-'], Or.inr rfl, rfl⟩
      · exact ⟨[], Or.inl rfl, rfl⟩
    exact readsAs_number hsign hdecimal hrepr (scanNumber_intRepr hv)
  | float value =>
    have hread := fun {rest} => @scanNumber_literal value.text rest hv
    obtain ⟨sign, int, fraction, exponent, htext, hsign, hint, -⟩ := hv
    exact readsAs_number hsign hint htext hread
  | text value =>
    refine ⟨starts_cons _ (by decide), fun {rest} _ => ?_⟩
    rw [Json.write, JsonStyle.string, List.cons_append, scanOnce_flat (by decide) (by decide), scanFlat,
      List.append_assoc, List.cons_append, List.nil_append, scanString_write]
    rfl
  | list items ih =>
    rw [Json.depth] at hdepth
    obtain ⟨inner, rfl⟩ : ∃ inner, depth = inner + 1 := ⟨depth - 1, by omega⟩
    have hitems : List.Forall₂ (ReadsAs (scanOnce inner)) (Json.writeItems style items)
        (Json.decodedItems items) := by
      rw [Json.writeItems_eq_map, Json.decodedItems_eq_map, List.forall₂_map_left_iff,
        List.forall₂_map_right_iff, List.forall₂_same]
      intro item hitem
      have hle := Json.depthItems_le_iff.mp le_rfl item hitem
      exact ih item hitem (Json.writableItems_iff.mp hv item hitem) (by omega)
    refine ⟨starts_cons _ (by decide), fun {rest} _ => ?_⟩
    rw [Json.write, List.cons_append, scanOnce, arrayBody,
      itemsOf_joined style (Or.inl rfl) hitems]
    rfl
  | object fields ih =>
    rw [Json.depth] at hdepth
    obtain ⟨inner, rfl⟩ : ∃ inner, depth = inner + 1 := ⟨depth - 1, by omega⟩
    have hfields : List.Forall₂ (ReadsAs (member (scanOnce inner))) (Json.writeFields style fields)
        (Json.decodedFields fields) := by
      rw [Json.writeFields_eq_map, Json.decodedFields_eq_map, List.forall₂_map_left_iff,
        List.forall₂_map_right_iff, List.forall₂_same]
      intro field hfield
      have hle := Json.depthFields_le_iff.mp le_rfl field hfield
      exact readsAs_member style field.1
        (ih field hfield (Json.writableFields_iff.mp hv field hfield) (by omega))
    refine ⟨starts_cons _ (by decide), fun {rest} _ => ?_⟩
    rw [Json.write, List.cons_append, scanOnce, objectBody,
      itemsOf_joined style (Or.inr rfl) hfields]
    rfl

/-- **What `json.dumps` writes, `json.loads` reads back**, with white space around it or without. -/
theorem loads_write (style : JsonStyle) {v : Json} (hv : v.Writable) {depth : ℕ}
    (hdepth : v.depth ≤ depth) {before after : Str} (hbefore : ∀ c ∈ before, isJsonSpace c = true)
    (hafter : ∀ c ∈ after, isJsonSpace c = true) :
    loads depth (before ++ (v.write style ++ after)) = .ok v.decoded := by
  obtain ⟨hstarts, hread⟩ := scanOnce_write style v hv hdepth
  have hfollowed : Followed after := by
    cases after with
    | nil => exact followed_nil
    | cons c after =>
      rintro d ⟨⟩
      exact Or.inr (Or.inr (Or.inr (hafter c List.mem_cons_self)))
  have hskip : skipSpace after = [] := by
    rw [skipSpace, List.dropWhile_eq_nil_iff]
    exact hafter
  -- The first character is white space or begins a value, and no byte order mark.
  have hmark : startsWith (before ++ (v.write style ++ after)) ['\ufeff'] = false := by
    obtain ⟨c, t, heq, hc⟩ : ∃ c t, before ++ (v.write style ++ after) = c :: t ∧ c ≠ '\ufeff' := by
      cases before with
      | cons c before =>
        refine ⟨c, _, rfl, ?_⟩
        rintro rfl
        exact absurd (hbefore _ List.mem_cons_self) (by decide)
      | nil =>
        obtain ⟨c, t, htext, -, hmark⟩ := hstarts.append after
        refine ⟨c, t, htext, ?_⟩
        rintro rfl
        exact hmark (by decide)
    rw [heq, startsWith, List.isPrefixOf, beq_false_of_ne hc.symm]
    rfl
  rw [loads, hmark, if_neg Bool.false_ne_true, (hstarts.append after).skipSpace_append hbefore,
    hread hfollowed]
  dsimp only
  rw [if_pos hskip]

/-- A text with nothing but the value. -/
theorem loads_written (style : JsonStyle) {v : Json} (hv : v.Writable) {depth : ℕ}
    (hdepth : v.depth ≤ depth) : loads depth (v.write style) = .ok v.decoded := by
  have hnone : ∀ c ∈ ([] : Str), isJsonSpace c = true := fun _ hc => by cases hc
  have hread := loads_write style hv hdepth hnone hnone
  rwa [List.nil_append, List.append_nil] at hread

end JsonDecoder

/-! ## The text has no control character -/

/-- No control character. -/
def Uncontrolled (s : Str) : Prop := ∀ c ∈ s, 32 ≤ c.toNat

theorem Uncontrolled.append {s t : Str} (hs : Uncontrolled s) (ht : Uncontrolled t) :
    Uncontrolled (s ++ t) := fun c hc => (List.mem_append.mp hc).elim (hs c) (ht c)

theorem Uncontrolled.cons {c : Char} {s : Str} (hc : 32 ≤ c.toNat) (hs : Uncontrolled s) :
    Uncontrolled (c :: s) := List.forall_mem_cons.mpr ⟨hc, hs⟩

theorem uncontrolled_of_all {s : Str} (h : s.all (fun c => decide (32 ≤ c.toNat)) = true) :
    Uncontrolled s := fun c hc => of_decide_eq_true (List.all_eq_true.mp h c hc)

theorem uncontrolled_escapeUnit (n : ℕ) : Uncontrolled (escapeUnit n) := by
  have hhex : ∀ m : ℕ, 32 ≤ (hexChar (m % 16)).toNat := fun m =>
    (JsonDecoder.hexChar_plain _ (Nat.mod_lt _ (by norm_num))).2.2
  exact .cons (by decide) (.cons (by decide) (.cons (hhex _) (.cons (hhex _) (.cons (hhex _)
    (.cons (hhex _) fun _ hc => by cases hc)))))

/-- The escapes of one letter have no control character. -/
theorem uncontrolled_short {c : Char} {otherwise : Str} (h : Uncontrolled otherwise) :
    Uncontrolled (shortEscape c otherwise) := by
  rw [shortEscape]
  split_ifs
  all_goals first
    | exact h
    | exact uncontrolled_of_all (by decide)

theorem uncontrolled_char (style : JsonStyle) (c : Char) : Uncontrolled (style.char c) := by
  have hnil : Uncontrolled [] := fun _ hc => by cases hc
  rw [JsonStyle.char]
  split_ifs
  · apply uncontrolled_short
    split_ifs with hprintable
    · exact .cons hprintable.1 hnil
    · exact uncontrolled_escapeUnit _
    · exact (uncontrolled_escapeUnit _).append (uncontrolled_escapeUnit _)
  · rw [escapeChar_eq]
    apply uncontrolled_short
    split_ifs with hcontrol
    · have hdigit : ∀ n < 16, 32 ≤ (hexChar n).toNat := fun n hn => (JsonDecoder.hexChar_plain n hn).2.2
      exact .append (uncontrolled_of_all (s := ['\\', 'u', '0', '0']) (by decide))
        (.cons (hdigit _ (by omega)) (.cons (hdigit _ (by omega)) hnil))
    · exact .cons (by omega) hnil

theorem uncontrolled_string (style : JsonStyle) (s : String) : Uncontrolled (style.string s) := by
  refine .cons (by decide) (.append (fun c hc => ?_) (uncontrolled_of_all (by decide)))
  obtain ⟨d, -, hd⟩ := List.mem_flatMap.mp hc
  exact uncontrolled_char style d c hd

theorem uncontrolled_space (style : JsonStyle) : Uncontrolled style.space := by
  rw [JsonStyle.space]
  split_ifs
  · exact uncontrolled_of_all (by decide)
  · exact fun _ hc => by cases hc

theorem uncontrolled_joined (style : JsonStyle) {close : Char} (hclose : 32 ≤ close.toNat)
    {texts : List Str} (h : ∀ text ∈ texts, Uncontrolled text) :
    Uncontrolled (style.joined close texts) := by
  have hend : Uncontrolled [close] := .cons hclose fun _ hc => by cases hc
  have htail : ∀ texts : List Str, (∀ text ∈ texts, Uncontrolled text) →
      Uncontrolled (style.joinedTail close texts) := by
    intro texts h
    induction texts with
    | nil => exact hend
    | cons text texts ih =>
      exact .cons (by decide) ((uncontrolled_space style).append
        ((h text List.mem_cons_self).append (ih fun text' ht => h text' (List.mem_cons_of_mem _ ht))))
  cases texts with
  | nil => exact hend
  | cons text texts =>
    exact (h text List.mem_cons_self).append
      (htail texts fun text' ht => h text' (List.mem_cons_of_mem _ ht))

theorem uncontrolled_number {s : Str} (h : ∀ c ∈ s, isNumberChar c = true) : Uncontrolled s := by
  intro c hc
  have hnumber := h c hc
  simp only [isNumberChar, Bool.or_eq_true, beq_iff_eq] at hnumber
  rcases hnumber with (((hdigit | rfl) | rfl) | rfl) | rfl
  · rw [Char.isDigit, Bool.and_eq_true] at hdigit
    have hzero : '0'.toNat ≤ c.toNat := of_decide_eq_true hdigit.1
    exact le_trans (by decide) hzero
  · decide
  · decide
  · decide
  · decide

/-- **The text of a value has no control character**, and so no end of a line. -/
theorem uncontrolled_write (style : JsonStyle) (v : Json) : Uncontrolled (v.write style) := by
  induction v using Json.induction with
  | null => exact uncontrolled_of_all rfl
  | bool value => cases value <;> exact uncontrolled_of_all rfl
  | int value => exact uncontrolled_number fun c => isNumberChar_of_mem_intRepr
  | float value => exact uncontrolled_number value.number
  | text value => exact uncontrolled_string style value
  | list items ih =>
    rw [Json.write, Json.writeItems_eq_map]
    exact .cons (by decide) (uncontrolled_joined style (by decide) (List.forall_mem_map.mpr ih))
  | object fields ih =>
    rw [Json.write, Json.writeFields_eq_map]
    refine .cons (by decide) (uncontrolled_joined style (by decide)
      (List.forall_mem_map.mpr fun field hfield => ?_))
    exact (uncontrolled_string style field.1).append
      (.cons (by decide) ((uncontrolled_space style).append (ih field hfield)))

/-! ## The text without spaces -/

namespace Json

theorem escape_eq_flatMap (s : Str) : escape s = s.flatMap escapeChar ++ ['"'] := by
  induction s with
  | nil => rfl
  | cons c s ih => rw [escape, ih, List.flatMap_cons, List.append_assoc]

theorem string_compact (s : String) : JsonStyle.compact.string s = '"' :: escape s.toList := by
  rw [JsonStyle.string, escape_eq_flatMap]
  rfl

theorem renderItems_eq_joinedTail {items : List Json}
    (h : ∀ item ∈ items, item.write .compact = item.render) :
    renderItems items = JsonStyle.compact.joinedTail ']' (writeItems .compact items) := by
  induction items with
  | nil => rfl
  | cons item items ih =>
    rw [renderItems, ih fun item' hitem => h item' (List.mem_cons_of_mem _ hitem), writeItems,
      JsonStyle.joinedTail, h item List.mem_cons_self]
    rfl

theorem renderFields_eq_joinedTail {fields : List (String × Json)}
    (h : ∀ field ∈ fields, field.2.write .compact = field.2.render) :
    renderFields fields = JsonStyle.compact.joinedTail '}' (writeFields .compact fields) := by
  induction fields with
  | nil => rfl
  | cons field fields ih =>
    obtain ⟨key, value⟩ := field
    rw [renderFields, ih fun field' hfield => h field' (List.mem_cons_of_mem _ hfield), writeFields,
      JsonStyle.joinedTail, JsonStyle.member, string_compact, h _ List.mem_cons_self]
    simp [JsonStyle.space, JsonStyle.compact]

/-- **The text of `Json.render`** is what `json.dumps` writes without spaces and `ensure_ascii`. -/
theorem write_compact (v : Json) : v.write .compact = v.render := by
  induction v using Json.induction with
  | null => rfl
  | bool value => cases value <;> rfl
  | int value => rfl
  | float value => rfl
  | text value => rw [write, render, string_compact]
  | list items ih =>
    cases items with
    | nil => rfl
    | cons item items =>
      rw [write, render, writeItems, JsonStyle.joined, ih item List.mem_cons_self,
        renderItems_eq_joinedTail fun item' hitem => ih item' (List.mem_cons_of_mem _ hitem)]
  | object fields ih =>
    cases fields with
    | nil => rfl
    | cons field fields =>
      obtain ⟨key, value⟩ := field
      rw [write, render, writeFields, JsonStyle.joined, JsonStyle.member, string_compact,
        ih _ List.mem_cons_self,
        renderFields_eq_joinedTail fun field' hfield => ih field' (List.mem_cons_of_mem _ hfield)]
      simp [JsonStyle.space, JsonStyle.compact]

/-! ## What is read back is of one value -/

theorem points_injective : Function.Injective points := by
  intro s t h
  have hchar : Function.Injective Char.toNat := fun a b hab => Char.toNat_inj.mp hab
  exact String.toList_injective (List.map_injective_iff.mpr hchar h)

theorem items_decodedFields {fields : List (String × Json)} (h : (fields.map Prod.fst).Nodup) :
    (Dict.ofItems (decodedFields fields)).items = decodedFields fields := by
  refine Dict.items_foldl_set (d := Dict.empty) ?_
  have hkeys : (decodedFields fields).map Prod.fst = (fields.map Prod.fst).map points := by
    rw [decodedFields_eq_map, List.map_map, List.map_map]
    rfl
  change ((decodedFields fields).map Prod.fst).Nodup
  rw [hkeys]
  exact h.map points_injective

/-- Items are determined by what is read back, if each one is. -/
theorem eq_of_map_eq {α β : Type} {f : α → β} {items items' : List α}
    (h : ∀ a ∈ items, ∀ b ∈ items', f a = f b → a = b) (heq : items.map f = items'.map f) :
    items = items' := by
  induction items generalizing items' with
  | nil => exact (List.map_eq_nil_iff.mp heq.symm).symm
  | cons a items ih =>
    cases items' with
    | nil => cases heq
    | cons b items' =>
      obtain ⟨hfirst, hrest⟩ := List.cons.inj heq
      rw [h a List.mem_cons_self b List.mem_cons_self hfirst,
        ih (fun a' ha b' hb => h a' (List.mem_cons_of_mem _ ha) b' (List.mem_cons_of_mem _ hb)) hrest]

/-- **What is read back is of one value**, among those without a repeated key. -/
theorem decoded_inj {v w : Json} (hv : v.DistinctKeys) (hw : w.DistinctKeys)
    (h : v.decoded = w.decoded) : v = w := by
  induction v using Json.induction generalizing w with
  | null =>
    cases w with
    | null => rfl
    | _ => cases h
  | bool value =>
    cases w with
    | bool value' => rw [JsonDecoder.Value.bool.inj h]
    | _ => cases h
  | int value =>
    cases w with
    | int value' => rw [JsonDecoder.Value.int.inj h]
    | _ => cases h
  | float value =>
    cases w with
    | float value' =>
      obtain ⟨text, _, _⟩ := value
      obtain ⟨text', _, _⟩ := value'
      simp only [decoded, JsonDecoder.Value.float.injEq] at h
      subst h
      rfl
    | _ => cases h
  | text value =>
    cases w with
    | text value' =>
      simp only [decoded, JsonDecoder.Value.text.injEq] at h
      rw [points_injective h]
    | _ => cases h
  | list items ih =>
    cases w with
    | list items' =>
      simp only [decoded, JsonDecoder.Value.list.injEq, decodedItems_eq_map] at h
      rw [eq_of_map_eq (fun a ha b hb hab =>
        ih a ha (distinctKeysItems_iff.mp hv a ha) (distinctKeysItems_iff.mp hw b hb) hab) h]
    | _ => cases h
  | object fields ih =>
    cases w with
    | object fields' =>
      simp only [decoded, JsonDecoder.Value.dict.injEq] at h
      rw [items_decodedFields hv.1, items_decodedFields hw.1, decodedFields_eq_map,
        decodedFields_eq_map] at h
      have hfields : fields = fields' := eq_of_map_eq (fun a ha b hb hab => by
        obtain ⟨hkey, hvalue⟩ := Prod.mk.inj hab
        exact Prod.ext (points_injective hkey) (ih a ha (distinctKeysFields_iff.mp hv.2 a ha)
          (distinctKeysFields_iff.mp hw.2 b hb) hvalue)) h
      rw [hfields]
    | _ => cases h

/-! ## The canonical value can be read back -/

theorem mem_sorted_canonicalFields {fields : List (String × Json)} {field : String × Json} :
    field ∈ (canonicalFields fields).insertionSort KeyLe ↔
      ∃ original ∈ fields, (original.1, original.2.canonical) = field := by
  rw [List.mem_insertionSort, canonicalFields_eq_map, List.mem_map]

theorem canonicalItems_eq_map (items : List Json) : canonicalItems items = items.map canonical := by
  induction items with
  | nil => rfl
  | cons item items ih => rw [canonicalItems, ih, List.map_cons]

theorem Writable.canonical {v : Json} (hv : v.Writable) : v.canonical.Writable := by
  induction v using Json.induction with
  | null | bool _ | text _ => exact trivial
  | int value | float value => exact hv
  | list items ih =>
    rw [Json.canonical, canonicalItems_eq_map]
    refine writableItems_iff.mpr (List.forall_mem_map.mpr fun item hitem => ?_)
    exact ih item hitem (writableItems_iff.mp hv item hitem)
  | object fields ih =>
    rw [Json.canonical]
    refine writableFields_iff.mpr fun field hfield => ?_
    obtain ⟨original, horiginal, rfl⟩ := mem_sorted_canonicalFields.mp hfield
    exact ih original horiginal (writableFields_iff.mp hv original horiginal)

theorem DistinctKeys.canonical {v : Json} (hv : v.DistinctKeys) : v.canonical.DistinctKeys := by
  induction v using Json.induction with
  | null | bool _ | int _ | float _ | text _ => exact trivial
  | list items ih =>
    rw [Json.canonical, canonicalItems_eq_map]
    refine distinctKeysItems_iff.mpr (List.forall_mem_map.mpr fun item hitem => ?_)
    exact ih item hitem (distinctKeysItems_iff.mp hv item hitem)
  | object fields ih =>
    rw [Json.canonical]
    refine ⟨?_, distinctKeysFields_iff.mpr fun field hfield => ?_⟩
    · have hperm := (List.perm_insertionSort KeyLe (canonicalFields fields)).map Prod.fst
      rw [hperm.nodup_iff, keys_canonicalFields]
      exact hv.1
    · obtain ⟨original, horiginal, rfl⟩ := mem_sorted_canonicalFields.mp hfield
      exact ih original horiginal (distinctKeysFields_iff.mp hv.2 original horiginal)

theorem depth_canonical_le (v : Json) : v.canonical.depth ≤ v.depth := by
  induction v using Json.induction with
  | null | bool _ | int _ | float _ | text _ => exact le_rfl
  | list items ih =>
    rw [canonical, depth, depth, canonicalItems_eq_map]
    refine Nat.succ_le_succ (depthItems_le_iff.mpr (List.forall_mem_map.mpr fun item hitem => ?_))
    exact (ih item hitem).trans (depthItems_le_iff.mp le_rfl item hitem)
  | object fields ih =>
    rw [canonical, depth, depth]
    refine Nat.succ_le_succ (depthFields_le_iff.mpr fun field hfield => ?_)
    obtain ⟨original, horiginal, rfl⟩ := mem_sorted_canonicalFields.mp hfield
    exact (ih original horiginal).trans (depthFields_le_iff.mp le_rfl original horiginal)

/-- The canonical form is its own canonical form. -/
theorem canonical_canonical (v : Json) : v.canonical.canonical = v.canonical := by
  induction v using Json.induction with
  | null | bool _ | int _ | float _ | text _ => rfl
  | list items ih =>
    rw [canonical, canonical, canonicalItems_eq_map, canonicalItems_eq_map, List.map_map]
    exact congrArg Json.list (List.map_congr_left fun item hitem => ih item hitem)
  | object fields ih =>
    have hsame : canonicalFields ((canonicalFields fields).insertionSort KeyLe) =
        (canonicalFields fields).insertionSort KeyLe := by
      rw [canonicalFields_eq_map]
      refine (List.map_congr_left fun field hfield => ?_).trans (List.map_id _)
      obtain ⟨original, horiginal, rfl⟩ := mem_sorted_canonicalFields.mp hfield
      exact Prod.ext rfl (ih original horiginal)
    rw [canonical, canonical, hsame, (pairwise_sortedFields _).insertionSort_eq]

end Json

end Python
