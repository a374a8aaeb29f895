import SecOpent.Python.Dict
import SecOpent.Python.IpAddress

/-!
# Decoding JSON

`json.loads`: a text is white space, a value and white space. Containers are read by the decoder of
their elements, one level of the stack down. A text is a list of code points, as an escape may name a
surrogate alone, and a float is its literal.

## Main definitions

* `Value`: what `json.loads` returns
* `scanOnce`: the value at the start of a text, and the text after it
* `loads`

## Main results

* `local_scanOnce`: a value is read in the same way whatever white space follows it
* `loads_around`: what is decoded of a text around a decoded text
-/

namespace Python

namespace JsonDecoder

/-- What `json.loads` returns. -/
inductive Value
  | null
  | bool (value : Bool)
  | int (value : ℤ)
  | float (literal : Str)
  | text (points : List ℕ)
  | list (items : List Value)
  | dict (items : List (List ℕ × Value))

/-- What `json.loads` raises: `JSONDecodeError`, the `ValueError` of an integer with too many digits, or
`RecursionError`. -/
inductive LoadError
  | decodeError
  | valueError
  | recursionError
  deriving DecidableEq, Repr

/-- White space of JSON. -/
def isJsonSpace (c : Char) : Bool := c == ' ' || c == '\t' || c == '\n' || c == '\r'

/-- The text after its white space. -/
def skipSpace (s : Str) : Str := s.dropWhile isJsonSpace

/-! ## Strings -/

/-- The text up to the quote that ends a string, and the text after it: control characters are
refused, and a backslash keeps the character after it. -/
def stringBody : Str → Option (Str × Str)
  | [] => none
  | '"' :: s => some ([], s)
  | '\\' :: c :: s => (stringBody s).map fun (body, rest) => ('\\' :: c :: body, rest)
  | c :: s =>
    if c.toNat < 32 then none else (stringBody s).map fun (body, rest) => (c :: body, rest)

/-- The character that an escape of one letter names. -/
def simpleEscape (c : Char) : Option ℕ :=
  [('"', 34), ('\\', 92), ('/', 47), ('b', 8), ('f', 12), ('n', 10), ('r', 13), ('t', 9)].lookup c

/-- The code units of the body of a string. -/
def codeUnits : Str → Option (List ℕ)
  | [] => some []
  | '\\' :: 'u' :: a :: b :: c :: d :: s =>
    if [a, b, c, d].all isHexDigit then
      (codeUnits s).map fun units => ofHex [a, b, c, d] :: units
    else none
  | '\\' :: c :: s =>
    match simpleEscape c with
    | none => none
    | some unit => (codeUnits s).map fun units => unit :: units
  | c :: s => (codeUnits s).map fun units => c.toNat :: units

/-- Code units with the pairs of surrogates joined. -/
def joinSurrogates : List ℕ → List ℕ
  | [] => []
  | [a] => [a]
  | a :: b :: units =>
    if 0xd800 ≤ a ∧ a ≤ 0xdbff ∧ 0xdc00 ≤ b ∧ b ≤ 0xdfff then
      (0x10000 + (a - 0xd800) * 0x400 + (b - 0xdc00)) :: joinSurrogates units
    else a :: joinSurrogates (b :: units)

/-- `scanstring`, after the quote. -/
def scanString (s : Str) : Except LoadError (List ℕ × Str) :=
  match stringBody s with
  | none => .error .decodeError
  | some (body, rest) =>
    match codeUnits body with
    | none => .error .decodeError
    | some units => .ok (joinSurrogates units, rest)

/-! ## Numbers and literals -/

/-- The digits at the start of a text, and the text after them. -/
def digits (s : Str) : Str × Str := (s.takeWhile Char.isDigit, s.dropWhile Char.isDigit)

/-- A sign at the start of a text, and the text after it. -/
def signPart (signs : List Char) : Str → Str × Str
  | [] => ([], [])
  | c :: s => if c ∈ signs then ([c], s) else ([], c :: s)

/-- `0`, or digits that do not start with a zero. -/
def intPart : Str → Option (Str × Str)
  | [] => none
  | c :: s =>
    if c = '0' then some ([c], s)
    else if c.isDigit then some (c :: (digits s).1, (digits s).2)
    else none

/-- A mark, a sign and digits, or nothing if there are no digits. -/
def optionalPart (marks signs : List Char) : Str → Str × Str
  | [] => ([], [])
  | c :: s =>
    let (sign, t) := signPart signs s
    if c ∈ marks ∧ (digits t).1 ≠ [] then (c :: sign ++ (digits t).1, (digits t).2) else ([], c :: s)

/-- `sys.get_int_max_str_digits()`. -/
def intMaxStrDigits : ℕ := 4300

/-- `int`, of decimal digits. -/
def ofDecimal (s : Str) : ℕ := ofBase 10 (s.map fun c => c.toNat - 48)

/-- The number at the start of a text. -/
def scanNumber (s : Str) : Except LoadError (Value × Str) :=
  let (sign, t) := signPart ['-'] s
  match intPart t with
  | none => .error .decodeError
  | some (int, t) =>
    let (fraction, t) := optionalPart ['.'] [] t
    let (exponent, t) := optionalPart ['e', 'E'] ['+', '-'] t
    -- Digits without a fraction and an exponent are an integer, which must not be too long.
    if fraction ++ exponent ≠ [] then .ok (.float (sign ++ int ++ fraction ++ exponent), t)
    else if intMaxStrDigits < int.length then .error .valueError
    else .ok (.int (if sign = [] then ofDecimal int else -ofDecimal int), t)

/-- The names of values. -/
def names : List (Str × Value) :=
  [("null".toList, .null), ("true".toList, .bool true), ("false".toList, .bool false),
    ("NaN".toList, .float "NaN".toList), ("Infinity".toList, .float "Infinity".toList),
    ("-Infinity".toList, .float "-Infinity".toList)]

/-- The name at the start of a text. -/
def scanName (s : Str) : Option (Value × Str) :=
  names.findSome? fun entry =>
    if entry.1.isPrefixOf s then some (entry.2, s.drop entry.1.length) else none

/-- The value at the start of a text that is no container. -/
def scanFlat : Str → Except LoadError (Value × Str)
  | '"' :: s => (scanString s).map fun (points, rest) => (.text points, rest)
  | s =>
    match scanName s with
    | some found => .ok found
    | none => scanNumber s

/-! ## Containers -/

/-- Items with commas between them, up to the closing character; `n` bounds their number. -/
def itemsUpTo {α : Type} (read : Str → Except LoadError (α × Str)) (close : Char) :
    ℕ → Str → Except LoadError (List α × Str)
  | 0, _ => .error .decodeError
  | n + 1, s =>
    match read s with
    | .error error => .error error
    | .ok (item, rest) =>
      match skipSpace rest with
      | [] => .error .decodeError
      | c :: rest =>
        if c = close then .ok ([item], rest)
        -- After a comma there is another item, and no closing character.
        else if c = ',' then
          (itemsUpTo read close n (skipSpace rest)).map fun found => (item :: found.1, found.2)
        else .error .decodeError

/-- No items, or items up to the closing character. -/
def itemsOf {α : Type} (read : Str → Except LoadError (α × Str)) (close : Char) (s : Str) :
    Except LoadError (List α × Str) :=
  match skipSpace s with
  | [] => .error .decodeError
  | c :: rest =>
    if c = close then .ok ([], rest)
    else itemsUpTo read close ((c :: rest).length + 1) (c :: rest)

/-- The value of a member of an object, after its key. -/
def memberValue (scan : Str → Except LoadError (Value × Str)) (s : Str) :
    Except LoadError (Value × Str) :=
  match skipSpace s with
  | [] => .error .decodeError
  | c :: rest => if c = ':' then scan (skipSpace rest) else .error .decodeError

/-- A member of an object: a key and a value. -/
def member (scan : Str → Except LoadError (Value × Str)) :
    Str → Except LoadError ((List ℕ × Value) × Str)
  | [] => .error .decodeError
  | c :: s =>
    if c = '"' then
      match scanString s with
      | .error error => .error error
      | .ok (key, rest) => (memberValue scan rest).map fun found => ((key, found.1), found.2)
    else .error .decodeError

/-- An array, after its opening bracket. -/
def arrayBody (scan : Str → Except LoadError (Value × Str)) (s : Str) :
    Except LoadError (Value × Str) :=
  (itemsOf scan ']' s).map fun found => (.list found.1, found.2)

/-- An object, after its opening brace: the last member with a key gives its value. -/
def objectBody (scan : Str → Except LoadError (Value × Str)) (s : Str) :
    Except LoadError (Value × Str) :=
  (itemsOf (member scan) '}' s).map fun found => (.dict (Dict.ofItems found.1).items, found.2)

/-- The value at the start of a text, with room for `depth` containers in each other. -/
def scanOnce : ℕ → Str → Except LoadError (Value × Str)
  -- The stack has no room for another container.
  | 0, '{' :: _ => .error .recursionError
  | 0, '[' :: _ => .error .recursionError
  | depth + 1, '{' :: s => objectBody (scanOnce depth) s
  | depth + 1, '[' :: s => arrayBody (scanOnce depth) s
  | _, s => scanFlat s

/-- `json.loads`. -/
def loads (depth : ℕ) (s : Str) : Except LoadError Value :=
  -- A byte order mark is refused, and so is more text after the value.
  if startsWith s ['\ufeff'] then .error .decodeError
  else
    match scanOnce depth (skipSpace s) with
    | .error error => .error error
    | .ok (value, rest) => if skipSpace rest = [] then .ok value else .error .decodeError

/-! ## What is read is read off the text -/

theorem exists_of_map_ok {α β : Type} {x : Except LoadError α} {f : α → β} {b : β}
    (h : x.map f = .ok b) : ∃ a, x = .ok a ∧ f a = b := by
  cases x with
  | error error => cases h
  | ok a => exact ⟨a, rfl, Except.ok.inj h⟩

theorem length_skipSpace_le (s : Str) : (skipSpace s).length ≤ s.length := List.length_dropWhile_le _ _

theorem length_digits_le (s : Str) : (digits s).2.length ≤ s.length := List.length_dropWhile_le _ _

theorem length_signPart_le (signs : List Char) (s : Str) :
    (signPart signs s).2.length ≤ s.length := by
  cases s with
  | nil => exact le_rfl
  | cons c s =>
    rw [signPart]
    split
    · exact Nat.le_succ _
    · exact le_rfl

theorem length_intPart_lt {s int rest : Str} (h : intPart s = some (int, rest)) :
    rest.length < s.length := by
  cases s with
  | nil => cases h
  | cons c s =>
    rw [intPart] at h
    split at h
    next =>
      obtain ⟨rfl, rfl⟩ := Prod.mk.inj (Option.some.inj h)
      exact Nat.lt_succ_self _
    next =>
      split at h
      next =>
        obtain ⟨rfl, rfl⟩ := Prod.mk.inj (Option.some.inj h)
        exact Nat.lt_succ_of_le (length_digits_le s)
      next => cases h

theorem length_optionalPart_le (marks signs : List Char) (s : Str) :
    (optionalPart marks signs s).2.length ≤ s.length := by
  cases s with
  | nil => exact le_rfl
  | cons c s =>
    have hsign := length_signPart_le signs s
    have hdigits := length_digits_le (signPart signs s).2
    rw [optionalPart]
    dsimp only
    split
    · rw [List.length_cons]
      exact Nat.le_succ_of_le (hdigits.trans hsign)
    · exact le_rfl

theorem length_scanNumber_lt {s rest : Str} {value : Value} (h : scanNumber s = .ok (value, rest)) :
    rest.length < s.length := by
  have hsign := length_signPart_le ['-'] s
  unfold scanNumber at h
  dsimp only at h
  cases hint : intPart (signPart ['-'] s).2 with
  | none =>
    rw [hint] at h
    cases h
  | some found =>
    obtain ⟨int, afterInt⟩ := found
    rw [hint] at h
    dsimp only at h
    have hfraction := length_optionalPart_le ['.'] [] afterInt
    have hexponent := length_optionalPart_le ['e', 'E'] ['+', '-'] (optionalPart ['.'] [] afterInt).2
    have hrest : rest = (optionalPart ['e', 'E'] ['+', '-'] (optionalPart ['.'] [] afterInt).2).2 := by
      split at h
      next => exact (Prod.mk.inj (Except.ok.inj h)).2.symm
      next =>
        split at h
        next => cases h
        next => exact (Prod.mk.inj (Except.ok.inj h)).2.symm
    rw [hrest]
    exact ((hexponent.trans hfraction).trans_lt (length_intPart_lt hint)).trans_le hsign

theorem length_scanName_lt {s rest : Str} {value : Value} (h : scanName s = some (value, rest)) :
    rest.length < s.length := by
  obtain ⟨⟨name, value'⟩, hmem, hentry⟩ := List.exists_of_findSome?_eq_some h
  have hname : 0 < name.length := by
    simp only [names, List.mem_cons, List.not_mem_nil, or_false] at hmem
    rcases hmem with h | h | h | h | h | h <;> obtain ⟨rfl, -⟩ := Prod.mk.inj h <;> decide
  dsimp only at hentry
  split at hentry
  next hstarts =>
    obtain ⟨after, hafter⟩ := List.isPrefixOf_iff_prefix.mp hstarts
    obtain ⟨-, rfl⟩ := Prod.mk.inj (Option.some.inj hentry)
    have hlength : s.length = name.length + after.length := by rw [← hafter, List.length_append]
    rw [List.length_drop]
    omega
  next => cases hentry

theorem stringBody_plain {c : Char} (hquote : c ≠ '"') (hslash : c ≠ '\\') (hcontrol : 32 ≤ c.toNat)
    (t : Str) : stringBody (c :: t) = (stringBody t).map fun found => (c :: found.1, found.2) := by
  rw [stringBody, if_neg (Nat.not_lt.mpr hcontrol)]
  · exact hquote
  · rintro d s rfl
    exact absurd rfl hslash

/-- A body ends at its quote, and is read in the same way before any other text. -/
theorem stringBody_spec {s body rest : Str} (h : stringBody s = some (body, rest)) :
    s = body ++ '"' :: rest ∧ ∀ t, stringBody (body ++ '"' :: t) = some (body, t) := by
  induction s using stringBody.induct generalizing body with
  | case1 => cases h
  | case2 s =>
    rw [stringBody] at h
    obtain ⟨rfl, rfl⟩ := Prod.mk.inj (Option.some.inj h)
    exact ⟨rfl, fun _ => rfl⟩
  | case3 c s ih =>
    rw [stringBody] at h
    obtain ⟨⟨tail, rest'⟩, htail, heq⟩ := Option.map_eq_some_iff.mp h
    obtain ⟨rfl, rfl⟩ := Prod.mk.inj heq
    obtain ⟨rfl, hread⟩ := ih htail
    refine ⟨rfl, fun t => ?_⟩
    rw [List.cons_append, List.cons_append, stringBody, hread]
    rfl
  | case4 c s hquote hescape hcontrol =>
    rw [stringBody, if_pos hcontrol] at h
    · cases h
    · exact hquote
    · exact hescape
  | case5 c s hquote hescape hcontrol ih =>
    rw [stringBody, if_neg hcontrol] at h
    · obtain ⟨⟨tail, rest'⟩, htail, heq⟩ := Option.map_eq_some_iff.mp h
      obtain ⟨rfl, rfl⟩ := Prod.mk.inj heq
      obtain ⟨rfl, hread⟩ := ih htail
      -- A backslash would have been read with the character after it.
      have hslash : c ≠ '\\' := by
        rintro rfl
        cases tail <;> exact hescape _ _ rfl rfl
      refine ⟨rfl, fun t => ?_⟩
      rw [List.cons_append, stringBody_plain hquote hslash (Nat.not_lt.mp hcontrol), hread]
      rfl
    · exact hquote
    · exact hescape

theorem length_stringBody_lt {s body rest : Str} (h : stringBody s = some (body, rest)) :
    rest.length < s.length := by
  rw [(stringBody_spec h).1, List.length_append, List.length_cons]
  omega

theorem length_scanString_lt {s rest : Str} {points : List ℕ}
    (h : scanString s = .ok (points, rest)) : rest.length < s.length := by
  unfold scanString at h
  cases hbody : stringBody s with
  | none =>
    rw [hbody] at h
    cases h
  | some found =>
    obtain ⟨body, rest'⟩ := found
    rw [hbody] at h
    dsimp only at h
    cases hunits : codeUnits body with
    | none =>
      rw [hunits] at h
      cases h
    | some units =>
      rw [hunits] at h
      obtain ⟨-, rfl⟩ := Prod.mk.inj (Except.ok.inj h)
      exact length_stringBody_lt hbody

theorem scanFlat_of_not_quote {s : Str} (h : ∀ s', s ≠ '"' :: s') :
    scanFlat s = match scanName s with
      | some found => .ok found
      | none => scanNumber s := by
  rw [scanFlat]
  exact h

/-- What starts with no bracket is no container. -/
theorem scanOnce_flat {depth : ℕ} {c : Char} {s : Str} (hbrace : c ≠ '{') (hbracket : c ≠ '[') :
    scanOnce depth (c :: s) = scanFlat (c :: s) := by
  cases depth <;> rw [scanOnce] <;> intro s' heq <;> simp_all

/-- Whatever is read is read off the start of the text. -/
def Shrinks {α : Type} (read : Str → Except LoadError (α × Str)) : Prop :=
  ∀ s a rest, read s = .ok (a, rest) → rest.length < s.length

theorem Shrinks.ne_nil {α : Type} {read : Str → Except LoadError (α × Str)} (hread : Shrinks read)
    {s rest : Str} {a : α} (h : read s = .ok (a, rest)) : s ≠ [] := by
  rintro rfl
  exact Nat.not_lt_zero _ (hread _ _ _ h)

theorem shrinks_scanFlat : Shrinks scanFlat := by
  intro s value rest h
  by_cases hquote : ∃ s', s = '"' :: s'
  · obtain ⟨s', rfl⟩ := hquote
    rw [scanFlat] at h
    obtain ⟨⟨points, rest'⟩, hstring, heq⟩ := exists_of_map_ok h
    obtain ⟨-, rfl⟩ := Prod.mk.inj heq
    exact (length_scanString_lt hstring).trans (Nat.lt_succ_self _)
  · rw [scanFlat_of_not_quote fun s' heq => hquote ⟨s', heq⟩] at h
    cases hname : scanName s with
    | some found =>
      rw [hname] at h
      obtain rfl := Except.ok.inj h
      exact length_scanName_lt hname
    | none =>
      rw [hname] at h
      exact length_scanNumber_lt h

section Items

variable {α : Type} {read : Str → Except LoadError (α × Str)} {close : Char}

theorem shrinks_itemsUpTo (hread : Shrinks read) (n : ℕ) : Shrinks (itemsUpTo read close n) := by
  intro s items rest h
  induction n generalizing s items with
  | zero => cases h
  | succ n ih =>
    rw [itemsUpTo] at h
    cases hitem : read s with
    | error error =>
      rw [hitem] at h
      cases h
    | ok found =>
      obtain ⟨item, after⟩ := found
      have hafter := hread _ _ _ hitem
      have hskipped := length_skipSpace_le after
      rw [hitem] at h
      dsimp only at h
      cases hskip : skipSpace after with
      | nil =>
        rw [hskip] at h
        cases h
      | cons c after' =>
        rw [hskip] at h hskipped
        rw [List.length_cons] at hskipped
        dsimp only at h
        split at h
        next =>
          obtain ⟨-, rfl⟩ := Prod.mk.inj (Except.ok.inj h)
          omega
        next =>
          split at h
          next =>
            obtain ⟨⟨tail, rest'⟩, htail, heq⟩ := exists_of_map_ok h
            obtain ⟨-, rfl⟩ := Prod.mk.inj heq
            have htail' := ih _ _ htail
            have hmore := length_skipSpace_le after'
            omega
          next => cases h

theorem length_itemsOf_lt (hread : Shrinks read) {s rest : Str} {items : List α}
    (h : itemsOf read close s = .ok (items, rest)) : rest.length < s.length := by
  have hskipped := length_skipSpace_le s
  unfold itemsOf at h
  cases hskip : skipSpace s with
  | nil =>
    rw [hskip] at h
    cases h
  | cons c after =>
    rw [hskip] at h hskipped
    dsimp only at h
    split at h
    next =>
      obtain ⟨-, rfl⟩ := Prod.mk.inj (Except.ok.inj h)
      exact hskipped
    next => exact (shrinks_itemsUpTo hread _ _ _ _ h).trans_le hskipped

end Items

theorem shrinks_member {scan : Str → Except LoadError (Value × Str)} (hscan : Shrinks scan) :
    Shrinks (member scan) := by
  intro s item rest h
  cases s with
  | nil => cases h
  | cons c s =>
    rw [member] at h
    split at h
    next =>
      cases hkey : scanString s with
      | error error =>
        rw [hkey] at h
        cases h
      | ok found =>
        obtain ⟨key, after⟩ := found
        have hafter := length_scanString_lt hkey
        rw [hkey] at h
        obtain ⟨⟨value, rest'⟩, hvalue, heq⟩ := exists_of_map_ok h
        obtain ⟨-, rfl⟩ := Prod.mk.inj heq
        have hskipped := length_skipSpace_le after
        unfold memberValue at hvalue
        cases hcolon : skipSpace after with
        | nil =>
          rw [hcolon] at hvalue
          cases hvalue
        | cons d after' =>
          rw [hcolon] at hvalue hskipped
          rw [List.length_cons] at hskipped
          dsimp only at hvalue
          split at hvalue
          next =>
            have hlast := hscan _ _ _ hvalue
            have hmore := length_skipSpace_le after'
            have hrest : rest'.length < after.length := by omega
            exact hrest.trans (hafter.trans (Nat.lt_succ_self _))
          next => cases hvalue
    next => cases h

/-- What a value is read by: the decoder of objects or of arrays one level down, or that of flat values,
which reads what follows on from the text as well. -/
theorem scanOnce_cases {depth : ℕ} {s rest : Str} {value : Value}
    (h : scanOnce depth s = .ok (value, rest)) :
    (∃ inner s' items, depth = inner + 1 ∧ s = '{' :: s' ∧
        itemsOf (member (scanOnce inner)) '}' s' = .ok (items, rest) ∧
        value = .dict (Dict.ofItems items).items) ∨
      (∃ inner s' items, depth = inner + 1 ∧ s = '[' :: s' ∧
        itemsOf (scanOnce inner) ']' s' = .ok (items, rest) ∧ value = .list items) ∨
      (scanFlat s = .ok (value, rest) ∧ ∀ t, scanOnce depth (s ++ t) = scanFlat (s ++ t)) := by
  cases s with
  | nil => cases depth <;> cases h
  | cons c s =>
    by_cases hbrace : c = '{'
    · subst hbrace
      cases depth with
      | zero => cases h
      | succ inner =>
        obtain ⟨⟨items, rest'⟩, hitems, heq⟩ := exists_of_map_ok h
        obtain ⟨rfl, rfl⟩ := Prod.mk.inj heq
        exact Or.inl ⟨inner, s, items, rfl, rfl, hitems, rfl⟩
    · by_cases hbracket : c = '['
      · subst hbracket
        cases depth with
        | zero => cases h
        | succ inner =>
          obtain ⟨⟨items, rest'⟩, hitems, heq⟩ := exists_of_map_ok h
          obtain ⟨rfl, rfl⟩ := Prod.mk.inj heq
          exact Or.inr (Or.inl ⟨inner, s, items, rfl, rfl, hitems, rfl⟩)
      · rw [scanOnce_flat hbrace hbracket] at h
        exact Or.inr (Or.inr ⟨h, fun t => scanOnce_flat hbrace hbracket⟩)

theorem shrinks_scanOnce (depth : ℕ) : Shrinks (scanOnce depth) := by
  induction depth with
  | zero =>
    intro s value rest h
    rcases scanOnce_cases h with ⟨_, _, _, hdepth, -⟩ | ⟨_, _, _, hdepth, -⟩ | ⟨hflat, -⟩
    · cases hdepth
    · cases hdepth
    · exact shrinks_scanFlat _ _ _ hflat
  | succ depth ih =>
    intro s value rest h
    rcases scanOnce_cases h with
      ⟨_, s', _, ⟨⟩, rfl, hitems, -⟩ | ⟨_, s', _, ⟨⟩, rfl, hitems, -⟩ | ⟨hflat, -⟩
    · exact (length_itemsOf_lt (shrinks_member ih) hitems).trans (Nat.lt_succ_self _)
    · exact (length_itemsOf_lt ih hitems).trans (Nat.lt_succ_self _)
    · exact shrinks_scanFlat _ _ _ hflat

/-! ## Text that is followed by white space -/

/-- The text is empty or starts with white space. -/
def Ends (t : Str) : Prop := ∀ c ∈ t.head?, isSpace c = true

section Append

variable {t : Str} {p : Char → Bool}

/-- What no white space has ends before it. -/
theorem span_append (ht : Ends t) (hp : ∀ c, isSpace c = true → p c = false) (s : Str) :
    (s ++ t).takeWhile p = s.takeWhile p ∧ (s ++ t).dropWhile p = s.dropWhile p ++ t := by
  induction s with
  | nil =>
    cases t with
    | nil => exact ⟨rfl, rfl⟩
    | cons c t =>
      have hc : p c = false := hp c (ht c rfl)
      simp [hc]
  | cons c s ih =>
    cases hc : p c with
    | true => simp [hc, ih]
    | false => simp [hc]

theorem not_isDigit_of_isSpace {c : Char} (h : isSpace c = true) : c.isDigit = false := by
  rw [Bool.eq_false_iff]
  intro hdigit
  have hlow : 48 ≤ c.toNat ∧ c.toNat ≤ 57 := by
    simpa [Char.isDigit, UInt32.le_iff_toNat_le] using hdigit
  simp only [isSpace, Bool.or_eq_true, Bool.and_eq_true, decide_eq_true_eq, beq_iff_eq] at h
  omega

theorem digits_append (ht : Ends t) (s : Str) :
    digits (s ++ t) = ((digits s).1, (digits s).2 ++ t) := by
  obtain ⟨htake, hdrop⟩ := span_append ht (fun _ => not_isDigit_of_isSpace) s
  rw [digits, digits, htake, hdrop]

theorem signPart_append {signs : List Char} (ht : Ends t) (hsigns : ∀ c ∈ signs, isSpace c = false)
    (s : Str) : signPart signs (s ++ t) = ((signPart signs s).1, (signPart signs s).2 ++ t) := by
  have hnot : ∀ c, isSpace c = true → c ∉ signs := fun c hc hmem => by
    rw [hsigns c hmem] at hc
    cases hc
  cases s with
  | nil =>
    cases t with
    | nil => rfl
    | cons c t => simp [signPart, hnot c (ht c rfl)]
  | cons c s =>
    rw [List.cons_append, signPart, signPart]
    split <;> rfl

theorem intPart_append (ht : Ends t) {s int rest : Str} (h : intPart s = some (int, rest)) :
    intPart (s ++ t) = some (int, rest ++ t) := by
  cases s with
  | nil => cases h
  | cons c s =>
    rw [List.cons_append, intPart, digits_append ht]
    rw [intPart] at h
    split at h
    next hzero =>
      obtain ⟨rfl, rfl⟩ := Prod.mk.inj (Option.some.inj h)
      rw [if_pos hzero]
    next hzero =>
      split at h
      next hdigit =>
        obtain ⟨rfl, rfl⟩ := Prod.mk.inj (Option.some.inj h)
        rw [if_neg hzero, if_pos hdigit]
      next => cases h

theorem optionalPart_append {marks signs : List Char} (ht : Ends t)
    (hmarks : ∀ c ∈ marks, isSpace c = false) (hsigns : ∀ c ∈ signs, isSpace c = false) (s : Str) :
    optionalPart marks signs (s ++ t) =
      ((optionalPart marks signs s).1, (optionalPart marks signs s).2 ++ t) := by
  have hnot : ∀ c, isSpace c = true → c ∉ marks := fun c hc hmem => by
    rw [hmarks c hmem] at hc
    cases hc
  cases s with
  | nil =>
    cases t with
    | nil => rfl
    | cons c t => simp [optionalPart, hnot c (ht c rfl)]
  | cons c s =>
    rw [List.cons_append, optionalPart, optionalPart, signPart_append ht hsigns]
    dsimp only
    rw [digits_append ht]
    split <;> rfl

theorem not_isSpace_of_all {s : Str} (h : (s.all fun c => !isSpace c) = true) :
    ∀ c ∈ s, isSpace c = false := by simpa using h

theorem scanNumber_append (ht : Ends t) {s rest : Str} {value : Value}
    (h : scanNumber s = .ok (value, rest)) : scanNumber (s ++ t) = .ok (value, rest ++ t) := by
  have hminus : ∀ c ∈ ['-'], isSpace c = false := not_isSpace_of_all rfl
  unfold scanNumber at h ⊢
  rw [signPart_append ht hminus]
  rcases hsign : signPart ['-'] s with ⟨sign, s⟩
  rw [hsign] at h
  dsimp only at h ⊢
  cases hint : intPart s with
  | none =>
    rw [hint] at h
    cases h
  | some found =>
    obtain ⟨int, s⟩ := found
    rw [intPart_append ht hint]
    rw [hint] at h
    dsimp only at h ⊢
    rw [optionalPart_append ht (not_isSpace_of_all rfl) (not_isSpace_of_all rfl)]
    dsimp only
    rw [optionalPart_append ht (not_isSpace_of_all rfl) (not_isSpace_of_all rfl)]
    dsimp only
    split at h
    next hpart =>
      obtain ⟨rfl, rfl⟩ := Prod.mk.inj (Except.ok.inj h)
      rw [if_pos hpart]
    next hpart =>
      rw [if_neg hpart]
      split at h
      next => cases h
      next hlimit =>
        obtain ⟨rfl, rfl⟩ := Prod.mk.inj (Except.ok.inj h)
        rw [if_neg hlimit]

/-- A name without white space is there exactly if it is there before white space. -/
theorem isPrefixOf_append (ht : Ends t) {name : Str} (hname : ∀ c ∈ name, isSpace c = false)
    (s : Str) : name.isPrefixOf (s ++ t) = name.isPrefixOf s := by
  induction name generalizing s with
  | nil => simp
  | cons c name ih =>
    cases s with
    | nil =>
      cases t with
      | nil => rfl
      | cons d t =>
        have hne : c ≠ d := by
          rintro rfl
          have hspace := ht c rfl
          rw [hname c List.mem_cons_self] at hspace
          cases hspace
        simp [List.isPrefixOf, hne]
    | cons d s =>
      simp [List.isPrefixOf, ih fun c hc => hname c (List.mem_cons_of_mem _ hc)]

theorem findName_append (ht : Ends t) (s : Str) {entries : List (Str × Value)}
    (hnames : ∀ entry ∈ entries, ∀ c ∈ entry.1, isSpace c = false) :
    (entries.findSome? fun entry =>
        if entry.1.isPrefixOf (s ++ t) then some (entry.2, (s ++ t).drop entry.1.length) else none) =
      (entries.findSome? fun entry =>
        if entry.1.isPrefixOf s then some (entry.2, s.drop entry.1.length) else none).map
          fun found => (found.1, found.2 ++ t) := by
  induction entries with
  | nil => rfl
  | cons entry entries ih =>
    rw [List.findSome?_cons, List.findSome?_cons,
      isPrefixOf_append ht (hnames entry List.mem_cons_self)]
    cases hprefix : entry.1.isPrefixOf s with
    | true =>
      obtain ⟨rest, hrest⟩ := List.isPrefixOf_iff_prefix.mp hprefix
      simp [← hrest]
    | false => exact ih fun entry' hentry' => hnames entry' (List.mem_cons_of_mem _ hentry')

theorem scanName_append (ht : Ends t) (s : Str) :
    scanName (s ++ t) = (scanName s).map fun found => (found.1, found.2 ++ t) := by
  refine findName_append ht s fun entry hentry => ?_
  simp only [names, List.mem_cons, List.not_mem_nil, or_false] at hentry
  rcases hentry with rfl | rfl | rfl | rfl | rfl | rfl <;> exact not_isSpace_of_all rfl

theorem stringBody_append (t : Str) {s body rest : Str} (h : stringBody s = some (body, rest)) :
    stringBody (s ++ t) = some (body, rest ++ t) := by
  obtain ⟨rfl, hread⟩ := stringBody_spec h
  rw [List.append_assoc]
  exact hread _

theorem scanString_append (t : Str) {s rest : Str} {points : List ℕ}
    (h : scanString s = .ok (points, rest)) : scanString (s ++ t) = .ok (points, rest ++ t) := by
  unfold scanString at h ⊢
  cases hbody : stringBody s with
  | none =>
    rw [hbody] at h
    cases h
  | some found =>
    obtain ⟨body, rest'⟩ := found
    rw [hbody] at h
    rw [stringBody_append t hbody]
    dsimp only at h ⊢
    cases hunits : codeUnits body with
    | none =>
      rw [hunits] at h
      cases h
    | some units =>
      rw [hunits] at h
      obtain ⟨rfl, rfl⟩ := Prod.mk.inj (Except.ok.inj h)
      rfl

theorem scanFlat_append (ht : Ends t) {s rest : Str} {value : Value}
    (h : scanFlat s = .ok (value, rest)) : scanFlat (s ++ t) = .ok (value, rest ++ t) := by
  by_cases hquote : ∃ s', s = '"' :: s'
  · obtain ⟨s', rfl⟩ := hquote
    simp only [List.cons_append, scanFlat] at h ⊢
    cases hstring : scanString s' with
    | error error =>
      rw [hstring] at h
      cases h
    | ok found =>
      rw [hstring] at h
      obtain ⟨rfl, rfl⟩ := Prod.mk.inj (Except.ok.inj h)
      rw [scanString_append t hstring]
      rfl
  · have hquote' : ∀ s', s ++ t ≠ '"' :: s' := by
      intro s' heq
      cases s with
      | nil =>
        rw [List.nil_append] at heq
        have hspace := ht '"' (by rw [heq]; rfl)
        revert hspace
        decide
      | cons c s => exact hquote ⟨s, by rw [(List.cons.inj heq).1]⟩
    rw [scanFlat_of_not_quote fun s' heq => hquote ⟨s', heq⟩] at h
    rw [scanFlat_of_not_quote hquote', scanName_append ht]
    cases hname : scanName s with
    | some found =>
      rw [hname] at h
      obtain rfl := Except.ok.inj h
      rfl
    | none =>
      rw [hname] at h
      exact scanNumber_append ht h

theorem skipSpace_append {s rest : Str} {c : Char} (t : Str) (h : skipSpace s = c :: rest) :
    skipSpace (s ++ t) = c :: (rest ++ t) := by
  induction s with
  | nil => cases h
  | cons d s ih =>
    rw [List.cons_append, skipSpace, List.dropWhile_cons]
    rw [skipSpace, List.dropWhile_cons] at h
    split at h
    next hspace => rw [if_pos hspace]; exact ih h
    next hspace =>
      obtain ⟨rfl, rfl⟩ := List.cons.inj h
      rw [if_neg hspace]

/-- What is skipped at the start is skipped before more text. -/
theorem skipSpace_append_of_ne {s : Str} (t : Str) (h : skipSpace s ≠ []) :
    skipSpace (s ++ t) = skipSpace s ++ t := by
  cases hskip : skipSpace s with
  | nil => exact absurd hskip h
  | cons c rest => exact skipSpace_append t hskip

/-- What is read off a text is read in the same way whatever white space follows it. -/
structure Local {α : Type} (read : Str → Except LoadError (α × Str)) : Prop where
  append : ∀ {t}, Ends t → ∀ {s a rest}, read s = .ok (a, rest) → read (s ++ t) = .ok (a, rest ++ t)
  shrinks : Shrinks read

section Local

variable {α : Type} {read : Str → Except LoadError (α × Str)} {close : Char}

/-- What is read after white space is read in the same way before more white space. -/
theorem Local.append_skipSpace (hread : Local read) (ht : Ends t) {s rest : Str} {a : α}
    (h : read (skipSpace s) = .ok (a, rest)) : read (skipSpace (s ++ t)) = .ok (a, rest ++ t) := by
  rw [skipSpace_append_of_ne t (hread.shrinks.ne_nil h), hread.append ht h]

theorem itemsUpTo_append (hread : Local read) (ht : Ends t) {n m : ℕ} (hle : n ≤ m) {s rest : Str}
    {items : List α} (h : itemsUpTo read close n s = .ok (items, rest)) :
    itemsUpTo read close m (s ++ t) = .ok (items, rest ++ t) := by
  induction n generalizing m s items with
  | zero => cases h
  | succ n ih =>
    obtain ⟨m, rfl⟩ : ∃ k, m = k + 1 := ⟨m - 1, by omega⟩
    rw [itemsUpTo] at h ⊢
    cases hitem : read s with
    | error error =>
      rw [hitem] at h
      cases h
    | ok found =>
      obtain ⟨item, after⟩ := found
      rw [hitem] at h
      rw [hread.append ht hitem]
      dsimp only at h ⊢
      cases hskip : skipSpace after with
      | nil =>
        rw [hskip] at h
        cases h
      | cons c after =>
        rw [hskip] at h
        rw [skipSpace_append t hskip]
        dsimp only at h ⊢
        split at h
        next hclose =>
          obtain ⟨rfl, rfl⟩ := Prod.mk.inj (Except.ok.inj h)
          rw [if_pos hclose]
        next hclose =>
          rw [if_neg hclose]
          split at h
          next hcomma =>
            obtain ⟨⟨tail, rest'⟩, htail, heq⟩ := exists_of_map_ok h
            obtain ⟨rfl, rfl⟩ := Prod.mk.inj heq
            -- The items after the comma do not start after the end of the text.
            have hmore : skipSpace after ≠ [] := (shrinks_itemsUpTo hread.shrinks n).ne_nil htail
            rw [if_pos hcomma, skipSpace_append_of_ne t hmore, ih (by omega) htail]
            rfl
          next => cases h

theorem itemsOf_append (hread : Local read) (ht : Ends t) {s rest : Str} {items : List α}
    (h : itemsOf read close s = .ok (items, rest)) :
    itemsOf read close (s ++ t) = .ok (items, rest ++ t) := by
  unfold itemsOf at h ⊢
  cases hskip : skipSpace s with
  | nil =>
    rw [hskip] at h
    cases h
  | cons c after =>
    rw [hskip] at h
    rw [skipSpace_append t hskip]
    dsimp only at h ⊢
    split at h
    next hclose =>
      obtain ⟨rfl, rfl⟩ := Prod.mk.inj (Except.ok.inj h)
      rw [if_pos hclose]
    next hclose =>
      rw [if_neg hclose, ← List.cons_append]
      refine itemsUpTo_append hread ht (Nat.succ_le_succ ?_) h
      rw [List.length_append]
      exact Nat.le_add_right _ _

end Local

/-- A member of an object is read in the same way whatever follows it. -/
theorem local_member {scan : Str → Except LoadError (Value × Str)} (hscan : Local scan) :
    Local (member scan) := by
  refine ⟨fun {t} ht {s item rest} h => ?_, shrinks_member hscan.shrinks⟩
  cases s with
  | nil => cases h
  | cons c s =>
    rw [List.cons_append, member]
    rw [member] at h
    split at h
    next hquote =>
      rw [if_pos hquote]
      cases hkey : scanString s with
      | error error =>
        rw [hkey] at h
        cases h
      | ok found =>
        obtain ⟨key, after⟩ := found
        rw [hkey] at h
        rw [scanString_append t hkey]
        obtain ⟨⟨value, rest'⟩, hvalue, heq⟩ := exists_of_map_ok h
        obtain ⟨rfl, rfl⟩ := Prod.mk.inj heq
        have happend : memberValue scan (after ++ t) = .ok (value, rest' ++ t) := by
          unfold memberValue at hvalue ⊢
          cases hcolon : skipSpace after with
          | nil =>
            rw [hcolon] at hvalue
            cases hvalue
          | cons c after =>
            rw [hcolon] at hvalue
            rw [skipSpace_append t hcolon]
            dsimp only at hvalue ⊢
            split at hvalue
            next hc =>
              rw [if_pos hc]
              exact hscan.append_skipSpace ht hvalue
            next => cases hvalue
        dsimp only
        rw [happend]
        rfl
    next => cases h

/-- **A value is read in the same way** whatever white space follows it. -/
theorem local_scanOnce (depth : ℕ) : Local (scanOnce depth) := by
  induction depth with
  | zero =>
    refine ⟨fun {t} ht {s value rest} h => ?_, shrinks_scanOnce 0⟩
    rcases scanOnce_cases h with ⟨_, _, _, hdepth, -⟩ | ⟨_, _, _, hdepth, -⟩ | ⟨hflat, hscan⟩
    · cases hdepth
    · cases hdepth
    · rw [hscan]
      exact scanFlat_append ht hflat
  | succ depth ih =>
    refine ⟨fun {t} ht {s value rest} h => ?_, shrinks_scanOnce (depth + 1)⟩
    rcases scanOnce_cases h with
      ⟨_, s', _, ⟨⟩, rfl, hitems, rfl⟩ | ⟨_, s', _, ⟨⟩, rfl, hitems, rfl⟩ | ⟨hflat, hscan⟩
    · rw [List.cons_append, scanOnce, objectBody, itemsOf_append (local_member ih) ht hitems]
      rfl
    · rw [List.cons_append, scanOnce, arrayBody, itemsOf_append ih ht hitems]
      rfl
    · rw [hscan]
      exact scanFlat_append ht hflat

/-! ## A text around a value -/

/-- What starts with white space is no value. -/
theorem scanOnce_of_isSpace {depth : ℕ} {c : Char} {s : Str} (hspace : isSpace c = true) :
    scanOnce depth (c :: s) = .error .decodeError := by
  have hne : ∀ d, isSpace d = false → c ≠ d := fun d hd hcd => by
    rw [hcd, hd] at hspace
    cases hspace
  have hname : scanName (c :: s) = none := by
    rw [scanName, List.findSome?_eq_none_iff]
    intro entry hentry
    simp only [names, List.mem_cons, List.not_mem_nil, or_false] at hentry
    obtain ⟨d, name, hname, hd⟩ : ∃ d name, entry.1 = d :: name ∧ isSpace d = false := by
      rcases hentry with rfl | rfl | rfl | rfl | rfl | rfl <;> exact ⟨_, _, rfl, by decide⟩
    rw [hname, List.isPrefixOf, beq_false_of_ne (hne d hd).symm]
    rfl
  have hint : intPart (c :: s) = none := by
    rw [intPart, if_neg (hne '0' (by decide)), if_neg]
    rw [not_isDigit_of_isSpace hspace]
    exact Bool.false_ne_true
  have hsign : signPart ['-'] (c :: s) = ([], c :: s) := by
    rw [signPart, if_neg]
    rw [List.mem_singleton]
    exact hne '-' (by decide)
  rw [scanOnce_flat (hne _ (by decide)) (hne _ (by decide)),
    scanFlat_of_not_quote fun s' heq => hne '"' (by decide) (List.cons.inj heq).1, hname]
  simp only [scanNumber, hsign, hint]

/-- A value that is read is found by `json.loads`, or `json.loads` finds more after it. -/
theorem loads_of_scanOnce {depth : ℕ} {s rest : Str} {value : Value}
    (h : scanOnce depth (skipSpace s) = .ok (value, rest)) :
    loads depth s = .ok value ∨ loads depth s = .error .decodeError := by
  rw [loads, h]
  split
  · exact Or.inr rfl
  · dsimp only
    split
    · exact Or.inl rfl
    · exact Or.inr rfl

theorem scanOnce_of_loads {depth : ℕ} {s : Str} {value : Value} (h : loads depth s = .ok value) :
    ∃ rest, scanOnce depth (skipSpace s) = .ok (value, rest) := by
  rw [loads] at h
  split at h
  next => cases h
  next =>
    cases hscan : scanOnce depth (skipSpace s) with
    | error error =>
      rw [hscan] at h
      cases h
    | ok found =>
      obtain ⟨value', rest⟩ := found
      rw [hscan] at h
      dsimp only at h
      split at h
      next =>
        obtain rfl := Except.ok.inj h
        exact ⟨rest, rfl⟩
      next => cases h

theorem isJsonSpace_of_not_isSpace {c : Char} (h : isSpace c = false) : isJsonSpace c = false := by
  rw [isJsonSpace, Bool.or_eq_false_iff, Bool.or_eq_false_iff, Bool.or_eq_false_iff]
  simp only [beq_eq_false_iff_ne]
  refine ⟨⟨⟨?_, ?_⟩, ?_⟩, ?_⟩ <;> rintro rfl <;> revert h <;> decide

/-- **What is decoded of a text around a decoded text** is what the text within decodes to, or nothing:
the white space before the text may be one that JSON does not skip, and more may come after it. -/
theorem loads_around {depth : ℕ} {s before after : Str} {value : Value}
    (hbefore : before.all isSpace = true) (hafter : Ends after)
    (hs : ∀ c ∈ s.head?, isSpace c = false) (h : loads depth s = .ok value) :
    loads depth (before ++ (s ++ after)) = .ok value ∨
      loads depth (before ++ (s ++ after)) = .error .decodeError := by
  obtain ⟨rest, hscan⟩ := scanOnce_of_loads h
  have hskip : skipSpace s = s := by
    cases s with
    | nil => rfl
    | cons c s => exact List.dropWhile_cons_of_neg (by rw [isJsonSpace_of_not_isSpace (hs c rfl)]; simp)
  have happend : skipSpace (s ++ after) = s ++ after := by
    rw [skipSpace_append_of_ne after ((shrinks_scanOnce depth).ne_nil hscan), hskip]
  cases hfirst : skipSpace before with
  | nil =>
    refine @loads_of_scanOnce depth _ (rest ++ after) value ?_
    rw [skipSpace, List.dropWhile_append, ← skipSpace, ← skipSpace, hfirst]
    simp only [List.isEmpty_nil, if_true]
    rw [happend]
    exact (local_scanOnce depth).append hafter (hskip ▸ hscan)
  | cons c before' =>
    have hmem : c ∈ before := (List.dropWhile_sublist _).subset (hfirst ▸ List.mem_cons_self)
    rw [loads, skipSpace_append _ hfirst, scanOnce_of_isSpace (List.all_eq_true.mp hbefore c hmem)]
    split <;> exact Or.inr rfl

end Append

end JsonDecoder

end Python
