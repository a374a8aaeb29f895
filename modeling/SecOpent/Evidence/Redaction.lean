import SecOpent.Python.RegexPieces

/-!
# Redaction

`infrastructure/evidence_store/redaction.py`: seven patterns are applied to a text, each to what the
ones before it have left, and a match becomes a placeholder in brackets. A placeholder ends the words at
its sides. Of the patterns that are applied before another one of words, only that of e-mail addresses
cuts a word in two where the other may find a part: the digits after an address, and before it those
that are not of ASCII.

## Main definitions

* `patterns`: the patterns, in their order
* `RedactionEngine.redact`: `RedactionEngine.redact`
* `RedactionEngine.Masks`: nothing is left to redact, and nothing changes when it is redacted again

## Main results

* `noMatch_mask_of_free`, `noMatch_mask_of_wordEdged`, `noMatch_email_mask`: what a pattern leaves
* `redact_masks_iff`: the texts that are redacted completely
-/

namespace SecOpent

open Python Regex

/-! ## The patterns -/

section Patterns

variable (U : Unicode)

/-- `\d`. -/
def isDecimal (c : Char) : Bool := if c.toNat < 128 then c.isDigit else (U.decimal c).isSome

/-- `\w`; what is a decimal is alphanumeric. -/
def isWord (c : Char) : Bool :=
  if c.toNat < 128 then c.isAlphanum || c == '_' else U.alnum c || (U.decimal c).isSome

/-- `[A-Za-z0-9_-]`. -/
def isTokenChar (c : Char) : Bool := c.isAlphanum || c == '_' || c == '-'

/-- `[0-9A-Z]`. -/
def isKeyChar (c : Char) : Bool := c.isDigit || c.isUpper

/-- `[A-Za-z0-9._%+-]`. -/
def isLocalChar (c : Char) : Bool :=
  c.isAlphanum || c == '.' || c == '_' || c == '%' || c == '+' || c == '-'

/-- `[A-Za-z0-9.-]`. -/
def isHostChar (c : Char) : Bool := c.isAlphanum || c == '.' || c == '-'

/-- `-----BEGIN [A-Z ]*PRIVATE KEY-----`. -/
def beginKey : Regex :=
  seq (literal "-----BEGIN ".toList)
    (seq (chars (fun c => c.isUpper || c == ' ') 0 none false) (literal "PRIVATE KEY-----".toList))

/-- `-----END [A-Z ]*PRIVATE KEY-----`. -/
def endKey : Regex :=
  seq (literal "-----END ".toList)
    (seq (chars (fun c => c.isUpper || c == ' ') 0 none false) (literal "PRIVATE KEY-----".toList))

/-- The pattern of `private_key`. -/
def privateKey : Regex := between beginKey endKey

/-- The pattern of `jwt`. -/
def jwt : Regex :=
  seq (literal "eyJ".toList) (seq (plus isTokenChar) (seq (char '.') (seq (plus isTokenChar)
    (seq (char '.') (plus isTokenChar)))))

/-- The pattern of `aws_access_key`. -/
def awsAccessKey : Regex := bounded (seq (literal "AKIA".toList) (times isKeyChar 16))

/-- The pattern of `cn_id`. -/
def cnId : Regex :=
  bounded (seq (times (isDecimal U) 17) (times (fun c => isDecimal U c || c == 'X' || c == 'x') 1))

/-- The pattern of `cn_mobile`. -/
def cnMobile : Regex :=
  bounded (seq (char '1') (seq (times (fun c => '3' ≤ c && c ≤ '9') 1) (times (isDecimal U) 9)))

/-- The pattern of `email`. -/
def email : Regex :=
  seq (plus isLocalChar)
    (seq (char '@') (seq (plus isHostChar) (seq (char '.') (chars Char.isAlpha 2 none false))))

/-- `\d{1,3}`. -/
def octet : Regex := chars (isDecimal U) 1 (some 3) false

/-- `10\.\d{1,3}\.\d{1,3}\.\d{1,3}`. -/
def tenNet : Regex :=
  seq (literal "10".toList) (seq (char '.') (seq (octet U) (seq (char '.') (seq (octet U)
    (seq (char '.') (octet U))))))

/-- `192\.168\.\d{1,3}\.\d{1,3}`. -/
def homeNet : Regex :=
  seq (literal "192".toList) (seq (char '.') (seq (literal "168".toList) (seq (char '.') (seq (octet U)
    (seq (char '.') (octet U))))))

/-- `172\.(?:1[6-9]|2\d|3[01])\.\d{1,3}\.\d{1,3}`. -/
def officeNet : Regex :=
  seq (literal "172".toList) (seq (char '.')
    (seq (alt (seq (char '1') (times (fun c => '6' ≤ c && c ≤ '9') 1))
        (alt (seq (char '2') (times (isDecimal U) 1))
          (seq (char '3') (times (fun c => c == '0' || c == '1') 1))))
      (seq (char '.') (seq (octet U) (seq (char '.') (octet U))))))

/-- The pattern of `internal_ip`. -/
def internalIp : Regex := bounded (alt (tenNet U) (alt (homeNet U) (officeNet U)))

/-- `_Pattern`. -/
structure RedactionPattern where
  kind : String
  regex : Regex
  kind_ne : kind ≠ ""

/-- The patterns that are applied before the one of e-mail addresses. -/
def earlyPatterns : List RedactionPattern :=
  -- An identity number is found before a part of it could be taken for a mobile number.
  [⟨"private_key", privateKey, by decide⟩, ⟨"jwt", jwt, by decide⟩,
    ⟨"aws_access_key", awsAccessKey, by decide⟩, ⟨"cn_id", cnId U, by decide⟩,
    ⟨"cn_mobile", cnMobile U, by decide⟩]

/-- `_PATTERNS`. -/
def patterns : List RedactionPattern :=
  earlyPatterns U ++ [⟨"email", email, by decide⟩, ⟨"internal_ip", internalIp U, by decide⟩]

end Patterns

/-! ## The engine -/

/-- `SecretOrigin`. -/
inductive SecretOrigin
  | ours | target
  deriving DecidableEq, Repr

/-- `Redaction`. -/
structure Redaction where
  kind : String
  origin : SecretOrigin
  kind_ne : kind ≠ ""

/-- `RedactionResult`. -/
structure RedactionResult where
  redactedText : Str
  redactions : List Redaction

/-- The placeholder of a match. -/
def placeholder (kind : String) : Str := '[' :: (("REDACTED:" ++ kind).toList ++ [']'])

/-- `RedactionEngine`, with the tables of characters. -/
structure RedactionEngine where
  ours : List Str
  unicode : Unicode

namespace RedactionEngine

variable (engine : RedactionEngine)

/-- What a pattern makes of a text. -/
def mask (pattern : RedactionPattern) (text : Str) : Str :=
  sub (isWord engine.unicode) pattern.regex (fun _ => placeholder pattern.kind) text

/-- The record of a match. -/
def redaction (pattern : RedactionPattern) (found : Str) : Redaction where
  kind := pattern.kind
  origin := if found ∈ engine.ours then .ours else .target
  kind_ne := pattern.kind_ne

/-- `redact`. -/
def redact (text : Str) : RedactionResult :=
  (patterns engine.unicode).foldl
    (fun result pattern =>
      -- A pattern is applied to what the patterns before it have left.
      { redactedText := engine.mask pattern result.redactedText
        redactions := result.redactions ++
          (findall (isWord engine.unicode) pattern.regex result.redactedText).map
            (engine.redaction pattern) })
    ⟨text, []⟩

/-- Nothing is found in the redacted text, and it is redacted to itself. -/
def Masks (text : Str) : Prop :=
  (∀ pattern ∈ patterns engine.unicode,
      search (isWord engine.unicode) pattern.regex (engine.redact text).redactedText = none) ∧
    (engine.redact (engine.redact text).redactedText).redactedText = (engine.redact text).redactedText

end RedactionEngine

/-! ## What is seen of the patterns -/

section Shapes

variable {U : Unicode} {c : Char} {body : Str}

theorem isWord_of_isDecimal (h : isDecimal U c = true) : isWord U c = true := by
  unfold isDecimal at h
  unfold isWord
  split
  next hascii =>
    rw [if_pos hascii] at h
    rw [Char.isAlphanum, h, Bool.or_true, Bool.true_or]
  next hascii =>
    rw [if_neg hascii] at h
    rw [h, Bool.or_true]

theorem isWord_of_isAlphanum (h : c.isAlphanum = true) : isWord U c = true := by
  have hascii : c.toNat < 128 := by
    have hranges : ((decide (65 ≤ c.val ∧ c.val ≤ 90) || (97 ≤ c.val && c.val ≤ 122)) ||
        (48 ≤ c.val && c.val ≤ 57)) = true := h
    simp only [Bool.or_eq_true, Bool.and_eq_true, decide_eq_true_eq,
      UInt32.le_iff_toNat_le] at hranges
    simp at hranges
    omega
  rw [isWord, if_pos hascii, h, Bool.true_or]

theorem isAlphanum_of_isKeyChar (h : isKeyChar c = true) : c.isAlphanum = true := by
  have halnum : c.isAlphanum = ((c.isUpper || c.isLower) || c.isDigit) := rfl
  rw [isKeyChar, Bool.or_eq_true] at h
  rcases h with h | h
  · rw [halnum, h, Bool.or_true]
  · rw [halnum, h, Bool.true_or, Bool.true_or]

theorem wordEdged_awsAccessKey : awsAccessKey.WordEdged (isWord U) := by
  refine wordEdged_bounded ⟨Nat.one_pos, ?_⟩ ⟨by decide, ?_⟩
  · intro c hc
    rw [beq_iff_eq.mp hc]
    rfl
  · exact fun c hc => isWord_of_isAlphanum (isAlphanum_of_isKeyChar hc)

theorem within_cnId : (cnId U).Within (isWord U · = true) := by
  refine ⟨trivial, ⟨fun c hc => isWord_of_isDecimal hc, fun c hc => ?_⟩, trivial⟩
  rw [Bool.or_eq_true, Bool.or_eq_true, beq_iff_eq, beq_iff_eq] at hc
  rcases hc with (hc | rfl) | rfl
  · exact isWord_of_isDecimal hc
  · rfl
  · rfl

theorem wordEdged_cnId : (cnId U).WordEdged (isWord U) :=
  wordEdged_bounded ⟨by decide, within_cnId.2.1.1⟩ ⟨by decide, within_cnId.2.1.2⟩

theorem within_cnMobile : (cnMobile U).Within (isWord U · = true) := by
  refine ⟨trivial, ⟨fun c hc => ?_, fun c hc => ?_, fun c hc => isWord_of_isDecimal hc⟩, trivial⟩
  · rw [beq_iff_eq.mp hc]
    rfl
  · refine isWord_of_isAlphanum ?_
    rw [Bool.and_eq_true, decide_eq_true_eq, decide_eq_true_eq] at hc
    have hlow : '0' ≤ c := Char.le_trans (by decide : '0' ≤ '3') hc.1
    have hdigit : c.isDigit = true := by
      rw [Char.isDigit, Bool.and_eq_true, decide_eq_true_eq, decide_eq_true_eq]
      exact ⟨hlow, hc.2⟩
    rw [Char.isAlphanum, hdigit, Bool.or_true]

theorem wordEdged_cnMobile : (cnMobile U).WordEdged (isWord U) :=
  wordEdged_bounded ⟨by decide, within_cnMobile.2.1.1⟩ ⟨by decide, within_cnMobile.2.1.2.2⟩

theorem wordEdged_internalIp : (internalIp U).WordEdged (isWord U) := by
  have hone : ∀ c, (c == '1') = true → isWord U c = true := by
    intro c hc
    rw [beq_iff_eq.mp hc]
    rfl
  have hoctet : 0 < 1 ∧ ∀ c, isDecimal U c = true → isWord U c = true :=
    ⟨Nat.one_pos, fun c hc => isWord_of_isDecimal hc⟩
  exact wordEdged_bounded ⟨⟨Nat.one_pos, hone⟩, ⟨Nat.one_pos, hone⟩, ⟨Nat.one_pos, hone⟩⟩
    ⟨hoctet, hoctet, hoctet⟩

/-! ## Placeholders -/

/-- No character of the text is in every match of some pattern. -/
def Label (U : Unicode) (body : Str) : Prop :=
  ∀ c ∈ body, isDecimal U c = false ∧ c ≠ '.' ∧ c ≠ '@' ∧ c ≠ 'K' ∧ c ≠ '-'

theorem label_of_mem {pattern : RedactionPattern} (h : pattern ∈ patterns U) :
    Label U ("REDACTED:" ++ pattern.kind).toList := by
  have hbodies : (["private_key", "jwt", "aws_access_key", "cn_id", "cn_mobile", "email",
      "internal_ip"].all fun kind => ("REDACTED:" ++ kind).toList.all fun c =>
        decide (c.toNat < 128) && !c.isDigit && c != '.' && c != '@' && c != 'K' && c != '-') =
          true := by
    decide +kernel
  have hkind : pattern.kind ∈ (patterns U).map RedactionPattern.kind := List.mem_map_of_mem h
  have hbody := List.all_eq_true.mp (List.all_eq_true.mp hbodies pattern.kind hkind)
  intro c hc
  have hchar := hbody c hc
  simp only [Bool.and_eq_true, decide_eq_true_eq, Bool.not_eq_true', bne_iff_ne] at hchar
  obtain ⟨⟨⟨⟨⟨hascii, hdigit⟩, hdot⟩, hat⟩, hupper⟩, hdash⟩ := hchar
  exact ⟨by rw [isDecimal, if_pos hascii, hdigit], hdot, hat, hupper, hdash⟩

theorem fenced_of_requires {r : Regex} {p : Char → Prop} (hr : r.Requires p)
    (hleft : r.avoids '[' = true) (hright : r.avoids ']' = true) (hbody : ∀ c ∈ body, ¬p c) :
    Fenced (isWord U) r '[' ']' body where
  consumes := consumes_of_requires hr
  left := within_of_avoids hleft
  right := within_of_avoids hright
  left_word := rfl
  right_word := rfl
  body := noMatch_of_requires hr hbody

theorem fenced_jwt (h : Label U body) : Fenced (isWord U) jwt '[' ']' body :=
  fenced_of_requires (Or.inr (Or.inr (Or.inl requires_char))) rfl rfl fun c hc => (h c hc).2.1

theorem fenced_awsAccessKey (h : Label U body) : Fenced (isWord U) awsAccessKey '[' ']' body :=
  fenced_of_requires (Or.inr (Or.inl (Or.inl (requires_literal (c := 'K') (by decide))))) rfl rfl
    fun c hc => (h c hc).2.2.2.1

theorem fenced_cnId (h : Label U body) : Fenced (isWord U) (cnId U) '[' ']' body :=
  fenced_of_requires (p := fun c => isDecimal U c = true)
    (Or.inr (Or.inl (Or.inl ⟨by decide, fun _ h => h⟩))) rfl rfl
    fun c hc => Bool.eq_false_iff.mp (h c hc).1

theorem fenced_cnMobile (h : Label U body) : Fenced (isWord U) (cnMobile U) '[' ']' body :=
  fenced_of_requires (p := fun c => isDecimal U c = true)
    (Or.inr (Or.inl (Or.inr (Or.inr ⟨by decide, fun _ h => h⟩)))) rfl rfl
    fun c hc => Bool.eq_false_iff.mp (h c hc).1

theorem fenced_email (h : Label U body) : Fenced (isWord U) email '[' ']' body :=
  fenced_of_requires (Or.inr (Or.inl requires_char)) rfl rfl fun c hc => (h c hc).2.2.1

theorem fenced_internalIp (h : Label U body) : Fenced (isWord U) (internalIp U) '[' ']' body :=
  have hdot : ∀ {r r' : Regex}, (seq r (seq (char '.') r')).Requires (· = '.') :=
    Or.inr (Or.inl requires_char)
  fenced_of_requires (Or.inr (Or.inl ⟨hdot, hdot, hdot⟩)) rfl rfl fun c hc => (h c hc).2.1

theorem delimiters_privateKey (h : Label U body) :
    Delimiters (isWord U) beginKey endKey '[' ']' body where
  start := fenced_of_requires (Or.inl (requires_literal (c := '-') (by decide))) rfl rfl
    fun c hc => (h c hc).2.2.2.2
  stop := fenced_of_requires (Or.inl (requires_literal (c := '-') (by decide))) rfl rfl
    fun c hc => (h c hc).2.2.2.2
  start_free := ⟨free_literal _, trivial, free_literal _⟩
  stop_free := ⟨free_literal _, trivial, free_literal _⟩

theorem consumes_of_mem {pattern : RedactionPattern} (h : pattern ∈ patterns U) :
    pattern.regex.Consumes (isWord U) := by
  have hlabel : Label U [] := nofun
  simp only [patterns, earlyPatterns, List.cons_append, List.nil_append, List.mem_cons,
    List.not_mem_nil, or_false] at h
  rcases h with rfl | rfl | rfl | rfl | rfl | rfl | rfl
  · exact (delimiters_privateKey hlabel).consumes
  · exact (fenced_jwt hlabel).consumes
  · exact (fenced_awsAccessKey hlabel).consumes
  · exact (fenced_cnId hlabel).consumes
  · exact (fenced_cnMobile hlabel).consumes
  · exact (fenced_email hlabel).consumes
  · exact (fenced_internalIp hlabel).consumes

/-! ## Words in an internal address -/

/-- Two patterns with a dot between them. -/
theorem matches_dot {word : Char → Bool} {r r' : Regex} {before : Option Char} {m after : Str}
    (h : Matches word (seq r (seq (char '.') r')) before m after) : ∃ a b, m = a ++ '.' :: b ∧
      (∃ rest, Matches word r before a rest) ∧ ∃ before', Matches word r' before' b after := by
  obtain ⟨a, _, rfl, ha, _, b, rfl, hdot, hb⟩ := h
  obtain rfl := matches_char_iff.mp hdot
  exact ⟨a, b, rfl, ⟨_, ha⟩, _, hb⟩

theorem length_octet_le {word : Char → Bool} {before : Option Char} {m after : Str}
    (h : Matches word (octet U) before m after) : m.length ≤ 3 := h.2.2 3 rfl

/-- An internal address is four short texts with dots between them. -/
theorem matches_internalIp {before : Option Char} {m after : Str}
    (h : Matches (isWord U) (internalIp U) before m after) : ∃ w x y z : Str,
      m = w ++ '.' :: (x ++ '.' :: (y ++ '.' :: z)) ∧
        w.length ≤ 3 ∧ x.length ≤ 3 ∧ y.length ≤ 3 ∧ z.length ≤ 3 := by
  rcases (matches_bounded_iff.mp h).1 with h | h | h
  all_goals
    obtain ⟨w, _, rfl, ⟨_, hw⟩, _, h⟩ := matches_dot h
    obtain ⟨x, _, rfl, ⟨_, hx⟩, _, h⟩ := matches_dot h
    obtain ⟨y, z, rfl, ⟨_, hy⟩, _, hz⟩ := matches_dot h
    refine ⟨w, x, y, z, rfl, ?_, ?_, length_octet_le hy, length_octet_le hz⟩
  · rw [matches_literal_iff.mp hw]
    decide
  · exact length_octet_le hx
  · rw [matches_literal_iff.mp hw]
    decide
  · rw [matches_literal_iff.mp hx]
    decide
  · rw [matches_literal_iff.mp hw]
    decide
  · rcases hx with ⟨a, b, rfl, ha, hb⟩ | ⟨a, b, rfl, ha, hb⟩ | ⟨a, b, rfl, ha, hb⟩
    all_goals
      rw [matches_char_iff.mp ha, List.length_append, List.length_singleton]
      have hlength := hb.2.2 1 rfl
      omega

/-- No longer word is in an internal address. -/
theorem noMatch_of_internalIp {r : Regex} {before : Option Char} {m after : Str}
    (hr : r.Consumes (isWord U)) (hdot : r.Within (· ≠ '.'))
    (hlength : ∀ before m after, Matches (isWord U) r before m after → 4 ≤ m.length)
    (h : Matches (isWord U) (internalIp U) before m after) : NoMatch (isWord U) r m := by
  obtain ⟨w, x, y, z, rfl, hw, hx, hy, hz⟩ := matches_internalIp h
  rw [noMatch_around_iff hr hdot rfl, noMatch_around_iff hr hdot rfl, noMatch_around_iff hr hdot rfl]
  exact ⟨noMatch_of_length_lt hlength (Nat.lt_succ_of_le hw),
    noMatch_of_length_lt hlength (Nat.lt_succ_of_le hx),
    noMatch_of_length_lt hlength (Nat.lt_succ_of_le hy),
    noMatch_of_length_lt hlength (Nat.lt_succ_of_le hz)⟩

theorem length_cnId_le {before : Option Char} {m after : Str}
    (h : Matches (isWord U) (cnId U) before m after) : 4 ≤ m.length := by
  obtain ⟨a, b, rfl, ha, -⟩ := (matches_bounded_iff.mp h).1
  have hmin : 17 ≤ a.length := ha.2.1
  rw [List.length_append]
  omega

theorem length_cnMobile_le {before : Option Char} {m after : Str}
    (h : Matches (isWord U) (cnMobile U) before m after) : 4 ≤ m.length := by
  obtain ⟨a, _, rfl, -, b, c, rfl, -, hc⟩ := (matches_bounded_iff.mp h).1
  have hmin : 9 ≤ c.length := hc.2.1
  rw [List.length_append, List.length_append]
  omega

theorem free_jwt : jwt.Free :=
  ⟨free_literal _, trivial, trivial, trivial, trivial, trivial⟩

theorem free_email : email.Free := ⟨trivial, trivial, trivial, trivial, trivial⟩

end Shapes

/-! ## What a pattern leaves -/

namespace RedactionEngine

/-- What the patterns make of a text, one after another. -/
def maskAll (engine : RedactionEngine) (applied : List RedactionPattern) (text : Str) : Str :=
  applied.foldl (fun text pattern => engine.mask pattern text) text

variable {engine : RedactionEngine} {pattern : RedactionPattern} {r : Regex} {text : Str}

/-- A pattern that no boundary is in: what it did not find before, it does not find after a mask. -/
theorem noMatch_mask_of_free (h : NoMatch (isWord engine.unicode) r text)
    (hpattern : pattern ∈ patterns engine.unicode) (hr : r.Free)
    (hfenced : Fenced (isWord engine.unicode) r '[' ']' ("REDACTED:" ++ pattern.kind).toList) :
    NoMatch (isWord engine.unicode) r (engine.mask pattern text) :=
  hfenced.noMatch_sub_iff.mpr (h.split_of_free (consumes_of_mem hpattern) hr)

/-- A pattern of words: what it did not find before, it does not find after words are masked. -/
theorem noMatch_mask_of_wordEdged (h : NoMatch (isWord engine.unicode) r text)
    (hpattern : pattern.regex.WordEdged (isWord engine.unicode))
    (hr : r.WordEdged (isWord engine.unicode))
    (hfenced : Fenced (isWord engine.unicode) r '[' ']' ("REDACTED:" ++ pattern.kind).toList) :
    NoMatch (isWord engine.unicode) r (engine.mask pattern text) :=
  hfenced.noMatch_sub_iff.mpr (h.split_of_wordEdged hpattern hr)

/-- No key is found after e-mail addresses are masked: none follows one, as it starts with a letter, and
none stands before one, as it would be part of it. -/
theorem noMatch_email_mask (h : NoMatch (isWord engine.unicode) awsAccessKey text)
    (hemail : pattern.regex = email)
    (hfenced : Fenced (isWord engine.unicode) awsAccessKey '[' ']'
      ("REDACTED:" ++ pattern.kind).toList) :
    NoMatch (isWord engine.unicode) awsAccessKey (engine.mask pattern text) := by
  refine hfenced.noMatch_sub_iff.mpr fun piece hpiece => ?_
  rw [hemail] at hpiece
  have hconsumes : email.Consumes (isWord engine.unicode) :=
    (fenced_email (show Label engine.unicode [] from nofun)).consumes
  obtain ⟨a, rest, hpiece⟩ := exists_isPiece hconsumes hpiece
  have hopens : (seq (literal "AKIA".toList) (times isKeyChar 16)).Opens fun c => c.isAlpha = true := by
    refine ⟨Nat.one_pos, fun c hc => ?_⟩
    rw [beq_iff_eq.mp hc]
    rfl
  have hcloses : (seq (literal "AKIA".toList) (times isKeyChar 16)).Closes
      fun c => isLocalChar c = true := by
    refine ⟨by decide, fun c hc => ?_⟩
    simp only [isLocalChar, isAlphanum_of_isKeyChar hc, Bool.true_or]
  refine hpiece.noMatch (fun hm => (matches_bounded_iff.mp hm).1.opens hopens)
    (fun hm => (matches_bounded_iff.mp hm).1.closes hcloses) ?_
    ((hpiece.left_of_greedy rfl).imp_right fun hleft c hc => Bool.eq_false_iff.mp (hleft c hc))
    ((hpiece.right_of_plus free_email.2).imp_right fun hright c hc =>
      Bool.eq_false_iff.mp (hright c hc))
  rintro x m y rfl
  exact hpiece.not_matches_of_noMatch h

/-- A pattern of long words finds after internal addresses are masked what it finds before. -/
theorem noMatch_internalIp_mask_iff (hip : pattern.regex = internalIp engine.unicode)
    (hr : r.WordEdged (isWord engine.unicode)) (hwithin : r.Within (isWord engine.unicode · = true))
    (hlength : ∀ before m after, Matches (isWord engine.unicode) r before m after → 4 ≤ m.length)
    (hfenced : Fenced (isWord engine.unicode) r '[' ']' ("REDACTED:" ++ pattern.kind).toList) :
    NoMatch (isWord engine.unicode) r (engine.mask pattern text) ↔
      NoMatch (isWord engine.unicode) r text := by
  have hedged : pattern.regex.WordEdged (isWord engine.unicode) := hip ▸ wordEdged_internalIp
  have hdot : r.Within (· ≠ '.') := by
    refine hwithin.mono fun c hc => ?_
    rintro rfl
    cases hc
  constructor
  · intro h
    -- A word of the text is in no address, so it is in a piece.
    refine (cuts_spec hedged.consumes).noMatch hedged hr.consumes hwithin (fun hm => ?_)
      (hfenced.noMatch_sub_iff.mp h)
    exact noMatch_of_internalIp hr.consumes hdot hlength (hip ▸ hm)
  · exact fun h => hfenced.noMatch_sub_iff.mpr (h.split_of_wordEdged hedged hr)

/-! ## The patterns one after another -/

theorem redactedText_redact (engine : RedactionEngine) (text : Str) :
    (engine.redact text).redactedText = engine.maskAll (patterns engine.unicode) text := by
  rw [redact, maskAll]
  generalize ([] : List Redaction) = redactions
  induction patterns engine.unicode generalizing text redactions with
  | nil => rfl
  | cons pattern rest ih => exact ih _ _

/-- What is left by all patterns. -/
abbrev masked (engine : RedactionEngine) (text : Str) : Str :=
  engine.maskAll (patterns engine.unicode) text

/-- What a pattern leaves nothing of, and no later one brings back, is not in the text at the end. -/
theorem noMatch_masked (before : List RedactionPattern) {later : List RedactionPattern}
    (hpatterns : patterns engine.unicode = before ++ pattern :: later)
    (hown : pattern ∈ patterns engine.unicode → ∀ text,
      NoMatch (isWord engine.unicode) r (engine.mask pattern text))
    (hkeep : ∀ pattern ∈ later, pattern ∈ patterns engine.unicode → ∀ text,
      NoMatch (isWord engine.unicode) r text →
        NoMatch (isWord engine.unicode) r (engine.mask pattern text)) :
    NoMatch (isWord engine.unicode) r (engine.masked text) := by
  have hmem : ∀ pattern' ∈ pattern :: later, pattern' ∈ patterns engine.unicode := fun _ h =>
    hpatterns ▸ List.mem_append_right before h
  obtain ⟨hpattern, hlater⟩ := List.forall_mem_cons.mp hmem
  rw [masked, hpatterns, maskAll, List.foldl_append, List.foldl_cons]
  have hstart := hown hpattern (before.foldl (fun text pattern => engine.mask pattern text) text)
  generalize engine.mask pattern _ = start at hstart
  clear hpatterns hmem
  induction later generalizing start with
  | nil => exact hstart
  | cons pattern' later ih =>
    obtain ⟨hkeep', hkeep⟩ := List.forall_mem_cons.mp hkeep
    obtain ⟨hpattern', hlater⟩ := List.forall_mem_cons.mp hlater
    exact ih hkeep hlater _ (hkeep' hpattern' start hstart)

theorem noMatch_privateKey_masked :
    NoMatch (isWord engine.unicode) privateKey (engine.masked text) := by
  refine noMatch_masked [] rfl (fun hmem text => ?_) fun pattern _ hmem text h => ?_
  · exact noMatch_between_sub (delimiters_privateKey (label_of_mem hmem))
  · exact h.between_sub (delimiters_privateKey (label_of_mem hmem)) (consumes_of_mem hmem)

theorem noMatch_jwt_masked : NoMatch (isWord engine.unicode) jwt (engine.masked text) := by
  refine noMatch_masked ((patterns engine.unicode).take 1) rfl (fun hmem text => ?_)
    fun pattern _ hmem text h => ?_
  · exact (fenced_jwt (label_of_mem hmem)).noMatch_sub_iff.mpr
      (noMatch_split_of_free (consumes_of_mem hmem) free_jwt)
  · exact noMatch_mask_of_free h hmem free_jwt (fenced_jwt (label_of_mem hmem))

theorem noMatch_awsAccessKey_masked :
    NoMatch (isWord engine.unicode) awsAccessKey (engine.masked text) := by
  refine noMatch_masked ((patterns engine.unicode).take 2) rfl (fun hmem text => ?_)
    fun pattern hlater hmem text h => ?_
  · exact (fenced_awsAccessKey (label_of_mem hmem)).noMatch_sub_iff.mpr
      (noMatch_split_of_wordEdged wordEdged_awsAccessKey)
  · have hfenced := fenced_awsAccessKey (label_of_mem hmem)
    replace hlater : pattern ∈ (patterns engine.unicode).drop 3 := hlater
    simp only [patterns, earlyPatterns, List.cons_append, List.nil_append, List.drop_succ_cons,
      List.drop_zero, List.mem_cons, List.not_mem_nil, or_false] at hlater
    rcases hlater with rfl | rfl | rfl | rfl
    · exact noMatch_mask_of_wordEdged h wordEdged_cnId wordEdged_awsAccessKey hfenced
    · exact noMatch_mask_of_wordEdged h wordEdged_cnMobile wordEdged_awsAccessKey hfenced
    · exact noMatch_email_mask h rfl hfenced
    · exact noMatch_mask_of_wordEdged h wordEdged_internalIp wordEdged_awsAccessKey hfenced

theorem noMatch_email_masked : NoMatch (isWord engine.unicode) email (engine.masked text) := by
  refine noMatch_masked ((patterns engine.unicode).take 5) rfl (fun hmem text => ?_)
    fun pattern _ hmem text h => ?_
  · exact (fenced_email (label_of_mem hmem)).noMatch_sub_iff.mpr
      (noMatch_split_of_free (consumes_of_mem hmem) free_email)
  · exact noMatch_mask_of_free h hmem free_email (fenced_email (label_of_mem hmem))

theorem noMatch_internalIp_masked :
    NoMatch (isWord engine.unicode) (internalIp engine.unicode) (engine.masked text) := by
  refine noMatch_masked ((patterns engine.unicode).take 6) rfl (fun hmem text => ?_) nofun
  exact (fenced_internalIp (label_of_mem hmem)).noMatch_sub_iff.mpr
    (noMatch_split_of_wordEdged wordEdged_internalIp)

/-- **Long words are left** where they are found in a piece between e-mail addresses. -/
theorem noMatch_word_masked_iff (hr : r.WordEdged (isWord engine.unicode))
    (hwithin : r.Within (isWord engine.unicode · = true))
    (hlength : ∀ before m after, Matches (isWord engine.unicode) r before m after → 4 ≤ m.length)
    (hfenced : ∀ body, Label engine.unicode body → Fenced (isWord engine.unicode) r '[' ']' body) :
    NoMatch (isWord engine.unicode) r (engine.masked text) ↔
      ∀ piece ∈ split (isWord engine.unicode) email
        (engine.maskAll (earlyPatterns engine.unicode) text),
          NoMatch (isWord engine.unicode) r piece := by
  have hmem : ∀ pattern ∈ (patterns engine.unicode).drop 5, pattern ∈ patterns engine.unicode :=
    fun _ h => List.mem_of_mem_drop h
  obtain ⟨hemail, hip⟩ := List.forall_mem_cons.mp hmem
  have hip := hip _ (List.mem_singleton_self _)
  rw [masked, patterns, maskAll, List.foldl_append]
  exact (noMatch_internalIp_mask_iff rfl hr hwithin hlength (hfenced _ (label_of_mem hip))).trans
    (hfenced _ (label_of_mem hemail)).noMatch_sub_iff

/-- A text in which nothing is found is left as it is. -/
theorem maskAll_of_search {applied : List RedactionPattern}
    (h : ∀ pattern ∈ applied, search (isWord engine.unicode) pattern.regex text = none) :
    engine.maskAll applied text = text := by
  induction applied with
  | nil => rfl
  | cons pattern applied ih =>
    obtain ⟨hpattern, happlied⟩ := List.forall_mem_cons.mp h
    rw [maskAll, List.foldl_cons, mask, sub_of_search hpattern]
    exact ih happlied

end RedactionEngine

open RedactionEngine in
/-- **A text is redacted completely**, and once for all, exactly if no identity number and no mobile
number is found in a piece between its e-mail addresses, each piece read alone. -/
theorem redact_masks_iff (engine : RedactionEngine) (text : Str) :
    engine.Masks text ↔
      ∀ piece ∈ split (isWord engine.unicode) email
        (engine.maskAll (earlyPatterns engine.unicode) text),
          search (isWord engine.unicode) (cnId engine.unicode) piece = none ∧
            search (isWord engine.unicode) (cnMobile engine.unicode) piece = none := by
  have hid := @noMatch_word_masked_iff engine (cnId engine.unicode) text wordEdged_cnId within_cnId
    (fun _ _ _ => length_cnId_le) fun _ => fenced_cnId
  have hmobile := @noMatch_word_masked_iff engine (cnMobile engine.unicode) text wordEdged_cnMobile
    within_cnMobile (fun _ _ _ => length_cnMobile_le) fun _ => fenced_cnMobile
  simp only [search_eq_none_iff wordEdged_cnId.consumes, search_eq_none_iff wordEdged_cnMobile.consumes]
  rw [Masks, redactedText_redact, redactedText_redact]
  constructor
  · rintro ⟨hclear, -⟩ piece hpiece
    have hid' := hclear ⟨"cn_id", cnId engine.unicode, by decide⟩ (by simp [patterns, earlyPatterns])
    have hmobile' := hclear ⟨"cn_mobile", cnMobile engine.unicode, by decide⟩
      (by simp [patterns, earlyPatterns])
    exact ⟨hid.mp ((search_eq_none_iff wordEdged_cnId.consumes).mp hid') piece hpiece,
      hmobile.mp ((search_eq_none_iff wordEdged_cnMobile.consumes).mp hmobile') piece hpiece⟩
  · intro hpieces
    -- Only the two patterns of numbers depend on the pieces.
    have hclear : ∀ pattern ∈ patterns engine.unicode,
        search (isWord engine.unicode) pattern.regex (engine.masked text) = none := by
      intro pattern hpattern
      rw [search_eq_none_iff (consumes_of_mem hpattern)]
      simp only [patterns, earlyPatterns, List.cons_append, List.nil_append, List.mem_cons,
        List.not_mem_nil, or_false] at hpattern
      rcases hpattern with rfl | rfl | rfl | rfl | rfl | rfl | rfl
      · exact noMatch_privateKey_masked
      · exact noMatch_jwt_masked
      · exact noMatch_awsAccessKey_masked
      · exact hid.mpr fun piece hpiece => (hpieces piece hpiece).1
      · exact hmobile.mpr fun piece hpiece => (hpieces piece hpiece).2
      · exact noMatch_email_masked
      · exact noMatch_internalIp_masked
    exact ⟨hclear, maskAll_of_search hclear⟩

/-- A mobile number after an e-mail address is left, though the pattern of mobile numbers finds it in
the redacted text. -/
theorem number_after_address_left : ¬RedactionEngine.Masks ⟨[], .ascii⟩ "a@b.cc13812345678".toList := by
  intro hmasks
  have hfound : search (isWord .ascii) (cnMobile .ascii)
      (RedactionEngine.redact ⟨[], .ascii⟩ "a@b.cc13812345678".toList).redactedText =
        some "13812345678".toList := by
    decide +kernel
  have hnone := hmasks.1 ⟨"cn_mobile", cnMobile .ascii, by decide⟩ (by simp [patterns, earlyPatterns])
  rw [hfound] at hnone
  cases hnone

end SecOpent
