import SecOpent.Python.Codec
import SecOpent.Python.Url

/-!
# Network locations

The network location of a URL is cut at its delimiters: what stands before the last `@` is dropped, an
address in brackets is taken out of them, and a port follows the first colon. A host without delimiters
is read as it stands, and nothing that is read contains a delimiter.

## Main definitions

* `withoutBreaks`: the text that `urlsplit` looks at, without tabs and line ends
* `PlainHost`: a host without delimiters

## Main results

* `urlsplit_text_iff`: the parts of a URL with a path
* `PlainHost.hostname_eq`, `PlainHost.port_eq`: a plain host and its port are read back
* `hostinfo_of_no_bracket`, `mem_hostname`: the characters of a host that is read
-/

namespace Python

/-! ## The text of a URL -/

/-- The text without tabs and line ends. -/
def withoutBreaks (s : Str) : Str := s.filter fun c => c != '\t' && c != '\r' && c != '\n'

/-- A character of a network location. -/
def isInside (c : Char) : Bool := c != '/' && c != '?' && c != '#'

theorem cleanUrl_text {scheme : Str} (hscheme : scheme = "http".toList ∨ scheme = "https".toList)
    (rest : Str) :
    cleanUrl (scheme ++ ':' :: '/' :: '/' :: rest) =
      scheme ++ ':' :: '/' :: '/' :: withoutBreaks rest := by
  rcases hscheme with rfl | rfl <;> rfl

theorem splitScheme_text (U : Unicode) {scheme : Str}
    (hscheme : scheme = "http".toList ∨ scheme = "https".toList) (rest : Str) :
    splitScheme U (scheme ++ ':' :: rest) = (scheme, rest) := by
  have hcolon : ':' ∉ scheme := by rcases hscheme with rfl | rfl <;> decide
  have hlower : lower U scheme = scheme := by rcases hscheme with rfl | rfl <;> rfl
  have hhead : (scheme.head?.any Char.isAlpha && scheme.all isSchemeChar) = true := by
    rcases hscheme with rfl | rfl <;> decide
  have hmem : ':' ∈ scheme ++ ':' :: rest := by simp
  rw [splitScheme, partition_append ':' hcolon]
  simp only [hmem, decide_true, Bool.true_and, hhead, if_true, hlower]

theorem splitAuthority_text (rest : Str) :
    splitAuthority ('/' :: '/' :: rest) = (rest.takeWhile isInside, rest.dropWhile isInside) := by
  simp only [splitAuthority, startsWith, List.isPrefixOf, beq_self_eq_true, Bool.and_self, if_true]
  rfl

theorem splitScheme_subset (U : Unicode) (url : Str) : (splitScheme U url).2 ⊆ url := by
  unfold splitScheme
  dsimp only
  split
  · exact partition_snd_subset ':' url
  · exact List.Subset.refl url

theorem slash_not_mem_splitAuthority (url : Str) : '/' ∉ (splitAuthority url).1 := by
  unfold splitAuthority
  split
  · intro hmem
    have hchar := List.mem_takeWhile_imp hmem
    simp at hchar
  · exact List.not_mem_nil

theorem splitAuthority_subset (url : Str) : (splitAuthority url).2 ⊆ url := by
  unfold splitAuthority
  split
  · exact List.Subset.trans (List.dropWhile_subset _) (List.drop_subset 2 url)
  · exact List.Subset.refl url

theorem slash_not_mem_netloc {U : Unicode} {url : Str} {parsed : SplitResult}
    (h : urlsplit U url = some parsed) : '/' ∉ parsed.netloc := by
  obtain ⟨rest, path, -, hauthority, -⟩ := urlsplit_eq_some_iff.mp h
  have hnot := slash_not_mem_splitAuthority rest
  rwa [hauthority] at hnot

/-- Neither the path nor the query has a fragment or a break in it. -/
theorem path_chars {U : Unicode} {url : Str} {parsed : SplitResult} (h : urlsplit U url = some parsed) :
    ∀ c ∈ parsed.path ++ parsed.query, c ∉ ['#', '\t', '\r', '\n'] := by
  obtain ⟨rest, path, hscheme, hauthority, -, -, hpath, hquery, -⟩ := urlsplit_eq_some_iff.mp h
  intro c hc
  have hmem : c ∈ (partition '#' path).1 := by
    rw [hpath, hquery] at hc
    rcases List.mem_append.mp hc with hc | hc
    · exact partition_fst_subset '?' _ hc
    · exact partition_snd_subset '?' _ hc
  have hrest : c ∈ rest := by
    have hsub := splitAuthority_subset rest
    rw [hauthority] at hsub
    exact hsub (partition_fst_subset '#' path hmem)
  have hclean : c ∈ cleanUrl url := by
    have hsub := splitScheme_subset U (cleanUrl url)
    rw [hscheme] at hsub
    exact hsub hrest
  have hbreak := List.of_mem_filter hclean
  intro hlist
  simp only [List.mem_cons, List.not_mem_nil, or_false] at hlist
  rcases hlist with rfl | rfl | rfl | rfl
  · exact not_mem_partition '#' path hmem
  · cases hbreak
  · cases hbreak
  · cases hbreak

/-- A text without delimiters and breaks is read whole. -/
theorem read_eq_self {s : Str}
    (h : ∀ c ∈ s, c ∉ ['/', '?', '#', '\t', '\r', '\n']) :
    withoutBreaks s = s ∧ s.takeWhile isInside = s := by
  rw [withoutBreaks, List.filter_eq_self, List.takeWhile_eq_self_iff]
  constructor
  · intro c hc
    have hnot := h c hc
    simp only [List.mem_cons, List.not_mem_nil, or_false, not_or] at hnot
    simp [hnot]
  · intro c hc
    have hnot := h c hc
    simp only [List.mem_cons, List.not_mem_nil, or_false, not_or] at hnot
    simp [isInside, hnot]

theorem takeWhile_append_stop {p : Char → Bool} {a b : Str} {c : Char} (hc : p c = false) :
    (a ++ c :: b).takeWhile p = a.takeWhile p := by
  induction a with
  | nil => simp [hc]
  | cons d a ih =>
    rw [List.cons_append, List.takeWhile_cons, List.takeWhile_cons]
    split
    · rw [ih]
    · rfl

/-- **The parts of a URL with a path.** -/
theorem urlsplit_text_iff {U : Unicode} {scheme netloc rest : Str} {parsed : SplitResult}
    (hscheme : scheme = "http".toList ∨ scheme = "https".toList) :
    urlsplit U (scheme ++ ':' :: '/' :: '/' :: (netloc ++ '/' :: rest)) = some parsed ↔
      parsed.scheme = scheme ∧ parsed.netloc = (withoutBreaks netloc).takeWhile isInside ∧
        checkBrackets parsed.netloc = true ∧ checkNetloc U parsed.netloc = true ∧
        ∃ path, path = lstrip isInside (withoutBreaks netloc) ++ '/' :: withoutBreaks rest ∧
          parsed.path = (partition '?' (partition '#' path).1).1 ∧
          parsed.query = (partition '?' (partition '#' path).1).2 ∧
          parsed.fragment = (partition '#' path).2 := by
  have hbreaks : withoutBreaks (netloc ++ '/' :: rest) =
      withoutBreaks netloc ++ '/' :: withoutBreaks rest := by
    simp [withoutBreaks]
  have htake : (withoutBreaks netloc ++ '/' :: withoutBreaks rest).takeWhile isInside =
      (withoutBreaks netloc).takeWhile isInside := takeWhile_append_stop rfl
  have hdrop : (withoutBreaks netloc ++ '/' :: withoutBreaks rest).dropWhile isInside =
      lstrip isInside (withoutBreaks netloc) ++ '/' :: withoutBreaks rest := lstrip_append rfl
  have hsplit : splitScheme U (cleanUrl (scheme ++ ':' :: '/' :: '/' :: (netloc ++ '/' :: rest))) =
      (scheme, '/' :: '/' :: (withoutBreaks netloc ++ '/' :: withoutBreaks rest)) := by
    rw [cleanUrl_text hscheme, splitScheme_text U hscheme, hbreaks]
  have hauthority := splitAuthority_text (withoutBreaks netloc ++ '/' :: withoutBreaks rest)
  rw [htake, hdrop] at hauthority
  rw [urlsplit_eq_some_iff, hsplit]
  constructor
  · rintro ⟨tail, path, hscheme', hpath, hbrackets, hcheck, hparts⟩
    obtain ⟨hname, rfl⟩ := Prod.mk.inj hscheme'
    rw [hauthority] at hpath
    obtain ⟨hnetloc, rfl⟩ := Prod.mk.inj hpath
    exact ⟨hname.symm, hnetloc.symm, hbrackets, hcheck, _, rfl, hparts⟩
  · rintro ⟨hname, hnetloc, hbrackets, hcheck, path, rfl, hparts⟩
    refine ⟨_, _, Prod.ext hname.symm rfl, ?_, hbrackets, hcheck, hparts⟩
    rw [hauthority, hnetloc]

/-! ## Hosts -/

namespace SplitResult

variable {U : Unicode} {r : SplitResult} {h : Str}

/-- What is read as the host is a part of the network location, after the user. -/
theorem hostinfo_subset (r : SplitResult) : r.hostinfo.1 ⊆ (rpartition '@' r.netloc).2 := by
  unfold hostinfo
  dsimp only
  split
  · intro c hc
    exact partition_snd_subset '[' _ (partition_fst_subset ']' _ hc)
  · exact partition_fst_subset ':' _

/-- Without a user and brackets the host ends at the first colon. -/
theorem hostinfo_of_no_bracket (hat : '@' ∉ r.netloc) (hopen : '[' ∉ r.netloc) :
    r.hostinfo = ((partition ':' r.netloc).1,
      if (partition ':' r.netloc).2.isEmpty then none else some (partition ':' r.netloc).2) := by
  unfold hostinfo
  rw [rpartition_of_not_mem hat]
  simp only [hopen, if_false]

/-- In brackets the host ends at the closing one. -/
theorem close_not_mem_hostinfo (hat : '@' ∉ r.netloc) (hopen : '[' ∈ r.netloc) :
    ']' ∉ r.hostinfo.1 := by
  unfold hostinfo
  rw [rpartition_of_not_mem hat]
  simp only [hopen, if_true]
  exact not_mem_partition ']' _

/-- The brackets of a network location come in pairs. -/
theorem close_mem_iff (hbrackets : checkBrackets r.netloc = true) :
    ']' ∈ r.netloc ↔ '[' ∈ r.netloc := by
  by_cases hopen : '[' ∈ r.netloc
  · by_cases hclose : ']' ∈ r.netloc
    · exact iff_of_true hclose hopen
    · simp only [checkBrackets, hopen, hclose, decide_true, decide_false, Bool.and_false,
        Bool.false_eq_true, if_false, Bool.or_false, Bool.not_true] at hbrackets
  · by_cases hclose : ']' ∈ r.netloc
    · simp only [checkBrackets, hopen, hclose, decide_true, decide_false, Bool.false_and,
        Bool.false_eq_true, if_false, Bool.or_true, Bool.not_true] at hbrackets
    · exact iff_of_false hclose hopen

/-- The delimiters, the breaks, and the mark of the user are not read as characters of a host. -/
theorem not_mem_hostinfo {s : Str} {c : Char}
    (hread : r.netloc = (withoutBreaks s).takeWhile isInside)
    (hc : c ∈ ['/', '?', '#', '\t', '\r', '\n', '@']) : c ∉ r.hostinfo.1 := by
  intro hmem
  have hafter := hostinfo_subset r hmem
  have hin := rpartition_subset '@' _ hafter
  rw [hread] at hin
  have hinside := List.mem_takeWhile_imp hin
  have hbreak := List.of_mem_filter (List.takeWhile_subset _ hin)
  by_cases hat : c = '@'
  · rw [hat] at hafter
    exact not_mem_rpartition '@' _ hafter
  · simp only [List.mem_cons, List.not_mem_nil, or_false, hat] at hc
    rcases hc with rfl | rfl | rfl | rfl | rfl | rfl
    · cases hinside
    · cases hinside
    · cases hinside
    · cases hbreak
    · cases hbreak
    · cases hbreak

/-- The host of an ASCII network location has the characters that are read, in lower case or not. -/
theorem mem_hostname (hascii : isAscii r.netloc = true) (hname : r.hostname U = some h) :
    isAscii h = true ∧ ∀ c ∈ h, ∃ d ∈ r.hostinfo.1, c.toLower = d.toLower := by
  have hsub : r.hostinfo.1 ⊆ r.netloc := List.Subset.trans (hostinfo_subset r) (rpartition_subset '@' _)
  have hinfo : ∀ {s : Str}, s ⊆ r.hostinfo.1 → isAscii s = true := by
    intro s hs
    rw [isAscii, List.all_eq_true] at hascii ⊢
    exact fun c hc => hascii c (hsub (hs hc))
  unfold hostname at hname
  dsimp only at hname
  split at hname
  · cases hname
  split at hname
  · obtain rfl := Option.some.inj hname
    have hbefore := hinfo (partition_fst_subset '%' r.hostinfo.1)
    have hafter := hinfo (partition_snd_subset '%' r.hostinfo.1)
    rw [lower, if_pos hbefore]
    constructor
    · have hlowered := isAscii_map_toLower hbefore
      rw [isAscii, List.all_eq_true] at hlowered hafter ⊢
      intro c hc
      rcases List.mem_append.mp hc with hc | hc
      · exact hlowered c hc
      · rcases List.mem_cons.mp hc with rfl | hc
        · decide
        · exact hafter c hc
    · intro c hc
      rcases List.mem_append.mp hc with hc | hc
      · obtain ⟨d, hd, rfl⟩ := List.mem_map.mp hc
        exact ⟨d, partition_fst_subset '%' _ hd, toLower_toLower d⟩
      · rcases List.mem_cons.mp hc with rfl | hc
        · exact ⟨'%', ‹_›, rfl⟩
        · exact ⟨c, partition_snd_subset '%' _ hc, rfl⟩
  · obtain rfl := Option.some.inj hname
    have hread := hinfo (List.Subset.refl r.hostinfo.1)
    rw [lower, if_pos hread]
    refine ⟨isAscii_map_toLower hread, fun c hc => ?_⟩
    obtain ⟨d, hd, rfl⟩ := List.mem_map.mp hc
    exact ⟨d, hd, toLower_toLower d⟩

/-- A host that is read has a slash only if the network location has one. -/
theorem hasSlash_hostname (hU : U.Lawful) (hname : r.hostname U = some h) (hslash : HasSlash U h) :
    HasSlash U r.netloc := by
  have hsub : r.hostinfo.1 ⊆ r.netloc := List.Subset.trans (hostinfo_subset r) (rpartition_subset '@' _)
  refine HasSlash.mono ?_ hsub
  unfold hostname at hname
  dsimp only at hname
  split at hname
  · cases hname
  split at hname
  · obtain rfl := Option.some.inj hname
    obtain ⟨c, hc, hchar⟩ := hslash
    rcases List.mem_append.mp hc with hc | hc
    · have hbefore := hasSlash_of_lower hU ⟨c, hc, hchar⟩
      exact hbefore.mono (partition_fst_subset '%' r.hostinfo.1)
    · rcases List.mem_cons.mp hc with rfl | hc
      · exact ⟨'%', ‹_›, hchar⟩
      · exact ⟨c, partition_snd_subset '%' _ hc, hchar⟩
  · obtain rfl := Option.some.inj hname
    exact hasSlash_of_lower hU hslash

end SplitResult

/-- `_checknetloc` accepts no network location that NFKC would give a slash. -/
theorem not_hasSlash_of_checkNetloc {U : Unicode} (hU : U.Lawful) {netloc : Str}
    (hcheck : checkNetloc U netloc = true) (hnot : '/' ∉ netloc) : ¬HasSlash U netloc := by
  intro hslash
  by_cases hascii : isAscii netloc = true
  · exact hnot (slash_mem_of_ascii hU hascii hslash)
  obtain ⟨c, hc, hchar⟩ := hslash
  have hne : netloc.isEmpty = false := by
    rw [List.isEmpty_eq_false_iff]
    exact List.ne_nil_of_mem hc
  -- The characters that the check takes out are ASCII, and no slashes.
  have hkept : (c != '@' && c != ':' && c != '#' && c != '?') = true := by
    have hother : ∀ d ∈ ['@', ':', '#', '?'], c ≠ d := by
      rintro d hd rfl
      have hsmall : c.toNat < 128 ∧ '/' ≠ c := by
        simp only [List.mem_cons, List.not_mem_nil, or_false] at hd
        rcases hd with rfl | rfl | rfl | rfl
        all_goals decide
      rw [hU.nfkc_ascii c hsmall.1] at hchar
      exact hsmall.2 (List.mem_singleton.mp hchar)
    simp only [List.mem_cons, List.not_mem_nil, or_false, forall_eq_or_imp, forall_eq] at hother
    simp [hother]
  have hmem : c ∈ netloc.filter fun c => c != '@' && c != ':' && c != '#' && c != '?' :=
    List.mem_filter.mpr ⟨hc, hkept⟩
  have hbare := hU.nfkc_slash _ c hmem hchar
  simp only [checkNetloc, hne, hascii, Bool.false_or, Bool.or_eq_true, beq_iff_eq] at hcheck
  rcases hcheck with hsame | hall
  · rw [hsame] at hbare
    exact hnot (List.mem_of_mem_filter hbare)
  · have hno := List.all_eq_true.mp hall '/' hbare
    cases hno

/-! ## Plain hosts -/

/-- A host without delimiters. -/
def PlainHost (host : Str) : Prop := ∀ c ∈ host, isNetlocChar c = true ∧ c ≠ ':'

namespace PlainHost

variable {host : Str} {port : Option ℕ}

theorem no_colon (h : PlainHost host) : ':' ∉ host := fun hmem => (h _ hmem).2 rfl

theorem netloc_chars (h : PlainHost host) : ∀ c ∈ host ++ netlocPort port, isNetlocChar c = true := by
  intro c hc
  rcases List.mem_append.mp hc with hc | hc
  · exact (h c hc).1
  · exact isNetlocChar_netlocPort c hc

theorem not_mem_netloc (h : PlainHost host) {c : Char} (hc : isNetlocChar c = false) :
    c ∉ host ++ netlocPort port := by
  intro hmem
  rw [h.netloc_chars c hmem] at hc
  cases hc

theorem isAscii_netloc (h : PlainHost host) : isAscii (host ++ netlocPort port) = true := by
  rw [isAscii, List.all_eq_true]
  intro c hc
  have hchar := h.netloc_chars c hc
  simp only [isNetlocChar, Bool.and_eq_true] at hchar
  exact hchar.1

theorem isAscii (h : PlainHost host) : isAscii host = true := by
  have hnone : Python.isAscii (host ++ netlocPort none) = true := h.isAscii_netloc
  rwa [netlocPort, List.append_nil] at hnone

theorem withoutBreaks_netloc (h : PlainHost host) :
    withoutBreaks (host ++ netlocPort port) = host ++ netlocPort port := by
  rw [withoutBreaks, List.filter_eq_self]
  intro c hc
  have htab : c ≠ '\t' := by rintro rfl; exact h.not_mem_netloc rfl hc
  have hreturn : c ≠ '\r' := by rintro rfl; exact h.not_mem_netloc rfl hc
  have hline : c ≠ '\n' := by rintro rfl; exact h.not_mem_netloc rfl hc
  simp [htab, hreturn, hline]

theorem isInside_netloc (h : PlainHost host) : ∀ c ∈ host ++ netlocPort port, isInside c = true := by
  intro c hc
  have hslash : c ≠ '/' := by rintro rfl; exact h.not_mem_netloc rfl hc
  have hquestion : c ≠ '?' := by rintro rfl; exact h.not_mem_netloc rfl hc
  have hhash : c ≠ '#' := by rintro rfl; exact h.not_mem_netloc rfl hc
  simp [isInside, hslash, hquestion, hhash]

theorem checks (h : PlainHost host) (U : Unicode) :
    checkBrackets (host ++ netlocPort port) = true ∧
      checkNetloc U (host ++ netlocPort port) = true := by
  have hopen : '[' ∉ host ++ netlocPort port := h.not_mem_netloc rfl
  have hclose : ']' ∉ host ++ netlocPort port := h.not_mem_netloc rfl
  constructor
  · simp [checkBrackets, hopen, hclose]
  · simp [checkNetloc, h.isAscii_netloc]

variable {U : Unicode} {r : SplitResult}

/-- **A plain host and its port are read back.** -/
theorem hostinfo_eq (h : PlainHost host) (hnetloc : r.netloc = host ++ netlocPort port) :
    r.hostinfo = (host, port.map (Nat.toDigits 10)) := by
  have hat : '@' ∉ r.netloc := by rw [hnetloc]; exact h.not_mem_netloc rfl
  have hopen : '[' ∉ r.netloc := by rw [hnetloc]; exact h.not_mem_netloc rfl
  rw [SplitResult.hostinfo_of_no_bracket hat hopen, hnetloc]
  cases port with
  | none =>
    rw [netlocPort, List.append_nil, partition_of_not_mem h.no_colon]
    rfl
  | some n =>
    have hdigits : (Nat.toDigits 10 n).isEmpty = false := by
      rw [List.isEmpty_eq_false_iff]
      exact Nat.toDigits_ne_nil
    rw [netlocPort, partition_append ':' h.no_colon]
    simp [hdigits]

theorem port_eq (h : PlainHost host) (hnetloc : r.netloc = host ++ netlocPort port)
    (hport : ∀ n, port = some n → n ≤ 65535) : r.port = some port := by
  rw [SplitResult.port, h.hostinfo_eq hnetloc]
  cases port with
  | none => rfl
  | some n =>
    have hle := hport n rfl
    have hdigits : (Nat.toDigits 10 n).all Char.isDigit = true := by
      rw [List.all_eq_true]
      exact fun c hc => Nat.isDigit_of_mem_toDigits (by norm_num) (by norm_num) hc
    have hlength : (Nat.toDigits 10 n).length ≤ maxStrDigits := by
      have hshort : (Nat.toDigits 10 n).length ≤ 5 :=
        (Nat.length_toDigits_le_iff (by norm_num) (by norm_num)).mpr (by omega)
      exact hshort.trans (by decide)
    simp only [Option.map_some, hdigits, hlength, decide_true, Bool.and_self, if_true,
      Nat.ofDigitChars_ten_toDigits, hle]

theorem hostname_eq (h : PlainHost host) (hnetloc : r.netloc = host ++ netlocPort port)
    (hne : host ≠ []) (hlower : IsLower host) : r.hostname U = some host := by
  have hempty : host.isEmpty = false := by simpa using hne
  rw [SplitResult.hostname, h.hostinfo_eq hnetloc]
  simp only [hempty, Bool.false_eq_true, if_false]
  split
  next hpercent =>
    -- The part before the scope id is in lower case as well.
    obtain ⟨a, b, rfl, ha⟩ := List.eq_append_cons_of_mem hpercent
    have hbefore : Python.isAscii a = true ∧ IsLower a := by
      refine ⟨?_, fun c hc => hlower c (by simp [hc])⟩
      have hascii := h.isAscii
      rw [Python.isAscii, List.all_eq_true] at hascii ⊢
      exact fun c hc => hascii c (by simp [hc])
    rw [partition_append '%' ha]
    dsimp only
    rw [lower_eq_self hbefore.1 hbefore.2]
  next => rw [lower_eq_self h.isAscii hlower]

end PlainHost

end Python
