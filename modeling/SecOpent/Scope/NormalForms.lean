import SecOpent.Python.NetLocation
import SecOpent.Scope.UrlBoundaries

/-!
# Texts that are their own normal form

`normalize_domain` keeps a domain that it has written, unless blanks around it are stripped the second
time. `normalize_url` keeps the text of a URL when its network location is a plain host that
`normalize_domain` keeps, with a port that is not the default one, and no blank ends the text.

## Main definitions

* `idnaText`, `DomainText`: what the codec writes
* `OwnForm`: the text of a URL that is read back

## Main results

* `normalizeDomain_self_iff`: the normal forms of domains that are kept
* `normalizeUrl_self_iff`: the texts that `normalize_url` keeps
-/

namespace SecOpent

open Python

variable {U : Unicode}

/-! ## Domains -/

/-- The text that the codec gives for a domain, below a wildcard or not. -/
def idnaText (U : Unicode) (value : Str) : Option Str :=
  let domain := Python.lower U (rstrip (· == '.') (strip value))
  if startsWith domain ['*', '.'] then (encodeIdna U (domain.drop 2)).map (['*', '.'] ++ ·)
  else encodeIdna U domain

/-- What `normalize_domain` writes: ASCII labels in lower case, below a wildcard or not. -/
structure DomainText (wild encoded : Str) : Prop where
  wild : wild = [] ∨ wild = ['*', '.']
  ascii : isAscii encoded = true
  lower : IsLower encoded
  labels : HasLabels encoded

/-- The codec and the check of the labels. -/
theorem domainText_of_encodeIdna (hU : U.Lawful) {wild raw encoded : Str}
    (hwild : wild = [] ∨ wild = ['*', '.']) (hraw : IsLower raw) (h : encodeIdna U raw = some encoded)
    (hlabels : (encoded.isEmpty || (encoded.splitOn '.').any List.isEmpty) = false) :
    DomainText wild encoded := by
  refine ⟨hwild, isAscii_encodeIdna hU h, isLower_encodeIdna hU hraw h, fun label hlabel => ?_⟩
  rw [Bool.or_eq_false_iff, List.any_eq_false] at hlabels
  refine ⟨?_, length_encodeIdna hU h label hlabel⟩
  simpa using hlabels.2 label hlabel

/-- What `normalize_domain` does: a wildcard is set aside, and the rest is encoded. -/
theorem normalizeDomain_parts {value domain : Str} (h : normalizeDomain U value = .ok domain) :
    idnaText U value = some domain ∧ ∃ wild raw encoded, (wild = [] ∨ wild = ['*', '.']) ∧
      Python.lower U (rstrip (· == '.') (strip value)) = wild ++ raw ∧
        encodeIdna U raw = some encoded ∧ domain = wild ++ encoded ∧
        (encoded.isEmpty || (encoded.splitOn '.').any List.isEmpty) = false := by
  unfold normalizeDomain at h
  unfold idnaText
  dsimp only at h ⊢
  generalize Python.lower U (rstrip (· == '.') (strip value)) = text at h ⊢
  cases hwild : startsWith text ['*', '.'] with
  | false =>
    simp only [hwild, Bool.false_eq_true, if_false] at h ⊢
    cases hencode : encodeIdna U text with
    | none => simp [hencode] at h
    | some encoded =>
      simp only [hencode] at h
      split at h
      · cases h
      next hlabels =>
        rw [Bool.not_eq_true] at hlabels
        obtain rfl := Except.ok.inj h
        exact ⟨rfl, [], text, encoded, .inl rfl, rfl, hencode, rfl, hlabels⟩
  | true =>
    simp only [hwild, if_true] at h ⊢
    obtain ⟨raw, rfl⟩ := List.isPrefixOf_iff_prefix.mp hwild
    have hdrop : (['*', '.'] ++ raw).drop 2 = raw := rfl
    rw [hdrop] at h ⊢
    cases hencode : encodeIdna U raw with
    | none => simp [hencode] at h
    | some encoded =>
      simp only [hencode] at h
      split at h
      · cases h
      next hlabels =>
        rw [Bool.not_eq_true] at hlabels
        obtain rfl := Except.ok.inj h
        exact ⟨rfl, ['*', '.'], raw, encoded, .inr rfl, rfl, hencode, rfl, hlabels⟩

theorem domainText_of_normalizeDomain (hU : U.Lawful) {value domain : Str}
    (h : normalizeDomain U value = .ok domain) :
    ∃ wild encoded, domain = wild ++ encoded ∧ DomainText wild encoded := by
  obtain ⟨-, wild, raw, encoded, hwild, htext, hencode, hdomain, hlabels⟩ := normalizeDomain_parts h
  have hlower := isLower_lower hU (rstrip (· == '.') (strip value))
  rw [htext] at hlower
  have hraw : IsLower raw := fun c hc => hlower c (List.mem_append_right wild hc)
  exact ⟨wild, encoded, hdomain, domainText_of_encodeIdna hU hwild hraw hencode hlabels⟩

/-- A slash in a domain that is written was made of a slash. -/
theorem hasSlash_of_normalizeDomain (hU : U.Lawful) {value domain : Str}
    (h : normalizeDomain U value = .ok domain) (hslash : '/' ∈ domain) : HasSlash U value := by
  obtain ⟨-, wild, raw, encoded, hwild, htext, hencode, rfl, -⟩ := normalizeDomain_parts h
  have hencoded : '/' ∈ encoded := by
    rcases List.mem_append.mp hslash with hmem | hmem
    · rcases hwild with rfl | rfl
      · cases hmem
      · exact absurd hmem (by decide)
    · exact hmem
  have hraw := hasSlash_of_encodeIdna hU hencode hencoded
  have hlower : HasSlash U (Python.lower U (rstrip (· == '.') (strip value))) := by
    rw [htext]
    exact hraw.mono (List.subset_append_right wild raw)
  exact (hasSlash_of_lower hU hlower).mono (strip_subset value)

namespace DomainText

variable {wild encoded : Str}

theorem wild_chars (h : DomainText wild encoded) : ∀ c ∈ wild, c.toNat < 128 ∧ c.isUpper = false := by
  rcases h.wild with rfl | rfl
  · intro c hc
    cases hc
  · intro c hc
    simp only [List.mem_cons, List.not_mem_nil, or_false] at hc
    rcases hc with rfl | rfl
    all_goals decide

theorem isAscii_append (h : DomainText wild encoded) : isAscii (wild ++ encoded) = true := by
  have hascii := h.ascii
  rw [isAscii, List.all_eq_true] at hascii ⊢
  intro c hc
  rcases List.mem_append.mp hc with hc | hc
  · exact decide_eq_true (h.wild_chars c hc).1
  · exact hascii c hc

theorem isLower_append (h : DomainText wild encoded) : IsLower (wild ++ encoded) := by
  intro c hc
  rcases List.mem_append.mp hc with hc | hc
  · exact (h.wild_chars c hc).2
  · exact h.lower c hc

theorem rstrip_append (h : DomainText wild encoded) :
    rstrip (· == '.') (wild ++ encoded) = wild ++ encoded := by
  have hkept := rstrip_dot_of_hasLabels h.labels
  rw [rstrip, List.rdropWhile_eq_self_iff] at hkept ⊢
  intro hne
  rw [List.getLast_append_of_ne_nil _ h.labels.ne_nil]
  exact hkept h.labels.ne_nil

end DomainText

/-- The labels below a wildcard. -/
theorem hasLabels_below {encoded : Str} (h : HasLabels ('*' :: '.' :: encoded)) :
    HasLabels encoded := by
  intro label hlabel
  have hsplit : ('*' :: '.' :: encoded).splitOn '.' = ['*'].splitOn '.' ++ encoded.splitOn '.' :=
    List.splitOn_append_cons_self ['*'] encoded
  exact h label (by rw [hsplit]; exact List.mem_append_right _ hlabel)

/-- Without blanks around it, what has been written is kept. -/
theorem DomainText.normalizeDomain_self {wild encoded : Str} (h : DomainText wild encoded)
    (hstrip : strip (wild ++ encoded) = wild ++ encoded) :
    normalizeDomain U (wild ++ encoded) = .ok (wild ++ encoded) := by
  have htext : Python.lower U (rstrip (· == '.') (strip (wild ++ encoded))) = wild ++ encoded := by
    rw [hstrip, h.rstrip_append, lower_eq_self h.isAscii_append h.isLower_append]
  unfold normalizeDomain
  simp only [htext]
  cases hwild : startsWith (wild ++ encoded) ['*', '.'] with
  | true =>
    -- What is below the wildcard is encoded already, also if the codec wrote the star.
    have hbelow : ∃ below, wild ++ encoded = ['*', '.'] ++ below ∧ isAscii below = true ∧
        HasLabels below := by
      rcases h.wild with rfl | rfl
      · obtain ⟨below, hbelow⟩ := List.isPrefixOf_iff_prefix.mp hwild
        rw [List.nil_append] at hbelow ⊢
        subst hbelow
        refine ⟨below, rfl, ?_, hasLabels_below h.labels⟩
        have hascii := h.ascii
        rw [isAscii, List.all_eq_true] at hascii ⊢
        exact fun c hc => hascii c (List.mem_append_right _ hc)
      · exact ⟨encoded, rfl, h.ascii, h.labels⟩
    obtain ⟨below, heq, hascii, hlabels⟩ := hbelow
    have hencode : encodeIdna U below = some below := encodeIdna_of_hasLabels hascii hlabels
    have hcheck := hlabels.none_empty
    have hdrop : (['*', '.'] ++ below).drop 2 = below := rfl
    simp only [heq, hdrop, if_true, hencode, hcheck, Bool.false_eq_true, if_false]
  | false =>
    have hnil : wild = [] := by
      rcases h.wild with rfl | rfl
      · rfl
      · simp [startsWith, List.isPrefixOf] at hwild
    subst hnil
    have hencode : encodeIdna U encoded = some encoded := encodeIdna_of_hasLabels h.ascii h.labels
    have hcheck := h.labels.none_empty
    simp only [List.nil_append, Bool.false_eq_true, if_false, hencode, hcheck]

/-- A text that `normalize_domain` keeps has no blanks around it. -/
theorem strip_of_normalizeDomain_self {domain : Str} (hascii : isAscii domain = true)
    (h : normalizeDomain U domain = .ok domain) : strip domain = domain := by
  have hnormal := congrArg List.length (normalizeDomain_of_ascii hascii h)
  have hdots := length_rstrip_le (· == '.') (strip domain)
  rw [List.length_map] at hnormal
  have hsub : (strip domain).Sublist domain :=
    (List.rdropWhile_prefix _ _).sublist.trans (List.dropWhile_sublist _)
  exact hsub.eq_of_length_le (by omega)

/-- **The normal forms of domains that are kept.** -/
theorem normalizeDomain_self_iff (hU : U.Lawful) {value domain : Str}
    (h : normalizeDomain U value = .ok domain) :
    normalizeDomain U domain = .ok domain ↔ strip domain = domain := by
  obtain ⟨wild, encoded, rfl, htext⟩ := domainText_of_normalizeDomain hU h
  exact ⟨strip_of_normalizeDomain_self htext.isAscii_append, htext.normalizeDomain_self⟩

/-! ## URLs -/

/-- A plain host that `normalize_domain` keeps. -/
structure KeptHost (U : Unicode) (host : Str) : Prop where
  plain : PlainHost host
  kept : normalizeDomain U host = .ok host

/-- A port that a normal form shows. -/
def IsShown (scheme : Str) (port : Option ℕ) : Prop :=
  ∀ n, port = some n → n ≤ 65535 ∧ n ≠ defaultPort scheme

/-- A normal path and a query that end a URL as they are. -/
structure KeptPath (path query : Str) : Prop where
  normal : normalPath path = path
  no_question : '?' ∉ path
  no_hash : '#' ∉ path ++ queryText query
  no_break : withoutBreaks (path ++ queryText query) = path ++ queryText query
  no_blank : rstrip isSpace (path ++ queryText query) = path ++ queryText query

/-- **The text of a URL that is read back**. -/
def OwnForm (U : Unicode) (url : Str) : Prop :=
  ∃ scheme host port path query, url = urlText scheme host port path query ∧ IsWebScheme scheme ∧
    KeptHost U host ∧ IsShown scheme port ∧ KeptPath path query

theorem KeptHost.isLower {host : Str} (h : KeptHost U host) : IsLower host := by
  have hnormal := normalizeDomain_of_ascii h.plain.isAscii h.kept
  rw [hnormal]
  exact isLower_map_toLower _

theorem urlText_eq (scheme host : Str) (port : Option ℕ) (path query : Str) :
    urlText scheme host port path query =
      scheme ++ ':' :: '/' :: '/' :: ((host ++ netlocPort port) ++ (path ++ queryText query)) := by
  simp [urlText]

/-- Only the end of a URL may be blank. -/
theorem strip_urlText {scheme netloc : Str} (hscheme : IsWebScheme scheme) (rest : Str) :
    strip (scheme ++ ':' :: '/' :: '/' :: (netloc ++ '/' :: rest)) =
      scheme ++ ':' :: '/' :: '/' :: (netloc ++ '/' :: rstrip isSpace rest) := by
  have hstart : ∀ t : Str, lstrip isSpace (scheme ++ ':' :: t) = scheme ++ ':' :: t := by
    intro t
    rcases hscheme with rfl | rfl <;> rfl
  rw [strip, hstart]
  have hsplit : ∀ t : Str, scheme ++ ':' :: '/' :: '/' :: (netloc ++ '/' :: t) =
      (scheme ++ ':' :: '/' :: '/' :: netloc) ++ '/' :: t := by
    intro t
    simp
  rw [hsplit, rstrip_append rfl, ← hsplit]

theorem exists_path_text {path query : Str} (h : KeptPath path query) :
    ∃ rest, path ++ queryText query = '/' :: rest ∧ rstrip isSpace rest = rest ∧
      withoutBreaks rest = rest := by
  obtain ⟨tail, htail⟩ := exists_normalPath path
  rw [h.normal] at htail
  refine ⟨tail ++ queryText query, by rw [htail, List.cons_append], ?_, ?_⟩
  · have hblank := h.no_blank
    rw [htail, List.cons_append] at hblank
    have hend : rstrip isSpace ([] ++ '/' :: (tail ++ queryText query)) =
        [] ++ '/' :: rstrip isSpace (tail ++ queryText query) := rstrip_append rfl
    rw [List.nil_append, hblank] at hend
    exact (List.cons.inj hend).2.symm
  · have hbreak := h.no_break
    rw [htail, List.cons_append] at hbreak
    exact (List.cons.inj hbreak).2

/-- The path and the query are cut where they were put together. -/
theorem partition_path {path query : Str} (hpath : '?' ∉ path) :
    partition '?' (path ++ queryText query) = (path, query) := by
  cases query with
  | nil => rw [queryText_nil, List.append_nil, partition_of_not_mem hpath]
  | cons c query => rw [queryText_of_ne_nil (List.cons_ne_nil c query), partition_append '?' hpath]

theorem IsShown.shownPort {scheme : Str} {port : Option ℕ} (h : IsShown scheme port) :
    SecOpent.shownPort scheme port = port := by
  cases port with
  | none => rfl
  | some n => simp [SecOpent.shownPort, Option.filter, (h n rfl).2]

theorem lower_scheme {scheme : Str} (h : IsWebScheme scheme) : lower U scheme = scheme := by
  rcases h with rfl | rfl <;> rfl

theorem OwnForm.strip_eq {url : Str} (h : OwnForm U url) : strip url = url := by
  obtain ⟨scheme, host, port, path, query, hurl, hscheme, -, -, hpath⟩ := h
  obtain ⟨rest, hrest, hblank, -⟩ := exists_path_text hpath
  rw [hurl, urlText_eq, hrest, strip_urlText hscheme, hblank]

/-- A text in its own form is kept. -/
theorem normalizeUrl_of_ownForm {url : Str} (h : OwnForm U url) : normalizeUrl U url = .ok url := by
  have hstrip := h.strip_eq
  obtain ⟨scheme, host, port, path, query, hurl, hscheme, hhost, hport, hpath⟩ := h
  obtain ⟨rest, hrest, -, hbreak⟩ := exists_path_text hpath
  have htext : url = scheme ++ ':' :: '/' :: '/' :: ((host ++ netlocPort port) ++ '/' :: rest) := by
    rw [hurl, urlText_eq, hrest]
  have hinside : ∀ c ∈ host ++ netlocPort port, isInside c = true := hhost.plain.isInside_netloc
  have hnetloc : (withoutBreaks (host ++ netlocPort port)).takeWhile isInside =
      host ++ netlocPort port := by
    rw [hhost.plain.withoutBreaks_netloc]
    exact List.takeWhile_eq_self_iff.mpr hinside
  have hnothing : lstrip isInside (withoutBreaks (host ++ netlocPort port)) = [] := by
    rw [hhost.plain.withoutBreaks_netloc]
    exact List.dropWhile_eq_nil_iff.mpr hinside
  let parsed : SplitResult := ⟨scheme, host ++ netlocPort port, path, query, []⟩
  have hparsed : urlsplit U (strip url) = some parsed := by
    rw [hstrip, htext]
    refine (urlsplit_text_iff hscheme).mpr ⟨rfl, hnetloc.symm, (hhost.plain.checks U).1,
      (hhost.plain.checks U).2, '/' :: rest, ?_, ?_, ?_, ?_⟩
    · rw [hnothing, hbreak, List.nil_append]
    · rw [← hrest, partition_of_not_mem hpath.no_hash, partition_path hpath.no_question]
    · rw [← hrest, partition_of_not_mem hpath.no_hash, partition_path hpath.no_question]
    · rw [← hrest, partition_of_not_mem hpath.no_hash]
  have hhostname : parsed.hostname U = some host :=
    hhost.plain.hostname_eq rfl (normalizeDomain_ne_nil hhost.kept) hhost.isLower
  have hreadPort : parsed.port = some port := hhost.plain.port_eq rfl fun n hn => (hport n hn).1
  refine normalizeUrl_eq_ok_iff.mpr ⟨parsed, host, host, port, hparsed, hhostname, ?_, hhost.kept,
    hreadPort, ?_⟩
  · rw [lower_scheme hscheme]
    exact hscheme
  · rw [lower_scheme hscheme, hport.shownPort]
    show url = urlText scheme host port (normalPath path) query
    rw [hpath.normal, hurl]

/-! ### What is read from a text that is kept -/

/-- A symbol in the normal form of a host was in the host that was read. -/
theorem mem_hostinfo_of_symbol {parsed : SplitResult} {hostname host : Str} {c : Char}
    (hascii : isAscii parsed.netloc = true) (hhostname : parsed.hostname U = some hostname)
    (hhost : normalizeDomain U hostname = .ok host) (hc : c.isLower = false) (hmem : c ∈ host) :
    c ∈ parsed.hostinfo.1 := by
  obtain ⟨hname, hchars⟩ := SplitResult.mem_hostname hascii hhostname
  rw [normalizeDomain_of_ascii hname hhost] at hmem
  obtain ⟨d, hd, hlower⟩ := List.mem_map.mp hmem
  obtain rfl := eq_of_toLower hlower hc
  obtain ⟨e, he, hsame⟩ := hchars d (strip_subset hostname hd)
  have hde : e = d := by
    refine eq_of_toLower ?_ hc
    rw [← hsame, hlower]
  rw [← hde]
  exact he

theorem port_le {r : SplitResult} {n : ℕ} (h : r.port = some (some n)) : n ≤ 65535 := by
  unfold SplitResult.port at h
  split at h
  · cases h
  split at h
  · dsimp only at h
    split at h
    · cases h
      assumption
    · cases h
  · cases h

/-- The path and the query are not longer than what they are cut from. -/
theorem length_partition_le (text : Str) :
    (partition '?' text).1.length + (queryText (partition '?' text).2).length ≤ text.length := by
  by_cases hmem : '?' ∈ text
  · obtain ⟨a, b, rfl, ha⟩ := List.eq_append_cons_of_mem hmem
    rw [partition_append '?' ha]
    cases b with
    | nil => simp [queryText_nil]
    | cons c b => simp [queryText_of_ne_nil (List.cons_ne_nil c b)]
  · rw [partition_of_not_mem hmem, queryText_nil]
    simp

/-- What cuts a network location, or is taken out of it, is no letter of a host. -/
theorem delimiter_chars {c : Char} (hc : c ∈ ['/', '?', '#', '\t', '\r', '\n', '@']) :
    c.isLower = false ∧ isNetlocChar c = false := by
  simp only [List.mem_cons, List.not_mem_nil, or_false] at hc
  rcases hc with rfl | rfl | rfl | rfl | rfl | rfl | rfl
  all_goals decide

/-- A character that is no delimiter. -/
theorem isNetlocChar_of_not_mem {c : Char} (hascii : isAscii [c] = true)
    (h : ∀ d ∈ ['/', '?', '#', '[', ']', '@', '\t', '\r', '\n'], c ≠ d) : isNetlocChar c = true := by
  have hnot : c ∉ ['/', '?', '#', '[', ']', '@', '\t', '\r', '\n'] := fun hmem => h c hmem rfl
  rw [isNetlocChar, Bool.and_eq_true, Bool.not_eq_true', List.contains_eq_mem, decide_eq_false_iff_not]
  exact ⟨by simpa [isAscii] using hascii, hnot⟩

/-- The host of a URL that is kept: what is read of it is what is written. -/
theorem keptHost_of_read (hU : U.Lawful) {parsed : SplitResult} {hostname host : Str} {shown : Option ℕ}
    (hread : parsed.netloc = (withoutBreaks (host ++ netlocPort shown)).takeWhile isInside)
    (hbrackets : checkBrackets parsed.netloc = true) (hhostname : parsed.hostname U = some hostname)
    (hhost : normalizeDomain U hostname = .ok host) :
    KeptHost U host ∧ parsed.netloc = host ++ netlocPort shown := by
  obtain ⟨wild, encoded, hdomain, htext⟩ := domainText_of_normalizeDomain hU hhost
  have hhostAscii : isAscii host = true := by
    rw [hdomain]
    exact htext.isAscii_append
  have hascii : isAscii parsed.netloc = true := by
    rw [hread]
    rw [isAscii, List.all_eq_true] at hhostAscii ⊢
    intro c hc
    rcases List.mem_append.mp (List.mem_of_mem_filter (List.takeWhile_subset _ hc)) with hc | hc
    · exact hhostAscii c hc
    · have hchar := isNetlocChar_netlocPort c hc
      simp only [isNetlocChar, Bool.and_eq_true] at hchar
      exact hchar.1
  -- A symbol of the host is in what was read of the network location.
  have hsymbol : ∀ {c : Char}, c.isLower = false → c ∉ parsed.hostinfo.1 → c ∉ host :=
    fun hc hnot hmem => hnot (mem_hostinfo_of_symbol hascii hhostname hhost hc hmem)
  have hdelimiters : ∀ c ∈ ['/', '?', '#', '\t', '\r', '\n', '@'], c ∉ host ++ netlocPort shown := by
    intro c hc hmem
    rcases List.mem_append.mp hmem with hmem | hmem
    · exact hsymbol (delimiter_chars hc).1 (SplitResult.not_mem_hostinfo hread hc) hmem
    · have hchar := isNetlocChar_netlocPort c hmem
      rw [(delimiter_chars hc).2] at hchar
      cases hchar
  have hnetloc : parsed.netloc = host ++ netlocPort shown := by
    obtain ⟨hwhole, htake⟩ := read_eq_self fun c hc hmem =>
      hdelimiters c (List.mem_append_left ['@'] hmem) hc
    rw [hread, hwhole, htake]
  -- The user and the brackets are not written again.
  have hat : '@' ∉ parsed.netloc := by
    rw [hnetloc]
    exact hdelimiters '@' (by decide)
  have hnoPort : ∀ {c : Char}, isNetlocChar c = false → c ∉ host → c ∉ parsed.netloc := by
    intro c hc hnot hmem
    rw [hnetloc] at hmem
    rcases List.mem_append.mp hmem with hmem | hmem
    · exact hnot hmem
    · rw [isNetlocChar_netlocPort c hmem] at hc
      cases hc
  have hclose : ']' ∉ parsed.netloc := by
    intro hmem
    have hopen := (SplitResult.close_mem_iff hbrackets).mp hmem
    have hnot : ']' ∉ host :=
      hsymbol (c := ']') (by decide) (SplitResult.close_not_mem_hostinfo hat hopen)
    exact hnoPort (c := ']') (by decide) hnot hmem
  have hopen : '[' ∉ parsed.netloc := fun hmem =>
    hclose ((SplitResult.close_mem_iff hbrackets).mpr hmem)
  have hcolon : ':' ∉ host := by
    refine hsymbol (by decide) ?_
    rw [SplitResult.hostinfo_of_no_bracket hat hopen]
    exact not_mem_partition ':' _
  have hplain : PlainHost host := by
    intro c hc
    have hin : c ∈ parsed.netloc := by
      rw [hnetloc]
      exact List.mem_append_left _ hc
    have hchar : isAscii [c] = true := by
      rw [isAscii, List.all_eq_true] at hhostAscii
      simpa [isAscii] using hhostAscii c hc
    have hnot : ∀ d ∈ ['/', '?', '#', '[', ']', '@', '\t', '\r', '\n'], c ≠ d := by
      rintro d hd rfl
      rw [hnetloc] at hin hopen hclose
      simp only [List.mem_cons, List.not_mem_nil, or_false] at hd
      rcases hd with rfl | rfl | rfl | rfl | rfl | rfl | rfl | rfl | rfl
      · exact hdelimiters '/' (by decide) hin
      · exact hdelimiters '?' (by decide) hin
      · exact hdelimiters '#' (by decide) hin
      · exact hopen hin
      · exact hclose hin
      · exact hdelimiters '@' (by decide) hin
      · exact hdelimiters '\t' (by decide) hin
      · exact hdelimiters '\r' (by decide) hin
      · exact hdelimiters '\n' (by decide) hin
    exact ⟨isNetlocChar_of_not_mem hchar hnot, fun h => hcolon (h ▸ hc)⟩
  have hlower : IsLower host := by
    rw [hdomain]
    exact htext.isLower_append
  have hne : host ≠ [] := by
    rw [hdomain]
    exact List.append_ne_nil_of_right_ne_nil wild htext.labels.ne_nil
  have hback : parsed.hostname U = some host := hplain.hostname_eq hnetloc hne hlower
  rw [hback] at hhostname
  obtain rfl := Option.some.inj hhostname
  exact ⟨⟨hplain, hhost⟩, hnetloc⟩

/-- The port of a normal form is shown. -/
theorem isShown_shownPort {scheme : Str} {r : SplitResult} {port : Option ℕ} (h : r.port = some port) :
    IsShown scheme (shownPort scheme port) := by
  intro n hn
  obtain ⟨hport, hdefault⟩ := Option.filter_eq_some_iff.mp hn
  subst hport
  exact ⟨port_le h, by simpa using hdefault⟩

/-- What a text that is read starts with, it keeps: nothing can get lost on the way. -/
theorem keptPath_of_read {parsed : SplitResult} {tail : Str}
    (htail : normalPath parsed.path = '/' :: tail)
    (hpath : parsed.path = (partition '?' (partition '#'
      ('/' :: withoutBreaks (rstrip isSpace (tail ++ queryText parsed.query)))).1).1)
    (hquery : parsed.query = (partition '?' (partition '#'
      ('/' :: withoutBreaks (rstrip isSpace (tail ++ queryText parsed.query)))).1).2) :
    KeptPath (normalPath parsed.path) parsed.query := by
  generalize hrest : tail ++ queryText parsed.query = rest at hpath hquery
  have htext : normalPath parsed.path ++ queryText parsed.query = '/' :: rest := by
    rw [htail, List.cons_append, hrest]
  -- Every step shortens the text, and its normal form is not longer than what is left of it.
  have hparts := length_partition_le (partition '#' ('/' :: withoutBreaks (rstrip isSpace rest))).1
  rw [← hpath, ← hquery] at hparts
  have hprefix : (partition '#' ('/' :: withoutBreaks (rstrip isSpace rest))).1 <+:
      '/' :: withoutBreaks (rstrip isSpace rest) := List.takeWhile_prefix _
  have hsub : (withoutBreaks (rstrip isSpace rest)).Sublist (rstrip isSpace rest) :=
    List.filter_sublist
  have hstripped : rstrip isSpace rest <+: rest := List.rdropWhile_prefix _ _
  have hnormal : (normalPath parsed.path).length ≤ parsed.path.length := by
    have hslash : ∃ x, parsed.path = '/' :: x := by
      rw [hpath]
      exact ⟨_, rfl⟩
    obtain ⟨x, hx⟩ := hslash
    have hle := length_normalPath_le x
    rw [hx]
    simpa using hle
  have hlength := congrArg List.length htext
  rw [List.length_append, List.length_cons] at hlength
  have hhash := hprefix.length_le
  rw [List.length_cons] at hhash
  have hbreaks := hsub.length_le
  have hblanks := hstripped.length_le
  have hblank : rstrip isSpace rest = rest := hstripped.eq_of_length (by omega)
  rw [hblank] at hsub hhash hbreaks hprefix hparts hpath
  have hbreak : withoutBreaks rest = rest := hsub.eq_of_length (by omega)
  rw [hbreak] at hhash hprefix hparts hpath
  have hwhole : (partition '#' ('/' :: rest)).1 = '/' :: rest :=
    hprefix.eq_of_length (by rw [List.length_cons]; omega)
  refine ⟨normalPath_normalPath _, ?_, ?_, ?_, ?_⟩
  · intro hmem
    rcases mem_normalPath hmem with h | h
    · cases h
    · rw [hpath] at h
      exact not_mem_partition '?' _ h
  · rw [htext, ← hwhole]
    exact not_mem_partition '#' _
  · rw [htext]
    exact congrArg ('/' :: ·) hbreak
  · have hend : rstrip isSpace ([] ++ '/' :: rest) = [] ++ '/' :: rstrip isSpace rest :=
      rstrip_append rfl
    rw [htext]
    simpa only [List.nil_append, hblank] using hend

/-- **A text that is kept is in its own form.** -/
theorem ownForm_of_normalizeUrl_self (hU : U.Lawful) {url : Str} (h : normalizeUrl U url = .ok url) :
    OwnForm U url := by
  obtain ⟨parsed, hostname, host, port, hparsed, hhostname, hscheme, hhost, hport, hurl⟩ :=
    normalizeUrl_eq_ok_iff.mp h
  generalize lower U parsed.scheme = scheme at hscheme hurl
  obtain ⟨tail, htail⟩ := exists_normalPath parsed.path
  have htext : url = scheme ++ ':' :: '/' :: '/' :: ((host ++ netlocPort (shownPort scheme port)) ++
      '/' :: (tail ++ queryText parsed.query)) := by
    conv_lhs => rw [hurl, urlText_eq, htail, List.cons_append]
  rw [htext, strip_urlText hscheme] at hparsed
  obtain ⟨-, hnetloc, hbrackets, -, path, hrest, hpath, hquery, -⟩ :=
    (urlsplit_text_iff hscheme).mp hparsed
  obtain ⟨hkept, hwhole⟩ := keptHost_of_read hU hnetloc hbrackets hhostname hhost
  have hnothing :
      lstrip isInside (withoutBreaks (host ++ netlocPort (shownPort scheme port))) = [] := by
    rw [hkept.plain.withoutBreaks_netloc]
    exact List.dropWhile_eq_nil_iff.mpr hkept.plain.isInside_netloc
  rw [hnothing, List.nil_append] at hrest
  subst hrest
  exact ⟨scheme, host, shownPort scheme port, normalPath parsed.path, parsed.query, hurl, hscheme,
    hkept, isShown_shownPort hport, keptPath_of_read htail hpath hquery⟩

/-- **The texts that `normalize_url` keeps.** -/
theorem normalizeUrl_self_iff (hU : U.Lawful) {url : Str} :
    normalizeUrl U url = .ok url ↔ OwnForm U url :=
  ⟨ownForm_of_normalizeUrl_self hU, normalizeUrl_of_ownForm⟩

end SecOpent
