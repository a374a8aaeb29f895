import SecOpent.Scope.UrlForm

/-!
# URL rules and their boundaries

`includes_url` asks whether the normal form of a URL starts with the text of a rule. The text of a rule
may end inside a segment of a path, and the query of a rule is part of its text, so the URLs that a rule
matches are not those below its path.

## Main definitions

* `UrlParts`, `urlParts`: what a URL is about, read from its text
* `Covers`: the same scheme, host and port, and a path that the other path is or continues after a slash
* `Crosses`: the text of a rule goes on inside a segment, or in the host and port of another origin
* `QueryApart`: the query of a rule keeps it from a URL under its path
* `RespectsBoundaries`: a scope admits and excludes by `Covers`

## Main results

* `normalizeUrl_eq_ok_iff_parts`: a normal form is the text of the parts
* `startsWith_text_iff`: which URLs a rule matches
* `sameOrigin_of_startsWith`: origins merge only where a host has a colon or a slash
* `url_rules_respect_boundaries_iff`
-/

namespace SecOpent

open Python

/-! ## The parts of a URL -/

/-- What a URL is about: its scheme, its host, its port or the default one, its path and its query, in
normal form. -/
structure UrlParts where
  scheme : Str
  host : Str
  port : ℕ
  path : Str
  query : Str
  deriving DecidableEq

/-- The parts of a text, or `none` if it is not a URL. -/
def urlParts (U : Unicode) (url : Str) : Option UrlParts := do
  let parsed ← urlsplit U (strip url)
  let hostname ← parsed.hostname U
  let host ← (normalizeDomain U hostname).toOption
  let port ← parsed.port
  let scheme := lower U parsed.scheme
  if scheme = "http".toList ∨ scheme = "https".toList then
    some ⟨scheme, host, port.getD (defaultPort scheme), normalPath parsed.path, parsed.query⟩
  else none

namespace UrlParts

/-- The normal form. -/
def text (parts : UrlParts) : Str :=
  urlText parts.scheme parts.host (shownPort parts.scheme (some parts.port)) parts.path parts.query

/-- The same scheme, host and effective port. -/
def SameOrigin (rule url : UrlParts) : Prop :=
  rule.scheme = url.scheme ∧ rule.host = url.host ∧ rule.port = url.port

/-- The path of the rule, or one that continues it at the boundary of a segment. -/
def PathUnder (rule path : Str) : Prop :=
  rule = path ∨ ∃ rest, path = rule ++ rest ∧ (endsWith rule ['/'] = true ∨ rest.head? = some '/')

/-- The URL is under the path of the rule. -/
def Covers (rule url : UrlParts) : Prop := rule.SameOrigin url ∧ PathUnder rule.path url.path

/-- The path of the URL continues the path of the rule inside a segment. -/
def CutsSegment (rule url : UrlParts) : Prop :=
  rule.SameOrigin url ∧ rule.query = [] ∧ endsWith rule.path ['/'] = false ∧
    ∃ c rest, url.path = rule.path ++ c :: rest ∧ c ≠ '/'

/-- Another origin, with a normal form that continues the one of the rule. -/
def MergesOrigin (rule url : UrlParts) : Prop :=
  ¬rule.SameOrigin url ∧ startsWith url.text rule.text = true

/-- The normal form of the rule ends inside a segment or inside an origin of the URL. -/
def Crosses (rule url : UrlParts) : Prop := rule.CutsSegment url ∨ rule.MergesOrigin url

/-- The URL is under the path of the rule, and not what the rule and its query are continued by. -/
def QueryApart (rule url : UrlParts) : Prop :=
  rule.Covers url ∧ rule.query ≠ [] ∧ ¬(rule.path = url.path ∧ rule.query <+: url.query)

end UrlParts

variable {U : Unicode}

theorem shownPort_getD (scheme : Str) (port : Option ℕ) :
    shownPort scheme (some (port.getD (defaultPort scheme))) = shownPort scheme port := by
  cases port with
  | none => simp [shownPort]
  | some n => rfl

/-- **A normal form is the text of the parts.** -/
theorem normalizeUrl_eq_ok_iff_parts {url text : Str} :
    normalizeUrl U url = .ok text ↔ ∃ parts, urlParts U url = some parts ∧ text = parts.text := by
  rw [normalizeUrl_eq_ok_iff]
  constructor
  · rintro ⟨parsed, hostname, host, port, hparsed, hhostname, hscheme, hhost, hport, rfl⟩
    refine ⟨⟨lower U parsed.scheme, host, port.getD (defaultPort (lower U parsed.scheme)),
      normalPath parsed.path, parsed.query⟩, ?_, ?_⟩
    · have hscheme' : lower U parsed.scheme = "http".toList ∨ lower U parsed.scheme = "https".toList :=
        hscheme
      simp only [urlParts, hparsed, hhostname, hhost, hport, Option.bind_eq_bind, Option.bind_some,
        Except.toOption, if_pos hscheme']
    · simp only [UrlParts.text, shownPort_getD]
  · rintro ⟨parts, hparts, rfl⟩
    unfold urlParts at hparts
    obtain ⟨parsed, hparsed, hparts⟩ := Option.bind_eq_some_iff.mp hparts
    obtain ⟨hostname, hhostname, hparts⟩ := Option.bind_eq_some_iff.mp hparts
    obtain ⟨host, hhost, hparts⟩ := Option.bind_eq_some_iff.mp hparts
    obtain ⟨port, hport, hparts⟩ := Option.bind_eq_some_iff.mp hparts
    dsimp only at hparts
    split at hparts
    next hscheme =>
      obtain rfl := Option.some.inj hparts
      refine ⟨parsed, hostname, host, port, hparsed, hhostname, hscheme, ?_, hport, ?_⟩
      · cases hdomain : normalizeDomain U hostname with
        | error e => simp [hdomain, Except.toOption] at hhost
        | ok domain =>
          rw [hdomain] at hhost
          exact congrArg Except.ok (Option.some.inj hhost)
      · simp only [UrlParts.text, shownPort_getD]
    next => cases hparts

/-! ## Paths and queries -/

theorem question_not_mem_parts {url : Str} {parts : UrlParts} (h : urlParts U url = some parts) :
    '?' ∉ parts.path := by
  unfold urlParts at h
  obtain ⟨parsed, hparsed, h⟩ := Option.bind_eq_some_iff.mp h
  obtain ⟨hostname, -, h⟩ := Option.bind_eq_some_iff.mp h
  obtain ⟨host, -, h⟩ := Option.bind_eq_some_iff.mp h
  obtain ⟨port, -, h⟩ := Option.bind_eq_some_iff.mp h
  dsimp only at h
  split at h
  · obtain rfl := Option.some.inj h
    intro hmem
    rcases mem_normalPath hmem with hslash | hmem
    · exact absurd hslash (by decide)
    · exact question_not_mem_path hparsed hmem
  · cases h

theorem queryText_nil : queryText [] = [] := rfl

theorem queryText_of_ne_nil {query : Str} (h : query ≠ []) : queryText query = '?' :: query := by
  cases query with
  | nil => exact absurd rfl h
  | cons c query => rfl

/-- A path without a query matches the paths that it starts. -/
theorem path_prefix_iff {path path' query' : Str} (hpath : '?' ∉ path) :
    path <+: path' ++ queryText query' ↔ path <+: path' := by
  refine ⟨fun h => ?_, fun h => h.trans (List.prefix_append path' _)⟩
  rcases List.prefix_or_prefix_of_prefix h (List.prefix_append path' _) with h' | ⟨rest, rfl⟩
  · exact h'
  -- What the path has more is in the query, which starts with a question mark.
  have hrest : rest <+: queryText query' := (List.prefix_append_right_inj path').mp h
  cases rest with
  | nil => exact List.prefix_append_right_inj path' |>.mpr (List.prefix_refl []) |>.trans (by simp)
  | cons c rest =>
    obtain ⟨tail, htail⟩ := hrest
    refine absurd ?_ hpath
    cases query' with
    | nil => cases htail
    | cons d query' =>
      obtain ⟨rfl, -⟩ := List.cons.inj htail
      simp

/-- A path with a query matches the same path, with a query that goes on. -/
theorem path_query_prefix_iff {path path' query query' : Str} (hpath : '?' ∉ path)
    (hpath' : '?' ∉ path') (hquery : query ≠ []) :
    path ++ queryText query <+: path' ++ queryText query' ↔ path = path' ∧ query <+: query' := by
  rw [queryText_of_ne_nil hquery]
  constructor
  · rintro ⟨rest, hrest⟩
    rw [List.append_assoc, List.cons_append] at hrest
    cases query' with
    | nil =>
      rw [queryText_nil, List.append_nil] at hrest
      exact absurd (by rw [← hrest]; simp) hpath'
    | cons c query' =>
      rw [queryText_of_ne_nil (List.cons_ne_nil c query')] at hrest
      have hsplit := congrArg (partition '?') hrest
      rw [partition_append '?' hpath, partition_append '?' hpath', Prod.mk.injEq] at hsplit
      exact ⟨hsplit.1, rest, hsplit.2⟩
  · rintro ⟨rfl, rest, rfl⟩
    have hne : query ++ rest ≠ [] := by simp [hquery]
    rw [queryText_of_ne_nil hne]
    exact ⟨rest, by simp⟩

namespace UrlParts

variable {rule url : UrlParts}

theorem text_of_sameOrigin (h : rule.SameOrigin url) :
    startsWith url.text rule.text = true ↔
      rule.path ++ queryText rule.query <+: url.path ++ queryText url.query := by
  obtain ⟨hscheme, hhost, hport⟩ := h
  have hsplit : ∀ parts : UrlParts, parts.text =
      (parts.scheme ++ ':' :: '/' :: '/' :: (parts.host ++
        netlocPort (shownPort parts.scheme (some parts.port)))) ++
          (parts.path ++ queryText parts.query) := by
    intro parts
    simp [text, urlText]
  rw [startsWith, List.isPrefixOf_iff_prefix, hsplit, hsplit, hscheme, hhost, hport]
  exact List.prefix_append_right_inj _

/-- **Which URLs a rule matches.** -/
theorem startsWith_text_iff (hrule : '?' ∉ rule.path) (hurl : '?' ∉ url.path) :
    startsWith url.text rule.text = true ↔
      (rule.Covers url ∧ ¬rule.QueryApart url) ∨ rule.Crosses url := by
  by_cases horigin : rule.SameOrigin url
  swap
  · -- Neither a cut segment nor a covered path has two origins.
    simp [Covers, Crosses, CutsSegment, MergesOrigin, horigin]
  have hmerges : ¬rule.MergesOrigin url := fun h => h.1 horigin
  rw [text_of_sameOrigin horigin]
  by_cases hquery : rule.query = []
  · have hapart : ¬rule.QueryApart url := fun h => h.2.1 hquery
    rw [hquery, queryText_nil, List.append_nil, path_prefix_iff hrule]
    simp only [Crosses, hapart, hmerges, not_false_eq_true, and_true, or_false]
    constructor
    · rintro ⟨rest, hrest⟩
      by_cases hslash : endsWith rule.path ['/'] = true
      · exact .inl ⟨horigin, .inr ⟨rest, hrest.symm, .inl hslash⟩⟩
      rw [Bool.not_eq_true] at hslash
      cases rest with
      | nil => exact .inl ⟨horigin, .inl (by rw [← hrest, List.append_nil])⟩
      | cons c rest =>
        by_cases hc : c = '/'
        · exact .inl ⟨horigin, .inr ⟨c :: rest, hrest.symm, .inr (by rw [hc]; rfl)⟩⟩
        · exact .inr ⟨horigin, hquery, hslash, c, rest, hrest.symm, hc⟩
    · rintro (⟨-, hsame | ⟨rest, hrest, -⟩⟩ | ⟨-, -, -, c, rest, hrest, -⟩)
      · exact hsame ▸ List.prefix_refl _
      · exact ⟨rest, hrest.symm⟩
      · exact ⟨c :: rest, hrest.symm⟩
  · have hcuts : ¬rule.CutsSegment url := fun h => hquery h.2.1
    rw [path_query_prefix_iff hrule hurl hquery]
    simp only [Crosses, hcuts, hmerges, or_false]
    constructor
    · rintro ⟨hpath, hprefix⟩
      exact ⟨⟨horigin, .inl hpath⟩, fun h => h.2.2 ⟨hpath, hprefix⟩⟩
    · rintro ⟨hcovers, hapart⟩
      by_contra hcontra
      exact hapart ⟨hcovers, hquery, hcontra⟩

/-- A URL that a rule ends inside of is not under it. -/
theorem Crosses.not_covers (h : rule.Crosses url) : ¬rule.Covers url := by
  rintro ⟨horigin, hpath⟩
  rcases h with ⟨-, -, hslash, c, rest, hrest, hc⟩ | ⟨hother, -⟩
  · rcases hpath with hsame | ⟨rest', hrest', hboundary⟩
    · rw [← hsame] at hrest
      simp at hrest
    · rw [hrest] at hrest'
      obtain rfl := List.append_cancel_left hrest'
      rcases hboundary with hends | hhead
      · rw [hslash] at hends
        cases hends
      · exact hc (Option.some.inj hhead)
  · exact hother horigin

/-- The scheme of a URL is one of the two, its path starts at the root, and its host has no
delimiter. -/
structure Plain (parts : UrlParts) : Prop where
  scheme : IsWebScheme parts.scheme
  rooted : ∃ rest, parts.path = '/' :: rest
  no_colon : ':' ∉ parts.host
  no_slash : '/' ∉ parts.host

theorem netlocPort_inj {host host' : Str} {port port' : Option ℕ} (hhost : ':' ∉ host)
    (hhost' : ':' ∉ host') (h : host ++ netlocPort port = host' ++ netlocPort port') :
    host = host' ∧ port = port' := by
  have hmem : ∀ {host : Str} {port : Option ℕ}, ':' ∉ host →
      (':' ∈ host ++ netlocPort port ↔ port.isSome = true) := by
    intro host port hhost
    cases port with
    | none => simp [netlocPort, hhost]
    | some n => simp [netlocPort]
  cases port with
  | none =>
    cases port' with
    | none => exact ⟨by simpa [netlocPort] using h, rfl⟩
    | some n => exact absurd ((hmem hhost).mp (h ▸ (hmem hhost').mpr rfl)) (by simp)
  | some m =>
    cases port' with
    | none => exact absurd ((hmem hhost').mp (h ▸ (hmem hhost).mpr rfl)) (by simp)
    | some n =>
      have hsplit := congrArg (partition ':') h
      rw [netlocPort, netlocPort, partition_append ':' hhost, partition_append ':' hhost',
        Prod.mk.injEq] at hsplit
      obtain ⟨hsame, hdigits⟩ := hsplit
      refine ⟨hsame, congrArg some ?_⟩
      rw [← Nat.ofDigitChars_ten_toDigits (n := m), hdigits, Nat.ofDigitChars_ten_toDigits]

theorem shownPort_inj {scheme : Str} {m n : ℕ}
    (h : shownPort scheme (some m) = shownPort scheme (some n)) : m = n := by
  simp only [shownPort, Option.filter] at h
  by_cases hm : m = defaultPort scheme
  · by_cases hn : n = defaultPort scheme
    · exact hm.trans hn.symm
    · simp [hm, hn] at h
  · by_cases hn : n = defaultPort scheme
    · simp [hm, hn] at h
    · simpa [hm, hn] using h

theorem slash_not_mem_netlocPort (port : Option ℕ) : '/' ∉ netlocPort port := by
  intro hmem
  exact absurd (isNetlocChar_netlocPort _ hmem) (by decide)

/-- **Origins merge only where a host has a colon or a slash.** -/
theorem sameOrigin_of_startsWith (hrule : rule.Plain) (hurl : url.Plain)
    (h : startsWith url.text rule.text = true) : rule.SameOrigin url := by
  have hcolon : ∀ {scheme : Str}, IsWebScheme scheme → ':' ∉ scheme := by
    rintro scheme (rfl | rfl) <;> decide
  obtain ⟨rest, hrest⟩ := List.isPrefixOf_iff_prefix.mp h
  obtain ⟨rulePath, hrulePath⟩ := hrule.rooted
  obtain ⟨urlPath, hurlPath⟩ := hurl.rooted
  have htext : ∀ {parts : UrlParts} {path : Str}, parts.path = '/' :: path →
      parts.text = parts.scheme ++ ':' :: ('/' :: '/' :: ((parts.host ++
        netlocPort (shownPort parts.scheme (some parts.port))) ++ '/' ::
          (path ++ queryText parts.query))) := by
    intro parts path hpath
    simp [text, urlText, hpath]
  rw [htext hrulePath, htext hurlPath, List.append_assoc, List.cons_append] at hrest
  -- The scheme ends at the first colon, the host and the port at the first slash after it.
  have hschemes := congrArg (partition ':') hrest
  rw [partition_append ':' (hcolon hrule.scheme), partition_append ':' (hcolon hurl.scheme),
    Prod.mk.injEq] at hschemes
  obtain ⟨hscheme, hrest⟩ := hschemes
  have hslash : ∀ {parts : UrlParts}, '/' ∉ parts.host →
      '/' ∉ parts.host ++ netlocPort (shownPort parts.scheme (some parts.port)) := by
    intro parts hhost hmem
    rcases List.mem_append.mp hmem with hmem | hmem
    · exact hhost hmem
    · exact slash_not_mem_netlocPort _ hmem
  simp only [List.cons_append, List.cons.injEq, true_and] at hrest
  have hnetlocs := congrArg (partition '/') hrest
  rw [List.append_assoc _ _ rest, List.cons_append, partition_append '/' (hslash hrule.no_slash),
    partition_append '/' (hslash hurl.no_slash), Prod.mk.injEq] at hnetlocs
  obtain ⟨hhost, hport⟩ := netlocPort_inj hrule.no_colon hurl.no_colon hnetlocs.1
  rw [hscheme] at hport
  exact ⟨hscheme, hhost, shownPort_inj hport⟩

end UrlParts

/-! ## Scopes of URLs -/

/-- One of the entries is a URL with these parts. -/
def IsRule (U : Unicode) (entries : List Str) (rule : UrlParts) : Prop :=
  ∃ entry ∈ entries, urlParts U entry = some rule

/-- **Boundaries are respected**: an admitted URL is under an include rule, and an exclude rule matches
the URLs under it. -/
structure RespectsBoundaries (U : Unicode) (draft : ScopeDraft) (scope : ScopeSnapshot) (url : Str)
    (parts : UrlParts) : Prop where
  included : scope.includesUrl U url = .ok true →
    ∃ rule, IsRule U draft.includeRules rule ∧ rule.Covers parts
  excluded : ∀ rule, IsRule U draft.excludeRules rule → ∀ host,
    ScopeSnapshot.urlMatches U parts.text host rule.text = .ok true ↔ rule.Covers parts

theorem urlMatches_text {rule : UrlParts} {url : Str} (h : urlParts U url = some rule)
    (normalized host : Str) :
    ScopeSnapshot.urlMatches U normalized host rule.text = .ok (startsWith normalized rule.text) := by
  have hhttp := isHttp_of_normalizeUrl (normalizeUrl_eq_ok_iff_parts.mpr ⟨rule, h, rfl⟩)
  rw [ScopeSnapshot.urlMatches, if_pos hhttp]
  rfl

/-- A rule that is frozen from a URL is the text of its parts. -/
theorem normalizeTarget_url_iff {entry rule : Str} (hurl : isUrlEntry U entry = true) :
    ScopeDraft.normalizeTarget U entry = .ok rule ↔
      ∃ parts, urlParts U entry = some parts ∧ rule = parts.text := by
  rw [normalizeTarget_of_url hurl]
  exact normalizeUrl_eq_ok_iff_parts

/-- The rules that are frozen from URLs are the texts of their parts. -/
theorem exists_entry_iff {entries : List Str} (hurls : ∀ entry ∈ entries, isUrlEntry U entry = true)
    {rule : Str} :
    (∃ entry ∈ entries, ScopeDraft.normalizeTarget U entry = .ok rule) ↔
      ∃ parts, IsRule U entries parts ∧ rule = parts.text := by
  constructor
  · rintro ⟨entry, hentry, hrule⟩
    obtain ⟨parts, hparts, rfl⟩ := (normalizeTarget_url_iff (hurls entry hentry)).mp hrule
    exact ⟨parts, ⟨entry, hentry, hparts⟩, rfl⟩
  · rintro ⟨parts, ⟨entry, hentry, hparts⟩, rfl⟩
    exact ⟨entry, hentry, (normalizeTarget_url_iff (hurls entry hentry)).mpr ⟨parts, hparts, rfl⟩⟩

theorem question_not_mem_rule {entries : List Str} {rule : UrlParts} (h : IsRule U entries rule) :
    '?' ∉ rule.path := by
  obtain ⟨entry, -, hparts⟩ := h
  exact question_not_mem_parts hparts

section Frozen

variable {draft : ScopeDraft} {snapshotId approvedBy : String} {now : Time} {digest : String}
  {scope : ScopeSnapshot}

/-- The URLs that a scope of URLs admits. -/
theorem includesUrl_eq_true_iff (hfreeze : draft.freeze U snapshotId approvedBy now digest = .ok scope)
    (hincluded : ∀ entry ∈ draft.includeRules, isUrlEntry U entry = true)
    (hexcluded : ∀ entry ∈ draft.excludeRules, isUrlEntry U entry = true) {url : Str}
    {parts : UrlParts} (hparts : urlParts U url = some parts) :
    scope.includesUrl U url = .ok true ↔
      urlsplit U parts.text ≠ none ∧
        (∀ rule, IsRule U draft.excludeRules rule → startsWith parts.text rule.text = false) ∧
        ∃ rule, IsRule U draft.includeRules rule ∧ startsWith parts.text rule.text = true := by
  have hnormal : normalizeUrl U url = .ok parts.text :=
    normalizeUrl_eq_ok_iff_parts.mpr ⟨parts, hparts, rfl⟩
  have hmatch : ∀ {entries : List Str} {rule : UrlParts} {host : Str}, IsRule U entries rule →
      ScopeSnapshot.urlMatches U parts.text host rule.text =
        .ok (startsWith parts.text rule.text) := by
    rintro entries rule host ⟨entry, -, hrule⟩
    exact urlMatches_text hrule parts.text host
  have hinclude : ∀ rule, rule ∈ scope.includeRules ↔
      ∃ parts, IsRule U draft.includeRules parts ∧ rule = parts.text := fun rule =>
    (ScopeDraft.mem_includeRules_of_freeze hfreeze).trans (exists_entry_iff hincluded)
  have hexclude : ∀ rule, rule ∈ scope.excludeRules ↔
      ∃ parts, IsRule U draft.excludeRules parts ∧ rule = parts.text := fun rule =>
    (ScopeDraft.mem_excludeRules_of_freeze hfreeze).trans (exists_entry_iff hexcluded)
  rw [ScopeSnapshot.includesUrl, hnormal]
  cases hparsed : urlsplit U parts.text with
  | none => simp [hparsed, orValueError, bind, Except.bind]
  | some parsed =>
    simp only [hparsed, orValueError, bind, Except.bind, ne_eq, reduceCtorEq, not_false_eq_true,
      true_and]
    rw [includesBy_eq_true_iff]
    refine and_congr ?_ ?_
    · constructor
      · intro h rule hrule
        have hanswer := h rule.text ((hexclude _).mpr ⟨rule, hrule, rfl⟩)
        rw [hmatch hrule] at hanswer
        exact Except.ok.inj hanswer
      · intro h rule hrule
        obtain ⟨parts', hparts', rfl⟩ := (hexclude rule).mp hrule
        rw [hmatch hparts', h parts' hparts']
    · constructor
      · intro h
        obtain ⟨rule, hrule, hanswer⟩ := exists_of_anyMatches h
        obtain ⟨parts', hparts', rfl⟩ := (hinclude rule).mp hrule
        rw [hmatch hparts'] at hanswer
        exact ⟨parts', hparts', Except.ok.inj hanswer⟩
      · rintro ⟨rule, hrule, hstarts⟩
        have hanswers : ∀ r ∈ scope.includeRules,
            ∃ answer, ScopeSnapshot.urlMatches U parts.text ((parsed.hostname U).getD []) r =
              .ok answer := by
          intro r hr
          obtain ⟨parts', hparts', rfl⟩ := (hinclude r).mp hr
          exact ⟨_, hmatch hparts'⟩
        refine anyMatches_of_mem hanswers ((hinclude _).mpr ⟨rule, hrule, rfl⟩) ?_
        rw [hmatch hrule, hstarts]

/-- **The URLs at which a scope of URLs respects its boundaries**: no exclude rule ends inside a
segment or an origin, or has a query that keeps it from the URL; and an include rule that ends so admits
nothing, because another rule has the URL under it. -/
theorem url_rules_respect_boundaries_iff
    (hfreeze : draft.freeze U snapshotId approvedBy now digest = .ok scope)
    (hincluded : ∀ entry ∈ draft.includeRules, isUrlEntry U entry = true)
    (hexcluded : ∀ entry ∈ draft.excludeRules, isUrlEntry U entry = true) {url : Str}
    {parts : UrlParts} (hparts : urlParts U url = some parts) :
    RespectsBoundaries U draft scope url parts ↔
      (∀ rule, IsRule U draft.excludeRules rule → ¬rule.Crosses parts ∧ ¬rule.QueryApart parts) ∧
      ((∃ rule, IsRule U draft.includeRules rule ∧ rule.Crosses parts) →
        (∃ rule, IsRule U draft.includeRules rule ∧ rule.Covers parts) ∨
        (∃ rule, IsRule U draft.excludeRules rule ∧ rule.Covers parts) ∨
        urlsplit U parts.text = none) := by
  have hurl : '?' ∉ parts.path := question_not_mem_parts hparts
  have hadmits := includesUrl_eq_true_iff hfreeze hincluded hexcluded hparts
  have hstarts : ∀ {entries rule}, IsRule U entries rule →
      (startsWith parts.text rule.text = true ↔
        (rule.Covers parts ∧ ¬rule.QueryApart parts) ∨ rule.Crosses parts) := fun hrule =>
    UrlParts.startsWith_text_iff (question_not_mem_rule hrule) hurl
  have hmatch : ∀ {entries : List Str} {rule : UrlParts} {host : Str}, IsRule U entries rule →
      (ScopeSnapshot.urlMatches U parts.text host rule.text = .ok true ↔
        startsWith parts.text rule.text = true) := by
    rintro entries rule host ⟨entry, -, hrule⟩
    rw [urlMatches_text hrule, Except.ok.injEq]
  constructor
  · intro h
    have hexact : ∀ rule, IsRule U draft.excludeRules rule →
        (startsWith parts.text rule.text = true ↔ rule.Covers parts) := by
      intro rule hrule
      have hraw : ScopeSnapshot.urlMatches U parts.text [] rule.text = .ok true ↔
          startsWith parts.text rule.text = true := hmatch hrule
      exact hraw.symm.trans (h.excluded rule hrule [])
    constructor
    · intro rule hrule
      constructor
      · intro hcrosses
        exact hcrosses.not_covers ((hexact rule hrule).mp ((hstarts hrule).mpr (.inr hcrosses)))
      · intro hapart
        rcases (hstarts hrule).mp ((hexact rule hrule).mpr hapart.1) with ⟨-, hnot⟩ | hcrosses
        · exact hnot hapart
        · exact hcrosses.not_covers hapart.1
    · rintro ⟨rule, hrule, hcrosses⟩
      by_contra hnone
      rw [not_or, not_or] at hnone
      obtain ⟨hinclude, hexclude, hsplit⟩ := hnone
      -- Nothing else decides: the rule that is crossed admits the URL.
      refine hinclude (h.included (hadmits.mpr ⟨hsplit, ?_, rule, hrule, ?_⟩))
      · intro excluded hexcludedRule
        rw [Bool.eq_false_iff]
        exact fun hraw => hexclude ⟨excluded, hexcludedRule, (hexact _ hexcludedRule).mp hraw⟩
      · exact (hstarts hrule).mpr (.inr hcrosses)
  · rintro ⟨hexact, hdecided⟩
    have hmatches : ∀ rule, IsRule U draft.excludeRules rule →
        (startsWith parts.text rule.text = true ↔ rule.Covers parts) := by
      intro rule hrule
      obtain ⟨hcrosses, hapart⟩ := hexact rule hrule
      rw [hstarts hrule]
      exact ⟨fun h => (h.resolve_right hcrosses).1, fun h => .inl ⟨h, hapart⟩⟩
    refine ⟨fun hadmitted => ?_, fun rule hrule host => ?_⟩
    · obtain ⟨hsplit, hnot, rule, hrule, hraw⟩ := hadmits.mp hadmitted
      rcases (hstarts hrule).mp hraw with ⟨hcovers, -⟩ | hcrosses
      · exact ⟨rule, hrule, hcovers⟩
      rcases hdecided ⟨rule, hrule, hcrosses⟩ with hother | ⟨excluded, hexcludedRule, hcovers⟩ | hnone
      · exact hother
      · have hraw := (hmatches excluded hexcludedRule).mpr hcovers
        rw [hnot excluded hexcludedRule] at hraw
        cases hraw
      · exact absurd hnone hsplit
    · rw [hmatch hrule]
      exact hmatches rule hrule

end Frozen

/-! ### A path that goes on -/

/-- The draft of an interface, without its administration. -/
def apiDraft : ScopeDraft where
  projectId := "project-1".toList
  includeRules := ["https://example.test/api".toList]
  excludeRules := ["https://example.test/api/admin".toList]
  ports := [443]
  project_nonblank := by decide
  include_nonempty := by decide
  ports_valid := ScopeDraft.port_443_valid

/-- What it freezes to. -/
def apiScope : ScopeSnapshot where
  id := "scope-1"
  projectId := "project-1"
  includeRules := ["https://example.test/api".toList]
  excludeRules := ["https://example.test/api/admin".toList]
  ports := [443]
  limits := .default
  approvedBy := "user-1"
  approvedAt := 0
  digest := "digest"

/-- The parts of a URL of the server. -/
def exampleUrl (path : String) : UrlParts :=
  ⟨"https".toList, "example.test".toList, 443, path.toList, []⟩

/-- Another interface is admitted, and a page of the first one is excluded. -/
theorem longer_segment_admitted :
    apiDraft.freeze .ascii "scope-1" "user-1" 0 "digest" = .ok apiScope ∧
      apiScope.includesUrl .ascii "https://example.test/api-internal".toList = .ok true ∧
      apiScope.includesUrl .ascii "https://example.test/api/administrators".toList = .ok false ∧
      ¬RespectsBoundaries .ascii apiDraft apiScope "https://example.test/api-internal".toList
        (exampleUrl "/api-internal") ∧
      ¬RespectsBoundaries .ascii apiDraft apiScope "https://example.test/api/administrators".toList
        (exampleUrl "/api/administrators") := by
  have hadmitted : apiScope.includesUrl .ascii "https://example.test/api-internal".toList =
      .ok true := by
    decide +kernel
  have hrule : urlParts .ascii "https://example.test/api".toList = some (exampleUrl "/api") := by
    decide +kernel
  have hexcluded : urlParts .ascii "https://example.test/api/admin".toList =
      some (exampleUrl "/api/admin") := by
    decide +kernel
  refine ⟨by decide +kernel, hadmitted, by decide +kernel, fun h => ?_, fun h => ?_⟩
  · obtain ⟨rule, ⟨entry, hentry, hparts⟩, hcovers⟩ := h.included hadmitted
    rw [List.mem_singleton.mp hentry, hrule] at hparts
    cases hparts
    refine UrlParts.Crosses.not_covers (.inl ?_) hcovers
    exact ⟨⟨rfl, rfl, rfl⟩, rfl, by decide, '-', "internal".toList, by decide, by decide⟩
  · have hmatches := h.excluded _ ⟨_, List.mem_singleton.mpr rfl, hexcluded⟩ []
    refine UrlParts.Crosses.not_covers (.inl ?_) (hmatches.mp (by decide +kernel))
    exact ⟨⟨rfl, rfl, rfl⟩, rfl, by decide, 'i', "strators".toList, by decide, by decide⟩

theorem api_scope_boundaries_iff :
    apiDraft.freeze .ascii "scope-1" "user-1" 0 "digest" = .ok apiScope ∧
      urlParts .ascii "https://example.test/api/users".toList = some (exampleUrl "/api/users") ∧
      (RespectsBoundaries .ascii apiDraft apiScope "https://example.test/api/users".toList
        (exampleUrl "/api/users") ↔
        (∀ rule, IsRule .ascii apiDraft.excludeRules rule →
          ¬rule.Crosses (exampleUrl "/api/users") ∧ ¬rule.QueryApart (exampleUrl "/api/users")) ∧
        ((∃ rule, IsRule .ascii apiDraft.includeRules rule ∧
            rule.Crosses (exampleUrl "/api/users")) →
          (∃ rule, IsRule .ascii apiDraft.includeRules rule ∧
            rule.Covers (exampleUrl "/api/users")) ∨
          (∃ rule, IsRule .ascii apiDraft.excludeRules rule ∧
            rule.Covers (exampleUrl "/api/users")) ∨
          urlsplit .ascii (exampleUrl "/api/users").text = none)) := by
  have hfreeze : apiDraft.freeze .ascii "scope-1" "user-1" 0 "digest" = .ok apiScope := by
    decide +kernel
  have hparts : urlParts .ascii "https://example.test/api/users".toList =
      some (exampleUrl "/api/users") := by
    decide +kernel
  refine ⟨hfreeze, hparts, url_rules_respect_boundaries_iff hfreeze ?_ ?_ hparts⟩
  · intro entry hentry
    rw [List.mem_singleton.mp hentry]
    decide +kernel
  · intro entry hentry
    rw [List.mem_singleton.mp hentry]
    decide +kernel

end SecOpent
