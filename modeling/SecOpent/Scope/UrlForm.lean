import SecOpent.Python.PosixPath
import SecOpent.Python.Strip
import SecOpent.Python.Table
import SecOpent.Scope.Freezing

/-!
# The normal form of a URL

`normalize_url` takes a URL apart and puts its parts together again: the scheme in lower case, the
normal form of the host, the port unless it is the default one, the path below the root, and the query.

## Main definitions

* `urlText`: the text of the parts
* `shownPort`, `normalPath`: the port and the path of a normal form
* `effectivePort`: the port of a URL, or the default of its scheme

## Main results

* `normalizeUrl_eq_ok_iff`: the normal form, part by part
-/

namespace SecOpent

open Python

/-- The scheme is one that `normalize_url` accepts. -/
def IsWebScheme (scheme : Str) : Prop := scheme = "http".toList ∨ scheme = "https".toList

/-- The port of a URL without one. -/
def defaultPort (scheme : Str) : ℕ := if scheme == "https".toList then 443 else 80

/-- The port, unless it is the default one. -/
def shownPort (scheme : Str) (port : Option ℕ) : Option ℕ :=
  port.filter fun n => n != defaultPort scheme

/-- The path below the root, with its trailing slash. -/
def normalPath (path : Str) : Str :=
  let normal := normpath ('/' :: lstrip (· == '/') path)
  if endsWith path ['/'] && !endsWith normal ['/'] then normal ++ ['/'] else normal

/-- The query of a URL, with its question mark. -/
def queryText (query : Str) : Str := if query.isEmpty then [] else '?' :: query

/-- The text of a URL. -/
def urlText (scheme host : Str) (port : Option ℕ) (path query : Str) : Str :=
  scheme ++ ':' :: '/' :: '/' :: (host ++ netlocPort port ++ path ++ queryText query)

/-- The port of a URL, or the default of its scheme; `none` for a text without one. -/
def effectivePort (U : Unicode) (url : Str) : Option ℕ := do
  let parsed ← urlsplit U (strip url)
  let port ← parsed.port
  pure (port.getD (defaultPort (lower U parsed.scheme)))

variable {U : Unicode}

theorem exists_normalPath (path : Str) : ∃ rest, normalPath path = '/' :: rest := by
  obtain ⟨t, ht⟩ := exists_normpath_slash (lstrip (· == '/') path)
  rw [normalPath]
  simp only [ht]
  split
  · exact ⟨t ++ ['/'], rfl⟩
  · exact ⟨t, rfl⟩

theorem head?_lstrip_slash (path : Str) : (lstrip (· == '/') path).head? ≠ some '/' := by
  intro hhead
  obtain ⟨rest, hrest⟩ := List.head?_eq_some_iff.mp hhead
  have hkept := lstrip_lstrip (· == '/') path
  rw [hrest, lstrip, List.dropWhile_cons_of_pos (by simp)] at hkept
  have hlength := congrArg List.length hkept
  have hle := length_lstrip_le (· == '/') rest
  rw [lstrip] at hle
  simp only [List.length_cons] at hlength
  omega

/-- The path of a normal form is not longer than a path from the root. -/
theorem length_normalPath_le (path : Str) :
    (normalPath ('/' :: path)).length ≤ path.length + 1 := by
  have hstrip : lstrip (· == '/') ('/' :: path) = lstrip (· == '/') path :=
    List.dropWhile_cons_of_pos (by simp)
  have hhead := head?_lstrip_slash path
  have hle := length_lstrip_le (· == '/') path
  have hnormal := length_normpath_le hhead
  unfold normalPath
  rw [hstrip]
  dsimp only
  split
  next hslash =>
    rw [Bool.and_eq_true] at hslash
    -- What is left ends with a slash, which the normal path has not counted.
    obtain ⟨before, hbefore⟩ := List.isSuffixOf_iff_suffix.mp hslash.1
    obtain ⟨skipped, hskipped⟩ := List.dropWhile_suffix (· == '/') (l := path)
    rw [← lstrip] at hskipped
    rcases List.eq_nil_or_concat (lstrip (· == '/') path) with hnil | ⟨kept, c, hkept⟩
    · rw [hnil] at hslash
      exact absurd hslash.2 (by decide)
    rw [List.concat_eq_append] at hkept
    have hlast : c = '/' := by
      have hends := congrArg List.getLast? hbefore
      rw [← hskipped, hkept, ← List.append_assoc, ← List.cons_append, List.getLast?_concat,
        List.getLast?_concat] at hends
      exact (Option.some.inj hends).symm
    subst hlast
    have hne : kept ≠ [] := by
      rintro rfl
      rw [hkept] at hhead
      exact hhead rfl
    have hkeptHead : kept.head? ≠ some '/' := by
      rw [hkept, List.head?_append_of_ne_nil _ hne] at hhead
      exact hhead
    have hshorter := length_normpath_le hkeptHead
    rw [hkept, normpath_append_slash hkeptHead hne]
    rw [hkept] at hle
    simp only [List.length_append, List.length_cons, List.length_nil] at hle ⊢
    omega
  next => omega

/-- The path of a normal form is a list of plain components, with a slash at its end or without. -/
theorem normalPath_cases (path : Str) :
    ∃ comps, (∀ c ∈ comps, IsComponent c ∧ c ⊆ path) ∧
      (normalPath path = rootedPath comps ∨
        (comps ≠ [] ∧ endsWith (rootedPath comps) ['/'] = false) ∧
          normalPath path = rootedPath comps ++ ['/']) := by
  have hhead := head?_lstrip_slash path
  obtain ⟨comps, hcomps, hnormal⟩ := exists_normpath_rooted hhead
  have hsub : ∀ c ∈ comps, IsComponent c ∧ c ⊆ path := by
    intro c hc
    exact ⟨(hcomps c hc).1, fun x hx => (List.dropWhile_sublist _).subset ((hcomps c hc).2 hx)⟩
  refine ⟨comps, hsub, ?_⟩
  unfold normalPath
  simp only [hnormal]
  by_cases hslash : (endsWith path ['/'] && !endsWith (rootedPath comps) ['/']) = true
  · rw [if_pos hslash]
    have hopen : endsWith (rootedPath comps) ['/'] = false := by
      simpa using Bool.and_elim_right hslash
    refine .inr ⟨⟨?_, hopen⟩, rfl⟩
    rintro rfl
    simp [rootedPath, endsWith, List.isSuffixOf] at hopen
  · rw [if_neg hslash]
    exact .inl rfl

theorem lstrip_rootedPath {comps : List Str} (h : ∀ c ∈ comps, IsComponent c) (suffix : Str)
    (hsuffix : comps = [] → suffix = []) :
    lstrip (· == '/') (rootedPath comps ++ suffix) = ['/'].intercalate comps ++ suffix := by
  rw [rootedPath, List.cons_append, lstrip, List.dropWhile_cons_of_pos (by simp)]
  cases htext : ['/'].intercalate comps ++ suffix with
  | nil => rfl
  | cons c text =>
    have hc : c ≠ '/' := by
      rintro rfl
      have hhead := head?_intercalate h
      cases comps with
      | nil => simp [hsuffix rfl] at htext
      | cons comp comps =>
        have hne := intercalate_ne_nil h (List.cons_ne_nil comp comps)
        have hsame : (['/'].intercalate (comp :: comps) ++ suffix).head? =
            (['/'].intercalate (comp :: comps)).head? := List.head?_append_of_ne_nil _ hne
        rw [← hsame, htext] at hhead
        exact hhead rfl
    exact List.dropWhile_cons_of_neg (by simpa using hc)

/-- The path of a normal form is its own normal form. -/
theorem normalPath_normalPath (path : Str) : normalPath (normalPath path) = normalPath path := by
  obtain ⟨comps, hcomps, hpath⟩ := normalPath_cases path
  have hplain : ∀ c ∈ comps, IsComponent c := fun c hc => (hcomps c hc).1
  rcases hpath with hpath | ⟨⟨hne, hopen⟩, hpath⟩
  · have hstrip := lstrip_rootedPath hplain [] fun _ => rfl
    simp only [List.append_nil] at hstrip
    have hnormal : normpath ('/' :: ['/'].intercalate comps) = rootedPath comps :=
      normpath_rootedPath hplain
    rw [hpath, normalPath]
    simp only [hstrip, hnormal, Bool.and_not_self, Bool.false_eq_true, if_false]
  · have hstrip := lstrip_rootedPath hplain ['/'] fun h => absurd h hne
    have hnormal : normpath ('/' :: (['/'].intercalate comps ++ ['/'])) = rootedPath comps :=
      normpath_rootedPath_slash hplain hne
    have hslash : endsWith (rootedPath comps ++ ['/']) ['/'] = true := by
      simp [endsWith]
    rw [hpath, normalPath]
    simp only [hstrip, hnormal, hslash, hopen, Bool.not_false, Bool.and_self, if_true]

theorem mem_normalPath {path : Str} {c : Char} (h : c ∈ normalPath path) : c = '/' ∨ c ∈ path := by
  obtain ⟨comps, hcomps, hpath⟩ := normalPath_cases path
  have hrooted : c ∈ rootedPath comps → c = '/' ∨ c ∈ path := by
    intro hc
    rcases List.mem_cons.mp hc with rfl | hc
    · exact .inl rfl
    rcases mem_intercalate_singleton hc with rfl | ⟨comp, hcomp, hc⟩
    · exact .inl rfl
    · exact .inr ((hcomps comp hcomp).2 hc)
  rcases hpath with hpath | ⟨-, hpath⟩
  · rw [hpath] at h
    exact hrooted h
  · rw [hpath] at h
    rcases List.mem_append.mp h with h | h
    · exact hrooted h
    · exact .inl (List.mem_singleton.mp h)

theorem netloc_eq_shownPort (scheme host : Str) (port : Option ℕ) :
    (match port with
      | none => host
      | some n => if n == defaultPort scheme then host else host ++ ':' :: Nat.toDigits 10 n) =
      host ++ netlocPort (shownPort scheme port) := by
  rcases port with _ | n
  · simp [shownPort, netlocPort]
  · by_cases hdefault : n = defaultPort scheme
    · simp [shownPort, netlocPort, Option.filter, hdefault]
    · simp [shownPort, netlocPort, Option.filter, hdefault]

theorem urlunsplit_eq_urlText {scheme path : Str} (host query : Str) (port : Option ℕ)
    (hscheme : IsWebScheme scheme) (hpath : ∃ rest, path = '/' :: rest) :
    urlunsplit ⟨scheme, host ++ netlocPort port, path, query, []⟩ =
      urlText scheme host port path query := by
  obtain ⟨rest, rfl⟩ := hpath
  have hnonempty : scheme ≠ [] := by rcases hscheme with rfl | rfl <;> decide
  simp [urlunsplit, urlText, queryText, hnonempty]

/-- **The normal form of a URL, part by part.** -/
theorem normalizeUrl_eq_ok_iff {entry rule : Str} :
    normalizeUrl U entry = .ok rule ↔
      ∃ parsed hostname host port, urlsplit U (strip entry) = some parsed ∧
        parsed.hostname U = some hostname ∧ IsWebScheme (lower U parsed.scheme) ∧
        normalizeDomain U hostname = .ok host ∧ parsed.port = some port ∧
        rule = urlText (lower U parsed.scheme) host (shownPort (lower U parsed.scheme) port)
          (normalPath parsed.path) parsed.query := by
  rw [normalizeUrl]
  cases hparsed : urlsplit U (strip entry) with
  | none => simp [orValueError, bind, Except.bind]
  | some parsed =>
    cases hhost : parsed.hostname U with
    | none => simp [hhost, orValueError, bind, Except.bind]
    | some hostname =>
      simp only [hhost, orValueError, bind, Except.bind]
      by_cases hscheme : IsWebScheme (lower U parsed.scheme)
      swap
      · rw [if_pos (by simpa [IsWebScheme] using hscheme)]
        simp [hhost, hscheme]
      rw [if_neg (by simpa [IsWebScheme, or_iff_not_imp_left] using hscheme)]
      cases hdomain : normalizeDomain U hostname with
      | error e => simp [hhost, hdomain]
      | ok host =>
        cases hport : parsed.port with
        | none => simp [hhost, hport]
        | some port =>
          have hnetloc := netloc_eq_shownPort (lower U parsed.scheme) host port
          have htext : ∀ {rule : Str}, (Except.ok (ε := PyError) (urlunsplit ⟨lower U parsed.scheme,
              host ++ netlocPort (shownPort (lower U parsed.scheme) port), normalPath parsed.path,
              parsed.query, []⟩) = .ok rule) ↔ rule = urlText (lower U parsed.scheme) host
                (shownPort (lower U parsed.scheme) port) (normalPath parsed.path) parsed.query := by
            intro rule
            rw [urlunsplit_eq_urlText _ _ _ hscheme (exists_normalPath _), Except.ok.injEq, eq_comm]
          rw [← hnetloc] at htext
          refine htext.trans ?_
          simp [hhost, hdomain, hport, hscheme]

end SecOpent
