import SecOpent.Scope.NormalForms

/-!
# Normalising a target twice

`_normalize_target` answers with a text that is meant to be the target in normal form. Read again, the
text is its own normal form exactly when the target settles: the host of a URL is not an address in
brackets and keeps its ends, no blank ends the URL, and what is left of a domain is not read as
something else.

## Main definitions

* `UrlSettles`: the text of a URL is read back
* `DomainSettles`: the text of a domain is read as a domain again
* `Settles`: either, or an address

## Main results

* `normalizeTarget_self_iff`
-/

namespace SecOpent

open Python

variable {U : Unicode}

/-- The host and the port of a URL are read back, and no blank ends its path or its query. -/
structure UrlSettles (U : Unicode) (parsed : SplitResult) (host : Str) (port : Option ℕ) : Prop where
  /-- Some plain host and port have the text that is written: the host itself, unless it has a colon. -/
  netloc : ∃ plain shown, KeptHost U plain ∧ IsShown (lower U parsed.scheme) shown ∧
    host ++ netlocPort (shownPort (lower U parsed.scheme) port) = plain ++ netlocPort shown
  no_blank : rstrip isSpace (normalPath parsed.path ++ queryText parsed.query) =
    normalPath parsed.path ++ queryText parsed.query

/-- What the codec gives for a domain has no blanks around it, and is not read as another URL or another
address. -/
structure DomainSettles (U : Unicode) (text : Str) : Prop where
  no_blank : strip text = text
  url : isHttp text = true → OwnForm U text
  address : ∀ address, normalizeIpOrNetwork text = .ok address → address = text

/-- **The target settles**: what is written for it is what is read again. -/
inductive Settles (U : Unicode) (value : Str) : Prop
  | url {parsed : SplitResult} {hostname host : Str} {port : Option ℕ}
      (hurl : isUrlEntry U value = true) (hparsed : urlsplit U (strip value) = some parsed)
      (hhostname : parsed.hostname U = some hostname) (hhost : idnaText U hostname = some host)
      (hport : parsed.port = some port) (hsettles : UrlSettles U parsed host port)
  | address {text : Str} (hurl : isUrlEntry U value = false)
      (haddress : normalizeIpOrNetwork value = .ok text)
  | domain {text : Str} (hurl : isUrlEntry U value = false)
      (haddress : ∀ address, normalizeIpOrNetwork value ≠ .ok address)
      (htext : idnaText U value = some text) (hsettles : DomainSettles U text)

/-! ## URLs -/

theorem isHttp_of_prefix {scheme s : Str} (hscheme : IsWebScheme scheme)
    (h : scheme ++ [':', '/', '/'] <+: s) : isHttp s = true := by
  rcases hscheme with rfl | rfl
  · exact Bool.or_eq_true_iff.mpr (.inl (List.isPrefixOf_iff_prefix.mpr h))
  · exact Bool.or_eq_true_iff.mpr (.inr (List.isPrefixOf_iff_prefix.mpr h))

/-- The text of a URL is read as a URL. -/
theorem isUrlEntry_text (hU : U.Lawful) {scheme netloc : Str} (hscheme : IsWebScheme scheme)
    (rest : Str) :
    isUrlEntry U (scheme ++ ':' :: '/' :: '/' :: (netloc ++ '/' :: rest)) = true := by
  have hstart : isAscii (scheme ++ [':', '/', '/']) = true ∧
      (scheme ++ [':', '/', '/']).map Char.toLower = scheme ++ [':', '/', '/'] := by
    rcases hscheme with rfl | rfl
    · decide
    · decide
  have hprefix := prefix_lower hU hstart.1 (netloc ++ '/' :: rstrip isSpace rest)
  rw [hstart.2] at hprefix
  refine isHttp_of_prefix hscheme ?_
  rw [strip_urlText hscheme]
  simpa using hprefix

theorem isUrlEntry_urlText (hU : U.Lawful) {scheme : Str} (hscheme : IsWebScheme scheme)
    (host path query : Str) (port : Option ℕ) :
    isUrlEntry U (urlText scheme host port (normalPath path) query) = true := by
  obtain ⟨tail, htail⟩ := exists_normalPath path
  rw [urlText_eq, htail, List.cons_append]
  exact isUrlEntry_text hU hscheme _

/-- The host that is written has no slash. -/
theorem slash_not_mem_host (hU : U.Lawful) {url : Str} {parsed : SplitResult} {hostname host : Str}
    (hparsed : urlsplit U url = some parsed) (hhostname : parsed.hostname U = some hostname)
    (hhost : normalizeDomain U hostname = .ok host) : '/' ∉ host := by
  intro hslash
  obtain ⟨-, -, -, -, -, hcheck, -⟩ := urlsplit_eq_some_iff.mp hparsed
  have hread := SplitResult.hasSlash_hostname hU hhostname (hasSlash_of_normalizeDomain hU hhost hslash)
  exact not_hasSlash_of_checkNetloc hU hcheck (slash_not_mem_netloc hparsed) hread

/-- Two texts of URLs have the same network location and the same rest. -/
theorem urlText_inj {scheme scheme' netloc netloc' rest rest' : Str} (hscheme : IsWebScheme scheme)
    (hscheme' : IsWebScheme scheme') (hnetloc : '/' ∉ netloc) (hnetloc' : '/' ∉ netloc')
    (h : scheme ++ ':' :: '/' :: '/' :: (netloc ++ '/' :: rest) =
      scheme' ++ ':' :: '/' :: '/' :: (netloc' ++ '/' :: rest')) :
    scheme = scheme' ∧ netloc = netloc' ∧ rest = rest' := by
  have hcolon : ∀ {s : Str}, IsWebScheme s → ':' ∉ s := by
    rintro s (rfl | rfl)
    · decide
    · decide
  have hschemes := congrArg (partition ':') h
  rw [partition_append ':' (hcolon hscheme), partition_append ':' (hcolon hscheme'), Prod.mk.injEq]
    at hschemes
  obtain ⟨rfl, hrest⟩ := hschemes
  have hnetlocs := congrArg (partition '/') (List.cons.inj (List.cons.inj hrest).2).2
  rw [partition_append '/' hnetloc, partition_append '/' hnetloc', Prod.mk.injEq] at hnetlocs
  exact ⟨rfl, hnetlocs⟩

/-- The path and the query that are written, with no blank at their end, are read back. -/
theorem keptPath_of_urlsplit {url : Str} {parsed : SplitResult} (h : urlsplit U url = some parsed)
    (hblank : rstrip isSpace (normalPath parsed.path ++ queryText parsed.query) =
      normalPath parsed.path ++ queryText parsed.query) :
    KeptPath (normalPath parsed.path) parsed.query := by
  have hchars : ∀ c ∈ normalPath parsed.path ++ queryText parsed.query,
      c ∉ ['#', '\t', '\r', '\n'] := by
    intro c hc
    rcases List.mem_append.mp hc with hc | hc
    · rcases mem_normalPath hc with rfl | hc
      · decide
      · exact path_chars h c (List.mem_append_left _ hc)
    · unfold queryText at hc
      split at hc
      · cases hc
      · rcases List.mem_cons.mp hc with rfl | hc
        · decide
        · exact path_chars h c (List.mem_append_right _ hc)
  refine ⟨normalPath_normalPath _, ?_, ?_, ?_, hblank⟩
  · intro hmem
    rcases mem_normalPath hmem with hslash | hmem
    · cases hslash
    · exact question_not_mem_path h hmem
  · exact fun hmem => hchars '#' hmem (by decide)
  · rw [withoutBreaks, List.filter_eq_self]
    intro c hc
    have hnot := hchars c hc
    simp only [List.mem_cons, List.not_mem_nil, or_false, not_or] at hnot
    simp [hnot]

/-- **The text of a URL is in its own form exactly when the URL settles.** -/
theorem ownForm_urlText_iff (hU : U.Lawful) {url : Str} {parsed : SplitResult} {hostname host : Str}
    {port : Option ℕ} (hparsed : urlsplit U url = some parsed)
    (hhostname : parsed.hostname U = some hostname) (hscheme : IsWebScheme (lower U parsed.scheme))
    (hhost : normalizeDomain U hostname = .ok host) :
    OwnForm U (urlText (lower U parsed.scheme) host (shownPort (lower U parsed.scheme) port)
      (normalPath parsed.path) parsed.query) ↔ UrlSettles U parsed host port := by
  constructor
  · rintro ⟨scheme, plain, shown, path, query, htext, hscheme', hkept, hshown, hpath⟩
    obtain ⟨tail, htail⟩ := exists_normalPath parsed.path
    obtain ⟨tail', htail'⟩ := exists_normalPath path
    rw [hpath.normal] at htail'
    -- Both texts are cut at the first slash after the network location.
    rw [urlText_eq, urlText_eq, htail, htail', List.cons_append, List.cons_append] at htext
    have hslash : '/' ∉ host ++ netlocPort (shownPort (lower U parsed.scheme) port) := by
      intro hmem
      rcases List.mem_append.mp hmem with hmem | hmem
      · exact slash_not_mem_host hU hparsed hhostname hhost hmem
      · exact UrlParts.slash_not_mem_netlocPort _ hmem
    obtain ⟨hsame, hnetloc, hrest⟩ :=
      urlText_inj hscheme hscheme' hslash (hkept.plain.not_mem_netloc rfl) htext
    refine ⟨⟨plain, shown, hkept, by rwa [hsame], hnetloc⟩, ?_⟩
    have hblank := hpath.no_blank
    rw [htail', List.cons_append, ← hrest] at hblank
    rw [htail, List.cons_append]
    exact hblank
  · rintro ⟨⟨plain, shown, hkept, hshown, hnetloc⟩, hblank⟩
    refine ⟨lower U parsed.scheme, plain, shown, normalPath parsed.path, parsed.query, ?_, hscheme,
      hkept, hshown, keptPath_of_urlsplit hparsed hblank⟩
    rw [urlText_eq, urlText_eq, hnetloc]

/-- A URL is its own normal form in the end exactly when it settles. -/
theorem normalizeTarget_url_self_iff (hU : U.Lawful) {value text : Str}
    (hurl : isUrlEntry U value = true) (h : ScopeDraft.normalizeTarget U value = .ok text) :
    ScopeDraft.normalizeTarget U text = .ok text ↔ Settles U value := by
  rw [normalizeTarget_of_url hurl] at h
  obtain ⟨parsed, hostname, host, port, hparsed, hhostname, hscheme, hhost, hport, rfl⟩ :=
    normalizeUrl_eq_ok_iff.mp h
  have hidna := (normalizeDomain_parts hhost).1
  rw [normalizeTarget_of_url (isUrlEntry_urlText hU hscheme _ _ _ _), normalizeUrl_self_iff hU,
    ownForm_urlText_iff hU hparsed hhostname hscheme hhost]
  constructor
  · exact Settles.url hurl hparsed hhostname hidna hport
  · intro hsettles
    cases hsettles with
    | url _ hparsed' hhostname' hhost' hport' hsettles =>
      -- What is read of the URL is the same.
      rw [hparsed] at hparsed'
      obtain rfl := Option.some.inj hparsed'
      rw [hhostname] at hhostname'
      obtain rfl := Option.some.inj hhostname'
      rw [hidna] at hhost'
      obtain rfl := Option.some.inj hhost'
      rw [hport] at hport'
      obtain rfl := Option.some.inj hport'
      exact hsettles
    | address hno _ => rw [hurl] at hno; cases hno
    | domain hno _ _ _ => rw [hurl] at hno; cases hno

/-! ## Addresses -/

/-- The end of a text is blank if its last part ends with a blank. -/
theorem rstrip_append_eq_self_iff {p : Char → Bool} {a b : Str} (hb : b ≠ []) :
    rstrip p (a ++ b) = a ++ b ↔ rstrip p b = b := by
  rw [rstrip, rstrip, List.rdropWhile_eq_self_iff, List.rdropWhile_eq_self_iff]
  have hlast := List.getLast_append_of_ne_nil (List.append_ne_nil_of_right_ne_nil a hb) hb
  simp [hlast, hb]

theorem exists_scopeId {s : Str} {ip : BitVec 128} {z : ScopeId}
    (h : ipAddress s = some (.v6 ip (some z))) : ∃ start, s = start ++ '%' :: z.1 := by
  unfold ipAddress at h
  cases hv4 : ipv4Address s with
  | some a =>
    rw [hv4, Option.some_or] at h
    obtain rfl := Option.some.inj h
    unfold ipv4Address at hv4
    split at hv4
    · cases hv4
    · obtain ⟨ip', -, hip⟩ := Option.map_eq_some_iff.mp hv4
      cases hip
  | none =>
    rw [hv4, Option.none_or] at h
    unfold ipv6Address at h
    split at h
    · cases h
    split at h
    next hpercent =>
      dsimp only at h
      split at h
      · obtain ⟨ip', -, hip⟩ := Option.map_eq_some_iff.mp h
        cases hip
        obtain ⟨a, b, rfl, ha⟩ := List.eq_append_cons_of_mem hpercent
        refine ⟨a, ?_⟩
        show a ++ '%' :: b = a ++ '%' :: (partition '%' (a ++ '%' :: b)).2
        rw [partition_append '%' ha]
      · cases h
    · obtain ⟨ip', -, hip⟩ := Option.map_eq_some_iff.mp h
      cases hip

/-- A text without a blank at its end is the text of an address without one. -/
theorem rstrip_str {s : Str} {a : IpAddress} (h : ipAddress s = some a) (hs : rstrip isSpace s = s) :
    rstrip isSpace a.str = a.str := by
  have hplain : ∀ p : IpAddress, p.isPlain = true → rstrip isSpace p.str = p.str := by
    intro p hp
    have hstrip := strip_eq_self fun c hc => isSpace_eq_false_of_literal (chars_of_isPlain hp c hc)
    exact (strip_eq_self_iff.mp hstrip).2
  rcases a with ip | ⟨ip, _ | z⟩
  · exact hplain _ rfl
  · exact hplain _ rfl
  · obtain ⟨start, rfl⟩ := exists_scopeId h
    rw [IpAddress.str, rstrip_append_eq_self_iff (List.cons_ne_nil _ _)]
    exact (rstrip_append_eq_self_iff (List.cons_ne_nil _ _)).mp hs

/-- The text that is written for an address or a network. -/
structure AddressText (text : Str) : Prop where
  head : ∃ c s, text = c :: s ∧ (isHexDigit c = true ∨ c = ':' ∨ c = '.')
  no_blank : strip text = text
  own : normalizeIpOrNetwork text = .ok text

theorem strip_of_head {c : Char} {s : Str} (hc : isHexDigit c = true ∨ c = ':' ∨ c = '.')
    (hend : rstrip isSpace (c :: s) = c :: s) : strip (c :: s) = c :: s := by
  refine strip_eq_self_iff.mpr ⟨?_, hend⟩
  rw [lstrip, List.dropWhile_cons_of_neg]
  rw [isSpace_eq_false_of_literal hc]
  exact Bool.false_ne_true

theorem addressText_of_normalizeIpOrNetwork {value text : Str}
    (h : normalizeIpOrNetwork value = .ok text) : AddressText text := by
  unfold normalizeIpOrNetwork at h
  dsimp only at h
  split at h
  next s hs =>
    cases h
    split at hs
    · obtain ⟨net, -, rfl⟩ := Option.map_eq_some_iff.mp hs
      obtain ⟨a, p, hnet⟩ := exists_networkStr net
      obtain ⟨c, s, hstr, hc⟩ := exists_head_str a
      have hhead : net.str = c :: (s ++ '/' :: Nat.toDigits 10 p) := by
        rw [hnet, hstr, List.cons_append]
      have hdigits : rstrip isSpace ('/' :: Nat.toDigits 10 p) = '/' :: Nat.toDigits 10 p := by
        refine (strip_eq_self_iff.mp (strip_eq_self fun d hd => ?_)).2
        rcases List.mem_cons.mp hd with rfl | hd
        · rfl
        · have hdigit := Nat.isDigit_of_mem_toDigits (by norm_num) (by norm_num) hd
          exact isSpace_eq_false_of_literal (.inl (by simp [isHexDigit, hdigit]))
      have hend : rstrip isSpace net.str = net.str := by
        rw [hnet]
        exact (rstrip_append_eq_self_iff (List.cons_ne_nil _ _)).mpr hdigits
      have hstrip : strip net.str = net.str := by
        rw [hhead] at hend ⊢
        exact strip_of_head hc hend
      refine ⟨⟨c, _, hhead, hc⟩, hstrip, ?_⟩
      have hslash : '/' ∈ net.str := by rw [hnet]; simp
      simp only [normalizeIpOrNetwork, hslash, if_true, hstrip, ipNetwork_str, Option.map_some]
    · obtain ⟨a, ha, rfl⟩ := Option.map_eq_some_iff.mp hs
      obtain ⟨c, s, hstr, hc⟩ := exists_head_str a
      have hend := rstrip_str ha (rstrip_strip value)
      have hstrip : strip a.str = a.str := by
        rw [hstr] at hend ⊢
        exact strip_of_head hc hend
      refine ⟨⟨c, s, hstr, hc⟩, hstrip, ?_⟩
      have hslash := slash_not_mem_of_ipAddress (ipAddress_str a)
      simp only [normalizeIpOrNetwork, hslash, if_false, hstrip, ipAddress_str, Option.map_some]
  · cases h

/-- An address is not read as a URL. -/
theorem AddressText.not_url (hU : U.Lawful) {text : Str} (h : AddressText text) :
    isUrlEntry U text = false := by
  obtain ⟨c, s, rfl, hc⟩ := h.head
  have hsmall := (toLower_of_literal hc).1
  have hascii : isAscii [c] = true := by simpa [isAscii] using hsmall
  have hother : c.toLower ≠ 'h' := by
    have hall : ∀ n < 128, isHexDigit (Char.ofNat n) = true ∨ Char.ofNat n = ':' ∨
        Char.ofNat n = '.' → (Char.ofNat n).toLower ≠ 'h' := by decide
    have hchar : Char.ofNat c.toNat = c := Char.ofNat_toNat c
    have hne := hall c.toNat hsmall
    rw [hchar] at hne
    exact hne hc
  obtain ⟨rest, hrest⟩ := prefix_lower hU hascii s
  have hlower : lower U (c :: s) = c.toLower :: rest := hrest.symm
  rw [isUrlEntry, h.no_blank, hlower]
  exact isHttp_cons hother rest

theorem isHttp_of_normalizeIpOrNetwork {value text : Str} (h : normalizeIpOrNetwork value = .ok text) :
    isHttp (strip value) = false := by
  cases hvalue : strip value with
  | nil => rfl
  | cons c s =>
    refine isHttp_cons ?_ s
    rintro rfl
    unfold normalizeIpOrNetwork at h
    rw [hvalue, ipAddress_cons (by decide), ipNetwork_cons (by decide)] at h
    simp at h

/-- The normal form of an address is kept. -/
theorem normalizeTarget_address_self (hU : U.Lawful) {value text : Str}
    (h : normalizeIpOrNetwork value = .ok text) : ScopeDraft.normalizeTarget U text = .ok text := by
  have htext := addressText_of_normalizeIpOrNetwork h
  exact normalizeTarget_of_address (htext.not_url hU) htext.own

/-! ## Domains -/

/-- The codec leaves text in lower case, which is read as it is. -/
theorem isUrlEntry_of_domain (hU : U.Lawful) {value text : Str}
    (h : normalizeDomain U value = .ok text) : isUrlEntry U text = isHttp (strip text) := by
  obtain ⟨wild, encoded, rfl, htext⟩ := domainText_of_normalizeDomain hU h
  have hsub : strip (wild ++ encoded) ⊆ wild ++ encoded :=
    List.Subset.trans (List.rdropWhile_prefix _ _).subset (List.dropWhile_subset _)
  have hascii : isAscii (strip (wild ++ encoded)) = true := by
    have hall := htext.isAscii_append
    rw [isAscii, List.all_eq_true] at hall ⊢
    exact fun c hc => hall c (hsub hc)
  rw [isUrlEntry, lower_eq_self hascii fun c hc => htext.isLower_append c (hsub hc)]

/-- **The normal form of a domain is kept exactly when it settles.** -/
theorem normalizeTarget_domain_self_iff (hU : U.Lawful) {value text : Str}
    (h : normalizeDomain U value = .ok text) :
    ScopeDraft.normalizeTarget U text = .ok text ↔ DomainSettles U text := by
  have hentry := isUrlEntry_of_domain hU h
  constructor
  · intro hself
    cases hurl : isHttp (strip text) with
    | true =>
      -- The codec has made a URL of the domain.
      rw [normalizeTarget_of_url (hentry.trans hurl)] at hself
      have hown := ownForm_of_normalizeUrl_self hU hself
      refine ⟨hown.strip_eq, fun _ => hown, fun address haddress => ?_⟩
      rw [isHttp_of_normalizeIpOrNetwork haddress] at hurl
      cases hurl
    | false =>
      have hnotUrl := hentry.trans hurl
      have hblank : strip text = text := by
        by_cases haddress : ∃ address, normalizeIpOrNetwork text = .ok address
        · obtain ⟨address, haddress⟩ := haddress
          rw [normalizeTarget_of_address hnotUrl haddress] at hself
          obtain rfl := Except.ok.inj hself
          exact (addressText_of_normalizeIpOrNetwork haddress).no_blank
        · rw [normalizeTarget_of_domain hnotUrl (not_exists.mp haddress)] at hself
          exact (normalizeDomain_self_iff hU h).mp hself
      refine ⟨hblank, fun hhttp => ?_, fun address haddress => ?_⟩
      · rw [hblank, hhttp] at hurl
        cases hurl
      · rw [normalizeTarget_of_address hnotUrl haddress] at hself
        exact Except.ok.inj hself
  · intro hsettles
    rw [hsettles.no_blank] at hentry
    cases hurl : isHttp text with
    | true =>
      rw [normalizeTarget_of_url (hentry.trans hurl)]
      exact normalizeUrl_of_ownForm (hsettles.url hurl)
    | false =>
      have hnotUrl := hentry.trans hurl
      by_cases haddress : ∃ address, normalizeIpOrNetwork text = .ok address
      · obtain ⟨address, haddress⟩ := haddress
        rw [normalizeTarget_of_address hnotUrl haddress, hsettles.address address haddress]
      · rw [normalizeTarget_of_domain hnotUrl (not_exists.mp haddress)]
        exact (normalizeDomain_self_iff hU h).mpr hsettles.no_blank

/-! ## Targets -/

/-- **The normal form of a target is its own normal form exactly when the target settles.** -/
theorem normalizeTarget_self_iff (hU : U.Lawful) {value text : Str}
    (h : ScopeDraft.normalizeTarget U value = .ok text) :
    ScopeDraft.normalizeTarget U text = .ok text ↔ Settles U value := by
  cases hurl : isUrlEntry U value with
  | true => exact normalizeTarget_url_self_iff hU hurl h
  | false =>
    by_cases haddress : ∃ address, normalizeIpOrNetwork value = .ok address
    · obtain ⟨address, haddress⟩ := haddress
      rw [normalizeTarget_of_address hurl haddress] at h
      obtain rfl := Except.ok.inj h
      exact iff_of_true (normalizeTarget_address_self hU haddress) (.address hurl haddress)
    · have hnone := not_exists.mp haddress
      rw [normalizeTarget_of_domain hurl hnone] at h
      have hidna := (normalizeDomain_parts h).1
      rw [normalizeTarget_domain_self_iff hU h]
      refine ⟨.domain hurl hnone hidna, fun hsettles => ?_⟩
      cases hsettles with
      | url hyes => rw [hurl] at hyes; cases hyes
      | address _ hsome => exact absurd hsome (hnone _)
      | domain _ _ htext hsettles =>
        rw [hidna] at htext
        obtain rfl := Option.some.inj htext
        exact hsettles

/-- A URL with the default port settles. -/
theorem default_port_settles :
    Settles Unicode.lowering "HTTPS://Example.Test:443/a/../b".toList := by
  have hfirst : ScopeDraft.normalizeTarget Unicode.lowering "HTTPS://Example.Test:443/a/../b".toList =
      .ok "https://example.test/b".toList := by decide +kernel
  exact (normalizeTarget_self_iff lawful_lowering hfirst).mp (by decide +kernel)

/-- The brackets of an address are dropped, and its groups are read as a port. -/
theorem bracketed_address_normalized_once :
    ¬∀ value text, ScopeDraft.normalizeTarget Unicode.lowering value = .ok text →
      ScopeDraft.normalizeTarget Unicode.lowering text = .ok text := by
  intro h
  have hfirst : ScopeDraft.normalizeTarget Unicode.lowering "http://[2001:db8::1]/".toList =
      .ok "http://2001:db8::1/".toList := by decide +kernel
  have hsecond : ScopeDraft.normalizeTarget Unicode.lowering "http://2001:db8::1/".toList =
      .error .valueError := by decide +kernel
  have hagain := h _ _ hfirst
  rw [hsecond] at hagain
  cases hagain

end SecOpent
