import SecOpent.Scope.AddressRules
import SecOpent.Scope.Enforcement

/-!
# Spellings of a host

A domain or wildcard rule is compared with the normal form of a host. A URL rule is compared with
the text of the host as it is written, and so is an address or network rule: what such a rule
excludes in one spelling it lets through in another one.

## Main definitions

* `SameHost`: two spellings of one host
* `readsAsWritten`: the rules that are compared with the text as it is written
* `SpellingIndependent`: respelling a host does not change whether a scope excludes it
* `WrittenRulesRedundant`: what the rules of the first kind match, the others match as well

## Main results

* `spellingIndependent_iff`: the scopes whose exclusions do not depend on spelling
-/

namespace SecOpent

open Python

/-! ## Padding -/

/-- A text with a blank before it and `n` blanks after it. -/
def padded (n : ℕ) (s : Str) : Str := ' ' :: (s ++ List.replicate n ' ')

theorem strip_concat_blank (s : Str) : strip (s ++ [' ']) = strip s := by
  have hblank : isSpace ' ' = true := rfl
  unfold strip lstrip rstrip
  rw [List.dropWhile_append]
  split
  next hall =>
    rw [List.isEmpty_iff.mp hall]
    rfl
  next => exact List.rdropWhile_concat_pos _ _ _ hblank

theorem strip_padded (n : ℕ) (s : Str) : strip (padded n s) = strip s := by
  change strip (s ++ List.replicate n ' ') = strip s
  induction n with
  | zero => simp
  | succ n ih => rw [List.replicate_succ', ← List.append_assoc, strip_concat_blank, ih]

theorem ipAddress_padded (n : ℕ) (s : Str) : ipAddress (padded n s) = none :=
  ipAddress_cons (by decide) _

variable (U : Unicode)

theorem normalizeDomain_padded (n : ℕ) (s : Str) :
    normalizeDomain U (padded n s) = normalizeDomain U s := by
  simp only [normalizeDomain, strip_padded]

theorem isHttp_padded (n : ℕ) (s : Str) : isHttp (padded n s) = false := rfl

/-- A blank at the end is no part of a rule's suffix. -/
theorem domainMatches_padded {n : ℕ} {rule : Str} (h : rule.length ≤ n) (s : Str) :
    domainMatches rule (padded n s) = false := by
  unfold domainMatches
  split
  · rw [Bool.and_eq_false_iff]
    left
    rw [endsWith, Bool.eq_false_iff, ne_eq, List.isSuffixOf_iff_suffix]
    intro hsuffix
    have hblanks : List.replicate n ' ' <:+ padded n s := ⟨' ' :: s, by simp [padded]⟩
    have hlength : ('.' :: rule.drop 2).length ≤ (List.replicate n ' ').length := by
      have hwildcard : startsWith rule ['*', '.'] = true := by assumption
      have htwo := (List.isPrefixOf_iff_prefix.mp hwildcard).length_le
      simp only [List.length_cons, List.length_nil, List.length_drop, List.length_replicate] at *
      omega
    have hdot : '.' ∈ List.replicate n ' ' :=
      (List.suffix_of_suffix_length_le hsuffix hblanks hlength).subset (by simp)
    simpa using List.eq_of_mem_replicate hdot
  · rw [beq_eq_false_iff_ne]
    intro heq
    rw [← heq] at h
    have hlong : n < (padded n s).length := by
      rw [padded, List.length_cons, List.length_append, List.length_replicate]
      omega
    exact absurd h (by omega)

theorem hostMatches_padded {n : ℕ} {ruleHost : Str} (h : ruleHost.length ≤ n) (s : Str) :
    hostMatches ruleHost (padded n s) = false := by
  rw [hostMatches, domainMatches_padded h, ipAddress_padded]
  cases ipNetwork ruleHost <;> rfl

/-! ## Rules that read the host as it is written -/

/-- A URL, address or network rule. -/
def readsAsWritten (rule : Str) : Bool := isHttp rule || (ipNetwork rule).isSome

variable {U} in
/-- A domain or wildcard rule sees the normal form only. -/
theorem targetMatches_domain {rule host domain : Str} (h : readsAsWritten rule = false)
    (hdomain : normalizeDomain U host = .ok domain) :
    targetMatches U rule host = .ok (domainMatches rule domain) := by
  rw [readsAsWritten, Bool.or_eq_false_iff, Option.isSome_eq_false_iff,
    Option.isNone_iff_eq_none] at h
  simp [targetMatches, h.1, h.2, hdomain, bind, Except.bind, pure, Except.pure]

/-- A rule that reads the host as written matches no host that is padded enough. -/
theorem exists_padding_rule {rule : Str} (h : readsAsWritten rule = true)
    (hparsed : isHttp rule = true → ∃ parsed, urlsplit U rule = some parsed) :
    ∃ n, ∀ m ≥ n, ∀ host, targetMatches U rule (padded m host) = .ok false := by
  by_cases hhttp : isHttp rule = true
  · obtain ⟨parsed, hparsed⟩ := hparsed hhttp
    cases hhost : parsed.hostname U with
    | none =>
      refine ⟨0, fun m _ host => ?_⟩
      simp [targetMatches, hhttp, hparsed, hhost, orValueError, bind, Except.bind, pure, Except.pure]
    | some ruleHost =>
      refine ⟨ruleHost.length, fun m hm host => ?_⟩
      have hnonempty : (padded m host).isEmpty = false := rfl
      simp [targetMatches, hhttp, hparsed, hhost, orValueError, isHttp_padded, hnonempty,
        hostMatches_padded hm, bind, Except.bind, pure, Except.pure]
  · obtain ⟨network, hnetwork⟩ : ∃ network, ipNetwork rule = some network := by
      simpa [readsAsWritten, hhttp, Option.isSome_iff_exists] using h
    refine ⟨0, fun m _ host => ?_⟩
    simp [targetMatches, hhttp, hnetwork, ipAddress_padded, pure, Except.pure]

/-- A host can be padded so much that no rule of a list that reads it as written matches it. -/
theorem exists_padding {rules : List Str}
    (hparsed : ∀ r ∈ rules, isHttp r = true → ∃ parsed, urlsplit U r = some parsed) :
    ∃ n, ∀ m ≥ n, ∀ r ∈ rules, readsAsWritten r = true →
      ∀ host, targetMatches U r (padded m host) = .ok false := by
  induction rules with
  | nil => exact ⟨0, by simp⟩
  | cons rule rules ih =>
    obtain ⟨n, hn⟩ := ih fun r hr => hparsed r (by simp [hr])
    by_cases hraw : readsAsWritten rule = true
    · obtain ⟨k, hk⟩ := exists_padding_rule U hraw (hparsed rule (by simp))
      refine ⟨max n k, fun m hm r hr hwritten => ?_⟩
      rcases List.mem_cons.mp hr with rfl | hr
      · exact hk m (le_trans (le_max_right n k) hm)
      · exact hn m (le_trans (le_max_left n k) hm) r hr hwritten
    · refine ⟨n, fun m hm r hr hwritten => ?_⟩
      rcases List.mem_cons.mp hr with rfl | hr
      · exact absurd hwritten hraw
      · exact hn m hm r hr hwritten

variable {U} in
/-- A rule raises on a host that is a domain only when one of the two is a URL that does not
parse. -/
theorem targetMatches_ok {rule host domain : Str}
    (hrule : isHttp rule = true → ∃ parsed, urlsplit U rule = some parsed)
    (hhost : isHttp host = true → ∃ parsed, urlsplit U host = some parsed)
    (hdomain : normalizeDomain U host = .ok domain) : ∃ b, targetMatches U rule host = .ok b := by
  unfold targetMatches
  split
  next hhttp =>
    obtain ⟨parsed, hparsed⟩ := hrule hhttp
    rw [hparsed]
    cases hname : parsed.hostname U with
    | none => exact ⟨false, by simp [orValueError, hname, bind, Except.bind, pure, Except.pure]⟩
    | some ruleHost =>
      by_cases hurl : isHttp host = true
      · obtain ⟨parsedHost, hparsedHost⟩ := hhost hurl
        cases hvalue : parsedHost.hostname U <;>
          simp [orValueError, hname, hurl, hparsedHost, hvalue, bind, Except.bind, pure, Except.pure]
      · cases host <;> simp [orValueError, hname, hurl, bind, Except.bind, pure, Except.pure]
  next =>
    cases ipNetwork rule with
    | none => exact ⟨domainMatches rule domain, by simp [hdomain, bind, Except.bind, pure, Except.pure]⟩
    | some network => cases ipAddress host <;> exact ⟨_, rfl⟩

variable {U} in
/-- A host that is a URL and does not parse is matched by no rule that reads it as written. -/
theorem parses_of_written {rule host : Str} (hraw : readsAsWritten rule = true)
    (hmatch : targetMatches U rule host = .ok true) (hurl : isHttp host = true) :
    ∃ parsed, urlsplit U host = some parsed := by
  by_contra hnone
  have hsplit : urlsplit U host = none := by
    rw [Option.eq_none_iff_forall_ne_some]
    exact fun parsed hparsed => hnone ⟨parsed, hparsed⟩
  have haddress : ipAddress host = none := by
    rw [Option.eq_none_iff_forall_ne_some]
    intro a ha
    rw [isHttp_of_slash (slash_not_mem_of_ipAddress ha)] at hurl
    cases hurl
  unfold targetMatches at hmatch
  split at hmatch
  next =>
    cases hparsed : urlsplit U rule with
    | none => simp [hparsed, orValueError, bind, Except.bind] at hmatch
    | some parsed =>
      cases hname : parsed.hostname U with
      | none => simp [hparsed, hname, orValueError, bind, Except.bind, pure, Except.pure] at hmatch
      | some ruleHost =>
        simp [hparsed, hname, hsplit, orValueError, bind, Except.bind] at hmatch
  next hhttp =>
    obtain ⟨network, hnetwork⟩ : ∃ network, ipNetwork rule = some network := by
      simpa [readsAsWritten, hhttp, Option.isSome_iff_exists] using hraw
    simp [hnetwork, haddress, pure, Except.pure] at hmatch

/-! ## Scopes whose exclusions do not depend on spelling -/

/-- Two spellings of one host. -/
def SameHost (host host' : Str) : Prop :=
  ∃ domain, normalizeDomain U host = .ok domain ∧ normalizeDomain U host' = .ok domain

/-- Whatever `excludes_host` answers for a host it answers for every spelling of it, and
`ScopeEnforcer.check` allows no respelling of an excluded host. -/
def SpellingIndependent (scope : ScopeSnapshot) : Prop :=
  ∀ host host', SameHost U host host' →
    (∀ excluded excluded', scope.excludesHost U host = .ok excluded →
      scope.excludesHost U host' = .ok excluded' → excluded = excluded') ∧
    (scope.excludesHost U host = .ok true →
      ∀ (enforcer : ScopeEnforcer) (target : Str) (port : Option ℤ) (context : EnforcementContext),
        splitTarget U target = .ok (host', port) → ¬Allowed (enforcer.check U target scope context))

/-- Every text that a URL, address or network rule excludes is excluded, in its normal form, by a
domain or wildcard rule too. -/
def WrittenRulesRedundant (scope : ScopeSnapshot) : Prop :=
  ∀ rule ∈ scope.excludeRules, readsAsWritten rule = true → ∀ host domain,
    targetMatches U rule host = .ok true → normalizeDomain U host = .ok domain →
      ∃ rule' ∈ scope.excludeRules, readsAsWritten rule' = false ∧ domainMatches rule' domain = true

/-- Some exclude URL does not parse; then `excludes_host` never answers `False`. -/
def UnparsedExclude (scope : ScopeSnapshot) : Prop :=
  ∃ rule ∈ scope.excludeRules, isHttp rule = true ∧ urlsplit U rule = none

variable {U} {scope : ScopeSnapshot}

theorem not_excludesHost_false (h : UnparsedExclude U scope) (host : Str) :
    scope.excludesHost U host ≠ .ok false := by
  obtain ⟨rule, hmem, hhttp, hsplit⟩ := h
  intro hfalse
  have hrule := anyMatches_eq_false_iff.mp hfalse rule hmem
  simp [targetMatches, hhttp, hsplit, orValueError, bind, Except.bind] at hrule

/-- With redundant rules, what is excluded in one spelling is not let through in another one. -/
theorem not_excludesHost_false_of_redundant (h : WrittenRulesRedundant U scope) {host host' : Str}
    (hsame : SameHost U host host') (hexcluded : scope.excludesHost U host = .ok true) :
    scope.excludesHost U host' ≠ .ok false := by
  obtain ⟨domain, hdomain, hdomain'⟩ := hsame
  obtain ⟨rule, hmem, hmatch⟩ := exists_of_anyMatches hexcluded
  -- A rule that sees the normal form only matches the host.
  obtain ⟨rule', hmem', hnormal, hmatch'⟩ : ∃ rule' ∈ scope.excludeRules,
      readsAsWritten rule' = false ∧ domainMatches rule' domain = true := by
    cases hraw : readsAsWritten rule with
    | true => exact h rule hmem hraw host domain hmatch hdomain
    | false =>
      rw [targetMatches_domain hraw hdomain] at hmatch
      exact ⟨rule, hmem, hraw, Except.ok.inj hmatch⟩
  intro hfalse
  have hrule := anyMatches_eq_false_iff.mp hfalse rule' hmem'
  rw [targetMatches_domain hnormal hdomain', hmatch'] at hrule
  cases hrule

/-- A rule that sees the text as written, and excludes a host that no other rule excludes, lets a
padded spelling of it through. -/
theorem redundant_of_spellingIndependent (h : SpellingIndependent U scope)
    (hparsed : ¬UnparsedExclude U scope) : WrittenRulesRedundant U scope := by
  intro rule hmem hraw host domain hmatch hdomain
  by_contra hnone
  have hurls : ∀ r ∈ scope.excludeRules, isHttp r = true → ∃ parsed, urlsplit U r = some parsed := by
    intro r hr hhttp
    by_contra hunparsed
    refine hparsed ⟨r, hr, hhttp, ?_⟩
    rw [Option.eq_none_iff_forall_ne_some]
    exact fun parsed hsplit => hunparsed ⟨parsed, hsplit⟩
  have hexcluded : scope.excludesHost U host = .ok true :=
    anyMatches_of_mem (fun r hr => targetMatches_ok (hurls r hr) (parses_of_written hraw hmatch)
      hdomain) hmem hmatch
  obtain ⟨n, hn⟩ := exists_padding U hurls
  have hpadded : normalizeDomain U (padded n host) = .ok domain := by
    rw [normalizeDomain_padded, hdomain]
  have hadmitted : scope.excludesHost U (padded n host) = .ok false := by
    refine anyMatches_eq_false_iff.mpr fun r hr => ?_
    cases hwritten : readsAsWritten r with
    | true => exact hn n le_rfl r hr hwritten host
    | false =>
      rw [targetMatches_domain hwritten hpadded, Except.ok.injEq, Bool.eq_false_iff]
      exact fun hdomainMatch => hnone ⟨r, hr, hwritten, hdomainMatch⟩
  have hsame := (h host (padded n host) ⟨domain, hdomain, hpadded⟩).1 true false hexcluded hadmitted
  cases hsame

/-- **The scopes whose exclusions do not depend on spelling**: those in which URL, address and
network rules exclude nothing that domain and wildcard rules do not exclude. -/
theorem spellingIndependent_iff (scope : ScopeSnapshot) :
    SpellingIndependent U scope ↔ UnparsedExclude U scope ∨ WrittenRulesRedundant U scope := by
  constructor
  · intro h
    by_cases hparsed : UnparsedExclude U scope
    · exact .inl hparsed
    · exact .inr (redundant_of_spellingIndependent h hparsed)
  · intro h
    have hkept : ∀ host host', SameHost U host host' → scope.excludesHost U host = .ok true →
        scope.excludesHost U host' ≠ .ok false := by
      intro host host' hsame hexcluded
      rcases h with hparsed | hredundant
      · exact not_excludesHost_false hparsed host'
      · exact not_excludesHost_false_of_redundant hredundant hsame hexcluded
    intro host host' hsame
    refine ⟨?_, ?_⟩
    · rintro (_ | _) (_ | _) hexcluded hexcluded'
      · rfl
      · obtain ⟨domain, hdomain, hdomain'⟩ := hsame
        exact absurd hexcluded (hkept host' host ⟨domain, hdomain', hdomain⟩ hexcluded')
      · exact absurd hexcluded' (hkept host host' hsame hexcluded)
      · rfl
    · intro hexcluded enforcer target port context hsplit hallowed
      obtain ⟨host'', port', hsplit', -, hadmitted, -⟩ :=
        (ScopeEnforcer.check_allowed_iff U).mp hallowed
      rw [hsplit] at hsplit'
      cases hsplit'
      exact hkept host host' hsame hexcluded hadmitted

/-- The draft of a shop: its subdomains, without the URL of the administration. -/
def shopDraft : ScopeDraft where
  projectId := "shop".toList
  includeRules := ["*.example.com".toList, "10.0.0.0/24".toList]
  excludeRules := ["http://admin.example.com/".toList]
  project_nonblank := by decide
  include_nonempty := by decide
  ports_valid := by decide

/-- The scope that `shopDraft` freezes to. -/
def shopScope : ScopeSnapshot where
  id := "scope"
  projectId := "shop"
  includeRules := ["*.example.com".toList, "10.0.0.0/24".toList]
  excludeRules := ["http://admin.example.com/".toList]
  ports := [80, 443]
  limits := .default
  approvedBy := "operator"
  approvedAt := 0
  digest := "digest"

theorem ScopeDraft.freeze_shopDraft :
    shopDraft.freeze .ascii "scope" "operator" 0 "digest" = .ok shopScope := by
  have hinclude : shopDraft.includeRules.mapM (normalizeTarget .ascii) =
      .ok shopScope.includeRules := by decide +kernel
  have hexclude : shopDraft.excludeRules.mapM (normalizeTarget .ascii) =
      .ok shopScope.excludeRules := by decide +kernel
  have hports : shopDraft.ports.mapM normalizePort = .ok shopScope.ports := by decide +kernel
  have haccounts : shopDraft.cloudAccounts.mapM (normalizeCloudAccount .ascii) =
      .ok shopScope.cloudAccounts := rfl
  have hsorted : sortedSet strLe shopScope.includeRules = shopScope.includeRules :=
    sortedSet_eq_self (by decide) (by decide +kernel)
  have hsortedPorts : sortedSet (fun a b => decide (a ≤ b)) shopScope.ports = shopScope.ports :=
    sortedSet_eq_self (by decide) (by decide)
  have hsortedExclude : sortedSet strLe shopScope.excludeRules = shopScope.excludeRules :=
    sortedSet_eq_self (by decide) (by decide)
  have hsortedAccounts : sortedSet strLe shopScope.cloudAccounts = shopScope.cloudAccounts :=
    sortedSet_eq_self (by decide) (by decide)
  simp only [freeze, hinclude, hexclude, hports, haccounts, bind, Except.bind, pure, Except.pure,
    hsorted, hsortedPorts, hsortedExclude, hsortedAccounts]
  rfl

/-- An excluded host in capitals is not excluded, and it is scanned. -/
theorem respelled_host_admitted :
    ∃ scope, shopDraft.freeze .ascii "scope" "operator" 0 "digest" = .ok scope ∧
      SameHost .ascii "admin.example.com".toList "ADMIN.example.com".toList ∧
      scope.excludesHost .ascii "admin.example.com".toList = .ok true ∧
      scope.excludesHost .ascii "ADMIN.example.com".toList = .ok false ∧
      Allowed ((ScopeEnforcer.mk fun _ => ["10.0.0.7".toList]).check .ascii
        "ADMIN.example.com".toList scope ⟨.active, {.active}, true, 1, 12, none, true⟩) ∧
      ¬SpellingIndependent .ascii scope := by
  have hsame : SameHost .ascii "admin.example.com".toList "ADMIN.example.com".toList :=
    ⟨"admin.example.com".toList, by decide +kernel, by decide +kernel⟩
  have hexcluded : shopScope.excludesHost .ascii "admin.example.com".toList = .ok true := by
    decide +kernel
  have hadmitted : shopScope.excludesHost .ascii "ADMIN.example.com".toList = .ok false := by
    decide +kernel
  have hcheck : (ScopeEnforcer.mk fun _ => ["10.0.0.7".toList]).check .ascii
      "ADMIN.example.com".toList shopScope ⟨.active, {.active}, true, 1, 12, none, true⟩ =
        .ok ⟨true, "ALLOWED"⟩ := by
    decide +kernel
  refine ⟨shopScope, ScopeDraft.freeze_shopDraft, hsame, hexcluded, hadmitted, ⟨_, hcheck, rfl⟩,
    fun h => ?_⟩
  have heq := (h _ _ hsame).1 true false hexcluded hadmitted
  cases heq

end SecOpent
