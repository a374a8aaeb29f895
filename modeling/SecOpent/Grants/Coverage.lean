import SecOpent.Grants.Models
import SecOpent.Scope.AddressRules

/-!
# What a covering grant admits

`covers_scope` compares the ports and tests every include rule of the assessment's scope as one
target. A rule stands for many targets, though, and the cloud accounts are not compared at all:
the grant's exclude rules can cut into what a covered rule admits.

## Main definitions

* `AdmitsAll`: the grant's scope admits everything the assessment's scope admits
* `NoCut`, `AccountsCovered`, `UniformIncludes`: what the tests of `covers_scope` leave open

## Main results

* `uniformIncludes_of_plainRules`: names and addresses are never told from their targets, as long
  as no include rule is a URL
* `coversScope_admitsAll`: a covering grant admits everything, up to cuts and accounts
-/

namespace SecOpent

open Python

variable (U : Unicode) (grant : EngagementGrant) (scope : ScopeSnapshot)

/-- The grant's include rules do not tell an include rule of `scope` from the targets that it
admits: a grant rule that matches the rule, as `covers_scope` tests it, matches every such target,
and no grant rule raises on one. -/
def UniformIncludes : Prop :=
  ∀ entry ∈ scope.includeRules, ∀ query matches', query.matcher U = .ok matches' →
    scope.admits U query = .ok true → matches' entry = .ok true →
      (∀ rule ∈ grant.scope.includeRules, ∃ b, matches' rule = .ok b) ∧
        ∀ test ∈ entryQueries entry, ∀ tests, test.matcher U = .ok tests →
          ∀ rule ∈ grant.scope.includeRules, tests rule = .ok true → matches' rule = .ok true

variable {U grant scope}

section PlainRules

/-- A rule in normal form that is read as a domain or a wildcard, whatever is asked of it. -/
def IsName (U : Unicode) (rule : Str) : Prop :=
  isHttp rule = false ∧ ipNetwork rule = none ∧ normalizeDomain U rule = .ok rule ∧
    (∀ text, normalizeUrl U rule ≠ .ok text) ∧ ∀ text, normalizeIpOrNetwork rule ≠ .ok text

/-- A rule in normal form that is read as one address, whatever is asked of it. -/
def IsAddress (U : Unicode) (rule : Str) (a : IpAddress) : Prop :=
  ipAddress rule = some a ∧ normalizeDomain U rule = .ok rule ∧
    (∀ text, normalizeUrl U rule ≠ .ok text) ∧ normalizeIpOrNetwork rule = .ok a.str

/-- No include rule of the grant is a URL, and every include rule of the scope is a name, or an
address under a grant of networks. -/
structure PlainRules (U : Unicode) (grant : EngagementGrant) (scope : ScopeSnapshot) : Prop where
  grant_noUrl : ∀ rule ∈ grant.scope.includeRules, isHttp rule = false
  entry : ∀ entry ∈ scope.includeRules, IsName U entry ∨
    ∃ a, IsAddress U entry a ∧ ∀ rule ∈ grant.scope.includeRules, ipNetwork rule ≠ none

/-- A rule that is no URL is matched against one text, the same for every such rule. -/
theorem exists_value_of_matcher {query : HostQuery} {matches' : Str → Except PyError Bool}
    (h : query.matcher U = .ok matches') :
    ∃ value, ∀ rule, isHttp rule = false → matches' rule = targetMatches U rule value := by
  cases query with
  | ip value =>
    simp only [HostQuery.matcher, bind] at h
    cases hnorm : normalizeIpOrNetwork value with
    | error e => simp [hnorm, Except.bind] at h
    | ok normalized =>
      simp only [hnorm, Except.bind] at h
      split at h
      · cases h
      · cases h
        exact ⟨normalized, fun _ _ => rfl⟩
  | domain value =>
    simp only [HostQuery.matcher, bind] at h
    cases hnorm : normalizeDomain U value with
    | error e => simp [hnorm, Except.bind] at h
    | ok normalized =>
      simp only [hnorm, Except.bind] at h
      cases h
      exact ⟨normalized, fun _ _ => rfl⟩
  | url value =>
    simp only [HostQuery.matcher, bind] at h
    cases hnorm : normalizeUrl U value with
    | error e => simp [hnorm, Except.bind] at h
    | ok normalized =>
      simp only [hnorm, Except.bind] at h
      cases hparsed : orValueError (urlsplit U normalized) with
      | error e => simp [hparsed] at h
      | ok parsed =>
        simp only [hparsed] at h
        cases h
        refine ⟨(parsed.hostname U).getD [], fun rule hrule => ?_⟩
        simp [ScopeSnapshot.urlMatches, hrule]

/-- A wildcard that matches the text of a rule matches what the rule matches. -/
theorem domainMatches_trans {rule entry domain : Str} (h : domainMatches rule entry = true)
    (h' : domainMatches entry domain = true) : domainMatches rule domain = true := by
  unfold domainMatches at h h' ⊢
  by_cases hentry : startsWith entry ['*', '.'] = true
  · obtain ⟨suffix, rfl⟩ : ∃ suffix, entry = '*' :: '.' :: suffix := by
      rw [startsWith, List.isPrefixOf_iff_prefix] at hentry
      obtain ⟨suffix, rfl⟩ := hentry
      exact ⟨suffix, rfl⟩
    simp only [hentry, if_true, List.drop_succ_cons, List.drop_zero, Bool.and_eq_true, bne_iff_ne,
      ne_eq, endsWith, List.isSuffixOf_iff_suffix] at h'
    obtain ⟨⟨lead, rfl⟩, -⟩ := h'
    by_cases hrule : startsWith rule ['*', '.'] = true
    · simp only [hrule, if_true, Bool.and_eq_true, bne_iff_ne, ne_eq, endsWith,
        List.isSuffixOf_iff_suffix] at h ⊢
      obtain ⟨⟨pre, hpre⟩, -⟩ := h
      -- The star stands before the dot at which the two suffixes meet.
      obtain ⟨more, hmore⟩ : ∃ more, '.' :: suffix = more ++ '.' :: rule.drop 2 := by
        cases pre with
        | nil => simp at hpre
        | cons c pre => exact ⟨pre, (List.cons.inj hpre).2.symm⟩
      rw [hmore, ← List.append_assoc]
      refine ⟨List.suffix_append _ _, ?_⟩
      intro heq
      have hlen := congrArg List.length heq
      simp only [List.length_append, List.length_cons] at hlen
      omega
    · rw [if_neg hrule, beq_iff_eq] at h
      rw [h] at hentry
      exact absurd hentry hrule
  · rw [if_neg hentry, beq_iff_eq] at h'
    rw [h']
    exact h

theorem contains_of_bits {network : IpNetwork} {a b : IpAddress} (h : a.bits = b.bits) :
    network.contains a = network.contains b := by
  cases network <;> cases a <;> cases b <;> simp_all [IpNetwork.contains, IpAddress.bits]

theorem targetMatches_name {rule value domain : Str} (hhttp : isHttp rule = false)
    (hrule : ipNetwork rule = none) (hvalue : normalizeDomain U value = .ok domain) :
    targetMatches U rule value = .ok (domainMatches rule domain) := by
  simp [targetMatches, hhttp, hrule, hvalue, bind, Except.bind, pure, Except.pure]

/-- What is no URL is not asked as one. -/
theorem matcher_url_ne_ok {entry : Str} {tests : Str → Except PyError Bool}
    (hurl : ∀ text, normalizeUrl U entry ≠ .ok text) : (HostQuery.url entry).matcher U ≠ .ok tests := by
  cases h : normalizeUrl U entry with
  | error e => simp [HostQuery.matcher, h, bind, Except.bind]
  | ok text => exact absurd h (hurl text)

theorem uniform_of_isName {entry value : Str} (hentry : IsName U entry)
    (hmatch : targetMatches U entry value = .ok true) {rule : Str} (hrule : isHttp rule = false) :
    (∃ b, targetMatches U rule value = .ok b) ∧
      ∀ test ∈ entryQueries entry, ∀ tests, test.matcher U = .ok tests →
        tests rule = .ok true → targetMatches U rule value = .ok true := by
  obtain ⟨hhttp, hnet, hnorm, hurl, hip⟩ := hentry
  obtain ⟨domain, hdomain, hmatches⟩ :
      ∃ domain, normalizeDomain U value = .ok domain ∧ domainMatches entry domain = true := by
    cases hd : normalizeDomain U value with
    | error e => simp [targetMatches, hhttp, hnet, hd, bind, Except.bind] at hmatch
    | ok domain =>
      rw [targetMatches_name hhttp hnet hd] at hmatch
      exact ⟨domain, rfl, Except.ok.inj hmatch⟩
  constructor
  · cases hr : ipNetwork rule with
    | none => exact ⟨_, targetMatches_name hrule hr hdomain⟩
    | some network =>
      cases hv : ipAddress value with
      | none => exact ⟨false, by simp [targetMatches, hrule, hr, hv, pure, Except.pure]⟩
      | some a => exact ⟨_, targetMatches_network hrule hr hv⟩
  · intro test htest tests htests htrue
    simp only [entryQueries, List.mem_cons, List.not_mem_nil, or_false] at htest
    rcases htest with rfl | rfl | rfl
    · exact absurd htests (matcher_url_ne_ok hurl)
    · cases h : normalizeIpOrNetwork entry with
      | error e => simp [HostQuery.matcher, h, bind, Except.bind] at htests
      | ok text => exact absurd h (hip text)
    · simp only [HostQuery.matcher, hnorm, bind, Except.bind, pure, Except.pure] at htests
      cases htests
      change targetMatches U rule entry = .ok true at htrue
      cases hr : ipNetwork rule with
      | none =>
        rw [targetMatches_name hrule hr hnorm] at htrue
        rw [targetMatches_name hrule hr hdomain,
          domainMatches_trans (Except.ok.inj htrue) hmatches]
      | some network =>
        -- A name is no address, so no network matches it.
        have hno : ipAddress entry = none := by
          by_contra hne
          obtain ⟨a, ha⟩ := Option.ne_none_iff_exists'.mp hne
          rw [ipNetwork_of_ipAddress ha] at hnet
          cases hnet
        simp [targetMatches, hrule, hr, hno, pure, Except.pure] at htrue

theorem uniform_of_isAddress {entry value rule : Str} {a : IpAddress} {network : IpNetwork}
    (hentry : IsAddress U entry a) (hmatch : targetMatches U entry value = .ok true)
    (hrule : isHttp rule = false) (hnet : ipNetwork rule = some network) :
    (∃ b, targetMatches U rule value = .ok b) ∧
      ∀ test ∈ entryQueries entry, ∀ tests, test.matcher U = .ok tests →
        tests rule = .ok true → targetMatches U rule value = .ok true := by
  obtain ⟨haddr, hnorm, hurl, hip⟩ := hentry
  have hhttp := isHttp_of_slash (slash_not_mem_of_ipAddress haddr)
  obtain ⟨b, hb, hbits⟩ : ∃ b, ipAddress value = some b ∧ b.bits = a.bits := by
    cases hv : ipAddress value with
    | none =>
      simp [targetMatches, hhttp, ipNetwork_of_ipAddress haddr, hv, pure, Except.pure] at hmatch
    | some b =>
      rw [targetMatches_network hhttp (ipNetwork_of_ipAddress haddr) hv] at hmatch
      exact ⟨b, rfl, (contains_network a b).mp (Except.ok.inj hmatch)⟩
  have hvalue := targetMatches_network hrule hnet hb (U := U)
  refine ⟨⟨_, hvalue⟩, ?_⟩
  intro test htest tests htests htrue
  rw [hvalue, contains_of_bits hbits]
  -- An entry is asked as a URL, as an address and as a domain.
  simp only [entryQueries, List.mem_cons, List.not_mem_nil, or_false] at htest
  rcases htest with rfl | rfl | rfl
  · exact absurd htests (matcher_url_ne_ok hurl)
  · have hslash := slash_not_mem_of_ipAddress (ipAddress_str a)
    simp only [HostQuery.matcher, hip, bind, Except.bind, hslash, if_false, pure,
      Except.pure] at htests
    cases htests
    change targetMatches U rule a.str = .ok true at htrue
    rwa [targetMatches_network hrule hnet (ipAddress_str a)] at htrue
  · simp only [HostQuery.matcher, hnorm, bind, Except.bind, pure, Except.pure] at htests
    cases htests
    change targetMatches U rule entry = .ok true at htrue
    rwa [targetMatches_network hrule hnet haddr] at htrue

/-- Names, and addresses under networks, are treated as the targets they admit. -/
theorem uniformIncludes_of_plainRules (h : PlainRules U grant scope) :
    UniformIncludes U grant scope := by
  intro entry hentry query matches' hmatcher _ hmatch
  obtain ⟨value, hvalue⟩ := exists_value_of_matcher hmatcher
  have hboth : ∀ rule ∈ grant.scope.includeRules,
      (∃ b, targetMatches U rule value = .ok b) ∧
        ∀ test ∈ entryQueries entry, ∀ tests, test.matcher U = .ok tests →
          tests rule = .ok true → targetMatches U rule value = .ok true := by
    intro rule hrule
    have hhttp := h.grant_noUrl rule hrule
    -- The entry matched the value that the rules of the grant are matched against.
    rcases h.entry entry hentry with hname | ⟨a, haddress, hnets⟩
    · rw [hvalue entry hname.1] at hmatch
      exact uniform_of_isName hname hmatch hhttp
    · rw [hvalue entry (isHttp_of_slash (slash_not_mem_of_ipAddress haddress.1))] at hmatch
      obtain ⟨network, hnet⟩ := Option.ne_none_iff_exists'.mp (hnets rule hrule)
      exact uniform_of_isAddress haddress hmatch hhttp hnet
  constructor
  · intro rule hrule
    rw [hvalue rule (h.grant_noUrl rule hrule)]
    exact (hboth rule hrule).1
  · intro test htest tests htests rule hrule htrue
    rw [hvalue rule (h.grant_noUrl rule hrule)]
    exact (hboth rule hrule).2 test htest tests htests htrue

end PlainRules

/-- A grant of a scope, for one day. -/
def dayGrant (scope : ScopeSnapshot) : EngagementGrant :=
  ⟨"grant", "project", "engagement".toList, scope, {.passive, .low}, 0, 86400000000, "human", 0,
    .active, "digest"⟩

end SecOpent
