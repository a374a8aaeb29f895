import SecOpent.Python.Strip
import SecOpent.Python.Table
import SecOpent.Scope.Freezing

/-!
# Excluded cloud accounts

A cloud account is `provider:account_id`, and its id keeps its case. An exclude entry of a draft is
frozen as a network target, whatever it is, and a domain has no case. So the frozen entry of an account
is read back as the account when its id has no capitals, and no dot at its end.

## Main definitions

* `DeniesAccount`: an account is denied in every spelling
* `KeepsAccount`: the frozen rule of an entry is read as the account
* `PlainEntry`: an entry in ASCII that is neither a URL nor an address
* `accountId`: the id in an entry

## Main results

* `deniesAccount_iff`: what a frozen scope denies
* `keepsAccount_iff_of_plain`: the entries that keep their account
* `excluded_account_denied_iff`: when the exclusion of an account survives the freeze
-/

namespace SecOpent

open Python

variable {U : Unicode}

/-- Every spelling of the account is denied. -/
def DeniesAccount (U : Unicode) (scope : ScopeSnapshot) (account : Str) : Prop :=
  ∀ x, normalizeCloudAccount U x = .ok account → scope.includesCloudAccount U x = .ok false

/-- The frozen rule of an exclude entry is read as the account. -/
def KeepsAccount (U : Unicode) (entry account : Str) : Prop :=
  ∃ rule, ScopeDraft.normalizeTarget U entry = .ok rule ∧ normalizeCloudAccount U rule = .ok account

/-- An entry that freezes as a domain, in ASCII. -/
structure PlainEntry (U : Unicode) (entry : Str) : Prop where
  ascii : isAscii entry = true
  not_url : isUrlEntry U entry = false
  not_address : ∀ text, normalizeIpOrNetwork entry ≠ .ok text

/-- `account` of `normalize_cloud_account`. -/
def accountId (entry : Str) : Str := strip (partition ':' (strip entry)).2

/-! ## What a frozen scope denies -/

theorem cloudAccountExcluded_iff {scope : ScopeSnapshot} {account : Str} :
    scope.cloudAccountExcluded U account = true ↔
      ∃ rule ∈ scope.excludeRules, normalizeCloudAccount U rule = .ok account := by
  rw [ScopeSnapshot.cloudAccountExcluded, List.any_eq_true]
  constructor
  · rintro ⟨rule, hrule, hmatch⟩
    cases hnormal : normalizeCloudAccount U rule with
    | error e => simp [hnormal] at hmatch
    | ok normal =>
      rw [hnormal] at hmatch
      exact ⟨rule, hrule, hnormal.trans (congrArg _ (eq_of_beq hmatch))⟩
  · rintro ⟨rule, hrule, hnormal⟩
    exact ⟨rule, hrule, by simp [hnormal]⟩

/-- The accounts of a frozen scope are those of its draft, normalised. -/
theorem mem_cloudAccounts_of_freeze {draft : ScopeDraft} {snapshotId approvedBy : String} {now : Time}
    {digest : String} {scope : ScopeSnapshot}
    (h : draft.freeze U snapshotId approvedBy now digest = .ok scope) {account : Str} :
    account ∈ scope.cloudAccounts ↔
      ∃ listed ∈ draft.cloudAccounts, normalizeCloudAccount U listed = .ok account := by
  rw [ScopeDraft.freeze] at h
  obtain ⟨includes, -, h⟩ := bind_eq_ok_iff.mp h
  obtain ⟨excludes, -, h⟩ := bind_eq_ok_iff.mp h
  obtain ⟨numbers, -, h⟩ := bind_eq_ok_iff.mp h
  obtain ⟨accounts, haccounts, h⟩ := bind_eq_ok_iff.mp h
  obtain rfl := Except.ok.inj h
  rw [ScopeDraft.mem_sortedSet, mem_of_mapM_eq_ok haccounts]

/-- **What a frozen scope denies**: an account that it does not list, and one as which an exclude rule
is read. -/
theorem deniesAccount_iff {draft : ScopeDraft} {snapshotId approvedBy : String} {now : Time}
    {digest : String} {scope : ScopeSnapshot} {entry account : Str}
    (hfreeze : draft.freeze U snapshotId approvedBy now digest = .ok scope)
    (hentry : normalizeCloudAccount U entry = .ok account) :
    DeniesAccount U scope account ↔
      (∀ listed ∈ draft.cloudAccounts, normalizeCloudAccount U listed ≠ .ok account) ∨
        ∃ rule ∈ draft.excludeRules, KeepsAccount U rule account := by
  have hanswer : ∀ x, normalizeCloudAccount U x = .ok account →
      (scope.includesCloudAccount U x = .ok false ↔
        account ∉ scope.cloudAccounts ∨ scope.cloudAccountExcluded U account = true) := by
    intro x hx
    rw [ScopeSnapshot.includesCloudAccount, hx]
    show (if _ then _ else _) = _ ↔ _
    split
    next hexcluded => simp [hexcluded, pure, Except.pure]
    next hexcluded => simp [hexcluded, pure, Except.pure]
  have hlisted : account ∉ scope.cloudAccounts ↔
      ∀ listed ∈ draft.cloudAccounts, normalizeCloudAccount U listed ≠ .ok account := by
    rw [mem_cloudAccounts_of_freeze hfreeze]
    simp
  have hexcluded : scope.cloudAccountExcluded U account = true ↔
      ∃ rule ∈ draft.excludeRules, KeepsAccount U rule account := by
    rw [cloudAccountExcluded_iff]
    constructor
    · rintro ⟨rule, hrule, hnormal⟩
      obtain ⟨excluded, hmem, htarget⟩ := (ScopeDraft.mem_excludeRules_of_freeze hfreeze).mp hrule
      exact ⟨excluded, hmem, rule, htarget, hnormal⟩
    · rintro ⟨excluded, hmem, rule, htarget, hnormal⟩
      exact ⟨rule, (ScopeDraft.mem_excludeRules_of_freeze hfreeze).mpr ⟨excluded, hmem, htarget⟩,
        hnormal⟩
  rw [← hlisted, ← hexcluded]
  constructor
  · exact fun h => (hanswer entry hentry).mp (h entry hentry)
  · exact fun h x hx => (hanswer x hx).mpr h

/-! ## Entries that keep their account -/

/-- The account of a provider and an id, as `normalize_cloud_account` puts them together. -/
def accountOf (U : Unicode) (provider account : Str) : Except PyError Str :=
  if provider.isEmpty || account.isEmpty then
    .error (.domainValidation "cloud account provider and id must be non-empty")
  else if !isAlnum U (provider.filter fun c => c != '-' && c != '_') then
    .error (.domainValidation "invalid cloud provider")
  else .ok (provider ++ ':' :: account)

theorem normalizeCloudAccount_of_parts {value provider account : Str} (hprovider : ':' ∉ provider)
    (hvalue : strip value = provider ++ ':' :: account) :
    normalizeCloudAccount U value = accountOf U (lower U (strip provider)) (strip account) := by
  rw [normalizeCloudAccount]
  simp only [hvalue, partition_append ':' hprovider]
  rw [if_neg (by simp)]
  rfl

/-- With one provider, the account is determined by the id. -/
theorem accountOf_eq_iff {provider id id' account : Str} (h : accountOf U provider id = .ok account) :
    accountOf U provider id' = .ok account ↔ id' = id := by
  rw [accountOf] at h ⊢
  split at h
  · cases h
  next hempty =>
  split at h
  · cases h
  next halnum =>
  obtain rfl := Except.ok.inj h
  constructor
  · intro h'
    rw [if_neg halnum] at h'
    split at h'
    · cases h'
    exact (List.cons.inj (List.append_cancel_left (Except.ok.inj h'))).2
  · rintro rfl
    rw [if_neg hempty, if_neg halnum]

/-- A capital is what lower case changes. -/
theorem map_toLower_eq_self_iff {s : Str} (hascii : isAscii s = true) :
    s.map Char.toLower = s ↔ ∀ c ∈ s, c.isUpper = false := by
  have hchar : ∀ c ∈ s, (c.toLower = c ↔ c.isUpper = false) := by
    have hall : ∀ n < 128, (Char.ofNat n).toLower = Char.ofNat n ↔ (Char.ofNat n).isUpper = false := by
      decide
    intro c hc
    simpa only [Char.ofNat_toNat] using hall c.toNat (isAscii_iff.mp hascii c hc)
  constructor
  · intro h c hc
    exact (hchar c hc).mp (List.map_eq_map_iff.mp (h.trans s.map_id.symm) c hc)
  · intro h
    exact (List.map_congr_left fun c hc => (hchar c hc).mpr (h c hc)).trans s.map_id

/-- Without the dots at its end, an id in lower case is the id if it has neither capitals nor such
dots. -/
theorem lower_id_eq_iff {q : Str} (hascii : isAscii q = true) (hq : rstrip isSpace q = q) :
    (strip (rstrip (· == '.') q)).map Char.toLower = strip q ↔
      (∀ c ∈ strip q, c.isUpper = false) ∧ endsWith (strip q) ['.'] = false := by
  have hstripped : isAscii (strip q) = true := isAscii_iff.mpr fun c hc =>
    isAscii_iff.mp hascii c (lstrip_subset _ _ (rstrip_subset _ _ hc))
  rcases List.eq_nil_or_concat q with rfl | ⟨start, last, rfl⟩
  · simp [strip, lstrip, rstrip, endsWith]
  rw [List.concat_eq_append] at hq hascii hstripped ⊢
  -- The last character is not blank.
  have hlast : isSpace last = false := by
    have hne : start ++ [last] ≠ [] := by simp
    simpa using List.rdropWhile_eq_self_iff.mp hq hne
  have hstrip : strip (start ++ [last]) = lstrip isSpace start ++ [last] := by
    rw [strip_around hlast]
    rfl
  by_cases hdot : last = '.'
  · subst hdot
    have hend : endsWith (strip (start ++ ['.'])) ['.'] = true := by
      rw [hstrip]
      exact List.isSuffixOf_iff_suffix.mpr (List.suffix_append _ _)
    rw [hend]
    refine iff_of_false (fun h => ?_) (by simp)
    -- What is left of the id is shorter.
    have hlength := congrArg List.length h
    obtain ⟨dots, hdots, -⟩ := exists_rstrip (· == '.') start
    have hle := length_lstrip_append_le isSpace (rstrip (· == '.') start) dots
    have hle' := length_rstrip_le isSpace (lstrip isSpace (rstrip (· == '.') start))
    rw [← hdots] at hle
    rw [rstrip_append_of_all (by simp), hstrip, List.length_map, List.length_append, strip,
      List.length_singleton] at hlength
    omega
  · rw [rstrip_of_last (by simpa using hdot), map_toLower_eq_self_iff hstripped]
    have hend : endsWith (strip (start ++ [last])) ['.'] = false := by
      rw [hstrip, endsWith]
      refine Bool.eq_false_iff.mpr fun h => hdot ?_
      obtain ⟨front, hfront⟩ := List.isSuffixOf_iff_suffix.mp h
      exact (List.cons.inj (List.append_inj' hfront rfl).2).1.symm
    rw [hend]
    simp

/-- **The plain entries that keep their account**: those whose id has no capitals, and no dot at its
end. -/
theorem keepsAccount_iff_of_plain {entry rule account : Str} (hplain : PlainEntry U entry)
    (hentry : normalizeCloudAccount U entry = .ok account)
    (hrule : ScopeDraft.normalizeTarget U entry = .ok rule) :
    KeepsAccount U entry account ↔
      (∀ c ∈ accountId entry, c.isUpper = false) ∧ endsWith (accountId entry) ['.'] = false := by
  have hcolon : ':' ∈ strip entry := by
    by_contra hcolon
    simp [normalizeCloudAccount, hcolon] at hentry
  obtain ⟨p, q, hparts, hp⟩ := List.eq_append_cons_of_mem hcolon
  have hid : accountId entry = strip q := by rw [accountId, hparts, partition_append ':' hp]
  have hascii : ∀ c ∈ p ++ ':' :: q, c.toNat < 128 := by
    rw [← hparts]
    exact fun c hc => isAscii_iff.mp hplain.ascii c (lstrip_subset _ _ (rstrip_subset _ _ hc))
  have hq : rstrip isSpace q = q := by
    have hend := rstrip_strip entry
    rw [hparts, rstrip_append (by decide)] at hend
    exact (List.cons.inj (List.append_cancel_left hend)).2
  rw [normalizeCloudAccount_of_parts hp hparts] at hentry
  -- The rule, and the parts that are read from it.
  have hlowered : strip rule = (lstrip isSpace p).map Char.toLower ++
      ':' :: (rstrip isSpace (rstrip (· == '.') q)).map Char.toLower := by
    rw [normalizeTarget_of_domain hplain.not_url hplain.not_address] at hrule
    rw [normalizeDomain_of_ascii hplain.ascii hrule, strip_map_toLower, hparts,
      rstrip_append (by decide), strip_around (by decide), List.map_append, List.map_cons]
    rfl
  have hprovider : ':' ∉ (lstrip isSpace p).map Char.toLower := by
    intro hmem
    obtain ⟨c, hc, heq⟩ := List.mem_map.mp hmem
    have hc := lstrip_subset _ _ hc
    have hall : ∀ n < 128, (Char.ofNat n).toLower = ':' → Char.ofNat n = ':' := by decide
    have hchar := hall c.toNat (hascii c (List.mem_append_left _ hc))
    rw [Char.ofNat_toNat] at hchar
    exact hp (hchar heq ▸ hc)
  have hsame : lower U (strip ((lstrip isSpace p).map Char.toLower)) = lower U (strip p) := by
    have hstripped : ∀ c ∈ strip p, c.toNat < 128 := fun c hc =>
      hascii c (List.mem_append_left _ (lstrip_subset _ _ (rstrip_subset _ _ hc)))
    rw [strip_map_toLower, strip_lstrip, lower, lower, if_pos (isAscii_iff.mpr hstripped), if_pos,
      List.map_map]
    · exact List.map_congr_left fun c hc => (toLower_ascii (hstripped c hc)).2
    · refine isAscii_iff.mpr fun c hc => ?_
      obtain ⟨d, hd, rfl⟩ := List.mem_map.mp hc
      exact (toLower_ascii (hstripped d hd)).1
  have hread : normalizeCloudAccount U rule = accountOf U (lower U (strip p))
      ((strip (rstrip (· == '.') q)).map Char.toLower) := by
    rw [normalizeCloudAccount_of_parts hprovider hlowered, hsame, strip_map_toLower, strip_rstrip]
  have hkeeps : KeepsAccount U entry account ↔ normalizeCloudAccount U rule = .ok account := by
    constructor
    · rintro ⟨rule', hrule', haccount⟩
      obtain rfl := Except.ok.inj (hrule'.symm.trans hrule)
      exact haccount
    · exact fun haccount => ⟨rule, hrule, haccount⟩
  rw [hkeeps, hread, accountOf_eq_iff hentry, hid]
  exact lower_id_eq_iff (isAscii_iff.mpr fun c hc => hascii c (by simp [hc])) hq

/-- **When the exclusion of an account survives the freeze**: when the draft does not list the account,
or an exclude entry keeps it; the entry itself, if it is plain, when its id has no capitals and no dot
at its end. -/
theorem excluded_account_denied_iff {draft : ScopeDraft} {snapshotId approvedBy : String} {now : Time}
    {digest : String} {scope : ScopeSnapshot} {entry account : Str}
    (hfreeze : draft.freeze U snapshotId approvedBy now digest = .ok scope)
    (hmem : entry ∈ draft.excludeRules) (hentry : normalizeCloudAccount U entry = .ok account) :
    (DeniesAccount U scope account ↔
      (∀ listed ∈ draft.cloudAccounts, normalizeCloudAccount U listed ≠ .ok account) ∨
        ∃ rule ∈ draft.excludeRules, KeepsAccount U rule account) ∧
      (PlainEntry U entry →
        (KeepsAccount U entry account ↔
          (∀ c ∈ accountId entry, c.isUpper = false) ∧ endsWith (accountId entry) ['.'] = false)) := by
  refine ⟨deniesAccount_iff hfreeze hentry, fun hplain => ?_⟩
  obtain ⟨rule, hrule⟩ := ScopeDraft.exists_rule_of_freeze hfreeze hmem
  exact keepsAccount_iff_of_plain hplain hentry hrule

/-- A draft that lists an account and excludes it. -/
def accountDraft (account : Str) : ScopeDraft where
  projectId := "cloud".toList
  includeRules := ["shop.example".toList]
  excludeRules := [account]
  ports := [443]
  cloudAccounts := [account]
  project_nonblank := by decide
  include_nonempty := by decide
  ports_valid := ScopeDraft.port_443_valid

/-- The scope that the draft freezes to. -/
def accountScope (rule account : Str) : ScopeSnapshot where
  id := "scope"
  projectId := "cloud"
  includeRules := ["shop.example".toList]
  excludeRules := [rule]
  ports := [443]
  limits := .default
  approvedBy := "operator"
  approvedAt := 0
  digest := "digest"
  cloudAccounts := [account]

/-- An id of digits is denied. -/
theorem digit_account_denied :
    DeniesAccount .ascii (accountScope "aws:123456789012".toList "aws:123456789012".toList)
      "aws:123456789012".toList := by
  have hfreeze : (accountDraft "aws:123456789012".toList).freeze .ascii "scope" "operator" 0 "digest" =
      .ok (accountScope "aws:123456789012".toList "aws:123456789012".toList) := by decide +kernel
  have haccount : normalizeCloudAccount .ascii "aws:123456789012".toList =
      .ok "aws:123456789012".toList := by decide +kernel
  have hnot : normalizeIpOrNetwork "aws:123456789012".toList =
      .error (.domainValidation "invalid IP or CIDR") := by decide +kernel
  have hplain : PlainEntry .ascii "aws:123456789012".toList :=
    ⟨by decide, by decide +kernel, fun text h => by rw [hnot] at h; cases h⟩
  obtain ⟨hdenies, hkeeps⟩ :=
    excluded_account_denied_iff hfreeze (List.mem_singleton.mpr rfl) haccount
  have hdigits : (accountId "aws:123456789012".toList).all (fun c => !c.isUpper) = true := by
    decide +kernel
  have hlower : ∀ c ∈ accountId "aws:123456789012".toList, c.isUpper = false := by
    intro c hc
    simpa using List.all_eq_true.mp hdigits c hc
  exact hdenies.mpr (.inr ⟨_, List.mem_singleton.mpr rfl,
    (hkeeps hplain).mpr ⟨hlower, by decide +kernel⟩⟩)

/-- An id with a capital is excluded, and in scope. -/
theorem capital_account_admitted :
    (accountDraft "AWS:AbC".toList).freeze .ascii "scope" "operator" 0 "digest" =
        .ok (accountScope "aws:abc".toList "aws:AbC".toList) ∧
      normalizeCloudAccount .ascii "AWS:AbC".toList = .ok "aws:AbC".toList ∧
      (accountScope "aws:abc".toList "aws:AbC".toList).includesCloudAccount .ascii "AWS:AbC".toList =
        .ok true ∧
      ¬DeniesAccount .ascii (accountScope "aws:abc".toList "aws:AbC".toList) "aws:AbC".toList := by
  have haccount : normalizeCloudAccount .ascii "AWS:AbC".toList = .ok "aws:AbC".toList := by
    decide +kernel
  have hadmitted : (accountScope "aws:abc".toList "aws:AbC".toList).includesCloudAccount .ascii
      "AWS:AbC".toList = .ok true := by decide +kernel
  refine ⟨by decide +kernel, haccount, hadmitted, fun hdenies => ?_⟩
  have hdenied := hdenies _ haccount
  rw [hadmitted] at hdenied
  cases hdenied

end SecOpent
