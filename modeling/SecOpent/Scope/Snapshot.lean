import Mathlib.Data.List.Dedup
import Mathlib.Data.List.Lex
import SecOpent.Python.Traversal
import SecOpent.Scope.Normalize

/-!
# The scope snapshot and its matchers

`domain/scope/models.py`: a frozen authorization boundary and the questions asked of it. Rules
are texts of four shapes (URL, address or network, wildcard, domain), told apart where they are
matched; an exclude rule wins over every include rule.

## Main definitions

* `ScopeSnapshot`, `ScopeDraft`, `ScopeDraft.freeze`
* `targetMatches`, `hostMatches`, `domainMatches`: one rule against one value
* `ScopeSnapshot.includesIp`, `includesDomain`, `includesUrl`, `includesPort`,
  `includesCloudAccount`, `includesHost`, `excludesHost`

## Main results

* `anyMatches_eq_true_iff`: a rule list matches when some rule does and no earlier one raises
* `includesBy_eq_true_iff`: deny priority, as a property of the two rule lists
-/

namespace SecOpent

open Python

/-- An instant, in microseconds. -/
abbrev Time := ℤ

/-- `ScopeLimits`: its constructor refuses limits that are not positive. -/
structure ScopeLimits where
  requestsPerSecond : ℚ
  concurrency : ℤ
  maxRequests : ℤ
  positive : 0 < requestsPerSecond ∧ 1 ≤ concurrency ∧ 1 ≤ maxRequests
  deriving DecidableEq

/-- The limits of a draft that names none. -/
def ScopeLimits.default : ScopeLimits := ⟨5, 3, 50000, by norm_num⟩

/-- `ScopeSnapshot`: `includeRules` and `excludeRules` are its fields `include` and `exclude`. -/
structure ScopeSnapshot where
  id : String
  projectId : String
  includeRules : List Str
  excludeRules : List Str
  ports : List ℤ
  limits : ScopeLimits
  approvedBy : String
  approvedAt : Time
  digest : String
  cloudAccounts : List Str := []
  deriving DecidableEq

variable (U : Unicode)

/-! ## One rule against one value -/

/-- `_domain_matches`: a wildcard rule matches the proper subdomains of its suffix. -/
def domainMatches (rule domain : Str) : Bool :=
  if startsWith rule ['*', '.'] then
    endsWith domain ('.' :: rule.drop 2) && domain != rule.drop 2
  else domain == rule

/-- `_host_matches`. -/
def hostMatches (ruleHost valueHost : Str) : Bool :=
  domainMatches ruleHost valueHost ||
    match ipNetwork ruleHost, ipAddress valueHost with
    | some network, some address => network.contains address
    | _, _ => false

/-- `_target_matches`: a URL rule is compared by host, a network rule by containment, any other
rule as a domain. -/
def targetMatches (rule value : Str) : Except PyError Bool :=
  if isHttp rule then do
    let parsed ← orValueError (urlsplit U rule)
    match parsed.hostname U with
    | none => pure false
    | some ruleHost =>
      let valueHost ←
        if isHttp value then do
          let parsedValue ← orValueError (urlsplit U value)
          pure (parsedValue.hostname U)
        else pure (if value.isEmpty then none else some value)
      match valueHost with
      | none => pure false
      | some host => pure (hostMatches ruleHost host)
  else
    match ipNetwork rule with
    | none => do
      let domain ← normalizeDomain U value
      pure (domainMatches rule domain)
    | some network =>
      match ipAddress value with
      | some address => pure (network.contains address)
      | none => pure false

/-- `any(matches(rule) for rule in rules)`. -/
def anyMatches (matches' : Str → Except PyError Bool) : List Str → Except PyError Bool
  | [] => .ok false
  | rule :: rules =>
    match matches' rule with
    | .error e => .error e
    | .ok true => .ok true
    | .ok false => anyMatches matches' rules

/-- `not any(.. for rule in exclude) and any(.. for rule in include)`. -/
def includesBy (matches' : Str → Except PyError Bool) (scope : ScopeSnapshot) :
    Except PyError Bool :=
  match anyMatches matches' scope.excludeRules with
  | .error e => .error e
  | .ok true => .ok false
  | .ok false => anyMatches matches' scope.includeRules

/-! ## The questions -/

namespace ScopeSnapshot

variable (scope : ScopeSnapshot)

/-- `matches_any`. -/
def matchesAny (host : Str) (rules : List Str) : Except PyError Bool :=
  anyMatches (fun rule => targetMatches U rule host) rules

/-- `includes_ip`. -/
def includesIp (value : Str) : Except PyError Bool := do
  let normalized ← normalizeIpOrNetwork value
  if '/' ∈ normalized then .error (.domainValidation "target must be a single IP")
  else includesBy (fun rule => targetMatches U rule normalized) scope

/-- `includes_domain`. -/
def includesDomain (value : Str) : Except PyError Bool := do
  let normalized ← normalizeDomain U value
  includesBy (fun rule => targetMatches U rule normalized) scope

/-- `matches`, inside `includes_url`: a URL rule is a prefix of the URL, any other rule is
compared with the host. -/
def urlMatches (normalized host rule : Str) : Except PyError Bool :=
  if isHttp rule then pure (startsWith normalized rule) else targetMatches U rule host

/-- `includes_url`. -/
def includesUrl (value : Str) : Except PyError Bool := do
  let normalized ← normalizeUrl U value
  let parsed ← orValueError (urlsplit U normalized)
  let host := (parsed.hostname U).getD []
  includesBy (urlMatches U normalized host) scope

/-- `includes_host`. -/
def includesHost (host : Str) : Except PyError Bool :=
  includesBy (fun rule => targetMatches U rule host) scope

/-- `excludes_host`. -/
def excludesHost (host : Str) : Except PyError Bool := matchesAny U host scope.excludeRules

/-- `includes_port`. -/
def includesPort (value : ℤ) : Except PyError Bool := do
  let port ← normalizePort value
  pure (decide (port ∈ scope.ports))

/-- `_cloud_account_excluded`: rules that are not accounts are skipped. -/
def cloudAccountExcluded (normalized : Str) : Bool :=
  scope.excludeRules.any fun rule =>
    match normalizeCloudAccount U rule with
    | .ok account => account == normalized
    | .error _ => false

/-- `includes_cloud_account`. -/
def includesCloudAccount (value : Str) : Except PyError Bool := do
  let normalized ← normalizeCloudAccount U value
  if scope.cloudAccountExcluded U normalized then pure false
  else pure (decide (normalized ∈ scope.cloudAccounts))

end ScopeSnapshot

/-! ## Deny priority -/

theorem anyMatches_eq_true_iff {matches' : Str → Except PyError Bool} {rules : List Str} :
    anyMatches matches' rules = .ok true ↔
      ∃ pre rule post, rules = pre ++ rule :: post ∧ matches' rule = .ok true ∧
        ∀ r ∈ pre, matches' r = .ok false := by
  induction rules with
  | nil => simp [anyMatches]
  | cons r rules ih =>
    rw [anyMatches]
    constructor
    · intro h
      split at h
      · cases h
      · next hr => exact ⟨[], r, rules, rfl, hr, by simp⟩
      · next hr =>
        obtain ⟨pre, rule, post, rfl, hrule, hpre⟩ := ih.mp h
        refine ⟨r :: pre, rule, post, rfl, hrule, ?_⟩
        intro r' hr'
        rcases List.mem_cons.mp hr' with rfl | hr'
        · exact hr
        · exact hpre r' hr'
    · rintro ⟨pre, rule, post, heq, hrule, hpre⟩
      cases pre with
      | nil =>
        obtain ⟨rfl, rfl⟩ := List.cons.inj heq
        rw [hrule]
      | cons p pre =>
        obtain ⟨rfl, rfl⟩ := List.cons.inj heq
        rw [hpre r (by simp)]
        exact ih.mpr ⟨pre, rule, post, rfl, hrule, fun r' hr' => hpre r' (by simp [hr'])⟩

theorem anyMatches_eq_false_iff {matches' : Str → Except PyError Bool} {rules : List Str} :
    anyMatches matches' rules = .ok false ↔ ∀ r ∈ rules, matches' r = .ok false := by
  induction rules with
  | nil => simp [anyMatches]
  | cons r rules ih =>
    rw [anyMatches, List.forall_mem_cons, ← ih]
    split <;> simp_all

/-- Deny priority: a value is admitted when no exclude rule matches it and some include rule
does. -/
theorem includesBy_eq_true_iff {matches' : Str → Except PyError Bool} {scope : ScopeSnapshot} :
    includesBy matches' scope = .ok true ↔
      (∀ r ∈ scope.excludeRules, matches' r = .ok false) ∧
        anyMatches matches' scope.includeRules = .ok true := by
  rw [← anyMatches_eq_false_iff, includesBy]
  split <;> simp_all

theorem exists_of_anyMatches {matches' : Str → Except PyError Bool} {rules : List Str}
    (h : anyMatches matches' rules = .ok true) : ∃ r ∈ rules, matches' r = .ok true := by
  obtain ⟨pre, rule, post, rfl, hrule, -⟩ := anyMatches_eq_true_iff.mp h
  exact ⟨rule, by simp, hrule⟩

/-! ## Drafts -/

/-- `ScopeDraft`: its constructor refuses a blank project, an empty include list and a port out
of range. -/
structure ScopeDraft where
  projectId : Str
  includeRules : List Str
  excludeRules : List Str := []
  ports : List ℤ := [80, 443]
  limits : ScopeLimits := .default
  cloudAccounts : List Str := []
  project_nonblank : strip projectId ≠ []
  include_nonempty : includeRules ≠ []
  ports_valid : ∀ p ∈ ports, 1 ≤ p ∧ p ≤ 65535

namespace ScopeDraft

theorem port_443_valid : ∀ p ∈ [(443 : ℤ)], 1 ≤ p ∧ p ≤ 65535 := by decide

/-- `_normalize_target`. -/
def normalizeTarget (value : Str) : Except PyError Str :=
  if isHttp (lower U (strip value)) then normalizeUrl U value
  else
    match normalizeIpOrNetwork value with
    | .ok text => .ok text
    | .error _ => normalizeDomain U value

/-- `tuple(sorted({f(item) for item in items}))`, for an order on the results. -/
def sortedSet {α : Type} [DecidableEq α] (le : α → α → Bool) (items : List α) : List α :=
  items.dedup.mergeSort le

/-- The order of Python `str`: by code points. -/
def strLe (a b : Str) : Bool := a.map Char.toNat ≤ b.map Char.toNat

/-- `freeze`: every rule normalised, each list sorted and without duplicates. The clock reading
and the digest of the canonical payload are given. -/
def freeze (draft : ScopeDraft) (snapshotId approvedBy : String) (now : Time)
    (digest : String) : Except PyError ScopeSnapshot := do
  let includeRules ← draft.includeRules.mapM (normalizeTarget U)
  let excludeRules ← draft.excludeRules.mapM (normalizeTarget U)
  let ports ← draft.ports.mapM normalizePort
  let accounts ← draft.cloudAccounts.mapM (normalizeCloudAccount U)
  pure
    { id := snapshotId
      projectId := String.ofList draft.projectId
      includeRules := sortedSet strLe includeRules
      excludeRules := sortedSet strLe excludeRules
      ports := sortedSet (fun a b => decide (a ≤ b)) ports
      limits := draft.limits
      approvedBy := approvedBy
      approvedAt := now
      digest := digest
      cloudAccounts := sortedSet strLe accounts }

theorem mem_sortedSet {α : Type} [DecidableEq α] {le : α → α → Bool} {items : List α} {a : α} :
    a ∈ sortedSet le items ↔ a ∈ items := by
  rw [sortedSet, List.mem_mergeSort, List.mem_dedup]

theorem sortedSet_eq_self {α : Type} [DecidableEq α] {le : α → α → Bool} {items : List α}
    (hnodup : items.Nodup) (hsorted : items.Pairwise fun a b => le a b = true) :
    sortedSet le items = items := by
  rw [sortedSet, hnodup.dedup, List.mergeSort_of_pairwise hsorted]

variable {U}

/-- The rules of a frozen scope are those of its draft, normalised, sorted and without duplicates. -/
theorem rules_of_freeze {draft : ScopeDraft} {snapshotId approvedBy : String} {now : Time}
    {digest : String} {scope : ScopeSnapshot}
    (h : draft.freeze U snapshotId approvedBy now digest = .ok scope) :
    ∃ included excluded, draft.includeRules.mapM (normalizeTarget U) = .ok included ∧
      draft.excludeRules.mapM (normalizeTarget U) = .ok excluded ∧
      scope.includeRules = sortedSet strLe included ∧
      scope.excludeRules = sortedSet strLe excluded := by
  unfold freeze at h
  cases hinclude : draft.includeRules.mapM (normalizeTarget U) with
  | error e => simp [hinclude, bind, Except.bind] at h
  | ok includeRules =>
    cases hexclude : draft.excludeRules.mapM (normalizeTarget U) with
    | error e => simp [hinclude, hexclude, bind, Except.bind] at h
    | ok excludeRules =>
      cases hports : draft.ports.mapM normalizePort with
      | error e => simp [hinclude, hexclude, hports, bind, Except.bind] at h
      | ok ports =>
        cases haccounts : draft.cloudAccounts.mapM (normalizeCloudAccount U) with
        | error e => simp [hinclude, hexclude, hports, haccounts, bind, Except.bind] at h
        | ok accounts =>
          simp only [hinclude, hexclude, hports, haccounts, bind, Except.bind, pure, Except.pure,
            Except.ok.injEq] at h
          subst h
          exact ⟨includeRules, excludeRules, rfl, rfl, rfl, rfl⟩

/-- The include rules of a frozen scope are the include entries of its draft, normalised. -/
theorem mem_includeRules_of_freeze {draft : ScopeDraft} {snapshotId approvedBy : String} {now : Time}
    {digest : String} {scope : ScopeSnapshot}
    (h : draft.freeze U snapshotId approvedBy now digest = .ok scope) {rule : Str} :
    rule ∈ scope.includeRules ↔ ∃ entry ∈ draft.includeRules, normalizeTarget U entry = .ok rule := by
  obtain ⟨included, excluded, hrules, -, heq, -⟩ := rules_of_freeze h
  rw [heq, mem_sortedSet, mem_of_mapM_eq_ok hrules]

/-- The exclude rules of a frozen scope are the exclude entries of its draft, normalised. -/
theorem mem_excludeRules_of_freeze {draft : ScopeDraft} {snapshotId approvedBy : String} {now : Time}
    {digest : String} {scope : ScopeSnapshot}
    (h : draft.freeze U snapshotId approvedBy now digest = .ok scope) {rule : Str} :
    rule ∈ scope.excludeRules ↔ ∃ entry ∈ draft.excludeRules, normalizeTarget U entry = .ok rule := by
  obtain ⟨included, excluded, -, hrules, -, heq⟩ := rules_of_freeze h
  rw [heq, mem_sortedSet, mem_of_mapM_eq_ok hrules]

/-- Every exclude entry of a draft that freezes has a rule. -/
theorem exists_rule_of_freeze {draft : ScopeDraft} {snapshotId approvedBy : String} {now : Time}
    {digest : String} {scope : ScopeSnapshot}
    (h : draft.freeze U snapshotId approvedBy now digest = .ok scope) {entry : Str}
    (hentry : entry ∈ draft.excludeRules) : ∃ rule, normalizeTarget U entry = .ok rule := by
  obtain ⟨included, excluded, -, hrules, -, -⟩ := rules_of_freeze h
  exact exists_of_mapM_eq_ok hrules _ hentry

end ScopeDraft

end SecOpent
