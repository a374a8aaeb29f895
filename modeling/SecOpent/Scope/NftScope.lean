import SecOpent.Scope.BlockedAddresses

/-!
# The packet filter's allow set

`infrastructure/egress/nft_scope.py`: the include rules of a scope are turned into the elements of two
nftables sets, whole networks and resolved addresses, and pushed by one command per element. The
exclude rules of the scope are not read, so an address that an exclude rule takes out of an include
network is admitted.

## Main definitions

* `NftScopeEnforcer.applyScope`: the two sets, and the commands that push them
* `Admits`: an address covered by a pushed allow element and by no pushed block element
* `NftScopeEnforcer.Allows`, `Blocks`: the elements that the include rules stand for

## Main results

* `mem_applyEntries`: the loop collects exactly those elements
* `nft_respects_excludes_iff`: when no excluded address is admitted
-/

namespace Python

/-- `network.network_address`. -/
def IpNetwork.networkAddress : IpNetwork → IpAddress
  | .v4 net => .v4 net.address
  | .v6 net z => .v6 net.address z

/-- `network.broadcast_address`. -/
def IpNetwork.broadcastAddress : IpNetwork → IpAddress
  | .v4 net => .v4 (net.address ||| ~~~netmask 32 net.prefixlen)
  | .v6 net z => .v6 (net.address ||| ~~~netmask 128 net.prefixlen) z

/-- `network.overlaps(other)`. -/
def IpNetwork.overlaps (network other : IpNetwork) : Bool :=
  network.contains other.networkAddress || network.contains other.broadcastAddress ||
    other.contains network.networkAddress || other.contains network.broadcastAddress

end Python

namespace SecOpent

open Python

variable (U : Unicode)

/-- `_host_or_network`. -/
def hostOrNetwork (entry : Str) : Except PyError Str :=
  if isHttp entry then do
    let parsed ← orValueError (urlsplit U entry)
    pure ((parsed.hostname U).getD [])
  else if '/' ∉ entry ∧ entry.count ':' = 1 ∧ isDigit U (rpartition ':' entry).2 then
    pure (rpartition ':' entry).1
  else pure entry

/-- `NftScopeEnforcer`. The resolver may change its answers: `dns k` is what it answers after `k`
lookups. -/
structure NftScopeEnforcer where
  dns : ℕ → DnsResolver
  guard : EgressGuard
  blockedNets : List IpNetwork
  table : Str := "secopent_egress".toList
  netns : Option Str := none

/-- `ScopeEnforcementResult`. -/
structure ScopeEnforcementResult where
  allowed : List Str
  blocked : List Str
  rejected : List Str

/-- The lists that `apply_scope` fills, the decisions it audits, and the lookups it has made. -/
structure NftPass where
  allowed : List Str := []
  blocked : List Str := []
  rejected : List Str := []
  events : List (String × Str) := []
  lookups : ℕ := 0

/-- `if item not in items: items.append(item)`. -/
def appendNew (items : List Str) (item : Str) : List Str :=
  if item ∈ items then items else items ++ [item]

theorem mem_appendNew {items : List Str} {item other : Str} :
    other ∈ appendNew items item ↔ other ∈ items ∨ other = item := by
  unfold appendNew
  split_ifs with h
  · constructor
    · exact .inl
    · rintro (hmem | rfl)
      · exact hmem
      · exact h
  · simp

namespace NftScopeEnforcer

variable (enforcer : NftScopeEnforcer)

/-- The constructor without a guard: it builds one on the same networks. -/
def ofResolver (dns : ℕ → DnsResolver) : NftScopeEnforcer where
  dns := dns
  guard := .ofResolver (dns 0)
  blockedNets := defaultBlockedCidrs.filterMap ipNetwork

/-- `_resolve_with_rebinding_check`, after `k` lookups; `none` is a `DnsRebindingError`. -/
def resolveWithRebindingCheck (k : ℕ) (host : Str) : Option (List Str) :=
  if isIp host then some [host]
  else
    let first := enforcer.dns k host
    let second := enforcer.dns (k + 1) host
    if first = [] then none
    else if ¬(first ⊆ second ∧ second ⊆ first) then none
    else some (ScopeDraft.sortedSet ScopeDraft.strLe first)

/-- The lookups that a host takes. -/
def lookupsOf (host : Str) : ℕ := if isIp host then 0 else 2

/-- `_classify_network`. -/
def classifyNetwork (pass : NftPass) (entry cidr : Str) : NftPass :=
  match ipNetwork cidr with
  | none => { pass with rejected := pass.rejected ++ [entry] }
  | some network =>
    if enforcer.blockedNets.any network.overlaps then
      { pass with
        rejected := pass.rejected ++ [entry]
        events := pass.events ++ [("egress.denied_blocked", cidr)] }
    else if cidr ∈ pass.allowed then pass
    else
      { pass with
        allowed := pass.allowed ++ [cidr]
        events := pass.events ++ [("egress.allowed", cidr)] }

/-- One address of an entry. -/
def classifyIp (entry : Str) (pass : NftPass) (ip : Str) : NftPass :=
  if enforcer.guard.isBlockedDestination ip then
    { pass with
      blocked := appendNew pass.blocked ip
      rejected := pass.rejected ++ [entry]
      events := pass.events ++ [("egress.denied_blocked", ip)] }
  else if ip ∈ pass.allowed then pass
  else
    { pass with
      allowed := pass.allowed ++ [ip]
      events := pass.events ++ [("egress.allowed", ip)] }

/-- One entry of the loop of `apply_scope`. -/
def applyEntry (pass : NftPass) (entry : Str) : Except PyError NftPass := do
  let host ← hostOrNetwork U entry
  if host = [] then pure { pass with rejected := pass.rejected ++ [entry] }
  else if '/' ∈ host then pure (enforcer.classifyNetwork pass entry host)
  else
    let resolved := enforcer.resolveWithRebindingCheck pass.lookups host
    let pass := { pass with lookups := pass.lookups + lookupsOf host }
    match resolved with
    | none =>
      pure
        { pass with
          rejected := pass.rejected ++ [entry]
          events := pass.events ++ [("egress.rejected_rebinding", entry)] }
    | some ips => pure (ips.foldl (enforcer.classifyIp entry) pass)

/-- The loop of `apply_scope`. -/
def applyEntries : NftPass → List Str → Except PyError NftPass
  | pass, [] => pure pass
  | pass, entry :: entries => do
    let pass ← enforcer.applyEntry U pass entry
    applyEntries pass entries

/-- `_run`: the arguments, inside the network namespace if there is one. -/
def command (args : List Str) : List Str :=
  match enforcer.netns with
  | some netns => ["ip".toList, "netns".toList, "exec".toList, netns] ++ args
  | none => args

/-- `_add_elements`. -/
def addElements (setName : Str) (elements : List Str) : List (List Str) :=
  elements.map fun element =>
    enforcer.command ["nft".toList, "add".toList, "element".toList, "inet".toList, enforcer.table,
      setName, "\x7b".toList, element, "\x7d".toList]

/-- `apply_scope`: the result, and the commands that were run. -/
def applyScope (snapshot : ScopeSnapshot) :
    Except PyError (ScopeEnforcementResult × List (List Str)) := do
  let pass ← enforcer.applyEntries U {} snapshot.includeRules
  pure (⟨pass.allowed, pass.blocked, pass.rejected⟩,
    enforcer.addElements "blocked_targets".toList pass.blocked ++
      enforcer.addElements "allowed_targets".toList pass.allowed)

end NftScopeEnforcer

/-! ## What the sets admit -/

/-- The element that a command adds to the set. -/
def elementOf (setName : Str) (args : List Str) : Option Str :=
  match args.reverse with
  | _ :: element :: _ :: name :: _ => if name = setName then some element else none
  | _ => none

/-- An element of an nft set covers the address. -/
def covers (element : Str) (a : IpAddress) : Bool :=
  match ipNetwork element with
  | some network => network.contains a
  | none => false

/-- An element that the commands add to the set covers the address. -/
def CoveredBy (setName : Str) (commands : List (List Str)) (a : IpAddress) : Prop :=
  ∃ element ∈ commands.filterMap (elementOf setName), covers element a = true

/-- The output chain admits the address: it checks the block set before the allow set. -/
def Admits (commands : List (List Str)) (a : IpAddress) : Prop :=
  CoveredBy "allowed_targets".toList commands a ∧ ¬CoveredBy "blocked_targets".toList commands a

namespace NftScopeEnforcer

variable {enforcer : NftScopeEnforcer} {U}

theorem elementOf_command (setName name element : Str) :
    elementOf setName (enforcer.command ["nft".toList, "add".toList, "element".toList, "inet".toList,
      enforcer.table, name, "\x7b".toList, element, "\x7d".toList]) =
      if name = setName then some element else none := by
  rw [command]
  cases enforcer.netns with
  | none => rfl
  | some netns => rfl

theorem filterMap_addElements (setName name : Str) (elements : List Str) :
    (enforcer.addElements name elements).filterMap (elementOf setName) =
      if name = setName then elements else [] := by
  rw [addElements, List.filterMap_map]
  induction elements with
  | nil => rw [List.filterMap_nil, ite_self]
  | cons element elements ih =>
    rw [List.filterMap_cons, Function.comp_apply, elementOf_command, ih]
    split_ifs with h
    · rfl
    · rfl

/-- When no entry raises, the result and the commands are those of the lists the loop has filled. -/
theorem applyScope_ok {snapshot : ScopeSnapshot} {result : ScopeEnforcementResult}
    {commands : List (List Str)} (h : enforcer.applyScope U snapshot = .ok (result, commands)) :
    ∃ pass, enforcer.applyEntries U {} snapshot.includeRules = .ok pass ∧
      result = ⟨pass.allowed, pass.blocked, pass.rejected⟩ ∧
      commands = enforcer.addElements "blocked_targets".toList pass.blocked ++
        enforcer.addElements "allowed_targets".toList pass.allowed := by
  cases hpass : enforcer.applyEntries U {} snapshot.includeRules with
  | error e => simp [applyScope, hpass, bind, Except.bind] at h
  | ok pass =>
    simp only [applyScope, hpass, bind, Except.bind, pure, Except.pure, Except.ok.injEq,
      Prod.mk.injEq] at h
    exact ⟨pass, rfl, h.1.symm, h.2.symm⟩

/-- The elements that the commands of `apply_scope` add. -/
theorem admits_applyScope {snapshot : ScopeSnapshot} {result : ScopeEnforcementResult}
    {commands : List (List Str)} (h : enforcer.applyScope U snapshot = .ok (result, commands))
    (a : IpAddress) :
    Admits commands a ↔
      (∃ element ∈ result.allowed, covers element a = true) ∧
        ¬∃ element ∈ result.blocked, covers element a = true := by
  obtain ⟨pass, -, rfl, rfl⟩ := applyScope_ok h
  have hne : "allowed_targets".toList ≠ "blocked_targets".toList := by decide
  rw [Admits, CoveredBy, CoveredBy, List.filterMap_append, List.filterMap_append,
    filterMap_addElements, filterMap_addElements, filterMap_addElements, filterMap_addElements,
    if_neg hne.symm, if_pos rfl, if_pos rfl, if_neg hne, List.nil_append, List.append_nil]

/-! ## The elements of an entry -/

/-- The include entry stands for this element of the allow set, when `k` lookups were made before: a
network that overlaps no blocked one, or an address of its host that is not blocked. -/
def EntryAllows (enforcer : NftScopeEnforcer) (U : Unicode) (k : ℕ) (entry element : Str) : Prop :=
  ∃ host, hostOrNetwork U entry = .ok host ∧ host ≠ [] ∧
    (('/' ∈ host ∧ element = host ∧ ∃ network, ipNetwork host = some network ∧
        ∀ net ∈ enforcer.blockedNets, network.overlaps net = false) ∨
      ('/' ∉ host ∧ enforcer.guard.isBlockedDestination element = false ∧
        ∃ ips, enforcer.resolveWithRebindingCheck k host = some ips ∧ element ∈ ips))

/-- The include entry stands for this element of the block set: a blocked address of its host. -/
def EntryBlocks (enforcer : NftScopeEnforcer) (U : Unicode) (k : ℕ) (entry element : Str) : Prop :=
  ∃ host, hostOrNetwork U entry = .ok host ∧ host ≠ [] ∧ '/' ∉ host ∧
    enforcer.guard.isBlockedDestination element = true ∧
    ∃ ips, enforcer.resolveWithRebindingCheck k host = some ips ∧ element ∈ ips

/-- The lookups that an entry takes. -/
def entryLookups (U : Unicode) (entry : Str) : ℕ :=
  match hostOrNetwork U entry with
  | .ok host => if host = [] ∨ '/' ∈ host then 0 else lookupsOf host
  | .error _ => 0

/-- The entries stand for this element, when `k` lookups were made before. -/
def AnyEntry (U : Unicode) (stands : ℕ → Str → Str → Prop) : ℕ → List Str → Str → Prop
  | _, [], _ => False
  | k, entry :: entries, element =>
    stands k entry element ∨ AnyEntry U stands (k + entryLookups U entry) entries element

section Entries

variable {pass pass' : NftPass} {entry element : Str}

variable (enforcer) in
theorem classifyIp_spec (ip : Str) :
    (enforcer.classifyIp entry pass ip).lookups = pass.lookups ∧
    (element ∈ (enforcer.classifyIp entry pass ip).allowed ↔
      element ∈ pass.allowed ∨ (enforcer.guard.isBlockedDestination ip = false ∧ element = ip)) ∧
    (element ∈ (enforcer.classifyIp entry pass ip).blocked ↔
      element ∈ pass.blocked ∨ (enforcer.guard.isBlockedDestination ip = true ∧ element = ip)) := by
  unfold classifyIp
  -- Blocked, allowed already, or newly allowed.
  split_ifs with hblocked hmem
  · simp [hblocked, mem_appendNew]
  · refine ⟨rfl, ⟨.inl, ?_⟩, by simp [hblocked]⟩
    rintro (h | ⟨-, rfl⟩)
    · exact h
    · exact hmem
  · simp [hblocked]

variable (enforcer) in
/-- What the loop over the addresses of an entry adds. -/
theorem foldl_classifyIp_spec (ips : List Str) :
    (ips.foldl (enforcer.classifyIp entry) pass).lookups = pass.lookups ∧
    (element ∈ (ips.foldl (enforcer.classifyIp entry) pass).allowed ↔
      element ∈ pass.allowed ∨
        (enforcer.guard.isBlockedDestination element = false ∧ element ∈ ips)) ∧
    (element ∈ (ips.foldl (enforcer.classifyIp entry) pass).blocked ↔
      element ∈ pass.blocked ∨
        (enforcer.guard.isBlockedDestination element = true ∧ element ∈ ips)) := by
  induction ips generalizing pass with
  | nil => simp
  | cons ip ips ih =>
    obtain ⟨hlookups, hallowed, hblocked⟩ := classifyIp_spec enforcer ip
    obtain ⟨ihlookups, ihallowed, ihblocked⟩ := ih
    rw [List.foldl_cons, ihlookups, ihallowed, ihblocked, hlookups, hallowed, hblocked]
    grind

variable (enforcer) in
theorem classifyNetwork_spec (cidr : Str) :
    (enforcer.classifyNetwork pass entry cidr).lookups = pass.lookups ∧
    (element ∈ (enforcer.classifyNetwork pass entry cidr).allowed ↔
      element ∈ pass.allowed ∨ (element = cidr ∧ ∃ network, ipNetwork cidr = some network ∧
        ∀ net ∈ enforcer.blockedNets, network.overlaps net = false)) ∧
    (element ∈ (enforcer.classifyNetwork pass entry cidr).blocked ↔ element ∈ pass.blocked) := by
  unfold classifyNetwork
  cases hnet : ipNetwork cidr with
  | none => simp
  | some network =>
    dsimp only
    by_cases hany : enforcer.blockedNets.any network.overlaps = true
    · -- A network that overlaps a blocked one is rejected, and blocks nothing.
      obtain ⟨net, hmem, hoverlaps⟩ := List.any_eq_true.mp hany
      rw [if_pos hany]
      refine ⟨rfl, ⟨.inl, ?_⟩, Iff.rfl⟩
      rintro (h | ⟨-, other, hother, hall⟩)
      · exact h
      · cases hother
        rw [hall net hmem] at hoverlaps
        cases hoverlaps
    · have hall : ∀ net ∈ enforcer.blockedNets, network.overlaps net = false := by
        simpa using hany
      rw [if_neg hany]
      split_ifs with hmem
      · refine ⟨rfl, ⟨.inl, ?_⟩, Iff.rfl⟩
        rintro (h | ⟨rfl, -⟩)
        · exact h
        · exact hmem
      · refine ⟨rfl, ?_, Iff.rfl⟩
        simp only [List.mem_append, List.mem_singleton, Option.some.injEq, exists_eq_left']
        rw [and_iff_left hall]

/-- What one entry adds to the two lists. -/
theorem applyEntry_spec (h : enforcer.applyEntry U pass entry = .ok pass') :
    pass'.lookups = pass.lookups + entryLookups U entry ∧
    (element ∈ pass'.allowed ↔
      element ∈ pass.allowed ∨ enforcer.EntryAllows U pass.lookups entry element) ∧
    (element ∈ pass'.blocked ↔
      element ∈ pass.blocked ∨ enforcer.EntryBlocks U pass.lookups entry element) := by
  cases hhost : hostOrNetwork U entry with
  | error e => simp [applyEntry, hhost, bind, Except.bind] at h
  | ok host =>
    simp only [applyEntry, hhost, bind, Except.bind, pure, Except.pure] at h
    by_cases hempty : host = []
    · rw [if_pos hempty] at h
      cases h
      simp [entryLookups, EntryAllows, EntryBlocks, hhost, hempty]
    · rw [if_neg hempty] at h
      by_cases hslash : '/' ∈ host
      · rw [if_pos hslash] at h
        cases h
        obtain ⟨hlookups, hallowed, hblocked⟩ := classifyNetwork_spec enforcer host
        rw [hlookups, hallowed, hblocked]
        simp [entryLookups, EntryAllows, EntryBlocks, hhost, hempty, hslash]
      · rw [if_neg hslash] at h
        cases hresolved : enforcer.resolveWithRebindingCheck pass.lookups host with
        | none =>
          -- The entry is rejected, but the lookups were made.
          rw [hresolved] at h
          cases h
          simp [entryLookups, EntryAllows, EntryBlocks, hhost, hempty, hslash, hresolved]
        | some ips =>
          rw [hresolved] at h
          cases h
          obtain ⟨hlookups, hallowed, hblocked⟩ := foldl_classifyIp_spec enforcer ips
          rw [hlookups, hallowed, hblocked]
          simp [entryLookups, EntryAllows, EntryBlocks, hhost, hempty, hslash, hresolved]

/-- **The loop collects exactly the elements that the entries stand for.** -/
theorem mem_applyEntries {entries : List Str}
    (h : enforcer.applyEntries U pass entries = .ok pass') :
    (element ∈ pass'.allowed ↔ element ∈ pass.allowed ∨
      AnyEntry U (enforcer.EntryAllows U) pass.lookups entries element) ∧
    (element ∈ pass'.blocked ↔ element ∈ pass.blocked ∨
      AnyEntry U (enforcer.EntryBlocks U) pass.lookups entries element) := by
  induction entries generalizing pass with
  | nil =>
    cases h
    simp [AnyEntry]
  | cons entry entries ih =>
    -- The lookups of the first entry shift those of the others.
    cases hentry : enforcer.applyEntry U pass entry with
    | error e => simp [applyEntries, hentry, bind, Except.bind] at h
    | ok next =>
      simp only [applyEntries, hentry, bind, Except.bind] at h
      obtain ⟨hlookups, hallowed, hblocked⟩ := applyEntry_spec hentry
      obtain ⟨ihallowed, ihblocked⟩ := ih h
      rw [ihallowed, ihblocked, hallowed, hblocked, hlookups]
      simp only [AnyEntry, or_assoc, and_self]

end Entries

/-- The include rules stand for a network or an address that covers `a` in the allow set. -/
def Allows (enforcer : NftScopeEnforcer) (U : Unicode) (snapshot : ScopeSnapshot) (a : IpAddress) :
    Prop :=
  ∃ element, AnyEntry U (enforcer.EntryAllows U) 0 snapshot.includeRules element ∧
    covers element a = true

/-- The include rules resolve to a blocked address that covers `a`. -/
def Blocks (enforcer : NftScopeEnforcer) (U : Unicode) (snapshot : ScopeSnapshot) (a : IpAddress) :
    Prop :=
  ∃ element, AnyEntry U (enforcer.EntryBlocks U) 0 snapshot.includeRules element ∧
    covers element a = true

/-- **When no excluded address is admitted**: exactly when every address that an exclude rule matches,
and that an include rule covers, is also resolved as a blocked destination. The exclude rules have no
part in what is pushed. -/
theorem nft_respects_excludes_iff {snapshot : ScopeSnapshot} {result : ScopeEnforcementResult}
    {commands : List (List Str)} (h : enforcer.applyScope U snapshot = .ok (result, commands)) :
    (∀ ip a, ipAddress ip = some a → snapshot.excludesHost U ip = .ok true → ¬Admits commands a) ↔
      ∀ ip a, ipAddress ip = some a → snapshot.excludesHost U ip = .ok true →
        enforcer.Allows U snapshot a → enforcer.Blocks U snapshot a := by
  -- The sets hold what the include rules stand for.
  have hadmits : ∀ a, Admits commands a ↔
      enforcer.Allows U snapshot a ∧ ¬enforcer.Blocks U snapshot a := by
    intro a
    rw [admits_applyScope h]
    obtain ⟨pass, hpass, rfl, -⟩ := applyScope_ok h
    have hallowed : ∀ element, element ∈ pass.allowed ↔
        AnyEntry U (enforcer.EntryAllows U) 0 snapshot.includeRules element :=
      fun element => by simpa using (mem_applyEntries hpass).1
    have hblocked : ∀ element, element ∈ pass.blocked ↔
        AnyEntry U (enforcer.EntryBlocks U) 0 snapshot.includeRules element :=
      fun element => by simpa using (mem_applyEntries hpass).2
    simp only [Allows, Blocks, hallowed, hblocked]
  simp only [hadmits, not_and, not_not]

/-! ## An address taken out of a network -/

/-- A network without one of its addresses. -/
def carvedScope (excluded : Str) : ScopeSnapshot :=
  { openScope none with
    includeRules := ["10.0.0.0/24".toList]
    excludeRules := [excluded] }

/-- The enforcer on a resolver without answers. -/
def offlineEnforcer : NftScopeEnforcer := .ofResolver fun _ _ => []

/-- `10.0.0.5` is excluded, not included, and admitted. -/
theorem excluded_address_admitted :
    ∃ result commands,
      offlineEnforcer.applyScope .ascii (carvedScope "10.0.0.5".toList) = .ok (result, commands) ∧
      ipAddress "10.0.0.5".toList = some (.v4 0x0a000005#32) ∧
      (carvedScope "10.0.0.5".toList).excludesHost .ascii "10.0.0.5".toList = .ok true ∧
      (carvedScope "10.0.0.5".toList).includesIp .ascii "10.0.0.5".toList = .ok false ∧
      Admits commands (.v4 0x0a000005#32) := by
  refine ⟨_, _, rfl, by decide, by decide +kernel, by decide +kernel, ?_⟩
  refine ⟨⟨"10.0.0.0/24".toList, by decide, by decide⟩, ?_⟩
  rintro ⟨element, hmem, -⟩
  have hnone : List.filterMap (elementOf "blocked_targets".toList)
      (offlineEnforcer.addElements "blocked_targets".toList [] ++
        offlineEnforcer.addElements "allowed_targets".toList ["10.0.0.0/24".toList]) = [] := by decide
  exact List.not_mem_nil (hnone ▸ hmem)

theorem nft_respects_excludes_iff_outside :
    ∃ result commands,
      offlineEnforcer.applyScope .ascii (carvedScope "10.0.1.5".toList) = .ok (result, commands) ∧
      ((∀ ip a, ipAddress ip = some a →
          (carvedScope "10.0.1.5".toList).excludesHost .ascii ip = .ok true → ¬Admits commands a) ↔
        ∀ ip a, ipAddress ip = some a →
          (carvedScope "10.0.1.5".toList).excludesHost .ascii ip = .ok true →
          offlineEnforcer.Allows .ascii (carvedScope "10.0.1.5".toList) a →
          offlineEnforcer.Blocks .ascii (carvedScope "10.0.1.5".toList) a) :=
  ⟨_, _, rfl, nft_respects_excludes_iff rfl⟩

end NftScopeEnforcer

end SecOpent
