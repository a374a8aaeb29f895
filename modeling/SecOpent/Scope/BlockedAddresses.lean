import SecOpent.Scope.LiteralTargets

/-!
# Addresses that are blocked whatever the scope says

`EgressGuard` blocks a list of networks, `_is_blocked_ip` of the scope enforcer asks the predicates of
`ipaddress`. The default networks of the guard are two of IPv4: it blocks loopback and link-local
IPv4 addresses, and none of the other addresses that the enforcer blocks.

## Main definitions

* `isSensitive`: loopback, link-local, unspecified or multicast, also behind an IPv4-mapped address
* `missed`: the sensitive addresses in neither of the default networks
* `openScope`: a scope with every address

## Main results

* `isBlockedDestination_eq`: what the default networks block
* `includesIp_openScope`: the open scope includes every address that can be normalised
* `egress_denies_sensitive_iff`: which sensitive destinations are denied under every scope
-/

namespace Python

/-- `IPv6Address.ipv4_mapped`. -/
def ipv4Mapped (ip : BitVec 128) : Option (BitVec 32) :=
  if ip >>> 32 = 0xffff#128 then some (ip.setWidth 32) else none

/-- A longer mask keeps what a shorter one keeps. -/
theorem and_netmask_of_eq {ip n : BitVec 32} {p q : ℕ} (h : ip &&& netmask 32 p = n)
    (hpq : netmask 32 p &&& netmask 32 q = netmask 32 q) :
    ip &&& netmask 32 q = n &&& netmask 32 q := by
  rw [← h, BitVec.and_assoc, hpq]

end Python

namespace SecOpent

open Python

variable (U : Unicode)

/-! ## The two lists -/

/-- An address that `_is_blocked_ip` blocks, in either family or as an IPv4-mapped address; the
link-local addresses include those of the cloud metadata services. -/
def isSensitive : IpAddress → Bool
  | .v4 ip => isBlockedAddress (.v4 ip)
  | .v6 ip z =>
    isBlockedAddress (.v6 ip z) || (ipv4Mapped ip).any fun v4 => isBlockedAddress (.v4 v4)

/-- An address of one of the default networks of the guard. -/
def inDefaultBlocked : IpAddress → Bool
  | .v4 ip => ip &&& netmask 32 16 == 0xa9fe0000#32 || ip &&& netmask 32 8 == 0x7f000000#32
  | .v6 _ _ => false

/-- The sensitive addresses that are in neither: the unspecified and the multicast addresses of
IPv4, and every sensitive address of IPv6. -/
def missed : IpAddress → Bool
  | .v4 ip => ip == 0 || ip &&& netmask 32 4 == 0xe0000000#32
  | .v6 ip z => isSensitive (.v6 ip z)

theorem defaultBlocked_networks :
    defaultBlockedCidrs.filterMap ipNetwork =
      [.v4 (.of 0xa9fe0000#32 16 (by decide)), .v4 (.of 0x7f000000#32 8 (by decide))] := by
  decide

/-- What the default networks block. -/
theorem isBlockedDestination_eq {dns : DnsResolver} {ip : Str} {a : IpAddress}
    (h : ipAddress ip = some a) :
    (EgressGuard.ofResolver dns).isBlockedDestination ip = inDefaultBlocked a := by
  simp only [EgressGuard.isBlockedDestination, h, EgressGuard.ofResolver, defaultBlocked_networks]
  cases a with
  | v4 n =>
    have h₁ : 0xa9fe0000#32 &&& netmask 32 16 = 0xa9fe0000#32 := by decide
    have h₂ : 0x7f000000#32 &&& netmask 32 8 = 0x7f000000#32 := by decide
    simp [IpNetwork.contains, h₁, h₂, inDefaultBlocked, Prefix.of]
  | v6 n z => simp [IpNetwork.contains, inDefaultBlocked]

/-- No address is in a default network and among those that the networks miss. -/
theorem inDefaultBlocked_of_missed {a : IpAddress} (h : missed a = true) :
    inDefaultBlocked a = false := by
  cases a with
  | v6 n z => rfl
  | v4 n =>
    simp only [missed, Bool.or_eq_true, beq_iff_eq] at h
    simp only [inDefaultBlocked, Bool.or_eq_false_iff, beq_eq_false_iff_ne]
    rcases h with rfl | h
    · decide
    · constructor
      · intro hlink
        have h4 := and_netmask_of_eq (q := 4) hlink (by decide)
        rw [h] at h4
        exact absurd h4 (by decide)
      · intro hloop
        have h4 := and_netmask_of_eq (q := 4) hloop (by decide)
        rw [h] at h4
        exact absurd h4 (by decide)

/-- A sensitive address is in a default network, or missed. -/
theorem sensitive_iff {a : IpAddress} :
    (isSensitive a = true → inDefaultBlocked a = true) ↔ missed a = false := by
  constructor
  · intro h
    by_contra hmissed
    rw [Bool.not_eq_false] at hmissed
    have hsensitive : isSensitive a = true := by
      cases a with
      | v6 n z => exact hmissed
      | v4 n =>
        simp only [missed, Bool.or_eq_true, beq_iff_eq] at hmissed
        simp only [isSensitive, isBlockedAddress, Bool.or_eq_true, beq_iff_eq]
        tauto
    rw [inDefaultBlocked_of_missed hmissed] at h
    exact absurd (h hsensitive) (by decide)
  · intro hmissed hsensitive
    cases a with
    | v6 n z =>
      rw [missed, hsensitive] at hmissed
      cases hmissed
    | v4 n =>
      simp only [missed, Bool.or_eq_false_iff, beq_eq_false_iff_ne] at hmissed
      simp only [isSensitive, isBlockedAddress, Bool.or_eq_true, beq_iff_eq] at hsensitive
      simp only [inDefaultBlocked, Bool.or_eq_true, beq_iff_eq]
      tauto

/-! ## A scope with every address -/

/-- A scope that includes both address spaces, with one port. -/
def openScope (port : Option ℤ) : ScopeSnapshot where
  id := "scope"
  projectId := "project"
  includeRules := ["0.0.0.0/0".toList, "::/0".toList]
  excludeRules := []
  ports := port.toList
  limits := .default
  approvedBy := "operator"
  approvedAt := 0
  digest := "digest"

/-- Every address is in one of the two networks. -/
theorem anyMatches_openScope (port : Option ℤ) (a : IpAddress) :
    anyMatches (fun rule => targetMatches U rule a.str) (openScope port).includeRules = .ok true := by
  have h4 : targetMatches U "0.0.0.0/0".toList a.str =
      .ok ((IpNetwork.v4 (.of 0 0 (by decide))).contains a) :=
    targetMatches_network (by decide) (by decide) (ipAddress_str a)
  have h6 : targetMatches U "::/0".toList a.str =
      .ok ((IpNetwork.v6 (.of 0 0 (by decide)) none).contains a) :=
    targetMatches_network (by decide) (by decide) (ipAddress_str a)
  cases a with
  | v4 ip =>
    have hmask : ip &&& netmask 32 0 = 0 &&& netmask 32 0 := by
      rw [show netmask 32 0 = 0#32 by decide, BitVec.and_zero, BitVec.and_zero]
    rw [openScope, anyMatches, h4]
    simp [IpNetwork.contains, Prefix.of, hmask]
  | v6 ip z =>
    have hmask : ip &&& netmask 128 0 = 0 &&& netmask 128 0 := by
      rw [show netmask 128 0 = 0#128 by decide, BitVec.and_zero, BitVec.and_zero]
    rw [openScope, anyMatches, h4, anyMatches, h6]
    simp [IpNetwork.contains, Prefix.of, hmask]

/-- The open scope includes every address that can be normalised. -/
theorem includesIp_openScope {ip text : Str} (hslash : '/' ∉ ip)
    (h : normalizeIpOrNetwork ip = .ok text) (port : Option ℤ) :
    (openScope port).includesIp U ip = .ok true := by
  have haddress : ∃ a : IpAddress, a.str = text := by
    simp only [normalizeIpOrNetwork, hslash, if_false] at h
    cases hip : ipAddress (strip ip) with
    | none => simp [hip] at h
    | some a => exact ⟨a, by simpa [hip] using h⟩
  obtain ⟨a, rfl⟩ := haddress
  have hstr : '/' ∉ a.str := slash_not_mem_of_ipAddress (ipAddress_str a)
  simp only [ScopeSnapshot.includesIp, h, bind, Except.bind, hstr, if_false]
  exact includesBy_eq_true_iff.mpr ⟨by simp [openScope], anyMatches_openScope U port a⟩

/-! ## Sensitive destinations -/

/-- The text denies its destination under every scope: it is no address, it is in a default network,
or stripping it leaves no address. -/
def deniedAlways (ip : Str) : Bool :=
  match ipAddress ip with
  | none => true
  | some a => inDefaultBlocked a || !(normalizeIpOrNetwork ip).isOk

/-- What passes both tests of the guard is not denied always. -/
theorem not_deniedAlways_of_includes {dns : DnsResolver} {scope : ScopeSnapshot} {ip : Str}
    (hblocked : (EgressGuard.ofResolver dns).isBlockedDestination ip = false)
    (hincludes : scope.includesIp U ip = .ok true) : deniedAlways ip = false := by
  cases h : ipAddress ip with
  | none => simp [EgressGuard.isBlockedDestination, h] at hblocked
  | some a =>
    rw [isBlockedDestination_eq h] at hblocked
    cases hn : normalizeIpOrNetwork ip with
    | error e => simp [ScopeSnapshot.includesIp, hn, bind, Except.bind] at hincludes
    | ok text => simp [deniedAlways, h, hblocked, hn, Except.isOk, Except.toBool]

theorem spec_of_not_deniedAlways {dns : DnsResolver} {ip : Str} (h : deniedAlways ip = false) :
    (EgressGuard.ofResolver dns).isBlockedDestination ip = false ∧ '/' ∉ ip ∧
      ∃ text, normalizeIpOrNetwork ip = .ok text := by
  cases hip : ipAddress ip with
  | none => simp [deniedAlways, hip] at h
  | some a =>
    rw [isBlockedDestination_eq hip]
    cases hn : normalizeIpOrNetwork ip with
    | error e => simp [deniedAlways, hip, hn, Except.isOk, Except.toBool] at h
    | ok text =>
      have hblocked : inDefaultBlocked a = false := by
        simpa [deniedAlways, hip, hn, Except.isOk, Except.toBool] using h
      exact ⟨hblocked, slash_not_mem_of_ipAddress hip, text, rfl⟩

/-- **Which sensitive destinations the guard denies under every scope.** It blocks a sensitive
address exactly if it is not missed by the default networks. A destination that resolves to a
sensitive address is denied under every scope exactly if some address it resolves to is blocked or
cannot be normalised, or its port is out of range. -/
theorem egress_denies_sensitive_iff (dns : DnsResolver) :
    (∀ ip a, ipAddress ip = some a →
      ((isSensitive a = true → (EgressGuard.ofResolver dns).isBlockedDestination ip = true) ↔
        missed a = false)) ∧
    ∀ target host port, splitTarget U target = .ok (host, port) → host ≠ [] →
      (∃ ip ∈ resolveHost dns host, ∃ a, ipAddress ip = some a ∧ isSensitive a = true) →
      ((∀ scope, ¬Allowed ((EgressGuard.ofResolver dns).check U target scope)) ↔
        (∃ ip ∈ resolveHost dns host, deniedAlways ip = true) ∨
          ∃ n, port = some n ∧ ¬(1 ≤ n ∧ n ≤ 65535)) := by
  refine ⟨fun ip a h => by rw [isBlockedDestination_eq h, sensitive_iff], ?_⟩
  rintro target host port hsplit hhost ⟨ip, hip, -⟩
  constructor
  · intro hdenied
    by_contra hnone
    obtain ⟨hresolved, hport⟩ := not_or.mp hnone
    -- A scope that includes everything would allow it.
    refine hdenied (openScope port) ((EgressGuard.check_allowed_iff U).mpr
      ⟨host, port, hsplit, hhost, List.ne_nil_of_mem hip, ?_, ?_⟩)
    · intro other hother
      have hfalse : deniedAlways other = false :=
        Bool.eq_false_iff.mpr fun htrue => hresolved ⟨other, hother, htrue⟩
      obtain ⟨hblocked, hslash, text, htext⟩ := spec_of_not_deniedAlways hfalse
      exact ⟨hblocked, includesIp_openScope U hslash htext port⟩
    · rintro n rfl
      have hrange : 1 ≤ n ∧ n ≤ 65535 := by
        by_contra hrange
        exact hport ⟨n, rfl, hrange⟩
      simp [ScopeSnapshot.includesPort, normalizePort, hrange, openScope, bind, Except.bind, pure,
        Except.pure]
  · intro h scope hallowed
    obtain ⟨host', port', hsplit', -, -, hips, hports⟩ :=
      (EgressGuard.check_allowed_iff U).mp hallowed
    rw [hsplit] at hsplit'
    cases hsplit'
    rcases h with ⟨other, hother, hdenied⟩ | ⟨n, rfl, hrange⟩
    · obtain ⟨hblocked, hincludes⟩ := hips other hother
      rw [not_deniedAlways_of_includes U hblocked hincludes] at hdenied
      cases hdenied
    · have hincludes := hports n rfl
      simp [ScopeSnapshot.includesPort, normalizePort, hrange, bind, Except.bind] at hincludes

/-- The loopback address of IPv6 passes the guard when the scope includes it, as does the unspecified
address of IPv4; the enforcer blocks both. -/
theorem egress_allows_loopback :
    (EgressGuard.ofResolver fun _ => []).check .ascii "http://[::1]/".toList (openScope (some 80)) =
        .ok ⟨true, "ALLOWED"⟩ ∧
      isBlockedIp "::1".toList = .ok true ∧
      (EgressGuard.ofResolver fun _ => []).check .ascii "0.0.0.0".toList (openScope none) =
        .ok ⟨true, "ALLOWED"⟩ ∧
      isBlockedIp "0.0.0.0".toList = .ok true :=
  ⟨by decide +kernel, by decide +kernel, by decide +kernel, by decide +kernel⟩

theorem egress_denies_sensitive_iff_metadata :
    ipAddress "169.254.169.254".toList = some (.v4 0xa9fea9fe#32) ∧
      splitTarget .ascii "metadata:80".toList = .ok ("metadata".toList, some 80) ∧
      ((isSensitive (.v4 0xa9fea9fe#32) = true →
          (EgressGuard.ofResolver fun _ => ["169.254.169.254".toList]).isBlockedDestination
            "169.254.169.254".toList = true) ↔ missed (.v4 0xa9fea9fe#32) = false) ∧
      ((∀ scope, ¬Allowed ((EgressGuard.ofResolver fun _ => ["169.254.169.254".toList]).check .ascii
          "metadata:80".toList scope)) ↔
        (∃ ip ∈ resolveHost (fun _ => ["169.254.169.254".toList]) "metadata".toList,
          deniedAlways ip = true) ∨ ∃ n, some (80 : ℤ) = some n ∧ ¬(1 ≤ n ∧ n ≤ 65535)) := by
  have haddress : ipAddress "169.254.169.254".toList = some (.v4 0xa9fea9fe#32) := by decide
  have hsplit : splitTarget .ascii "metadata:80".toList = .ok ("metadata".toList, some 80) := by
    decide +kernel
  have h := egress_denies_sensitive_iff .ascii fun _ => ["169.254.169.254".toList]
  refine ⟨haddress, hsplit, h.1 _ _ haddress, h.2 _ _ _ hsplit (by decide) ?_⟩
  exact ⟨"169.254.169.254".toList, by decide, _, haddress, by decide⟩

end SecOpent
