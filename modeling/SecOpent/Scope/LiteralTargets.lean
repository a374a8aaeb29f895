import SecOpent.Scope.AddressRules
import SecOpent.Scope.Enforcement

/-!
# Address literals as targets

A target that is itself an address literal has no port, but both checks still look for one after
its last colon. Where the last group of an IPv6 literal reads as a port, the checks are made on
the text before it, and the tool is given the whole literal.

## Main definitions

* `CheckedAsItself`: whenever a check allows the literal, the scope includes its address
* `endsInPort`: the text after the last colon reads as a port number

## Main results

* `checkedAsItself_of_not_endsInPort`: a literal not read as host and port is checked as itself
* `not_checkedAsItself_of_endsInPort`: one that is read so can be allowed out of scope
-/

namespace SecOpent

open Python

variable (U : Unicode)

/-- Whenever the egress guard or the scope enforcer allows `target`, the scope includes it. -/
def CheckedAsItself (target : Str) : Prop :=
  ∀ scope : ScopeSnapshot,
    (∀ guard : EgressGuard, Allowed (guard.check U target scope) →
      scope.includesIp U target = .ok true) ∧
    ∀ (enforcer : ScopeEnforcer) (context : EnforcementContext),
      Allowed (enforcer.check U target scope context) → scope.includesIp U target = .ok true

/-- The text after the last colon reads as a port number. -/
def endsInPort (target : Str) : Bool :=
  decide (':' ∈ target) &&
    match int U (rpartition ':' target).2 with
    | some n => decide (1 ≤ n ∧ n ≤ 65535)
    | none => false

/-! ## Literals under the matchers -/

theorem splitTarget_of_ipAddress {target : Str} {a : IpAddress} (h : ipAddress target = some a) :
    splitTarget U target =
      if ':' ∈ target then
        match int U (rpartition ':' target).2 with
        | some port => .ok ((rpartition ':' target).1, some port)
        | none => .ok (target, none)
      else .ok (target, none) := by
  rw [splitTarget, isHttp_of_slash (slash_not_mem_of_ipAddress h)]
  rfl

/-- An address rule matches the canonical text of the addresses with the same number. -/
theorem targetMatches_str {rule : Str} {a b : IpAddress} (h : ipAddress rule = some b) :
    targetMatches U rule a.str = .ok (decide (a.bits = b.bits)) := by
  have hcontains : b.network.contains a = decide (a.bits = b.bits) := by
    rw [Bool.eq_iff_iff, contains_network, decide_eq_true_iff]
  rw [targetMatches_network (isHttp_of_slash (slash_not_mem_of_ipAddress h))
    (ipNetwork_of_ipAddress h) (ipAddress_str a), hcontains]

/-- A scope with one address rule. -/
def addressScope (rule : Str) (port : ℤ) : ScopeSnapshot where
  id := "scope"
  projectId := "project"
  includeRules := [rule]
  excludeRules := []
  ports := [port]
  limits := .default
  approvedBy := "operator"
  approvedAt := 0
  digest := "digest"

theorem includesIp_addressScope {rule value : Str} {a b : IpAddress} {port : ℤ}
    (hrule : ipAddress rule = some b) (hvalue : ipAddress value = some a) (hz : '%' ∉ value) :
    (addressScope rule port).includesIp U value = .ok (decide (a.bits = b.bits)) := by
  have hslash : '/' ∉ a.str := slash_not_mem_of_ipAddress (ipAddress_str a)
  rw [ScopeSnapshot.includesIp, normalizeIpOrNetwork_of_ipAddress hvalue hz]
  simp only [bind, Except.bind, hslash, if_false, includesBy, addressScope, anyMatches,
    targetMatches_str U hrule]
  cases decide (a.bits = b.bits) <;> rfl

/-! ## The two readings of a literal -/

theorem splitTarget_of_not_endsInPort {target : Str} {a : IpAddress}
    (h : ipAddress target = some a) (hport : endsInPort U target = false) {host : Str}
    {port : Option ℤ} (hsplit : splitTarget U target = .ok (host, port)) {scope : ScopeSnapshot}
    (hallowed : ∀ n, port = some n → scope.includesPort n = .ok true) : host = target := by
  rw [splitTarget_of_ipAddress U h] at hsplit
  split at hsplit
  next hc =>
    cases hint : int U (rpartition ':' target).2 with
    | none =>
      rw [hint] at hsplit
      cases hsplit
      rfl
    | some n =>
      -- A number that is no port makes the port test raise, so nothing is allowed.
      rw [hint] at hsplit
      cases hsplit
      have hn : ¬(1 ≤ n ∧ n ≤ 65535) := by simpa [endsInPort, hc, hint] using hport
      have hraise := hallowed n rfl
      simp [ScopeSnapshot.includesPort, normalizePort, hn, bind, Except.bind] at hraise
  next =>
    cases hsplit
    rfl

theorem checkedAsItself_of_not_endsInPort {target : Str} {a : IpAddress}
    (h : ipAddress target = some a) (hport : endsInPort U target = false) :
    CheckedAsItself U target := by
  have hresolve : ∀ dns, resolveHost dns target = [target] := by
    intro dns
    simp [resolveHost, isIp, h]
  intro scope
  constructor
  · intro guard hallowed
    obtain ⟨host, port, hsplit, -, -, hips, hport'⟩ :=
      (EgressGuard.check_allowed_iff U).mp hallowed
    obtain rfl := splitTarget_of_not_endsInPort U h hport hsplit hport'
    exact (hips host (by simp [hresolve])).2
  · intro enforcer context hallowed
    obtain ⟨host, port, hsplit, -, -, -, -, hips, hport', -⟩ :=
      (ScopeEnforcer.check_allowed_iff U).mp hallowed
    obtain rfl := splitTarget_of_not_endsInPort U h hport hsplit hport'
    exact (hips host (by simp [hresolve])).2

/-- The egress guard, with its default blocked networks, allows a literal that ends in a port when
the address before the port is in scope. -/
theorem egress_allows_extended {host group rule : Str} {n : ℤ} {dns : DnsResolver}
    {t : IpAddress} (ips : List Str) (ht : ipAddress (host ++ ':' :: group) = some t)
    (hc : ':' ∉ group) (hn : int U group = some n) (hrange : 1 ≤ n ∧ n ≤ 65535) (hhost : host ≠ [])
    (hips : resolveHost dns host = ips) (hne : ips ≠ [])
    (hall : ∀ ip ∈ ips, (EgressGuard.ofResolver dns).isBlockedDestination ip = false ∧
      (addressScope rule n).includesIp U ip = .ok true) :
    Allowed ((EgressGuard.ofResolver dns).check U (host ++ ':' :: group) (addressScope rule n)) := by
  refine (EgressGuard.check_allowed_iff U).mpr ⟨host, some n, ?_, hhost, ?_, ?_, ?_⟩
  · rw [splitTarget_of_ipAddress U ht, if_pos (by simp), rpartition_append ':' hc, hn]
  · exact hips.symm ▸ hne
  · exact hips.symm ▸ hall
  · intro m hm
    cases hm
    simp [ScopeSnapshot.includesPort, normalizePort, hrange, addressScope, bind, Except.bind, pure,
      Except.pure]

theorem not_blocked_of_v6 {dns : DnsResolver} {ip : Str} {n : BitVec 128} {z : Option ScopeId}
    (h : ipAddress ip = some (.v6 n z)) :
    (EgressGuard.ofResolver dns).isBlockedDestination ip = false := by
  have hv4 : ∀ net ∈ defaultBlockedCidrs.filterMap ipNetwork,
      net.contains (.v6 n z) = false := by
    have hall : (defaultBlockedCidrs.filterMap ipNetwork).all IpNetwork.isV4 = true := by decide
    intro net hnet
    have hnet' := List.all_eq_true.mp hall net hnet
    cases net with
    | v4 p => rfl
    | v6 p z' => simp [IpNetwork.isV4] at hnet'
  simp only [EgressGuard.isBlockedDestination, h, EgressGuard.ofResolver, List.any_eq_false,
    Bool.not_eq_true]
  exact hv4

theorem not_checkedAsItself_of_endsInPort {target : Str} {a : IpAddress}
    (h : ipAddress target = some a) (hz : '%' ∉ target) (hport : endsInPort U target = true) :
    ¬CheckedAsItself U target := by
  rw [endsInPort, Bool.and_eq_true, decide_eq_true_iff] at hport
  obtain ⟨hc, hport⟩ := hport
  obtain ⟨heq, hgroup⟩ := eq_rpartition hc
  cases hint : int U (rpartition ':' target).2 with
  | none => simp [hint] at hport
  | some n =>
  have hrange : 1 ≤ n ∧ n ≤ 65535 := by simpa [hint] using hport
  generalize (rpartition ':' target).1 = host at *
  generalize (rpartition ':' target).2 = group at *
  subst heq
  obtain ⟨ip, rfl, hip⟩ := ipAddress_of_colon h hc hz
  -- A literal has two colons, so one is left in the host.
  have hcolon : ':' ∈ host := by
    by_contra hno
    have hlen := (ipv6FromString_parts hip).1
    rw [List.splitOn_append_cons_self, List.splitOn_eq_singleton hno,
      List.splitOn_eq_singleton hgroup] at hlen
    simp at hlen
  have hhost : host ≠ [] := List.ne_nil_of_mem hcolon
  have hzh : '%' ∉ host := fun hmem => hz (by simp [hmem])
  intro hchecked
  cases hh : ipAddress host with
  | some b =>
    -- The host is an address: another one than the target.
    obtain ⟨hip', rfl, -⟩ := ipAddress_of_colon hh hcolon hzh
    have hdiff := bits_ne_of_extended h hh hz hgroup hint hrange.1
    have hincludes := (hchecked (addressScope host n)).1 (.ofResolver fun _ => [])
      (egress_allows_extended U [host] h hgroup hint hrange hhost
        (by simp [resolveHost, isIp, hh]) (by simp) (by
          intro x hx
          rw [List.mem_singleton.mp hx]
          exact ⟨not_blocked_of_v6 hh, by simp [includesIp_addressScope U hh hh hzh]⟩))
    rw [includesIp_addressScope U hh h hz] at hincludes
    simp [hdiff] at hincludes
  | none =>
    -- The host is no address: a resolver may send it anywhere.
    have hpublic : ipAddress "8.8.8.8".toList = some (.v4 0x08080808#32) := by decide
    have hincludes := (hchecked (addressScope "8.8.8.8".toList n)).1
      (.ofResolver fun _ => ["8.8.8.8".toList])
      (egress_allows_extended U ["8.8.8.8".toList] h hgroup hint hrange hhost
        (by simp [resolveHost, isIp, hh]) (by simp) (by
          intro x hx
          rw [List.mem_singleton.mp hx]
          refine ⟨by decide, ?_⟩
          rw [includesIp_addressScope U hpublic hpublic (by decide), decide_eq_true rfl]))
    rw [includesIp_addressScope U hpublic h hz] at hincludes
    simp [IpAddress.bits] at hincludes

/-- **An address literal is checked as itself unless it ends in a port.** For literals without a
scope id this is exact: whenever the text after the last colon reads as a port, some scope and
resolver let the literal through although its address is out of scope. -/
theorem literal_checkedAsItself {target : Str} {a : IpAddress} (h : ipAddress target = some a) :
    (endsInPort U target = false → CheckedAsItself U target) ∧
      ('%' ∉ target → (CheckedAsItself U target ↔ endsInPort U target = false)) := by
  refine ⟨checkedAsItself_of_not_endsInPort U h, fun hz => ⟨?_, ?_⟩⟩
  · intro hchecked
    by_contra hport
    exact not_checkedAsItself_of_endsInPort U h hz (by simpa using hport) hchecked
  · exact checkedAsItself_of_not_endsInPort U h

theorem literal_checkedAsItself_documentation_prefix :
    ipAddress "2001:db8::80".toList = some (.v6 (0x20010db8#128 <<< 96 ||| 0x80#128) none) ∧
      ((endsInPort .ascii "2001:db8::80".toList = false →
          CheckedAsItself .ascii "2001:db8::80".toList) ∧
        ('%' ∉ "2001:db8::80".toList →
          (CheckedAsItself .ascii "2001:db8::80".toList ↔
            endsInPort .ascii "2001:db8::80".toList = false))) :=
  ⟨by decide, literal_checkedAsItself .ascii (a := .v6 (0x20010db8#128 <<< 96 ||| 0x80#128) none)
    (by decide)⟩

/-- `2001:db8::1:80` is checked as port 80 of `2001:db8::1`. -/
theorem not_checkedAsItself_documentation_prefix :
    ipAddress "2001:db8::1:80".toList = some (.v6 (0x20010db8#128 <<< 96 ||| 0x10080#128) none) ∧
      (EgressGuard.ofResolver fun _ => []).check .ascii "2001:db8::1:80".toList
          (addressScope "2001:db8::1".toList 80) = .ok ⟨true, "ALLOWED"⟩ ∧
      (addressScope "2001:db8::1".toList 80).includesIp .ascii "2001:db8::1:80".toList =
        .ok false ∧
      ¬CheckedAsItself .ascii "2001:db8::1:80".toList := by
  have hcheck : (EgressGuard.ofResolver fun _ => []).check .ascii "2001:db8::1:80".toList
      (addressScope "2001:db8::1".toList 80) = .ok ⟨true, "ALLOWED"⟩ := by decide +kernel
  have hincludes : (addressScope "2001:db8::1".toList 80).includesIp .ascii
      "2001:db8::1:80".toList = .ok false := by decide +kernel
  refine ⟨by decide, hcheck, hincludes, ?_⟩
  intro hchecked
  have htrue := (hchecked (addressScope "2001:db8::1".toList 80)).1 (.ofResolver fun _ => [])
    ⟨_, hcheck, rfl⟩
  rw [hincludes] at htrue
  cases htrue

end SecOpent
