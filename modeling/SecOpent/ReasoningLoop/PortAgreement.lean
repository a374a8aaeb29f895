import SecOpent.ReasoningLoop.PolicyGate
import SecOpent.Scope.UrlForm

/-!
# The port that is asked about

A policy request names a port beside its target, and the target is a URL with a port of its own. The
policy engine asks the scope for the named one, and its URL rules are texts that need not have a port.
So the port that will be contacted is authorised when it is the one that is named.

## Main definitions

* `AuthorisesEffectivePort`: whatever is allowed goes to a port of the scope
* `Allowable`: some scope and some approvals allow the request

## Main results

* `allowable_iff`: the requests that can be allowed
* `authorises_effective_port_iff`: the requests whose port is authorised
-/

namespace SecOpent

open Python

/-- Whatever scope and approvals allow the request, its effective port is a port of the scope, and the
scope includes its URL. -/
def AuthorisesEffectivePort (U : Unicode) (request : ActionRequest) : Prop :=
  ∀ scope mode approvedRisks approvedCapabilities,
    Allowed (evaluate U request scope mode approvedRisks approvedCapabilities) →
      (∃ port, effectivePort U request.target = some port ∧ (port : ℤ) ∈ scope.ports) ∧
        scope.includesUrl U request.target = .ok true

/-- The request can be allowed: its risk is not destructive, its port is a number of a port, and its
target is a URL whose normal form is a URL again. -/
structure Allowable (U : Unicode) (request : ActionRequest) : Prop where
  risk : request.risk ≠ .destructive
  port : ∃ port, request.port = .int port ∧ 1 ≤ port ∧ port ≤ 65535
  target : ∃ normalized parsed, normalizeUrl U request.target = .ok normalized ∧
    urlsplit U normalized = some parsed

section Requests

variable {U : Unicode} {request : ActionRequest}

theorem included_eq_true_iff {port : PortValue} {scope : ScopeSnapshot} :
    port.included scope = .ok true ↔
      ∃ number, port = .int number ∧ 1 ≤ number ∧ number ≤ 65535 ∧ number ∈ scope.ports := by
  cases port with
  | bool value => simp [PortValue.included]
  | int number =>
    rw [PortValue.included, ScopeSnapshot.includesPort, normalizePort]
    split
    next hrange => simp [bind, Except.bind, pure, Except.pure, hrange]
    next hrange =>
      refine iff_of_false (fun h => by cases h) ?_
      rintro ⟨_, h, hlow, hhigh, -⟩
      cases h
      exact hrange ⟨hlow, hhigh⟩

/-- A scope that includes a URL has read it twice: the URL, and its normal form. -/
theorem parsed_of_includesUrl {scope : ScopeSnapshot} {target : Str}
    (h : scope.includesUrl U target = .ok true) :
    ∃ normalized parsed, normalizeUrl U target = .ok normalized ∧
      urlsplit U normalized = some parsed := by
  obtain ⟨normalized, hnormalized, h⟩ := bind_eq_ok_iff.mp h
  obtain ⟨parsed, hparsed, -⟩ := bind_eq_ok_iff.mp h
  cases hsplit : urlsplit U normalized with
  | none => simp [hsplit, orValueError] at hparsed
  | some parsed' => exact ⟨normalized, parsed', hnormalized, hsplit⟩

/-- The scope of one URL and one port. -/
def ownPortScope (normalized : Str) (port : ℤ) : ScopeSnapshot where
  id := "scope"
  projectId := "project"
  includeRules := [normalized]
  excludeRules := []
  ports := [port]
  limits := .default
  approvedBy := "operator"
  approvedAt := 0
  digest := "digest"

theorem ownPortScope_includesUrl {target normalized : Str} {parsed : SplitResult} (port : ℤ)
    (hnormalized : normalizeUrl U target = .ok normalized)
    (hparsed : urlsplit U normalized = some parsed) :
    (ownPortScope normalized port).includesUrl U target = .ok true := by
  have hmatch : ∀ host, ScopeSnapshot.urlMatches U normalized host normalized = .ok true := by
    intro host
    rw [ScopeSnapshot.urlMatches, if_pos (isHttp_of_normalizeUrl hnormalized)]
    exact congrArg _ (List.isPrefixOf_iff_prefix.mpr (List.prefix_refl _))
  rw [ScopeSnapshot.includesUrl, hnormalized]
  simp only [hparsed, orValueError, bind, Except.bind]
  rw [includesBy_eq_true_iff]
  refine ⟨by simp [ownPortScope], ?_⟩
  show anyMatches _ [normalized] = _
  rw [anyMatches, hmatch]

/-- The request is allowed under the scope of its own URL and port. -/
theorem allowed_ownPortScope {normalized : Str} {parsed : SplitResult} {port : ℤ}
    (hrisk : request.risk ≠ .destructive) (hport : request.port = .int port)
    (hrange : 1 ≤ port ∧ port ≤ 65535)
    (hnormalized : normalizeUrl U request.target = .ok normalized)
    (hparsed : urlsplit U normalized = some parsed) :
    Allowed (evaluate U request (ownPortScope normalized port) .approval {request.risk}
      {request.capability}) := by
  refine evaluate_allowed_iff.mpr ⟨hrisk, ?_, ?_, ?_, fun _ => ?_⟩
  · exact included_eq_true_iff.mpr ⟨port, hport, hrange.1, hrange.2, List.mem_singleton.mpr rfl⟩
  · exact ownPortScope_includesUrl port hnormalized hparsed
  · exact Finset.mem_singleton_self _
  · exact Finset.mem_singleton_self _

/-- **The requests that can be allowed.** -/
theorem allowable_iff :
    Allowable U request ↔ ∃ scope mode approvedRisks approvedCapabilities,
      Allowed (evaluate U request scope mode approvedRisks approvedCapabilities) := by
  constructor
  · rintro ⟨hrisk, ⟨port, hport, hrange⟩, ⟨normalized, parsed, hnormalized, hparsed⟩⟩
    exact ⟨_, _, _, _, allowed_ownPortScope hrisk hport hrange hnormalized hparsed⟩
  · rintro ⟨scope, mode, approvedRisks, approvedCapabilities, hallowed⟩
    obtain ⟨hrisk, hport, hurl, -, -⟩ := evaluate_allowed_iff.mp hallowed
    obtain ⟨port, hint, hlow, hhigh, -⟩ := included_eq_true_iff.mp hport
    exact ⟨hrisk, ⟨port, hint, hlow, hhigh⟩, parsed_of_includesUrl hurl⟩

end Requests

/-- **The requests whose effective port is authorised**: those whose port is the effective port, and
those that nothing allows. -/
theorem authorises_effective_port_iff (U : Unicode) (request : ActionRequest) :
    AuthorisesEffectivePort U request ↔
      (∃ port : ℕ, effectivePort U request.target = some port ∧ request.port = .int port) ∨
        ¬Allowable U request := by
  constructor
  · intro h
    by_cases hallowable : Allowable U request
    swap
    · exact .inr hallowable
    left
    obtain ⟨hrisk, ⟨port, hport, hrange⟩, ⟨normalized, parsed, hnormalized, hparsed⟩⟩ := hallowable
    -- A scope with the named port only.
    obtain ⟨⟨effective, heffective, hmem⟩, -⟩ :=
      h _ _ _ _ (allowed_ownPortScope hrisk hport hrange hnormalized hparsed)
    refine ⟨effective, heffective, ?_⟩
    rw [hport, List.mem_singleton.mp hmem]
  · rintro (⟨effective, heffective, hport⟩ | hnever) scope mode approvedRisks approvedCapabilities
      hallowed
    · obtain ⟨-, hincluded, hurl, -, -⟩ := evaluate_allowed_iff.mp hallowed
      obtain ⟨port, hint, -, -, hmem⟩ := included_eq_true_iff.mp hincluded
      obtain rfl := PortValue.int.inj (hint.symm.trans hport)
      exact ⟨⟨effective, heffective, hmem⟩, hurl⟩
    · exact absurd (allowable_iff.mpr ⟨_, _, _, _, hallowed⟩) hnever

/-- A scope of one site on port 443. -/
def sitePortScope : ScopeSnapshot where
  id := "scope"
  projectId := "project"
  includeRules := ["http://shop.example:8080/".toList]
  excludeRules := []
  ports := [443]
  limits := .default
  approvedBy := "operator"
  approvedAt := 0
  digest := "digest"

/-- Port 443 is asked about, and port 8080 will be contacted. -/
theorem unnamed_port_contacted :
    Allowed (evaluate .ascii ⟨"http://shop.example:8080/".toList, .int 443, .low, "http"⟩ sitePortScope
        .approval {.low} {}) ∧
      effectivePort .ascii "http://shop.example:8080/".toList = some 8080 ∧
      (8080 : ℤ) ∉ sitePortScope.ports ∧
      ¬AuthorisesEffectivePort .ascii ⟨"http://shop.example:8080/".toList, .int 443, .low, "http"⟩ := by
  have hallowed : Allowed (evaluate .ascii ⟨"http://shop.example:8080/".toList, .int 443, .low, "http"⟩
      sitePortScope .approval {.low} {}) := ⟨⟨true, "ALLOWED"⟩, by decide +kernel, rfl⟩
  have heffective : effectivePort .ascii "http://shop.example:8080/".toList = some 8080 := by
    decide +kernel
  refine ⟨hallowed, heffective, by decide, fun h => ?_⟩
  obtain ⟨⟨port, hport, hmem⟩, -⟩ := h _ _ _ _ hallowed
  obtain rfl := Option.some.inj (hport.symm.trans heffective)
  exact absurd hmem (by decide)

end SecOpent
