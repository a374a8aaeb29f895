import SecOpent.Scope.Enforcement

/-!
# Narrowing a scope

What an allowed target passed in `ScopeEnforcer.check`, and the comparison of two scopes: a scope with
fewer include rules, more exclude rules and fewer ports allows nothing that the other one denies. The
wider scope may raise where the narrower one allows, on a rule that the narrower one lacks.

## Main definitions

* `ScopeSnapshot.Narrows`: the first scope has fewer include rules and ports and more exclude rules
* `NeverFalse`: a question that raises or is answered with yes

## Main results

* `includesBy_neverFalse`: what the narrower scope includes, the wider one does not leave out
* `scopeEnforcer_sound_and_monotone`: what an allowed target passed, and that denials carry over
-/

namespace SecOpent

open Python

variable {U : Unicode}

/-- The first scope differs from the second by removed include rules, added exclude rules and removed
ports only. -/
structure ScopeSnapshot.Narrows (small large : ScopeSnapshot) : Prop where
  includeRules : small.includeRules ⊆ large.includeRules
  excludeRules : large.excludeRules ⊆ small.excludeRules
  ports : small.ports ⊆ large.ports

/-- A question that raises, or is answered with yes. -/
def NeverFalse (result : Except PyError Bool) : Prop := result ≠ .ok false

theorem anyMatches_neverFalse {matches' : Str → Except PyError Bool} {rules : List Str} {rule : Str}
    (hmem : rule ∈ rules) (hrule : matches' rule = .ok true) :
    NeverFalse (anyMatches matches' rules) := by
  intro hfalse
  have hnone := anyMatches_eq_false_iff.mp hfalse rule hmem
  rw [hrule] at hnone
  cases hnone

section Narrows

variable {small large : ScopeSnapshot}

theorem ScopeSnapshot.Narrows.exclude_eq_false (h : small.Narrows large)
    {matches' : Str → Except PyError Bool}
    (hsmall : ∀ rule ∈ small.excludeRules, matches' rule = .ok false) :
    anyMatches matches' large.excludeRules = .ok false :=
  anyMatches_eq_false_iff.mpr fun rule hrule => hsmall rule (h.excludeRules hrule)

/-- What the narrower scope includes, the wider one does not leave out. -/
theorem includesBy_neverFalse (h : small.Narrows large) {matches' : Str → Except PyError Bool}
    (hsmall : includesBy matches' small = .ok true) : NeverFalse (includesBy matches' large) := by
  obtain ⟨hexclude, hinclude⟩ := includesBy_eq_true_iff.mp hsmall
  obtain ⟨rule, hmem, hrule⟩ := exists_of_anyMatches hinclude
  rw [includesBy, h.exclude_eq_false hexclude]
  exact anyMatches_neverFalse (h.includeRules hmem) hrule

theorem includesIp_neverFalse (h : small.Narrows large) {ip : Str}
    (hsmall : small.includesIp U ip = .ok true) : NeverFalse (large.includesIp U ip) := by
  unfold ScopeSnapshot.includesIp at hsmall ⊢
  cases hnorm : normalizeIpOrNetwork ip with
  | error e => simp [hnorm, bind, Except.bind] at hsmall
  | ok text =>
    simp only [hnorm, bind, Except.bind] at hsmall ⊢
    split_ifs at hsmall ⊢
    exact includesBy_neverFalse h hsmall

/-- No resolved address is denied under the wider scope. -/
theorem firstDenial_of_narrows (h : small.Narrows large) {ips : List Str}
    (hsmall : ∀ ip ∈ ips, isBlockedIp ip = .ok false ∧ small.includesIp U ip = .ok true)
    {denial : Option PolicyDecision} (hlarge : ScopeEnforcer.firstDenial U large ips = .ok denial) :
    denial = none := by
  induction ips with
  | nil =>
    cases hlarge
    rfl
  | cons ip ips ih =>
    obtain ⟨hblocked, hincludes⟩ := hsmall ip (by simp)
    have hnever := includesIp_neverFalse h hincludes
    simp only [ScopeEnforcer.firstDenial, hblocked, bind, Except.bind, Bool.false_eq_true, if_false]
      at hlarge
    rcases hlarge' : large.includesIp U ip with e | _ | _
    · rw [hlarge'] at hlarge
      cases hlarge
    · exact absurd hlarge' hnever
    · rw [hlarge'] at hlarge
      exact ih (fun other hother => hsmall other (by simp [hother])) hlarge

theorem includesPort_of_narrows (h : small.Narrows large) {n : ℤ}
    (hsmall : small.includesPort n = .ok true) : large.includesPort n = .ok true := by
  unfold ScopeSnapshot.includesPort at hsmall ⊢
  cases hport : normalizePort n with
  | error e => simp [hport, bind, Except.bind] at hsmall
  | ok port =>
    simp only [hport, bind, Except.bind, pure, Except.pure, Except.ok.injEq, decide_eq_true_eq]
      at hsmall ⊢
    exact h.ports hsmall

/-- What the enforcer allows under the narrower scope, it does not deny under the wider one. -/
theorem ScopeEnforcer.check_of_narrows {enforcer : ScopeEnforcer} {target : Str}
    {context : EnforcementContext} (h : small.Narrows large)
    (hsmall : Allowed (enforcer.check U target small context)) {decision : PolicyDecision}
    (hlarge : enforcer.check U target large context = .ok decision) : decision.allowed = true := by
  obtain ⟨host, port, hsplit, hhost, hexclude, hinclude, hresolved, hips, hport, hcontext⟩ :=
    (check_allowed_iff U).mp hsmall
  -- What the narrower scope decides about the host, the wider one decides too, or raises.
  have hexclude' : large.excludesHost U host = .ok false :=
    h.exclude_eq_false (anyMatches_eq_false_iff.mp hexclude)
  have hinclude' : NeverFalse (large.includesHost U host) := includesBy_neverFalse h hinclude
  simp only [check, hsplit, hexclude', bind, Except.bind, List.isEmpty_iff, hhost, hresolved,
    if_false, Bool.false_eq_true] at hlarge
  rcases hhost' : large.includesHost U host with e | _ | _
  · rw [hhost'] at hlarge
    cases hlarge
  · exact absurd hhost' hinclude'
  · simp only [hhost', Bool.not_true, Bool.false_eq_true, if_false] at hlarge
    cases hdenial : firstDenial U large (resolveHost enforcer.dns host) with
    | error e =>
      rw [hdenial] at hlarge
      cases hlarge
    | ok denial =>
      rw [hdenial, firstDenial_of_narrows h hips hdenial] at hlarge
      cases port with
      | none =>
        cases hlarge
        exact hcontext
      | some n =>
        simp only [includesPort_of_narrows h (hport n rfl), if_true] at hlarge
        cases hlarge
        exact hcontext

end Narrows

/-! ## What an allowed target passed -/

/-- The context allows the scan: in its window, with an approved risk that is not destructive, under
an approval, with budget left and a valid permit. -/
structure EnforcementContext.Permits (context : EnforcementContext) : Prop where
  window : ∀ w, context.timeWindow = some w → w.1 ≤ context.hour ∧ context.hour < w.2
  not_destructive : context.risk ≠ .destructive
  risk_approved : context.risk ∈ context.approvedRisks
  approved : context.approved = true
  budget : 0 < context.budgetRemaining
  permit : context.permitValid = true

theorem contextDecision_allowed {context : EnforcementContext}
    (h : (ScopeEnforcer.contextDecision context).allowed = true) : context.Permits := by
  unfold ScopeEnforcer.contextDecision at h
  split_ifs at h with hwindow hdestructive hrisk happroved hbudget hpermit
  all_goals try cases h
  refine ⟨?_, hdestructive, hrisk, by simpa using happroved, not_le.mp hbudget,
    by simpa using hpermit⟩
  intro w hw
  simpa [hw] using hwindow

/-- **The enforcer is sound and monotone.** What it allows has passed every step; and a denial under
a scope is never an allowance under a narrower one. -/
theorem scopeEnforcer_sound_and_monotone (U : Unicode) (enforcer : ScopeEnforcer) (target : Str)
    (context : EnforcementContext) :
    (∀ scope, Allowed (enforcer.check U target scope context) →
      ∃ host port, splitTarget U target = .ok (host, port) ∧
        (∃ rule ∈ scope.includeRules, targetMatches U rule host = .ok true) ∧
        (∀ rule ∈ scope.excludeRules, targetMatches U rule host = .ok false) ∧
        resolveHost enforcer.dns host ≠ [] ∧
        (∀ ip ∈ resolveHost enforcer.dns host,
          isBlockedIp ip = .ok false ∧ scope.includesIp U ip = .ok true) ∧
        (∀ n, port = some n → n ∈ scope.ports) ∧ context.Permits) ∧
    ∀ small large : ScopeSnapshot, small.Narrows large → ∀ decision,
      enforcer.check U target large context = .ok decision → decision.allowed = false →
        ¬Allowed (enforcer.check U target small context) := by
  refine ⟨?_, ?_⟩
  · intro scope hallowed
    obtain ⟨host, port, hsplit, -, hexclude, hinclude, hresolved, hips, hport, hcontext⟩ :=
      (ScopeEnforcer.check_allowed_iff U).mp hallowed
    refine ⟨host, port, hsplit, exists_of_anyMatches (includesBy_eq_true_iff.mp hinclude).2,
      anyMatches_eq_false_iff.mp hexclude, hresolved, hips, ?_, contextDecision_allowed hcontext⟩
    intro n hn
    have hincludes := hport n hn
    simp only [ScopeSnapshot.includesPort, normalizePort] at hincludes
    split_ifs at hincludes
    · simpa [bind, Except.bind, pure, Except.pure] using hincludes
    · cases hincludes
  · intro small large hnarrows decision hlarge hdenied hsmall
    rw [ScopeEnforcer.check_of_narrows hnarrows hsmall hlarge] at hdenied
    cases hdenied

end SecOpent
