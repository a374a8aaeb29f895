import SecOpent.PeerAgents.Runs

/-!
# The scope of a launch

`launch` asks the scope about each target as a URL and, where the answer is no, as a domain. The matcher
of domains takes a URL, and compares the host of a URL rule: a page that no URL rule covers is let
through on a host that one names. The matcher of URLs raises on a bare host, before the other one
is asked.

## Main definitions

* `isUrl`: the texts that are URLs
* `ScopeSnapshot.Permits`: a URL is in scope as a URL, a bare host as a domain or an address
* `ScopeSnapshot.LetsThrough`, `ScopeSnapshot.Refuses`: the two answers of a launch
* `PeerAgentService.RespectsScope`: what becomes of a launch with a target that is not permitted

## Main results

* `checkTargets_eq_violation_iff`: the loop over the targets
* `respects_scope_iff`: the launches that respect the scope
-/

namespace SecOpent

open Python

/-! ## Targets -/

section Targets

variable (U : Unicode)

/-- The text is a URL: it has a scheme of the web, and a host. -/
def isUrl (target : Str) : Bool :=
  (urlsplit U (strip target)).any fun parsed =>
    (lower U parsed.scheme == "http".toList || lower U parsed.scheme == "https".toList) &&
      (parsed.hostname U).isSome

namespace ScopeSnapshot

variable (scope : ScopeSnapshot)

/-- The target is in scope, in the form that it has. -/
def Permits (target : Str) : Prop :=
  if isUrl U target then scope.includesUrl U target = .ok true
  else scope.includesDomain U target = .ok true ∨ scope.includesIp U target = .ok true

/-- A launch goes on after the target. -/
def LetsThrough (target : Str) : Prop :=
  scope.includesUrl U target = .ok true ∨
    scope.includesUrl U target = .ok false ∧ scope.includesDomain U target = .ok true

/-- Both matchers answer for the target, and say no. -/
def Refuses (target : Str) : Prop :=
  scope.includesUrl U target = .ok false ∧ scope.includesDomain U target = .ok false

end ScopeSnapshot

variable {U} {scope : ScopeSnapshot} {target : Str}

theorem ScopeSnapshot.permits_url_iff (h : isUrl U target = true) :
    scope.Permits U target ↔ scope.includesUrl U target = .ok true := by
  rw [Permits, if_pos h]

theorem ScopeSnapshot.permits_bareHost_iff (h : isUrl U target = false) :
    scope.Permits U target ↔
      scope.includesDomain U target = .ok true ∨ scope.includesIp U target = .ok true := by
  rw [Permits, h, if_neg Bool.false_ne_true]

end Targets

/-! ## The loop over the targets -/

/-- The message of `PeerRunScopeViolation`. -/
def outsideScope (target : String) : PeerError :=
  .domain ("peer launch target outside scope: " ++ target)

namespace PeerAgentService

variable {service : PeerAgentService} {scope : ScopeSnapshot} {target : String} {targets : List String}

/-- What becomes of a target. -/
theorem checkTargets_cons : service.checkTargets scope (target :: targets) =
    match scope.includesUrl service.unicode target.toList with
    | .error error => .error (.scope error)
    | .ok true => service.checkTargets scope targets
    | .ok false =>
      match scope.includesDomain service.unicode target.toList with
      | .error error => .error (.scope error)
      | .ok true => service.checkTargets scope targets
      | .ok false => .error (outsideScope target) := by
  rw [checkTargets]
  generalize scope.includesUrl service.unicode target.toList = asUrl
  generalize scope.includesDomain service.unicode target.toList = asDomain
  rcases asUrl with error | (_ | _)
  · rfl
  · rcases asDomain with error | (_ | _) <;> rfl
  · rfl

theorem checkTargets_cons_of_letsThrough (h : scope.LetsThrough service.unicode target.toList) :
    service.checkTargets scope (target :: targets) = service.checkTargets scope targets := by
  rw [checkTargets_cons]
  rcases h with hurl | ⟨hurl, hdomain⟩
  · rw [hurl]
  · rw [hurl, hdomain]

theorem checkTargets_cons_of_refuses (h : scope.Refuses service.unicode target.toList) :
    service.checkTargets scope (target :: targets) = .error (outsideScope target) := by
  rw [checkTargets_cons, h.1, h.2]

/-- A target on which a matcher raises: the launch raises what the matcher raises. -/
theorem checkTargets_cons_of_raises (targets : List String)
    (hthrough : ¬scope.LetsThrough service.unicode target.toList)
    (hrefuses : ¬scope.Refuses service.unicode target.toList) :
    ∃ error, service.checkTargets scope (target :: targets) = .error (.scope error) := by
  rw [ScopeSnapshot.LetsThrough, not_or, not_and] at hthrough
  rw [ScopeSnapshot.Refuses, not_and] at hrefuses
  rw [checkTargets_cons]
  generalize scope.includesUrl service.unicode target.toList = asUrl at *
  generalize scope.includesDomain service.unicode target.toList = asDomain at *
  rcases asUrl with error | (_ | _)
  · exact ⟨error, rfl⟩
  · rcases asDomain with error | (_ | _)
    · exact ⟨error, rfl⟩
    · exact (hrefuses rfl rfl).elim
    · exact (hthrough.2 rfl rfl).elim
  · exact (hthrough.1 rfl).elim

/-- Of the targets, the first that is not let through is one that both matchers refuse. -/
def FirstRefused (service : PeerAgentService) (scope : ScopeSnapshot) (targets : List String) : Prop :=
  ∃ before target after, targets = before ++ target :: after ∧
    (∀ t ∈ before, scope.LetsThrough service.unicode t.toList) ∧
    scope.Refuses service.unicode target.toList

/-- **The targets are a violation of the scope** exactly if the first that is not let through is refused
by both matchers. -/
theorem checkTargets_eq_violation_iff :
    (∃ target ∈ targets, service.checkTargets scope targets = .error (outsideScope target)) ↔
      service.FirstRefused scope targets := by
  constructor
  · rintro ⟨violating, -, h⟩
    induction targets with
    | nil => cases h
    | cons target targets ih =>
      by_cases hthrough : scope.LetsThrough service.unicode target.toList
      · rw [checkTargets_cons_of_letsThrough hthrough] at h
        obtain ⟨before, refused, after, rfl, hbefore, hrefused⟩ := ih h
        exact ⟨target :: before, refused, after, rfl, List.forall_mem_cons.mpr ⟨hthrough, hbefore⟩,
          hrefused⟩
      -- The first that is not let through is refused, or a matcher has raised.
      · by_cases hrefuses : scope.Refuses service.unicode target.toList
        · exact ⟨[], target, targets, rfl, nofun, hrefuses⟩
        · obtain ⟨error, herror⟩ := checkTargets_cons_of_raises targets hthrough hrefuses
          rw [herror] at h
          cases h
  · rintro ⟨before, refused, after, rfl, hbefore, hrefused⟩
    refine ⟨refused, List.mem_append_cons_self, ?_⟩
    induction before with
    | nil => exact checkTargets_cons_of_refuses hrefused
    | cons target before ih =>
      obtain ⟨hthrough, hbefore⟩ := List.forall_mem_cons.mp hbefore
      rw [List.cons_append, checkTargets_cons_of_letsThrough hthrough]
      exact ih hbefore

/-! ## A launch -/

variable (service : PeerAgentService) (launch : PeerLaunch)

/-- The agent is registered, and may be executed. -/
def Admits : Prop :=
  ∃ descriptor, service.registry.get? launch.agentName = some descriptor ∧
    descriptor.trustLevel = .adoptedExternal

/-- The scope permits every target of the launch. -/
def AllPermitted : Prop :=
  ∀ target ∈ launch.targets, launch.scope.Permits service.unicode target.toList

/-- The launch respects the scope: with a target that the scope does not permit it records nothing and
does not call the harness, and it raises `PeerRunScopeViolation` if the agent may be executed. -/
def RespectsScope : Prop :=
  ¬service.AllPermitted launch → ∀ (state next : PeerRuns) hex now,
    state.begin service launch hex now = some next →
      next = { state with processes := state.processes ++ [.raised] } ∧
        (service.Admits launch →
          ∃ target ∈ launch.targets, service.prepare launch hex now = .error (outsideScope target))

variable {service launch} {hex : String} {now : Time}

theorem prepare_of_admits (hex : String) (now : Time) (h : service.Admits launch) : ∃ descriptor,
    service.prepare launch hex now =
      (service.checkTargets launch.scope launch.targets >>= fun _ =>
        constructRun descriptor launch hex now) := by
  obtain ⟨descriptor, hget, htrust⟩ := h
  exact ⟨descriptor, by rw [prepare, hget]; exact if_neg (not_not_intro htrust)⟩

/-- Without an agent that may be executed nothing is prepared. -/
theorem prepare_of_not_admits (hex : String) (now : Time) (h : ¬service.Admits launch) :
    ∃ error, service.prepare launch hex now = .error error := by
  cases hget : service.registry.get? launch.agentName with
  | none => exact ⟨_, by rw [prepare, hget]⟩
  | some descriptor =>
    have htrust : descriptor.trustLevel ≠ .adoptedExternal := fun htrust => h ⟨descriptor, hget, htrust⟩
    exact ⟨_, by rw [prepare, hget]; exact if_pos htrust⟩

/-- A launch that is not prepared records nothing. -/
theorem begin_of_error {state next : PeerRuns} {error : PeerError}
    (hprepare : service.prepare launch hex now = .error error)
    (h : state.begin service launch hex now = some next) :
    next = { state with processes := state.processes ++ [.raised] } := by
  rw [PeerRuns.begin, hprepare] at h
  split at h
  next => exact (Option.some.inj h).symm
  next => cases h

/-- Some launch begins in an empty repository. -/
theorem exists_begin_empty (service : PeerAgentService) (launch : PeerLaunch) (hex : String)
    (now : Time) : ∃ next, PeerRuns.begin service {} launch hex now = some next := by
  rw [PeerRuns.begin, if_pos (Dict.get?_empty _)]
  cases service.prepare launch hex now with
  | error error => exact ⟨_, rfl⟩
  | ok run => exact ⟨_, rfl⟩

/-- A violation is raised exactly if the targets are one. -/
theorem prepare_eq_violation_iff (hex : String) (now : Time) (hadmits : service.Admits launch) :
    (∃ target ∈ launch.targets, service.prepare launch hex now = .error (outsideScope target)) ↔
      service.FirstRefused launch.scope launch.targets := by
  obtain ⟨descriptor, hprepare⟩ := prepare_of_admits hex now hadmits
  rw [← checkTargets_eq_violation_iff, hprepare]
  refine exists_congr fun target => and_congr_right fun hmem => ?_
  cases hcheck : service.checkTargets launch.scope launch.targets with
  | error error =>
    change Except.error error = _ ↔ _
    rw [Except.error.injEq, Except.error.injEq]
  | ok done =>
    -- With a target there is a run.
    have hne : launch.targets ≠ [] := List.ne_nil_of_mem hmem
    refine iff_of_false (fun h => ?_) nofun
    change constructRun descriptor launch hex now = _ at h
    rw [constructRun, if_neg hne] at h
    cases h

/-- A launch with a target that is not permitted goes on. -/
theorem not_respectsScope_of_isOk (hall : ¬service.AllPermitted launch)
    (hprepare : (service.prepare launch "" 0).isOk = true) : ¬service.RespectsScope launch := by
  intro hrespects
  obtain ⟨next, hbegin⟩ := exists_begin_empty service launch "" 0
  obtain ⟨hnext, -⟩ := hrespects hall {} next "" 0 hbegin
  rw [PeerRuns.begin, if_pos (Dict.get?_empty _)] at hbegin
  cases hprepared : service.prepare launch "" 0 with
  | error error =>
    rw [hprepared] at hprepare
    cases hprepare
  | ok run =>
    rw [hprepared, hnext] at hbegin
    cases hbegin

/-- A launch with a target that is not permitted raises what a matcher raises. -/
theorem not_respectsScope_of_raises {error : PyError} (hall : ¬service.AllPermitted launch)
    (hadmits : service.Admits launch) (hprepare : service.prepare launch "" 0 = .error (.scope error)) :
    ¬service.RespectsScope launch := by
  intro hrespects
  obtain ⟨next, hbegin⟩ := exists_begin_empty service launch "" 0
  obtain ⟨target, -, hviolation⟩ := (hrespects hall {} next "" 0 hbegin).2 hadmits
  rw [hprepare] at hviolation
  cases hviolation

end PeerAgentService

open PeerAgentService in
/-- **A launch respects the scope** exactly if its agent may not be executed, or the scope permits each
target, or the first target that is not let through is refused by both matchers: then neither is a URL
let through for its host, nor does a matcher raise. -/
theorem respects_scope_iff (service : PeerAgentService) (launch : PeerLaunch) :
    service.RespectsScope launch ↔
      (service.Admits launch →
        service.AllPermitted launch ∨ service.FirstRefused launch.scope launch.targets) := by
  constructor
  · intro hrespects hadmits
    refine or_iff_not_imp_left.mpr fun hall => ?_
    obtain ⟨next, hbegin⟩ := exists_begin_empty service launch "" 0
    obtain ⟨-, hviolation⟩ := hrespects hall {} next "" 0 hbegin
    exact (prepare_eq_violation_iff "" 0 hadmits).mp (hviolation hadmits)
  · intro hcondition hall state next hex now hbegin
    by_cases hadmits : service.Admits launch
    -- The loop comes to a refused target before it comes to one on which a matcher raises.
    · have hrefused := (hcondition hadmits).resolve_left hall
      obtain ⟨target, hmem, hprepare⟩ := (prepare_eq_violation_iff hex now hadmits).mpr hrefused
      exact ⟨begin_of_error hprepare hbegin, fun _ => ⟨target, hmem, hprepare⟩⟩
    · obtain ⟨error, hprepare⟩ := prepare_of_not_admits hex now hadmits
      exact ⟨begin_of_error hprepare hbegin, fun h => (hadmits h).elim⟩

/-- A launch on a page next to the one that is in scope. -/
def adminLaunch : PeerLaunch :=
  { strixLaunch with
    targets := ["https://shop.example.com/admin"]
    scope := { strixLaunch.scope with includeRules := ["https://shop.example.com/app".toList] } }

/-- A launch on a host that is out of scope. -/
def hostLaunch : PeerLaunch := { strixLaunch with targets := ["evil.example.com"] }

open PeerAgentService in
/-- The page is launched that no rule covers, and the host raises what is no violation of the scope. -/
theorem admin_launched_and_host_raises :
    ¬strixService.RespectsScope adminLaunch ∧ ¬strixService.RespectsScope hostLaunch := by
  constructor
  · refine not_respectsScope_of_isOk (fun hall => ?_) (by decide +kernel)
    have hpermits := (ScopeSnapshot.permits_url_iff (by decide +kernel)).mp
      (hall "https://shop.example.com/admin" List.mem_cons_self)
    have hanswer : adminLaunch.scope.includesUrl strixService.unicode
        "https://shop.example.com/admin".toList = .ok false := by decide +kernel
    cases hanswer.symm.trans hpermits
  · have hraises : strixService.prepare hostLaunch "" 0 =
        .error (.scope (.domainValidation "URL must use http or https")) := rfl
    refine not_respectsScope_of_raises (fun hall => ?_) ⟨_, rfl, rfl⟩ hraises
    have hpermits := (ScopeSnapshot.permits_bareHost_iff (by decide +kernel)).mp
      (hall "evil.example.com" List.mem_cons_self)
    have hdomain : hostLaunch.scope.includesDomain strixService.unicode "evil.example.com".toList =
        .ok false := by decide +kernel
    have haddress : hostLaunch.scope.includesIp strixService.unicode "evil.example.com".toList =
        .error (.domainValidation "invalid IP or CIDR") := by decide +kernel
    rcases hpermits with h | h
    · cases hdomain.symm.trans h
    · cases haddress.symm.trans h

end SecOpent
