import SecOpent.Findings.ConfirmedChains

/-!
# The tasks of a chain

`ChainEngine._tasks_for` pairs the links of a chain with the links of the first template that has the
template id of the chain, and `zip(..., strict=True)` raises if there are more of one than of the other.
A chain of a template has the links of its own template, but another template may have that id; and a
proposal has as many links as it names findings, whatever template its hint names.

## Main definitions

* `ownTasks`: the tasks of the links that the template of a chain left unbound
* `TasksExact`: the tasks of all chains are given, and those of the chains of templates are their own
* `TasksAlign`: the templates that the engine reads are as long as the chains, and say the same of the
  unbound links

## Main results

* `pendingVerificationTasks_eq_ok_iff`: the tasks of the chains, one after the other
* `tasksFor_eq_ownTasks_iff`: when a chain of a template gets its own tasks
* `tasksExact_iff`: the engine gives every chain its tasks exactly if they align
-/

namespace SecOpent

open Python Matching

/-! ## Tasks of several chains -/

section Tasks

variable {engine : ChainEngine} {chains : List AttackChain} {tasks : List PendingVerificationTask}

/-- **The tasks of several chains are those of each, one after the other**, if none raises. -/
theorem pendingVerificationTasks_eq_ok_iff :
    engine.pendingVerificationTasks chains = .ok tasks ↔
      ∃ parts, List.Forall₂ (fun chain part => engine.tasksFor chain = .ok part) chains parts ∧
        tasks = parts.flatten := by
  induction chains generalizing tasks with
  | nil =>
    constructor
    · intro h
      exact ⟨[], .nil, (Except.ok.inj h).symm⟩
    · rintro ⟨parts, hparts, rfl⟩
      obtain rfl := List.forall₂_nil_left_iff.mp hparts
      rfl
  | cons chain chains ih =>
    rw [ChainEngine.pendingVerificationTasks]
    constructor
    · intro h
      cases hpart : engine.tasksFor chain with
      | error e => rw [hpart] at h; cases h
      | ok part =>
        cases hrest : engine.pendingVerificationTasks chains with
        | error e => rw [hpart, hrest] at h; cases h
        | ok rest =>
          rw [hpart, hrest] at h
          obtain ⟨parts, hparts, rfl⟩ := ih.mp hrest
          exact ⟨part :: parts, .cons hpart hparts, (Except.ok.inj h).symm⟩
    · rintro ⟨parts, hparts, rfl⟩
      obtain ⟨part, rest, hpart, hrest, rfl⟩ := List.forall₂_cons_left_iff.mp hparts
      rw [hpart, ih.mpr ⟨rest, hrest, rfl⟩]
      rfl

theorem pendingVerificationTasks_append (chains chains' : List AttackChain) :
    engine.pendingVerificationTasks (chains ++ chains') = (do
      let tasks ← engine.pendingVerificationTasks chains
      let rest ← engine.pendingVerificationTasks chains'
      return tasks ++ rest) := by
  induction chains with
  | nil =>
    rw [List.nil_append, ChainEngine.pendingVerificationTasks]
    cases engine.pendingVerificationTasks chains' with
    | error e => rfl
    | ok rest => rfl
  | cons chain chains ih =>
    rw [List.cons_append, ChainEngine.pendingVerificationTasks,
      ChainEngine.pendingVerificationTasks, ih]
    simp only [bind_assoc, pure_bind, List.append_assoc]

theorem pendingVerificationTasks_append_eq_ok_iff {chains' : List AttackChain} :
    engine.pendingVerificationTasks (chains ++ chains') = .ok tasks ↔
      ∃ before after, engine.pendingVerificationTasks chains = .ok before ∧
        engine.pendingVerificationTasks chains' = .ok after ∧ tasks = before ++ after := by
  rw [pendingVerificationTasks_append]
  cases engine.pendingVerificationTasks chains with
  | error e => exact iff_of_false (fun h => by cases h) fun ⟨_, _, h, _⟩ => by cases h
  | ok before =>
    cases engine.pendingVerificationTasks chains' with
    | error e => exact iff_of_false (fun h => by cases h) fun ⟨_, _, _, h, _⟩ => by cases h
    | ok after =>
      constructor
      · intro h
        exact ⟨before, after, rfl, rfl, (Except.ok.inj h).symm⟩
      · rintro ⟨_, _, hbefore, hafter, rfl⟩
        rw [← Except.ok.inj hbefore, ← Except.ok.inj hafter]
        rfl

/-- The tasks of several chains are given if those of each are. -/
theorem exists_pendingVerificationTasks_iff :
    (∃ tasks, engine.pendingVerificationTasks chains = .ok tasks) ↔
      ∀ chain ∈ chains, ∃ tasks, engine.tasksFor chain = .ok tasks := by
  constructor
  · rintro ⟨tasks, htasks⟩ chain hchain
    obtain ⟨parts, hparts, -⟩ := pendingVerificationTasks_eq_ok_iff.mp htasks
    obtain ⟨i, hi, rfl⟩ := List.getElem_of_mem hchain
    exact ⟨_, hparts.get hi (hparts.length_eq ▸ hi)⟩
  · intro h
    -- The tasks of each chain, put one after the other.
    choose! tasksOf htasks using h
    refine ⟨_, pendingVerificationTasks_eq_ok_iff.mpr ⟨chains.map tasksOf, ?_, rfl⟩⟩
    exact List.forall₂_map_right_iff.mpr (List.forall₂_same.mpr htasks)

/-- Parts of known lengths are known if their concatenation is. -/
theorem parts_eq_of_flatten {α β : Type} {items : List α} {own : α → List β} {parts : List (List β)}
    {rest rest' : List β}
    (hlength : List.Forall₂ (fun item part => part.length = (own item).length) items parts)
    (h : parts.flatten ++ rest = items.flatMap own ++ rest') : parts = items.map own := by
  -- The first part is cut off by its length, and then the next.
  induction hlength with
  | nil => rfl
  | @cons item part items parts hpart _ ih =>
    rw [List.flatten_cons, List.flatMap_cons, List.append_assoc, List.append_assoc] at h
    obtain ⟨rfl, htail⟩ := List.append_inj h hpart
    rw [List.map_cons, ih htail]

end Tasks

/-! ## Tasks of one chain -/

/-- The tasks of the links of a chain that its own template left unbound. -/
def ownTasks (template : AttackChainTemplate) (chain : AttackChain) : List PendingVerificationTask :=
  (chain.links.zip template.links).filterMap fun pair => ChainEngine.taskOf chain pair.1 pair.2

/-- The specification of a link counts exactly if the link is not confirmed. -/
theorem taskOf_eq_iff (chain : AttackChain) (link : ChainLink) (spec spec' : ChainLinkSpec) :
    ChainEngine.taskOf chain link spec = ChainEngine.taskOf chain link spec' ↔
      (link.isConfirmed = false → spec = spec') := by
  cases spec
  cases spec'
  cases hlink : link.isConfirmed with
  | true => simp [ChainEngine.taskOf, hlink]
  | false => simp [ChainEngine.taskOf, hlink]

theorem filterMap_taskOf_cons (chain : AttackChain) (link : ChainLink) (links : List ChainLink)
    (spec : ChainLinkSpec) (specs : List ChainLinkSpec) :
    ((link :: links).zip (spec :: specs)).filterMap
        (fun pair => ChainEngine.taskOf chain pair.1 pair.2) =
      (ChainEngine.taskOf chain link spec).toList ++
        (links.zip specs).filterMap fun pair => ChainEngine.taskOf chain pair.1 pair.2 := by
  rw [List.zip_cons_cons, List.filterMap_cons]
  cases ChainEngine.taskOf chain link spec with
  | none => rfl
  | some task => rfl

theorem length_toList_taskOf (chain : AttackChain) (link : ChainLink) (spec spec' : ChainLinkSpec) :
    (ChainEngine.taskOf chain link spec).toList.length =
      (ChainEngine.taskOf chain link spec').toList.length := by
  -- Whether there is a task depends on the link alone.
  rw [ChainEngine.taskOf, ChainEngine.taskOf]
  split
  · rfl
  · rfl

/-- Templates of one length give a chain equally many tasks. -/
theorem length_filterMap_taskOf (chain : AttackChain) {links : List ChainLink}
    {specs specs' : List ChainLinkSpec} (hspecs : specs.length = links.length)
    (hspecs' : specs'.length = links.length) :
    ((links.zip specs).filterMap fun pair => ChainEngine.taskOf chain pair.1 pair.2).length =
      ((links.zip specs').filterMap fun pair => ChainEngine.taskOf chain pair.1 pair.2).length := by
  induction links generalizing specs specs' with
  | nil => rfl
  | cons link links ih =>
    obtain ⟨spec, specs, rfl⟩ := List.exists_cons_of_length_eq_add_one hspecs
    obtain ⟨spec', specs', rfl⟩ := List.exists_cons_of_length_eq_add_one hspecs'
    rw [filterMap_taskOf_cons, filterMap_taskOf_cons, List.length_append, List.length_append,
      length_toList_taskOf chain link spec spec',
      ih (Nat.succ.inj hspecs) (Nat.succ.inj hspecs')]

/-- Two templates of one length give a chain the same tasks exactly if they agree on what is pending. -/
theorem filterMap_taskOf_eq_iff (chain : AttackChain) {links : List ChainLink}
    {specs specs' : List ChainLinkSpec} (hspecs : specs.length = links.length)
    (hspecs' : specs'.length = links.length) :
    (links.zip specs).filterMap (fun pair => ChainEngine.taskOf chain pair.1 pair.2) =
        (links.zip specs').filterMap (fun pair => ChainEngine.taskOf chain pair.1 pair.2) ↔
      ∀ (i : ℕ) (link : ChainLink), links[i]? = some link → link.isConfirmed = false →
        specs[i]? = specs'[i]? := by
  induction links generalizing specs specs' with
  | nil => simp
  | cons link links ih =>
    obtain ⟨spec, specs, rfl⟩ := List.exists_cons_of_length_eq_add_one hspecs
    obtain ⟨spec', specs', rfl⟩ := List.exists_cons_of_length_eq_add_one hspecs'
    have hrest := ih (Nat.succ.inj hspecs) (Nat.succ.inj hspecs')
    rw [filterMap_taskOf_cons, filterMap_taskOf_cons]
    constructor
    · intro h i link' hlink' hpending
      obtain ⟨hhead, htail⟩ := List.append_inj h (length_toList_taskOf chain link spec spec')
      cases i with
      | zero =>
        obtain rfl := Option.some.inj hlink'
        have htask : ChainEngine.taskOf chain link spec = ChainEngine.taskOf chain link spec' := by
          simpa using congrArg List.head? hhead
        exact congrArg some ((taskOf_eq_iff chain link spec spec').mp htask hpending)
      | succ i => exact hrest.mp htail i link' hlink' hpending
    · intro h
      have hhead : ChainEngine.taskOf chain link spec = ChainEngine.taskOf chain link spec' :=
        (taskOf_eq_iff chain link spec spec').mpr fun hpending =>
          Option.some.inj (h 0 link rfl hpending)
      rw [hhead, hrest.mpr fun i link' hlink' hpending => h (i + 1) link' hlink' hpending]

/-! ## Chains of templates -/

section Templates

variable {engine : ChainEngine} {uuids : ChainUuids} {number : ℕ} {validated : List CheckedFinding}
  {template : AttackChainTemplate} {chain : AttackChain}

/-- The links of a template that the findings leave unbound. -/
def Unbound (template : AttackChainTemplate) (validated : List CheckedFinding) (i : ℕ) : Prop :=
  (bindings (fun spec f => spec.matches f.cwe f.asset) template.links validated)[i]? = some none

/-- A link of a template that some finding satisfies. -/
def BindsSome (template : AttackChainTemplate) (validated : List CheckedFinding) : Prop :=
  ∃ spec ∈ template.links, ∃ f ∈ validated, spec.matches f.cwe f.asset = true

/-- Another template with the id of this one serves its chain as well. -/
structure Serves (first template : AttackChainTemplate) (validated : List CheckedFinding) : Prop where
  length : first.links.length = template.links.length
  unbound : ∀ i, Unbound template validated i → first.links[i]? = template.links[i]?

/-- A template has a chain exactly if some finding satisfies one of its links. -/
theorem isSome_matchTemplate_iff :
    (ChainEngine.matchTemplate uuids number template validated).isSome = true ↔
      BindsSome template validated := by
  have hbound := bindLinks_eq validated template.links 0
  rw [List.drop_zero] at hbound
  rw [BindsSome, ← any_isSome_bindings_iff, ← hbound, ChainEngine.matchTemplate]
  split
  next h => exact iff_of_true rfl h
  next h => exact iff_of_false (by simp) h

theorem matchTemplate_spec
    (h : ChainEngine.matchTemplate uuids number template validated = some chain) :
    chain.templateId = template.id ∧
      chain.links = templateLinks (uuids.link number) (bindings
        (fun spec f => spec.matches f.cwe f.asset) template.links validated) := by
  have hbound := bindLinks_eq validated template.links 0
  rw [List.drop_zero] at hbound
  rw [← hbound]
  rw [ChainEngine.matchTemplate] at h
  split at h
  next =>
    obtain rfl := Option.some.inj h
    exact ⟨rfl, rfl⟩
  next => cases h

theorem length_links_of_matchTemplate
    (h : ChainEngine.matchTemplate uuids number template validated = some chain) :
    chain.links.length = template.links.length := by
  rw [(matchTemplate_spec h).2, length_templateLinks, length_bindings]

/-- What is pending in the chain of a template is what the findings leave unbound. -/
theorem pending_iff_unbound
    (h : ChainEngine.matchTemplate uuids number template validated = some chain) (i : ℕ) :
    (∃ link, chain.links[i]? = some link ∧ link.isConfirmed = false) ↔
      Unbound template validated i := by
  rw [(matchTemplate_spec h).2, Unbound, templateLinks]
  simp only [List.getElem?_mapIdx, Option.map_eq_some_iff]
  constructor
  · rintro ⟨link, ⟨bound, hbound, rfl⟩, hpending⟩
    rw [isConfirmed_elim] at hpending
    rw [hbound, Option.isSome_eq_false_iff.mp hpending |> Option.isNone_iff_eq_none.mp]
  · intro hbound
    exact ⟨_, ⟨none, hbound, rfl⟩, rfl⟩

/-- What `_tasks_for` answers for the chain of a template. -/
theorem tasksFor_of_matchTemplate {first : AttackChainTemplate}
    (h : ChainEngine.matchTemplate uuids number template validated = some chain)
    (hfirst : engine.templateFor template.id = some first) :
    engine.tasksFor chain =
      if template.links.length = first.links.length then .ok (ownTasks first chain)
      else .error .valueError := by
  rw [ChainEngine.tasksFor, (matchTemplate_spec h).1, hfirst, length_links_of_matchTemplate h]
  rfl

/-- The tasks that a chain gets are as many as its own. -/
theorem length_of_tasksFor {first : AttackChainTemplate} {tasks : List PendingVerificationTask}
    (h : ChainEngine.matchTemplate uuids number template validated = some chain)
    (hfirst : engine.templateFor template.id = some first)
    (htasks : engine.tasksFor chain = .ok tasks) :
    tasks.length = (ownTasks template chain).length := by
  have hlinks := length_links_of_matchTemplate h
  rw [tasksFor_of_matchTemplate h hfirst] at htasks
  split at htasks
  next hlength =>
    obtain rfl := Except.ok.inj htasks
    exact length_filterMap_taskOf chain (hlength.symm.trans hlinks.symm) hlinks.symm
  next => cases htasks

/-- **A chain of a template gets its own tasks** exactly if the first template with its id serves it. -/
theorem tasksFor_eq_ownTasks_iff {first : AttackChainTemplate}
    (h : ChainEngine.matchTemplate uuids number template validated = some chain)
    (hfirst : engine.templateFor template.id = some first) :
    engine.tasksFor chain = .ok (ownTasks template chain) ↔ Serves first template validated := by
  have hlinks := length_links_of_matchTemplate h
  rw [tasksFor_of_matchTemplate h hfirst]
  split
  next hlength =>
    rw [Except.ok.injEq, ownTasks, ownTasks,
      filterMap_taskOf_eq_iff chain (hlength.symm.trans hlinks.symm) hlinks.symm]
    constructor
    · intro hagree
      refine ⟨hlength.symm, fun i hi => ?_⟩
      obtain ⟨link, hlink, hpending⟩ := (pending_iff_unbound h i).mpr hi
      exact hagree i link hlink hpending
    · rintro ⟨-, hunbound⟩ i link hlink hpending
      exact hunbound i ((pending_iff_unbound h i).mp ⟨link, hlink, hpending⟩)
  -- `zip(..., strict=True)` raises.
  next hlength => exact iff_of_false (fun h => by cases h) fun hserves => hlength hserves.length.symm

/-- A template of an engine is read by its id, or one before it with the same id is. -/
theorem exists_templateFor (hmem : template ∈ engine.templates) :
    ∃ first, engine.templateFor template.id = some first :=
  Option.isSome_iff_exists.mp (List.find?_isSome.mpr ⟨template, hmem, by simp⟩)

end Templates

/-! ## Chains of proposals -/

section Proposals

variable {engine : ChainEngine} {uuids : ChainUuids} {number : ℕ}
  {validatedById : Dict String CheckedFinding} {proposal : ChainProposal} {chain : AttackChain}

/-- A proposal has a chain exactly if it names two findings. -/
theorem isSome_chainOfProposal_iff :
    (ChainEngine.chainOfProposal uuids number validatedById proposal).isSome = true ↔
      2 ≤ proposal.findingIds.length := by
  rw [ChainEngine.chainOfProposal]
  split
  next h => exact iff_of_false (by simp) fun h' => by rw [length_proposalLinks] at h; omega
  next h => exact iff_of_true rfl (by rw [length_proposalLinks] at h; omega)

/-- **The chain of a proposal gets tasks** exactly if the template of its hint is as long. -/
theorem tasksFor_chainOfProposal_iff
    (h : ChainEngine.chainOfProposal uuids number validatedById proposal = some chain) :
    (∃ tasks, engine.tasksFor chain = .ok tasks) ↔
      ∀ template, engine.templateFor proposal.templateHint = some template →
        template.links.length = proposal.findingIds.length := by
  rw [ChainEngine.chainOfProposal] at h
  split at h
  next => cases h
  next =>
    obtain rfl := Option.some.inj h
    rw [ChainEngine.tasksFor]
    cases engine.templateFor proposal.templateHint with
    -- A hint that is the id of no template gives no tasks, and does not raise.
    | none => simp
    | some template =>
      simp only [length_proposalLinks, Option.some.injEq, forall_eq']
      split
      next hlength => exact iff_of_true ⟨_, rfl⟩ hlength.symm
      next hlength =>
        refine iff_of_false ?_ fun h => hlength h.symm
        rintro ⟨tasks, h⟩
        cases h

end Proposals

/-! ## All chains -/

section Engine

variable (engine : ChainEngine) (uuids uuids' : ChainUuids) (findings : List CheckedFinding)
  (proposals : List ChainProposal)

/-- The templates with a chain, each with its chain. -/
def templateChains : List (AttackChainTemplate × AttackChain) :=
  engine.templates.zipIdx.filterMap fun entry =>
    (ChainEngine.matchTemplate uuids entry.2 entry.1 (validatedFindings findings)).map
      fun chain => (entry.1, chain)

/-- The tasks of all chains are given, and those of the chains of templates are the tasks of the links
that their own templates leave unbound. -/
def TasksExact : Prop :=
  ∃ rest, engine.pendingVerificationTasks (engine.hypothesizeFromFindings uuids findings ++
      ChainEngine.hypothesizeFromProposals uuids' proposals findings) =
    .ok ((templateChains engine uuids findings).flatMap (fun pair => ownTasks pair.1 pair.2) ++ rest)

/-- The templates that the tasks are read from are as long as the chains, and say the same of the links
that are unbound. -/
structure TasksAlign : Prop where
  proposals : ∀ proposal ∈ proposals, 2 ≤ proposal.findingIds.length →
    ∀ template, engine.templateFor proposal.templateHint = some template →
      template.links.length = proposal.findingIds.length
  templates : ∀ template ∈ engine.templates, BindsSome template (validatedFindings findings) →
    ∀ first, engine.templateFor template.id = some first →
      Serves first template (validatedFindings findings)

variable {engine uuids uuids' findings proposals}

theorem mem_templateChains {pair : AttackChainTemplate × AttackChain} :
    pair ∈ templateChains engine uuids findings ↔ ∃ number, (pair.1, number) ∈ engine.templates.zipIdx ∧
      ChainEngine.matchTemplate uuids number pair.1 (validatedFindings findings) = some pair.2 := by
  rw [templateChains, List.mem_filterMap]
  constructor
  · rintro ⟨entry, hentry, hpair⟩
    obtain ⟨chain, hchain, rfl⟩ := Option.map_eq_some_iff.mp hpair
    exact ⟨entry.2, hentry, hchain⟩
  · rintro ⟨number, hentry, hchain⟩
    exact ⟨(pair.1, number), hentry, Option.map_eq_some_iff.mpr ⟨pair.2, hchain, rfl⟩⟩

theorem hypothesizeFromFindings_eq :
    engine.hypothesizeFromFindings uuids findings =
      (templateChains engine uuids findings).map Prod.snd := by
  rw [templateChains, List.map_filterMap, ChainEngine.hypothesizeFromFindings]
  refine List.filterMap_congr fun entry _ => ?_
  rw [Option.map_map]
  exact (Option.map_id' ..).symm

/-- The chains of the templates get their own tasks if each of them does. -/
theorem pendingVerificationTasks_templateChains
    (h : ∀ pair ∈ templateChains engine uuids findings,
      engine.tasksFor pair.2 = .ok (ownTasks pair.1 pair.2)) :
    engine.pendingVerificationTasks (engine.hypothesizeFromFindings uuids findings) =
      .ok ((templateChains engine uuids findings).flatMap fun pair => ownTasks pair.1 pair.2) := by
  rw [hypothesizeFromFindings_eq]
  refine pendingVerificationTasks_eq_ok_iff.mpr
    ⟨(templateChains engine uuids findings).map fun pair => ownTasks pair.1 pair.2, ?_, rfl⟩
  exact List.forall₂_map_left_iff.mpr (List.forall₂_map_right_iff.mpr (List.forall₂_same.mpr h))

/-- And only if: the tasks of a chain are as many as its own, so none of them can be in the place of
another. -/
theorem tasksFor_of_pendingVerificationTasks {tasks rest rest' : List PendingVerificationTask}
    (htasks : engine.pendingVerificationTasks (engine.hypothesizeFromFindings uuids findings) =
      .ok tasks)
    (h : tasks ++ rest =
      (templateChains engine uuids findings).flatMap (fun pair => ownTasks pair.1 pair.2) ++ rest') :
    ∀ pair ∈ templateChains engine uuids findings,
      engine.tasksFor pair.2 = .ok (ownTasks pair.1 pair.2) := by
  rw [hypothesizeFromFindings_eq] at htasks
  obtain ⟨parts, hparts, rfl⟩ := pendingVerificationTasks_eq_ok_iff.mp htasks
  have hpairs := List.forall₂_map_left_iff.mp hparts
  have hlengths : List.Forall₂ (fun pair part => part.length = (ownTasks pair.1 pair.2).length)
      (templateChains engine uuids findings) parts := by
    refine ((List.forall₂_and_left _ _).mpr
      ⟨fun pair hpair => mem_templateChains.mp hpair, hpairs⟩).imp ?_
    rintro pair part ⟨⟨number, hentry, hchain⟩, hpart⟩
    obtain ⟨first, hfirst⟩ := exists_templateFor (List.fst_mem_of_mem_zipIdx hentry)
    exact length_of_tasksFor hchain hfirst hpart
  rw [parts_eq_of_flatten hlengths h] at hpairs
  exact List.forall₂_same.mp (List.forall₂_map_right_iff.mp hpairs)

/-- The chains of the templates get their own tasks exactly if the templates read serve them. -/
theorem tasksFor_templateChains_iff :
    (∀ pair ∈ templateChains engine uuids findings,
      engine.tasksFor pair.2 = .ok (ownTasks pair.1 pair.2)) ↔
      ∀ template ∈ engine.templates, BindsSome template (validatedFindings findings) →
        ∀ first, engine.templateFor template.id = some first →
          Serves first template (validatedFindings findings) := by
  constructor
  · intro h template hmem hbinds first hfirst
    obtain ⟨number, hnumber, rfl⟩ := List.getElem_of_mem hmem
    have hsome : (ChainEngine.matchTemplate uuids number engine.templates[number]
        (validatedFindings findings)).isSome = true := isSome_matchTemplate_iff.mpr hbinds
    obtain ⟨chain, hchain⟩ := Option.isSome_iff_exists.mp hsome
    refine (tasksFor_eq_ownTasks_iff hchain hfirst).mp (h (_, chain) (mem_templateChains.mpr ?_))
    exact ⟨number, List.mk_mem_zipIdx_iff_getElem?.mpr (List.getElem?_eq_getElem hnumber), hchain⟩
  · intro h pair hpair
    obtain ⟨number, hentry, hchain⟩ := mem_templateChains.mp hpair
    have hmem := List.fst_mem_of_mem_zipIdx hentry
    obtain ⟨first, hfirst⟩ := exists_templateFor hmem
    have hbinds := isSome_matchTemplate_iff.mp (Option.isSome_iff_exists.mpr ⟨_, hchain⟩)
    exact (tasksFor_eq_ownTasks_iff hchain hfirst).mpr (h pair.1 hmem hbinds first hfirst)

/-- The chains of the proposals get tasks exactly if the templates of their hints are as long. -/
theorem tasksFor_proposalChains_iff :
    (∀ chain ∈ ChainEngine.hypothesizeFromProposals uuids proposals findings,
      ∃ tasks, engine.tasksFor chain = .ok tasks) ↔
      ∀ proposal ∈ proposals, 2 ≤ proposal.findingIds.length →
        ∀ template, engine.templateFor proposal.templateHint = some template →
          template.links.length = proposal.findingIds.length := by
  constructor
  · intro h proposal hmem htwo
    obtain ⟨number, hnumber, rfl⟩ := List.getElem_of_mem hmem
    have hsome : (ChainEngine.chainOfProposal uuids number (findingsById (validatedFindings findings))
        proposals[number]).isSome = true := isSome_chainOfProposal_iff.mpr htwo
    obtain ⟨chain, hchain⟩ := Option.isSome_iff_exists.mp hsome
    refine (tasksFor_chainOfProposal_iff hchain).mp (h chain (List.mem_filterMap.mpr ?_))
    exact ⟨(_, number), List.mk_mem_zipIdx_iff_getElem?.mpr (List.getElem?_eq_getElem hnumber), hchain⟩
  · intro h chain hchain
    obtain ⟨entry, hentry, hchain⟩ := List.mem_filterMap.mp hchain
    have htwo := isSome_chainOfProposal_iff.mp (Option.isSome_iff_exists.mpr ⟨_, hchain⟩)
    exact (tasksFor_chainOfProposal_iff hchain).mpr
      (h entry.1 (List.fst_mem_of_mem_zipIdx hentry) htwo)

end Engine

/-- **The engine gives the chains of one set of findings and proposals their tasks** exactly if the
templates it reads align with them: a proposal names as many findings as the template of its hint has
links, and of two templates with one id the first serves the chain of the other. -/
theorem tasksExact_iff (engine : ChainEngine) (uuids uuids' : ChainUuids)
    (findings : List CheckedFinding) (proposals : List ChainProposal) :
    TasksExact engine uuids uuids' findings proposals ↔ TasksAlign engine findings proposals := by
  constructor
  · rintro ⟨rest, h⟩
    obtain ⟨before, after, hbefore, hafter, heq⟩ := pendingVerificationTasks_append_eq_ok_iff.mp h
    refine ⟨?_, ?_⟩
    · exact tasksFor_proposalChains_iff.mp (exists_pendingVerificationTasks_iff.mp ⟨after, hafter⟩)
    · exact tasksFor_templateChains_iff.mp (tasksFor_of_pendingVerificationTasks hbefore heq.symm)
  · rintro ⟨hproposals, htemplates⟩
    obtain ⟨after, hafter⟩ := exists_pendingVerificationTasks_iff.mpr
      (tasksFor_proposalChains_iff.mpr hproposals)
    refine ⟨after, pendingVerificationTasks_append_eq_ok_iff.mpr ⟨_, _, ?_, hafter, rfl⟩⟩
    exact pendingVerificationTasks_templateChains (tasksFor_templateChains_iff.mpr htemplates)

/-- A model names three findings, with the hint of a template of two links: there is no task at all. -/
theorem three_findings_of_two_links :
    let engine : ChainEngine := ⟨[authBypassPlusIdor]⟩
    let proposal : ChainProposal :=
      ⟨"llm:test-model", "auth-bypass-plus-idor", ["finding-1", "finding-2", "finding-3"]⟩
    engine.pendingVerificationTasks (engine.hypothesizeFromFindings sampleUuids [] ++
        ChainEngine.hypothesizeFromProposals sampleUuids [proposal] []) = .error .valueError ∧
      ¬TasksExact engine sampleUuids sampleUuids [] [proposal] := by
  intro engine proposal
  have herror : engine.pendingVerificationTasks (engine.hypothesizeFromFindings sampleUuids [] ++
      ChainEngine.hypothesizeFromProposals sampleUuids [proposal] []) = .error .valueError := by
    decide +kernel
  refine ⟨herror, fun ⟨rest, h⟩ => ?_⟩
  rw [herror] at h
  cases h

end SecOpent
