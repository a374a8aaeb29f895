import SecOpent.ReasoningLoop.ChainBridge

/-!
# The bookkeeping of hypotheses

Each `sync` rebuilds the pending links from the chains of its findings, and leaves out those that were
marked after they had been shown. The store remembers ids; which link an id stands for is settled by the
link alone, so neither the findings nor the ids that the engine mints matter.

## Main definitions

* `TemplateLink`: a link of a template, with its position
* `pendingLinks`: the links that the chains of a set of findings leave pending
* `Surfaced`, `MarkedAfterSurfacing`: what a list of calls has shown and marked

## Main results

* `syncLinks_spec`, `sync_spec`: what `sync` answers and what it remembers
* `agrees_run`: the store remembers what was shown and what was marked
* `bridge_bookkeeping`: the answers of `sync` in every run
-/

namespace SecOpent

open Python

/-! ## Links of templates -/

/-- A link of a template, with its position. -/
structure TemplateLink where
  template : AttackChainTemplate
  index : ℕ
  spec : ChainLinkSpec

/-- The links of the templates of an engine. -/
def ChainEngine.links (engine : ChainEngine) : List TemplateLink :=
  engine.templates.flatMap fun template => template.links.zipIdx.map fun entry =>
    ⟨template, entry.2, entry.1⟩

/-- The id under which a link is pending. -/
def TemplateLink.id (H : Sha256) (link : TemplateLink) : String :=
  canonicalId H link.template.id link.index link.spec.cweAny

/-- What is shown of a pending link. -/
def TemplateLink.hypothesis (H : Sha256) (link : TemplateLink) : PendingHypothesis where
  hypothesisId := link.id H
  description := evidenceText link.spec.cweAny link.spec.assetPattern
  neededCwe := link.spec.cweAny

/-- The links from a position on that a chain of a template leaves pending. -/
def pendingFrom (template : AttackChainTemplate) :
    List ChainLink → List ChainLinkSpec → ℕ → List TemplateLink
  | link :: links, spec :: specs, index =>
    if link.isConfirmed then pendingFrom template links specs (index + 1)
    else ⟨template, index, spec⟩ :: pendingFrom template links specs (index + 1)
  | _, _, _ => []

/-- The links that the chains of a set of findings leave pending. -/
def pendingLinks (engine : ChainEngine) (uuids : ChainUuids) (findings : List CheckedFinding) :
    List TemplateLink :=
  (templateChains engine uuids findings).flatMap fun pair =>
    pendingFrom pair.1 pair.2.links pair.1.links 0

theorem mem_pendingFrom {template : AttackChainTemplate} {links : List ChainLink}
    {specs : List ChainLinkSpec} {offset : ℕ} {l : TemplateLink} :
    l ∈ pendingFrom template links specs offset ↔
      l.template = template ∧ ∃ i, l.index = offset + i ∧ specs[i]? = some l.spec ∧
        ∃ link, links[i]? = some link ∧ link.isConfirmed = false := by
  induction links generalizing specs offset with
  | nil => simp [pendingFrom]
  | cons link links ih =>
    cases specs with
    | nil => simp [pendingFrom]
    | cons spec specs =>
      -- The first link is at the offset, and the others are one position further.
      have hsplit : (∃ i, l.index = offset + i ∧ (spec :: specs)[i]? = some l.spec ∧
          ∃ link', (link :: links)[i]? = some link' ∧ link'.isConfirmed = false) ↔
          (l.index = offset ∧ spec = l.spec ∧ link.isConfirmed = false) ∨
            ∃ i, l.index = offset + 1 + i ∧ specs[i]? = some l.spec ∧
              ∃ link', links[i]? = some link' ∧ link'.isConfirmed = false := by
        constructor
        · rintro ⟨i, hindex, hspec, link', hlink', hpending⟩
          cases i with
          | zero =>
            obtain rfl := Option.some.inj hlink'
            exact .inl ⟨hindex, Option.some.inj hspec, hpending⟩
          | succ i => exact .inr ⟨i, by omega, hspec, link', hlink', hpending⟩
        · rintro (⟨hindex, hspec, hpending⟩ | ⟨i, hindex, hspec, link', hlink', hpending⟩)
          · exact ⟨0, hindex, congrArg some hspec, link, rfl, hpending⟩
          · exact ⟨i + 1, by omega, hspec, link', hlink', hpending⟩
      rw [hsplit, pendingFrom]
      cases hlink : link.isConfirmed with
      | true => simp [ih]
      | false =>
        rw [if_neg Bool.false_ne_true, List.mem_cons, ih, and_or_left]
        refine or_congr ?_ Iff.rfl
        constructor
        · rintro rfl
          exact ⟨rfl, rfl, rfl, rfl⟩
        · rintro ⟨rfl, rfl, rfl, -⟩
          rfl

/-- A link is pending if the chain of its template has it unconfirmed. -/
theorem mem_pendingLinks {engine : ChainEngine} {uuids : ChainUuids} {findings : List CheckedFinding}
    {l : TemplateLink} :
    l ∈ pendingLinks engine uuids findings ↔
      ∃ chain, (l.template, chain) ∈ templateChains engine uuids findings ∧
        l.template.links[l.index]? = some l.spec ∧
        ∃ link, chain.links[l.index]? = some link ∧ link.isConfirmed = false := by
  rw [pendingLinks, List.mem_flatMap]
  constructor
  · rintro ⟨⟨template, chain⟩, hpair, hl⟩
    obtain ⟨rfl, i, hindex, hspec, hlink⟩ := mem_pendingFrom.mp hl
    rw [Nat.zero_add] at hindex
    subst hindex
    exact ⟨chain, hpair, hspec, hlink⟩
  · rintro ⟨chain, hpair, hspec, hlink⟩
    exact ⟨_, hpair, mem_pendingFrom.mpr ⟨rfl, l.index, (Nat.zero_add _).symm, hspec, hlink⟩⟩

theorem mem_links_of_pending {engine : ChainEngine} {uuids : ChainUuids}
    {findings : List CheckedFinding} {l : TemplateLink}
    (h : l ∈ pendingLinks engine uuids findings) : l ∈ engine.links := by
  obtain ⟨chain, hpair, hspec, -⟩ := mem_pendingLinks.mp h
  obtain ⟨number, hentry, -⟩ := mem_templateChains.mp hpair
  refine List.mem_flatMap.mpr ⟨l.template, List.fst_mem_of_mem_zipIdx hentry, List.mem_map.mpr ?_⟩
  exact ⟨(l.spec, l.index), List.mk_mem_zipIdx_iff_getElem?.mpr hspec, rfl⟩

/-! ## What the store remembers -/

/-- A store that remembers some ids more, none of them as progressed. -/
structure BridgeRecorded (store store' : HypothesesStore) (ids : List String) : Prop where
  progressed : ∀ id, HypothesesStore.progressed store' id = HypothesesStore.progressed store id
  known : ∀ id, (store'.get? id).isSome = true ↔ (store.get? id).isSome = true ∨ id ∈ ids

theorem BridgeRecorded.refl (store : HypothesesStore) : BridgeRecorded store store [] :=
  ⟨fun _ => rfl, fun _ => by simp⟩

theorem BridgeRecorded.trans {store store' store'' : HypothesesStore} {ids ids' : List String}
    (h : BridgeRecorded store store' ids) (h' : BridgeRecorded store' store'' ids') :
    BridgeRecorded store store'' (ids ++ ids') := by
  refine ⟨fun id => (h'.progressed id).trans (h.progressed id), fun id => ?_⟩
  rw [h'.known, h.known, List.mem_append, or_assoc]

/-- `record` remembers an id, unless it is there already. -/
theorem recorded_record (store : HypothesesStore) {new : HypothesisRecord}
    (hnew : new.progressed = false) :
    BridgeRecorded store (HypothesesStore.record store new) [new.hypothesisId] := by
  rw [HypothesesStore.record]
  cases hget : store.get? new.hypothesisId with
  -- The id is there, with what was marked of it: nothing is overwritten.
  | some existing =>
    refine ⟨fun _ => rfl, fun id => ?_⟩
    rw [List.mem_singleton]
    refine (or_iff_left_of_imp ?_).symm
    rintro rfl
    rw [hget]
    rfl
  | none =>
    refine ⟨fun id => ?_, fun id => ?_⟩
    · rw [HypothesesStore.progressed, HypothesesStore.progressed, Dict.get?_set]
      split
      next hid => rw [hid, hget]; exact hnew
      next => rfl
    · rw [Dict.get?_set, List.mem_singleton]
      split
      next hid => exact iff_of_true rfl (.inr hid)
      next hid => exact (or_iff_left hid).symm

/-- `mark_progress` marks an id that is there, and no other. -/
theorem progressed_markProgress (store : HypothesesStore) (marked id : String) :
    HypothesesStore.progressed (HypothesesStore.markProgress store marked) id = true ↔
      HypothesesStore.progressed store id = true ∨
        id = marked ∧ (store.get? marked).isSome = true := by
  rw [HypothesesStore.markProgress]
  cases hget : store.get? marked with
  | none => simp
  | some existing =>
    by_cases hdone : existing.progressed = true
    · simp only [hdone, if_true, Option.isSome_some, and_true]
      refine (or_iff_left_of_imp ?_).symm
      rintro rfl
      rw [HypothesesStore.progressed, hget]
      exact hdone
    · dsimp only
      rw [if_neg hdone, HypothesesStore.progressed, HypothesesStore.progressed, Dict.get?_set]
      split
      next hid => exact iff_of_true rfl (.inr ⟨hid, rfl⟩)
      next hid => exact (or_iff_left fun h => hid h.1).symm

theorem known_markProgress (store : HypothesesStore) (marked id : String) :
    ((HypothesesStore.markProgress store marked).get? id).isSome = (store.get? id).isSome := by
  rw [HypothesesStore.markProgress]
  cases hget : store.get? marked with
  | none => rfl
  | some existing =>
    by_cases hdone : existing.progressed = true
    · simp only [hdone, if_true]
    · dsimp only
      rw [if_neg hdone, Dict.get?_set]
      split
      next hid => rw [hid, hget]; rfl
      next => rfl

/-! ## One synchronization -/

section Sync

variable (H : Sha256)

/-- The links that are shown: those not marked as progressed. -/
def shown (store : HypothesesStore) (links : List TemplateLink) : List TemplateLink :=
  links.filter fun l => !HypothesesStore.progressed store (l.id H)

theorem shown_of_recorded {store store' : HypothesesStore} {ids : List String}
    (h : BridgeRecorded store store' ids) (links : List TemplateLink) :
    shown H store' links = shown H store links :=
  List.filter_congr fun l _ => by rw [h.progressed]

/-- A state after links were shown, with the tasks that are left. -/
structure Shown (s s' : SyncState) (links : List TemplateLink)
    (rest : List PendingVerificationTask) : Prop where
  tasks : s'.tasks = rest
  results : s'.results = s.results ++ (shown H s.store links).map (TemplateLink.hypothesis H)
  recorded : BridgeRecorded s.store s'.store ((shown H s.store links).map (TemplateLink.id H))

theorem Shown.append {s s' s'' : SyncState} {links links' : List TemplateLink}
    {rest rest' : List PendingVerificationTask} (h : Shown H s s' links rest)
    (h' : Shown H s' s'' links' rest') : Shown H s s'' (links ++ links') rest' := by
  have hshown : shown H s.store (links ++ links') =
      shown H s.store links ++ shown H s'.store links' := by
    rw [shown_of_recorded H h.recorded, shown, shown, shown, List.filter_append]
  refine ⟨h'.tasks, ?_, ?_⟩
  · rw [h'.results, h.results, hshown, List.map_append, List.append_assoc]
  · rw [hshown, List.map_append]
    exact h.recorded.trans h'.recorded

/-- A link that was marked takes its task, and is not shown. -/
theorem Shown.of_progressed {s : SyncState} (l : TemplateLink) (rest : List PendingVerificationTask)
    (h : HypothesesStore.progressed s.store (l.id H) = true) :
    Shown H s { s with tasks := rest } [l] rest := by
  have hshown : shown H s.store [l] = [] := by simp [shown, h]
  refine ⟨rfl, ?_, ?_⟩
  · rw [hshown]
    exact (List.append_nil _).symm
  · rw [hshown]
    exact BridgeRecorded.refl _

/-- A link that was not marked is remembered, and shown. -/
theorem Shown.of_recorded {s : SyncState} (l : TemplateLink) (chainId : String)
    (rest : List PendingVerificationTask)
    (h : ¬HypothesesStore.progressed s.store (l.id H) = true) :
    Shown H s { tasks := rest
                store := HypothesesStore.record s.store ⟨l.id H, chainId, l.index, l.spec.cweAny, false⟩
                results := s.results ++ [l.hypothesis H] } [l] rest := by
  have hshown : shown H s.store [l] = [l] := by simp [shown, h]
  refine ⟨rfl, ?_, ?_⟩
  · rw [hshown]
    rfl
  · rw [hshown]
    exact recorded_record s.store rfl

/-- The links of a chain, with its own tasks. -/
theorem syncLinks_spec {template : AttackChainTemplate} {chain : AttackChain}
    (hid : chain.templateId = template.id) {links : List ChainLink} {specs : List ChainLinkSpec}
    (hlength : specs.length = links.length) (offset : ℕ) (s : SyncState)
    (rest : List PendingVerificationTask)
    (htasks : s.tasks =
      (links.zip specs).filterMap (fun pair => ChainEngine.taskOf chain pair.1 pair.2) ++ rest) :
    Shown H s (ChainBridge.syncLinks H chain (links.zipIdx offset) s)
      (pendingFrom template links specs offset) rest := by
  induction links generalizing specs offset s with
  | nil =>
    obtain rfl := List.length_eq_zero_iff.mp hlength
    exact ⟨htasks, (List.append_nil _).symm, BridgeRecorded.refl _⟩
  | cons link links ih =>
    obtain ⟨spec, specs, rfl⟩ := List.exists_cons_of_length_eq_add_one hlength
    rw [filterMap_taskOf_cons] at htasks
    rw [List.zipIdx_cons, ChainBridge.syncLinks, pendingFrom]
    cases hlink : link.isConfirmed with
    | true =>
      rw [ChainEngine.taskOf, if_pos hlink] at htasks
      exact ih (Nat.succ.inj hlength) (offset + 1) s htasks
    | false =>
      rw [ChainEngine.taskOf, if_neg (by rw [hlink]; exact Bool.false_ne_true)] at htasks
      have hrest := ih (Nat.succ.inj hlength) (offset + 1)
      have hlinkId : canonicalId H chain.templateId offset spec.cweAny =
          (TemplateLink.mk template offset spec).id H :=
        congrArg (canonicalId H · offset spec.cweAny) hid
      -- The task at the head is the one of this link.
      obtain ⟨tail, htail⟩ : ∃ tail, tail =
          (links.zip specs).filterMap (fun pair => ChainEngine.taskOf chain pair.1 pair.2) ++ rest :=
        ⟨_, rfl⟩
      rw [Option.toList_some, List.singleton_append, List.cons_append, ← htail] at htasks
      rw [if_neg Bool.false_ne_true, if_neg Bool.false_ne_true, htasks]
      dsimp only
      rw [hlinkId]
      -- A link that was marked takes its task, and is not shown.
      split
      next hprogressed =>
        have hstep := Shown.of_progressed H ⟨template, offset, spec⟩ tail hprogressed
        exact hstep.append H (hrest _ htail)
      next hprogressed =>
        have hstep := Shown.of_recorded H ⟨template, offset, spec⟩ chain.id tail hprogressed
        exact hstep.append H (hrest _ htail)

/-- The chains of templates, with their own tasks. -/
theorem syncChains_spec {pairs : List (AttackChainTemplate × AttackChain)}
    (hpairs : ∀ pair ∈ pairs, pair.2.templateId = pair.1.id ∧
      pair.1.links.length = pair.2.links.length) (s : SyncState)
    (htasks : s.tasks = pairs.flatMap fun pair => ownTasks pair.1 pair.2) :
    Shown H s (ChainBridge.syncChains H (pairs.map Prod.snd) s)
      (pairs.flatMap fun pair => pendingFrom pair.1 pair.2.links pair.1.links 0) [] := by
  induction pairs generalizing s with
  | nil => exact ⟨htasks, (List.append_nil _).symm, BridgeRecorded.refl _⟩
  | cons pair pairs ih =>
    obtain ⟨⟨hid, hlength⟩, hpairs⟩ := List.forall_mem_cons.mp hpairs
    have hchain := syncLinks_spec H hid hlength 0 s _ htasks
    exact hchain.append H (ih hpairs _ hchain.tasks)

variable {engine : ChainEngine}

/-- With distinct ids, each template is the one that is read by its id. -/
theorem templateFor_of_nodup (hids : (engine.templates.map AttackChainTemplate.id).Nodup)
    {template : AttackChainTemplate} (hmem : template ∈ engine.templates) :
    engine.templateFor template.id = some template := by
  obtain ⟨first, hfirst⟩ := exists_templateFor hmem
  have hid : first.id = template.id := by simpa using List.find?_some hfirst
  rw [hfirst, List.inj_on_of_nodup_map hids (List.mem_of_find?_eq_some hfirst) hmem hid]

/-- **What `sync` answers**: the pending links that were not marked, whatever ids the engine minted. -/
theorem sync_spec (hids : (engine.templates.map AttackChainTemplate.id).Nodup) (uuids : ChainUuids)
    (findings : List CheckedFinding) (store : HypothesesStore) :
    ∃ store', ChainBridge.sync H engine uuids findings store =
        (.ok ((shown H store (pendingLinks engine uuids findings)).map (TemplateLink.hypothesis H)),
          store') ∧
      BridgeRecorded store store' ((shown H store (pendingLinks engine uuids findings)).map
        (TemplateLink.id H)) := by
  -- No two templates have one id, so each chain gets its own tasks.
  have htasks : ∀ pair ∈ templateChains engine uuids findings,
      engine.tasksFor pair.2 = .ok (ownTasks pair.1 pair.2) := by
    refine tasksFor_templateChains_iff.mpr fun template hmem _ first hfirst => ?_
    obtain rfl := Option.some.inj ((templateFor_of_nodup hids hmem).symm.trans hfirst)
    exact ⟨rfl, fun _ _ => rfl⟩
  have hpairs : ∀ pair ∈ templateChains engine uuids findings, pair.2.templateId = pair.1.id ∧
      pair.1.links.length = pair.2.links.length := by
    intro pair hpair
    obtain ⟨number, -, hchain⟩ := mem_templateChains.mp hpair
    exact ⟨(matchTemplate_spec hchain).1, (length_links_of_matchTemplate hchain).symm⟩
  have hshown := syncChains_spec H hpairs
    ⟨(templateChains engine uuids findings).flatMap fun pair => ownTasks pair.1 pair.2, store, []⟩ rfl
  refine ⟨_, ?_, hshown.recorded⟩
  rw [ChainBridge.sync, pendingVerificationTasks_templateChains htasks]
  dsimp only
  rw [hypothesizeFromFindings_eq, hshown.results]
  rfl

end Sync

/-! ## What a run has shown -/

/-- An id that some `sync` has shown. -/
def Surfaced (history : List ChainBridge.Event) (id : String) : Prop :=
  ∃ results, .synced (.ok results) ∈ history ∧ ∃ h ∈ results, h.hypothesisId = id

/-- An id that was marked after it had been shown. -/
def MarkedAfterSurfacing (history : List ChainBridge.Event) (id : String) : Prop :=
  ∃ before after, history = before ++ .marked id :: after ∧ Surfaced before id

theorem surfaced_append_singleton (history : List ChainBridge.Event) (event : ChainBridge.Event)
    (id : String) :
    Surfaced (history ++ [event]) id ↔
      Surfaced history id ∨
        ∃ results, event = .synced (.ok results) ∧ ∃ h ∈ results, h.hypothesisId = id := by
  constructor
  · rintro ⟨results, hmem, hshown⟩
    rcases List.mem_append.mp hmem with hmem | hmem
    · exact .inl ⟨results, hmem, hshown⟩
    · exact .inr ⟨results, (List.mem_singleton.mp hmem).symm, hshown⟩
  · rintro (⟨results, hmem, hshown⟩ | ⟨results, rfl, hshown⟩)
    · exact ⟨results, List.mem_append_left _ hmem, hshown⟩
    · exact ⟨results, List.mem_append_right _ (List.mem_singleton.mpr rfl), hshown⟩

theorem marked_append_singleton (history : List ChainBridge.Event) (event : ChainBridge.Event)
    (id : String) :
    MarkedAfterSurfacing (history ++ [event]) id ↔
      MarkedAfterSurfacing history id ∨ event = .marked id ∧ Surfaced history id := by
  constructor
  · rintro ⟨before, after, heq, hshown⟩
    -- The mark is the last event, or it was there before.
    rcases List.eq_nil_or_concat after with rfl | ⟨after, last, rfl⟩
    · obtain ⟨rfl, hlast⟩ := List.append_inj' heq rfl
      exact .inr ⟨List.singleton_inj.mp hlast, hshown⟩
    · rw [List.concat_eq_append, ← List.cons_append, ← List.append_assoc] at heq
      obtain ⟨rfl, -⟩ := List.append_inj' heq rfl
      exact .inl ⟨before, after, rfl, hshown⟩
  · rintro (⟨before, after, rfl, hshown⟩ | ⟨rfl, hshown⟩)
    · exact ⟨before, after ++ [event], by simp, hshown⟩
    · exact ⟨history, [], rfl, hshown⟩

/-- The store of a bridge with this history. -/
structure StoreAgrees (store : HypothesesStore) (history : List ChainBridge.Event) : Prop where
  known : ∀ id, (store.get? id).isSome = true ↔ Surfaced history id
  progressed : ∀ id, HypothesesStore.progressed store id = true ↔ MarkedAfterSurfacing history id

section Runs

variable (H : Sha256) {engine : ChainEngine}

/-- One call keeps the store and the history in agreement. -/
theorem agrees_act (hids : (engine.templates.map AttackChainTemplate.id).Nodup)
    {store : HypothesesStore} {history : List ChainBridge.Event} (h : StoreAgrees store history)
    (call : ChainBridge.Call) :
    StoreAgrees (ChainBridge.act H engine store call).2
      (history ++ [(ChainBridge.act H engine store call).1]) := by
  cases call with
  | markPendingProgress marked =>
    refine ⟨fun id => ?_, fun id => ?_⟩
    · rw [surfaced_append_singleton, ← h.known]
      refine Iff.trans (Bool.eq_iff_iff.mp (known_markProgress store marked id)) ?_
      exact (or_iff_left fun ⟨_, heq, _⟩ => by cases heq).symm
    · rw [marked_append_singleton, ← h.progressed, ← h.known]
      refine (progressed_markProgress store marked id).trans (or_congr_right ?_)
      constructor
      · rintro ⟨rfl, hknown⟩
        exact ⟨rfl, hknown⟩
      · rintro ⟨heq, hknown⟩
        obtain rfl := ChainBridge.Event.marked.inj heq
        exact ⟨rfl, hknown⟩
  | sync uuids findings =>
    obtain ⟨store', hsync, hrecorded⟩ := sync_spec H hids uuids findings store
    rw [ChainBridge.act, hsync]
    refine ⟨fun id => ?_, fun id => ?_⟩
    · rw [surfaced_append_singleton, hrecorded.known, h.known]
      refine or_congr_right ?_
      constructor
      · intro hmem
        obtain ⟨l, hl, hid⟩ := List.mem_map.mp hmem
        exact ⟨_, rfl, _, List.mem_map_of_mem hl, hid⟩
      · rintro ⟨results, heq, shownHypothesis, hmem, hid⟩
        obtain rfl := Except.ok.inj (ChainBridge.Event.synced.inj heq)
        obtain ⟨l, hl, rfl⟩ := List.mem_map.mp hmem
        exact List.mem_map.mpr ⟨l, hl, hid⟩
    · rw [marked_append_singleton, hrecorded.progressed, h.progressed]
      exact (or_iff_left fun ⟨heq, _⟩ => by cases heq).symm

/-- **The store remembers what was shown, and what was marked after it was.** -/
theorem agrees_run (hids : (engine.templates.map AttackChainTemplate.id).Nodup)
    (calls : List ChainBridge.Call) :
    StoreAgrees (ChainBridge.run H engine calls).2 (ChainBridge.run H engine calls).1 := by
  -- On the last call, since the history grows at its end.
  induction calls using List.reverseRecOn with
  | nil =>
    refine ⟨fun id => iff_of_false (by simp [ChainBridge.run]) ?_, fun id => iff_of_false ?_ ?_⟩
    · rintro ⟨results, hmem, -⟩
      cases hmem
    · simp [ChainBridge.run, HypothesesStore.progressed]
    · rintro ⟨before, after, heq, -⟩
      exact absurd heq.symm (by simp [ChainBridge.run])
  | append_singleton calls call ih =>
    rw [ChainBridge.run, List.foldl_append]
    exact agrees_act H hids ih call

end Runs

/-- **The bookkeeping of a bridge.** After any calls, `sync` answers. What it shows is a pending link of
the chains of its findings, under the id of that link, which is the id of no other link, with the CWE it
needs; no link is shown that was marked since it was first shown; and every pending link that was not is
shown. The ids that the engine mints for its chains and links do not matter. -/
theorem bridge_bookkeeping (H : Sha256) (engine : ChainEngine)
    (hids : (engine.templates.map AttackChainTemplate.id).Nodup)
    (hcollision : ∀ l ∈ engine.links, ∀ l' ∈ engine.links, l.id H = l'.id H → l = l')
    (calls : List ChainBridge.Call) (uuids : ChainUuids) (findings : List CheckedFinding) :
    let (history, store) := ChainBridge.run H engine calls
    ∃ results, (ChainBridge.sync H engine uuids findings store).1 = .ok results ∧
      (∀ h ∈ results, ∃ l ∈ pendingLinks engine uuids findings, h.hypothesisId = l.id H ∧
        h.neededCwe = l.spec.cweAny ∧ ∀ l' ∈ engine.links, l'.id H = h.hypothesisId → l' = l) ∧
      (∀ h ∈ results, ¬MarkedAfterSurfacing history h.hypothesisId) ∧
      ∀ l ∈ pendingLinks engine uuids findings, ¬MarkedAfterSurfacing history (l.id H) →
        l.hypothesis H ∈ results := by
  have hagrees := agrees_run H hids calls
  obtain ⟨store', hsync, -⟩ := sync_spec H hids uuids findings (ChainBridge.run H engine calls).2
  refine ⟨_, congrArg Prod.fst hsync, ?_, ?_, ?_⟩
  · intro h hmem
    obtain ⟨l, hl, rfl⟩ := List.mem_map.mp hmem
    have hpending := List.mem_of_mem_filter hl
    refine ⟨l, hpending, rfl, rfl, fun l' hl' hid => ?_⟩
    exact hcollision l' hl' l (mem_links_of_pending hpending) hid
  · intro h hmem hmarked
    obtain ⟨l, hl, rfl⟩ := List.mem_map.mp hmem
    have hprogressed := (hagrees.progressed _).mpr hmarked
    have hnot := (List.mem_filter.mp hl).2
    rw [Bool.not_eq_true'] at hnot
    exact Bool.false_ne_true (hnot.symm.trans hprogressed)
  · intro l hl hmarked
    refine List.mem_map_of_mem (List.mem_filter.mpr ⟨hl, ?_⟩)
    rw [Bool.not_eq_true', ← Bool.not_eq_true, hagrees.progressed]
    exact hmarked

/-- The digests of the two links of `auth-bypass-plus-idor`. -/
def linkDigest : Sha256 where
  hexdigest text :=
    if text = "auth-bypass-plus-idor:0:CWE-287,CWE-288".toList then
      "8b8f89732a534e646eb2a28d2a86a1bdfca7fea0fd2b1d7d7d0bc0c8760a0044".toList
    else "6709c8271d465f9a4efb75803c7abcbee02b602bfb62da5a21d28edbc1b0268e".toList
  hex text := by
    split_ifs
    · exact List.forall_iff_forall_mem.mp (by decide +kernel)
    · exact List.forall_iff_forall_mem.mp (by decide +kernel)
  ne_nil text := by
    split_ifs
    · decide
    · decide

theorem canonicalId_first :
    canonicalId linkDigest "auth-bypass-plus-idor" 0 ["CWE-287", "CWE-288"] = "hyp-8b8f89732a53" := by
  have hsorted : sortedTexts ["CWE-287", "CWE-288"] = ["CWE-287", "CWE-288"] := by
    simp [sortedTexts, List.mergeSort, List.MergeSort.Internal.splitInTwo]
  rw [canonicalId, hsorted]
  decide +kernel

theorem canonicalId_second :
    canonicalId linkDigest "auth-bypass-plus-idor" 1 ["CWE-639", "CWE-284"] = "hyp-6709c8271d46" := by
  have hsorted : sortedTexts ["CWE-639", "CWE-284"] = ["CWE-284", "CWE-639"] := by
    simp [sortedTexts, List.mergeSort, List.MergeSort.Internal.splitInTwo]
  rw [canonicalId, hsorted]
  decide +kernel

/-- The two links have two ids. -/
theorem linkDigest_injective_on : ∀ l ∈ (ChainEngine.mk [authBypassPlusIdor]).links,
    ∀ l' ∈ (ChainEngine.mk [authBypassPlusIdor]).links,
      l.id linkDigest = l'.id linkDigest → l = l' := by
  have hlinks : (ChainEngine.mk [authBypassPlusIdor]).links =
      [⟨authBypassPlusIdor, 0, { cweAny := ["CWE-287", "CWE-288"] }⟩,
        ⟨authBypassPlusIdor, 1, { cweAny := ["CWE-639", "CWE-284"] }⟩] := rfl
  have hne : canonicalId linkDigest "auth-bypass-plus-idor" 0 ["CWE-287", "CWE-288"] ≠
      canonicalId linkDigest "auth-bypass-plus-idor" 1 ["CWE-639", "CWE-284"] := by
    rw [canonicalId_first, canonicalId_second]
    decide
  rw [hlinks]
  simp only [List.mem_cons, List.not_mem_nil, or_false]
  rintro l (rfl | rfl) l' (rfl | rfl) heq
  · rfl
  · exact absurd heq hne
  · exact absurd heq.symm hne
  · rfl

/-- The bypass is validated; the second link is pending, and is marked. -/
theorem marked_link_bookkeeping :
    let engine : ChainEngine := ⟨[authBypassPlusIdor]⟩
    let findings := [sampleFinding "finding-1" .medium "CWE-287" .validated (by decide)]
    let calls : List ChainBridge.Call :=
      [.sync sampleUuids findings, .markPendingProgress "hyp-6709c8271d46"]
    let (history, store) := ChainBridge.run linkDigest engine calls
    ∃ results, (ChainBridge.sync linkDigest engine sampleUuids findings store).1 = .ok results ∧
      (∀ h ∈ results, ∃ l ∈ pendingLinks engine sampleUuids findings, h.hypothesisId = l.id linkDigest ∧
        h.neededCwe = l.spec.cweAny ∧
        ∀ l' ∈ engine.links, l'.id linkDigest = h.hypothesisId → l' = l) ∧
      (∀ h ∈ results, ¬MarkedAfterSurfacing history h.hypothesisId) ∧
      ∀ l ∈ pendingLinks engine sampleUuids findings,
        ¬MarkedAfterSurfacing history (l.id linkDigest) → l.hypothesis linkDigest ∈ results := by
  intro engine findings calls
  exact bridge_bookkeeping linkDigest engine (by decide) linkDigest_injective_on calls sampleUuids
    findings

end SecOpent
