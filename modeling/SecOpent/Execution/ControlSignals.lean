import SecOpent.Execution.System

/-!
# Requests and the step gate

A gate that finds a signal reads the row of its assessment and, in a second step, writes the row back
with the signal cleared; `pause`, `resume` and `cancel` write the row in between as they like. No
request is lost in the runs in which no request comes between a gate's read and its write.

## Main definitions

* `Drain.holdsSignal`: a gate is between its read and its write
* `World.AvoidsGates`: the condition on one request, read in the state before it
* `World.ReadsAgree`: what a gate has read is cancelled exactly if the row is

## Main results

* `ReadsAgree.step`, `ReadsAgree.cancelled_step`: a cancelled row stays cancelled
* `Requested.step`: a request stays on the row until a gate checks it
* `requests_kept`: no request is lost
-/

namespace SecOpent

open Python Transition

/-- The gate of the thread has read a signal and not written the row back yet. -/
def Drain.holdsSignal (d : Drain) : Bool :=
  match d.phase with
  | .draining _ _ _ (.signal _) => true
  | _ => false

theorem Drain.holdsSignal_iff {d : Drain} : d.holdsSignal = true ↔
    ∃ plan scope run read, d.phase = .draining plan scope run (.signal read) := by
  unfold holdsSignal
  split
  next plan scope run read h => simp [h]
  next h =>
    constructor
    · intro hfalse
      cases hfalse
    · rintro ⟨plan, scope, run, read, hphase⟩
      exact absurd hphase (h plan scope run read)

/-- The assessment that a request is about, and the signal it sets. -/
def ServiceCall.request : ServiceCall → Option (String × ControlState)
  | .pause assessmentId => some (assessmentId, .pauseRequested)
  | .resume assessmentId => some (assessmentId, .resumeRequested)
  | .cancel assessmentId => some (assessmentId, .cancelRequested)
  | _ => none

theorem request_ne_none {call : ServiceCall} {id : String} {signal : ControlState}
    (h : call.request = some (id, signal)) : signal ≠ .none := by
  cases call <;> cases h <;> decide

/-! ## What a call leaves alone -/

section Serve

variable {U : Unicode} {H : CanonicalDigest} {service : AssessmentService}
  {repo repo' : Repositories} {id : String} {row : Assessment}

theorem moveTo_kept {assessmentId : String} {target : AssessmentStatus}
    {control : Option ControlState}
    (h : AssessmentService.moveTo repo assessmentId target control = .ok repo')
    (hrow : repo.assessments.get? id = some row)
    (hne : id = assessmentId → target ∉ allowedTransitions row.status) :
    repo'.assessments.get? id = some row := by
  obtain ⟨found, hfound, htarget, rfl⟩ := moveTo_ok_iff.mp h
  have hkey := Table.key_of_get? hfound
  rw [Repositories.addAssessment, Table.get?_put, if_neg]
  · exact hrow
  · intro hid
    have hsame : id = assessmentId := hid.trans hkey
    rw [hsame, hfound] at hrow
    cases hrow
    exact hne hsame htarget

/-- A request moves the row of its assessment and sets the signal. -/
theorem serve_request {call : ServiceCall} {signal : ControlState}
    (h : serve U H service repo call = .ok repo') (hrequest : call.request = some (id, signal)) :
    ∃ found target, repo.assessments.get? id = some found ∧
      target ∈ allowedTransitions found.status ∧
      repo' = repo.addAssessment { found with status := target, control := signal } := by
  cases call with
  | pause | resume | cancel =>
    cases hrequest
    obtain ⟨found, hfound, htarget, rfl⟩ := moveTo_ok_iff.mp h
    exact ⟨found, _, hfound, htarget, rfl⟩
  | _ => cases hrequest

/-- **A started assessment is written by requests about it only**, among the calls from outside. -/
theorem serve_kept {call : ServiceCall} (h : serve U H service repo call = .ok repo')
    (hfresh : call.TokenFresh repo) (hexternal : call.isExternal = true)
    (hrow : repo.assessments.get? id = some row) (hbegun : row.status.begun = true)
    (hrequest : ∀ signal, call.request ≠ some (id, signal)) :
    repo'.assessments.get? id = some row := by
  have hfrom : ∀ {target : AssessmentStatus}, target.begun = false →
      target ∉ allowedTransitions row.status := by
    intro target htarget hmem
    simp [begun_of_allowed hbegun hmem] at htarget
  -- A row that was not started is the row of another assessment.
  have hput : ∀ {key : String} {found written : Assessment},
      repo.assessments.get? key = some found → found.status.begun = false →
      written.id = found.id → (repo.assessments.put written).get? id = some row := by
    intro key found written hfound hstatus hsame
    rw [Table.get?_put, if_neg]
    · exact hrow
    · intro hid
      rw [hid, hsame, Table.key_of_get? hfound, hfound] at hrow
      cases hrow
      simp [hbegun] at hstatus
  cases call with
  | create token projectId scopeSnapshotId mode =>
    obtain ⟨written, hwritten, h⟩ := bind_eq_ok_iff.mp h
    cases h
    obtain rfl := Assessment.create_ok hwritten
    rw [Repositories.addAssessment, Table.get?_put, if_neg]
    · exact hrow
    · intro hid
      rw [hid, show repo.assessments.get? ("asm-" ++ token) = none from hfresh] at hrow
      cases hrow
  | attachPlan token assessmentId steps =>
    obtain ⟨found, plan, hfound, hstatus, -, -, rfl⟩ := attachPlan_ok h
    refine hput hfound ?_ rfl
    cases hs : found.status <;> simp_all [allowedTransitions, AssessmentStatus.begun]
  | approve token call now =>
    cases happrove : service.approve U H repo token call now with
    | error e => simp [serve, happrove, Except.map] at h
    | ok result =>
      simp only [serve, happrove, Except.map] at h
      cases h
      obtain ⟨approvedBy, found, plan, -, hfound, -, hstatus, -, -, -, hrepo⟩ := approve_ok happrove
      rw [hrepo]
      exact hput hfound (by rw [hstatus]; rfl) rfl
  | reject assessmentId reason actorRole =>
    exact moveTo_kept (reject_ok h) hrow fun _ => hfrom rfl
  | start assessmentId actorRole grantId now =>
    refine moveTo_kept (start_ok h) hrow fun _ hmem => ?_
    cases hs : row.status <;> simp_all [allowedTransitions, AssessmentStatus.begun]
  | pause assessmentId | resume assessmentId | cancel assessmentId =>
    refine moveTo_kept h hrow fun hid => ?_
    subst hid
    exact absurd rfl (hrequest _)
  | markRunning | complete | fail => cases hexternal
  -- Grants are kept apart from the assessments.
  | createGrant token projectId name scope riskCaps validFrom validTo actorRole createdAt digest =>
    obtain ⟨-, -, h⟩ := bind_eq_ok_iff.mp h
    obtain ⟨grant, -, h⟩ := bind_eq_ok_iff.mp h
    cases h
    unfold Repositories.addGrant
    split <;> exact hrow
  | revokeGrant grantId actorRole =>
    obtain ⟨-, -, h⟩ := bind_eq_ok_iff.mp h
    cases hgrant : repo.grants.get? grantId with
    | none => simp [hgrant] at h
    | some grant =>
      simp only [hgrant] at h
      cases h
      unfold Repositories.addGrant
      split <;> exact hrow

end Serve

/-! ## What a thread leaves alone -/

/-- A step of a thread writes its own row: it moves it and keeps the signal, or its gate writes back
the row that it read. -/
theorem Drain.Moved.row_cases {deployment : Deployment} {s s' : Shared} {d d' : Drain}
    (h : d.Moved deployment s s' d') :
    s'.repo.assessments = s.repo.assessments ∨
      (∃ row target, s.repo.assessments.get? d.assessmentId = some row ∧
        target ∈ allowedTransitions row.status ∧ target ≠ .cancelled ∧
        s'.repo.assessments = s.repo.assessments.put { row with status := target }) ∨
      ∃ plan scope run read, d.phase = .draining plan scope run (.signal read) ∧
        d'.holdsSignal = false ∧
        s'.repo.assessments = s.repo.assessments.put { read with control := .none } := by
  have hmove : ∀ {repo : Repositories} {target : AssessmentStatus}, target ≠ .cancelled →
      AssessmentService.moveTo s.repo d.assessmentId target none = .ok repo →
      ∃ row target, s.repo.assessments.get? d.assessmentId = some row ∧
        target ∈ allowedTransitions row.status ∧ target ≠ .cancelled ∧
        repo.assessments = s.repo.assessments.put { row with status := target } := by
    intro repo target hne h
    obtain ⟨row, hrow, htarget, rfl⟩ := moveTo_ok_iff.mp h
    exact ⟨row, target, hrow, htarget, hne, rfl⟩
  cases h with
  | markedRunning repo hphase hkind hrunning => exact .inr (.inl (hmove (by decide) hrunning))
  | clearedSignal plan scope run row hphase =>
    refine .inr (.inr ⟨plan, scope, run, row, hphase, ?_, rfl⟩)
    cases hc : row.control <;> rfl
  | ended repo hrepo =>
    rcases hrepo with rfl | ⟨target, rfl | rfl, h⟩
    · exact .inl rfl
    · exact .inr (.inl (hmove (by decide) h))
    · exact .inr (.inl (hmove (by decide) h))
  | _ => exact .inl rfl

/-- Only a gate check reads a signal. -/
theorem Drain.gateRead_of_holdsSignal {deployment : Deployment} {s s' : Shared} {d d' : Drain}
    {move : DrainMove} (h : d.move deployment s move = some (s', d'))
    (hbefore : d.holdsSignal = false) (hafter : d'.holdsSignal = true) : move = .gateRead := by
  cases move with
  | gateRead => rfl
  | act action =>
    exfalso
    simp only [Drain.move] at h
    split at h
    next plan scope run gate hphase =>
      split at h
      · split at h
        · cases h
          -- No action of the orchestrator makes a gate read.
          cases gate with
          | signal read => simp [holdsSignal_iff.mpr ⟨plan, scope, run, read, hphase⟩] at hbefore
          | closed | passed | stopped => cases action <;> cases hafter
        · cases h
      · cases h
    next => cases h
  | gateClear =>
    exfalso
    simp only [Drain.move] at h
    split at h
    next plan scope run read hphase =>
      simp [holdsSignal_iff.mpr ⟨plan, scope, run, read, hphase⟩] at hbefore
    next => cases h
  | _ =>
    exfalso
    simp only [Drain.move] at h
    repeat' split at h
    all_goals cases h
    all_goals cases hafter

/-! ## Conditions and invariants -/

namespace World

/-- The condition on a step: a request comes when no gate of its assessment is between its read and
its write. -/
def AvoidsGates (w : World) : WorldLabel → Prop
  | .serve call => ∀ id signal, call.request = some (id, signal) →
      ∀ d ∈ w.drains, d.assessmentId = id → d.holdsSignal = false
  | _ => True

/-- The step is another request about the assessment, or a gate check of one of its threads. -/
def Attends (w : World) (id : String) : WorldLabel → Prop
  | .serve call => ∃ signal, call.request = some (id, signal)
  | .drain index .gateRead => ∃ d, w.drains[index]? = some d ∧ d.assessmentId = id
  | _ => False

/-- What a gate has read is cancelled exactly if the row is. -/
structure ReadsAgree (w : World) : Prop where
  begun : w.Begun
  reads : ∀ d ∈ w.drains, ∀ plan scope run read row,
    d.phase = .draining plan scope run (.signal read) →
    w.shared.repo.assessments.get? d.assessmentId = some row →
    (read.status = .cancelled ↔ row.status = .cancelled)

/-- The signal of a request is on the row, and no gate is about to write an older row back. -/
structure Requested (w : World) (id : String) (signal : ControlState) : Prop where
  begun : w.Begun
  free : ∀ d ∈ w.drains, d.assessmentId = id → d.holdsSignal = false
  row : ∃ row, w.shared.repo.assessments.get? id = some row ∧ row.status.begun = true ∧
    row.control = signal

section Step

variable {deployment : Deployment} {w u : World}

theorem readsAgree_init (scopes : Table ScopeSnapshot ScopeSnapshot.id) :
    ReadsAgree { shared := { repo := { scopes } } } :=
  ⟨begun_init scopes, fun d hd => by simp at hd⟩

/-- The rows of assessments with a thread, over a call. -/
theorem serve_row_cases (hinv : w.Begun) {call : ServiceCall} (hcond : w.AvoidsGates (.serve call))
    (hstep : w.step deployment (.serve call) = some u) {d : Drain} (hd : d ∈ w.drains) :
    d.holdsSignal = false ∨
      u.shared.repo.assessments.get? d.assessmentId =
        w.shared.repo.assessments.get? d.assessmentId := by
  obtain ⟨hexternal, hfresh, hserve, -⟩ := step_serve hstep
  obtain ⟨row, hrow, hbegun, -⟩ := hinv d hd
  by_cases hrequest : ∃ signal, call.request = some (d.assessmentId, signal)
  · obtain ⟨signal, hrequest⟩ := hrequest
    exact .inl (hcond d.assessmentId signal hrequest d hd rfl)
  · right
    rw [hrow, serve_kept hserve hfresh hexternal hrow hbegun]
    exact fun signal h => hrequest ⟨signal, h⟩

theorem not_cancelled_of_allowed {row : Assessment} {target : AssessmentStatus}
    (h : target ∈ allowedTransitions row.status) : row.status ≠ .cancelled := by
  intro hcancelled
  rw [hcancelled] at h
  cases h

/-- **The reads agree after every step that meets the condition.** -/
theorem ReadsAgree.step (hinv : w.ReadsAgree) {l : WorldLabel} (hcond : w.AvoidsGates l)
    (hstep : w.step deployment l = some u) : u.ReadsAgree := by
  refine ⟨hinv.begun.step hstep, ?_⟩
  cases l with
  | serve call =>
    obtain ⟨-, -, hserve, hu⟩ := step_serve hstep
    intro d hd plan scope run read row hphase hrow
    rw [hu] at hd
    rcases List.mem_append.mp hd with hd | hd
    · rcases serve_row_cases hinv.begun hcond hstep hd with hfree | hsame
      · simp [Drain.holdsSignal_iff.mpr ⟨plan, scope, run, read, hphase⟩] at hfree
      · rw [hsame] at hrow
        exact hinv.reads d hd plan scope run read row hphase hrow
    · rw [(spawned_row hserve hd).1] at hphase
      cases hphase
  | trigger =>
    cases hstep
    exact hinv.reads
  | drain index move =>
    obtain ⟨d, s', d', hd, hmove, rfl⟩ := step_drain hstep
    have hmem := List.mem_of_getElem? hd
    have hmoved := Drain.moved_of_move hmove
    obtain ⟨rowd, hrowd, -, hreadd⟩ := hinv.begun d hmem
    -- A thread that held its read already.
    have hkept : ∀ x ∈ w.drains, ∀ plan scope run read row,
        x.phase = .draining plan scope run (.signal read) →
        s'.repo.assessments.get? x.assessmentId = some row →
        (read.status = .cancelled ↔ row.status = .cancelled) := by
      intro x hx plan scope run read row hphase hrow
      obtain ⟨rowx, hrowx, -, -⟩ := hinv.begun x hx
      have hagree := hinv.reads x hx plan scope run read rowx hphase hrowx
      rcases hmoved.row_cases with hsame | ⟨found, target, hfound, htarget, hne, hput⟩ |
        ⟨plan', scope', run', read', hphase', -, hput⟩
      · rw [hsame, hrowx] at hrow
        cases hrow
        exact hagree
      · have hkey := Table.key_of_get? hfound
        rw [hput, Table.get?_put] at hrow
        split at hrow
        next hid =>
          cases hrow
          have hself : x.assessmentId = d.assessmentId := hid.trans hkey
          rw [hself, hfound] at hrowx
          cases hrowx
          simp only [hne, iff_false, hagree]
          exact not_cancelled_of_allowed htarget
        next =>
          rw [hrowx] at hrow
          cases hrow
          exact hagree
      · rw [hput, Table.get?_put] at hrow
        split at hrow
        next hid =>
          cases hrow
          have hself : x.assessmentId = d.assessmentId := by
            rw [hid, show ({ read' with control := .none } : Assessment).id = rowd.id from
              (hreadd plan' scope' run' read' hphase').2.id]
            exact Table.key_of_get? hrowd
          rw [hself] at hrowx
          exact hagree.trans (hinv.reads d hmem plan' scope' run' read' rowx hphase' hrowx).symm
        next =>
          rw [hrowx] at hrow
          cases hrow
          exact hagree
    intro x hx plan scope run read row hphase hrow
    rcases mem_set_cases hx with rfl | hx
    · rw [hmoved.assessmentId] at hrow
      rcases hmoved.signal hphase with ⟨run', hdraining⟩ | ⟨hfound, rfl, -⟩
      · exact hkept d hmem plan scope run' read row hdraining hrow
      · rw [show w.shared.repo.assessments.get? d.assessmentId = some read from hfound] at hrow
        cases hrow
        exact Iff.rfl
    · exact hkept x hx plan scope run read row hphase hrow

/-- **A cancelled assessment stays cancelled.** -/
theorem ReadsAgree.cancelled_step (hinv : w.ReadsAgree) {l : WorldLabel}
    (hstep : w.step deployment l = some u) {id : String} {row : Assessment}
    (hrow : w.shared.repo.assessments.get? id = some row) (hcancelled : row.status = .cancelled) :
    ∃ row', u.shared.repo.assessments.get? id = some row' ∧ row'.status = .cancelled := by
  have hbegun : row.status.begun = true := by rw [hcancelled]; rfl
  cases l with
  | serve call =>
    obtain ⟨hexternal, hfresh, hserve, -⟩ := step_serve hstep
    refine ⟨row, serve_kept hserve hfresh hexternal hrow hbegun ?_, hcancelled⟩
    -- No request moves a row out of `cancelled`.
    intro signal hrequest
    obtain ⟨found, target, hfound, htarget, -⟩ := serve_request hserve hrequest
    rw [hrow] at hfound
    cases hfound
    exact not_cancelled_of_allowed htarget hcancelled
  | trigger =>
    cases hstep
    exact ⟨row, hrow, hcancelled⟩
  | drain index move =>
    obtain ⟨d, s', d', hd, hmove, rfl⟩ := step_drain hstep
    have hmem := List.mem_of_getElem? hd
    rcases (Drain.moved_of_move hmove).row_cases with hsame |
      ⟨found, target, hfound, htarget, hne, hput⟩ | ⟨plan, scope, run, read, hphase, -, hput⟩
    · exact ⟨row, by rw [hsame]; exact hrow, hcancelled⟩
    · have hkey := Table.key_of_get? hfound
      refine ⟨row, ?_, hcancelled⟩
      dsimp only
      rw [hput, Table.get?_put, if_neg]
      · exact hrow
      · intro hid
        rw [hid.trans hkey, hfound] at hrow
        cases hrow
        exact not_cancelled_of_allowed htarget hcancelled
    · -- What the gate read is cancelled exactly if the row is, so its write does no harm.
      obtain ⟨rowd, hrowd, -, hreadd⟩ := hinv.begun d hmem
      have hid : read.id = d.assessmentId :=
        (hreadd plan scope run read hphase).2.id.trans (Table.key_of_get? hrowd)
      dsimp only
      rw [hput, Table.get?_put]
      by_cases hself : id = read.id
      · refine ⟨_, if_pos hself, ?_⟩
        rw [hself, hid] at hrow
        exact (hinv.reads d hmem plan scope run read row hphase hrow).mpr hcancelled
      · exact ⟨row, by rw [if_neg hself]; exact hrow, hcancelled⟩

/-- A request sets its signal on the row. -/
theorem requested_of_serve (hinv : w.Begun) {call : ServiceCall}
    (hcond : w.AvoidsGates (.serve call)) (hstep : w.step deployment (.serve call) = some u)
    {id : String} {signal : ControlState} (hrequest : call.request = some (id, signal)) :
    u.Requested id signal := by
  obtain ⟨-, -, hserve, hu⟩ := step_serve hstep
  obtain ⟨found, target, hfound, htarget, hrepo⟩ := serve_request hserve hrequest
  have hkey := Table.key_of_get? hfound
  refine ⟨hinv.step hstep, ?_, { found with status := target, control := signal }, ?_, ?_, rfl⟩
  · intro d hd hid
    rw [hu] at hd
    rcases List.mem_append.mp hd with hd | hd
    · exact hcond id signal hrequest d hd hid
    · unfold Drain.holdsSignal
      rw [(spawned_row hserve hd).1]
  · rw [hrepo, Repositories.addAssessment, Table.get?_put, if_pos hkey.symm]
  · -- The three requests move a row to a status that counts as started.
    cases call with
    | pause | resume | cancel =>
      cases hrequest
      obtain ⟨row, hrow, -, hput⟩ := moveTo_ok_iff.mp hserve
      rw [hrepo] at hput
      have hsame := congrArg (fun repo => repo.assessments.get? id) hput
      simp only [Repositories.addAssessment, Table.get?_put, hkey, Table.key_of_get? hrow, if_true,
        Option.some.injEq, Assessment.mk.injEq] at hsame
      rw [hsame.2.2.2.2.1]
      rfl
    | _ => cases hrequest

/-- **A request stays on the row until a gate checks it or another request follows.** -/
theorem Requested.step {id : String} {signal : ControlState} (hinv : w.Requested id signal)
    {l : WorldLabel} (hother : ¬w.Attends id l) (hstep : w.step deployment l = some u) :
    u.Requested id signal := by
  obtain ⟨row, hrow, hbegun, hcontrol⟩ := hinv.row
  have hbegun' := hinv.begun.step hstep
  cases l with
  | serve call =>
    obtain ⟨hexternal, hfresh, hserve, hu⟩ := step_serve hstep
    refine ⟨hbegun', ?_, row, ?_, hbegun, hcontrol⟩
    · intro d hd hid
      rw [hu] at hd
      rcases List.mem_append.mp hd with hd | hd
      · exact hinv.free d hd hid
      · unfold Drain.holdsSignal
        rw [(spawned_row hserve hd).1]
    · exact serve_kept hserve hfresh hexternal hrow hbegun fun signal h => hother ⟨signal, h⟩
  | trigger =>
    cases hstep
    exact ⟨hbegun', hinv.free, row, hrow, hbegun, hcontrol⟩
  | drain index move =>
    obtain ⟨d, s', d', hd, hmove, rfl⟩ := step_drain hstep
    have hmem := List.mem_of_getElem? hd
    have hmoved := Drain.moved_of_move hmove
    refine ⟨hbegun', ?_, ?_⟩
    · intro x hx hid
      rcases mem_set_cases hx with rfl | hx
      · rw [hmoved.assessmentId] at hid
        rw [← Bool.not_eq_true]
        intro hafter
        -- A gate check of this assessment, which is what `Attends` names.
        obtain rfl := Drain.gateRead_of_holdsSignal hmove (hinv.free d hmem hid) hafter
        exact hother ⟨d, hd, hid⟩
      · exact hinv.free x hx hid
    · rcases hmoved.row_cases with hsame | ⟨found, target, hfound, htarget, -, hput⟩ |
        ⟨plan, scope, run, read, hphase, -, hput⟩
      · exact ⟨row, by rw [hsame]; exact hrow, hbegun, hcontrol⟩
      · -- A move of the row keeps its signal.
        have hkey := Table.key_of_get? hfound
        dsimp only
        rw [hput, Table.get?_put]
        by_cases hself : id = found.id
        · rw [hself.trans hkey, hfound] at hrow
          cases hrow
          exact ⟨_, if_pos hself, begun_of_allowed hbegun htarget, hcontrol⟩
        · exact ⟨row, by rw [if_neg hself]; exact hrow, hbegun, hcontrol⟩
      · -- The gate is one of another assessment.
        obtain ⟨rowd, hrowd, -, hreadd⟩ := hinv.begun d hmem
        have hkey : read.id = d.assessmentId :=
          (hreadd plan scope run read hphase).2.id.trans (Table.key_of_get? hrowd)
        refine ⟨row, ?_, hbegun, hcontrol⟩
        dsimp only
        rw [hput, Table.get?_put, if_neg]
        · exact hrow
        · intro hself
          have hfree := hinv.free d hmem (hself.trans hkey).symm
          simp [Drain.holdsSignal_iff.mpr ⟨plan, scope, run, read, hphase⟩] at hfree

/-- A gate check that finds a signal reads the row. -/
theorem gateRead_signal {i : ℕ} {d : Drain} {row : Assessment}
    (h : w.step deployment (.drain i .gateRead) = some u) (hd : w.drains[i]? = some d)
    (hrow : w.shared.repo.assessments.get? d.assessmentId = some row)
    (hcontrol : row.control ≠ .none) :
    ∃ plan scope run, u.drains[i]? =
      some { d with phase := .draining plan scope run (.signal row) } := by
  obtain ⟨found, s', d', hfound, hmove, rfl⟩ := step_drain h
  rw [hd] at hfound
  cases hfound
  simp only [Drain.move] at hmove
  split at hmove
  next plan scope run hphase =>
    split at hmove
    · simp only [hrow, if_neg hcontrol] at hmove
      cases hmove
      refine ⟨plan, scope, run, ?_⟩
      simp [List.getElem?_set_self' , hd]
    · cases hmove
  next => cases hmove

end Step

/-! ## Runs -/

/-- **No request is lost**, in every run whose requests avoid the gates: a cancelled assessment stays
cancelled, and a request is on the row that the next gate check reads. -/
theorem requests_kept {deployment : Deployment} {scopes : Table ScopeSnapshot ScopeSnapshot.id}
    {w : World}
    (h : Reaches (World.step deployment) AvoidsGates { shared := { repo := { scopes } } } w) :
    (∀ t id row, Reaches (World.step deployment) AvoidsGates w t →
      w.shared.repo.assessments.get? id = some row → row.status = .cancelled →
      ∃ row', t.shared.repo.assessments.get? id = some row' ∧ row'.status = .cancelled) ∧
    ∀ call id signal u t, call.request = some (id, signal) → w.AvoidsGates (.serve call) →
      w.step deployment (.serve call) = some u →
      Reaches (World.step deployment) (fun v l => v.AvoidsGates l ∧ ¬v.Attends id l) u t →
      ∃ row, t.shared.repo.assessments.get? id = some row ∧ row.control = signal ∧
        ∀ i d v, t.drains[i]? = some d → d.assessmentId = id →
          t.step deployment (.drain i .gateRead) = some v →
          ∃ plan scope run, v.drains[i]? =
            some { d with phase := .draining plan scope run (.signal row) } := by
  have hinv : w.ReadsAgree :=
    h.invariant (readsAgree_init scopes) fun _ _ _ hinv hcond hstep => hinv.step hcond hstep
  refine ⟨?_, ?_⟩
  · intro t id row hrun hrow hcancelled
    suffices hboth : t.ReadsAgree ∧ ∃ row', t.shared.repo.assessments.get? id = some row' ∧
        row'.status = .cancelled from hboth.2
    induction hrun with
    | refl => exact ⟨hinv, row, hrow, hcancelled⟩
    | tail _ hcond hstep ih =>
      obtain ⟨hinv, row', hrow', hcancelled'⟩ := ih
      exact ⟨hinv.step hcond hstep, hinv.cancelled_step hstep hrow' hcancelled'⟩
  · intro call id signal u t hrequest hcond hstep hrun
    have hrequested : t.Requested id signal := by
      induction hrun with
      | refl => exact requested_of_serve hinv.begun hcond hstep hrequest
      | tail _ hother hstep ih => exact ih.step hother.2 hstep
    obtain ⟨row, hrow, -, hcontrol⟩ := hrequested.row
    refine ⟨row, hrow, hcontrol, ?_⟩
    intro i d v hd hid hread
    exact gateRead_signal hread hd (hid ▸ hrow) (hcontrol ▸ request_ne_none hrequest)

/-! ## A cancellation between read and write -/

/-- The drain of the first thread has its first target before the gate. -/
def scanMoves : List WorldLabel := [.drain 0 (.act .dispatchStep), .drain 0 (.act .scan)]

/-- The status and the control flag of an assessment. -/
def seen (w : World) (id : String) : Option (AssessmentStatus × ControlState) :=
  (w.shared.repo.assessments.get? id).map fun row => (row.status, row.control)

/-- The gate reads a pause, the assessment is cancelled, and the gate writes the paused row back:
neither the status nor the request is there for the next check. -/
theorem cancellation_lost :
    ∃ s t, runLabels (World.step sampleDeployment) sampleWorld
        (startCalls oneStep {.passive} ++ beginMoves ++ prepareMoves ++ scanMoves ++
          [.serve (.pause "asm-a"), .drain 0 .gateRead, .serve (.cancel "asm-a")]) = some s ∧
      s.seen "asm-a" = some (.cancelled, .cancelRequested) ∧
      s.step sampleDeployment (.drain 0 .gateClear) = some t ∧
      t.seen "asm-a" = some (.paused, .none) := by
  refine ⟨_, _, rfl, rfl, rfl, rfl⟩

/-- An assessment is cancelled while no gate of it holds a signal. -/
theorem requests_kept_cancelled :
    ∃ w u, Reaches (World.step sampleDeployment) AvoidsGates sampleWorld w ∧
      w.step sampleDeployment (.serve (.cancel "asm-a")) = some u ∧
      (∃ row, u.shared.repo.assessments.get? "asm-a" = some row ∧ row.control = .cancelRequested) ∧
      ∀ t, Reaches (World.step sampleDeployment) AvoidsGates u t →
        ∃ row, t.shared.repo.assessments.get? "asm-a" = some row ∧ row.status = .cancelled := by
  obtain ⟨w, hw⟩ : ∃ w, runLabels (World.step sampleDeployment) sampleWorld
      (startCalls oneStep {.passive} ++ beginMoves ++ prepareMoves ++ scanMoves) = some w :=
    Option.isSome_iff_exists.mp (by decide +kernel)
  -- Nothing is requested up to the cancellation.
  have hmeets : runMeets (World.step sampleDeployment) AvoidsGates sampleWorld
      (startCalls oneStep {.passive} ++ beginMoves ++ prepareMoves ++ scanMoves) := by
    refine runMeets_of_forall fun l hl w => ?_
    have hnone : (startCalls oneStep {.passive} ++ beginMoves ++ prepareMoves ++ scanMoves).all
        (fun l => match l with
          | .serve call => call.request.isNone
          | _ => true) = true := by decide +kernel
    have hl' := List.all_eq_true.mp hnone l hl
    cases l with
    | serve call =>
      intro id signal hrequest
      simp [hrequest] at hl'
    | _ => trivial
  have hreach := Reaches.of_runLabels hw hmeets
  have hsome : (w.step sampleDeployment (.serve (.cancel "asm-a"))).isSome = true :=
    eq_of_runLabels (fun w => (w.step sampleDeployment (.serve (.cancel "asm-a"))).isSome) hw
      (by decide +kernel)
  obtain ⟨u, hu⟩ := Option.isSome_iff_exists.mp hsome
  have hfree : (w.drains.all fun d => !d.holdsSignal) = true :=
    eq_of_runLabels (fun w => w.drains.all fun d => !d.holdsSignal) hw (by decide +kernel)
  have hcond : w.AvoidsGates (.serve (.cancel "asm-a")) := by
    intro id signal _ d hd _
    simpa using List.all_eq_true.mp hfree d hd
  obtain ⟨row, hrow, hcontrol, -⟩ := (requests_kept hreach).2 (.cancel "asm-a") "asm-a"
    .cancelRequested u u rfl hcond hu .refl
  have hseen : (w.step sampleDeployment (.serve (.cancel "asm-a"))).map (seen · "asm-a") =
      some (some (.cancelled, .cancelRequested)) :=
    eq_of_runLabels
      (fun w => (w.step sampleDeployment (.serve (.cancel "asm-a"))).map (seen · "asm-a")) hw
      (by decide +kernel)
  have hcancelled : row.status = .cancelled := by
    simp only [hu, Option.map_some, seen, hrow, Option.some.injEq, Prod.mk.injEq] at hseen
    exact hseen.1
  refine ⟨w, u, hreach, hu, ⟨row, hrow, hcontrol⟩, fun t ht => ?_⟩
  exact (requests_kept (hreach.tail hcond hu)).1 t "asm-a" row ht hrow hcancelled

end World

end SecOpent
