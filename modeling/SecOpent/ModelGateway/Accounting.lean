import SecOpent.ModelGateway.RemoteModel
import SecOpent.Transition.Conditions

/-!
# The accounts of the model gateway

The gateway is to keep a budget of tokens for each day and a limit of remote calls for each minute. Its
counter is never set back, and its list of times has the local calls too. So what goes to the remote
backend keeps both limits, as long as that backend answers; but a call may be degraded for the tokens
of earlier days, or for local calls.

## Main definitions

* `SentCall`, `GatewayRun`: the calls of the backends, and the gateway that makes them
* `Accounted`: both limits are kept, and no call is degraded without need
* `NothingElseCounts`: neither earlier days nor local calls take the room of a call

## Main results

* `Books.step`: what one call keeps
* `accounted_of_runMeets`: when the accounts are kept
-/

namespace SecOpent

namespace RemoteModel

open Python Transition

/-! ## The calls of the backends -/

/-- A call of a backend. -/
structure SentCall where
  time : Time
  tokens : ℕ
  backend : BackendName
  wantedRemote : Bool
  answered : Bool
  deriving DecidableEq

namespace SentCall

variable (e : SentCall)

/-- The day of an instant. -/
def dayOf (t : Time) : ℤ := t / 86400000000

/-- The call went to the remote backend. -/
def isRemote : Bool := e.backend = .remoteModel

/-- The call was to go to the remote backend, and went to the local one. -/
def isDegraded : Bool := e.wantedRemote && decide (e.backend = .localModel)

/-- The call was made on the day. -/
def onDay (day : ℤ) : Bool := dayOf e.time = day

/-- The call was made between the two instants. -/
def within (start stop : Time) : Bool := start ≤ e.time && e.time ≤ stop

end SentCall

/-- The tokens of the calls with the property. -/
def tokensOf (p : SentCall → Bool) (sent : List SentCall) : ℕ :=
  ((sent.filter p).map SentCall.tokens).sum

/-- The tokens that were used on the day. -/
def usedOn (day : ℤ) (sent : List SentCall) : ℕ :=
  tokensOf (fun e => e.answered && e.onDay day) sent

/-- The tokens that went to the remote backend on the day. -/
def remoteOn (day : ℤ) (sent : List SentCall) : ℕ :=
  tokensOf (fun e => e.isRemote && e.onDay day) sent

/-- The remote calls between the two instants. -/
def remoteWithin (start stop : Time) (sent : List SentCall) : ℕ :=
  sent.countP fun e => e.isRemote && e.within start stop

/-- A gateway at work, with the calls of its backends, the latest first. -/
structure GatewayRun where
  state : GatewayState := {}
  sent : List SentCall := []

namespace GatewayRun

variable (g : RemoteModelGateway) (w : GatewayRun) (c : ModelCall)

/-- The call of a backend, with the text that it gets. -/
def sending (backend : BackendName) (text : Str) : SentCall :=
  ⟨c.now, estimateTokens text, backend, g.wantsRemote c, (c.answer backend).isOk⟩

/-- One call of the gateway. -/
def step (c : ModelCall) : Option GatewayRun :=
  some ⟨(g.call w.state c).state,
    match (g.call w.state c).sent with
    | none => w.sent
    | some (backend, text) => sending g c backend text :: w.sent⟩

end GatewayRun

/-! ## The accounts -/

/-- The tokens used on the same day, or the remote calls of the preceding minute, leave no room for the
call. -/
def NoRoom (budget : ModelBudget) (earlier : List SentCall) (now : Time) (tokens : ℕ) : Prop :=
  budget.dailyTokenBudget < usedOn (SentCall.dayOf now) earlier + tokens ∨
    budget.rateLimitPerMin ≤ remoteWithin (now - minute) now earlier

/-- No call was degraded without need. -/
def Needed (budget : ModelBudget) : List SentCall → Prop
  | [] => True
  | e :: earlier =>
    (e.isDegraded = true → NoRoom budget earlier e.time e.tokens) ∧ Needed budget earlier

/-- Days and minutes with remote calls are within their limits, and no call was degraded without
need. -/
structure Accounted (budget : ModelBudget) (sent : List SentCall) : Prop where
  daily : ∀ day, (∃ e ∈ sent, (e.isRemote && e.onDay day) = true) →
    remoteOn day sent ≤ budget.dailyTokenBudget
  rate : ∀ start, (∃ e ∈ sent, (e.isRemote && e.within start (start + minute)) = true) →
    remoteWithin start (start + minute) sent ≤ budget.rateLimitPerMin
  degraded : Needed budget sent

/-- The remote backend answers, if the call goes there. -/
def RemoteAnswers (g : RemoteModelGateway) (w : GatewayRun) (c : ModelCall) : Prop :=
  ∀ text redacted, g.prepare c = .ok (text, redacted) →
    g.backend w.state c (estimateTokens text) = .remoteModel → (c.answer .remoteModel).isOk = true

/-- If the tokens used on the day and the remote calls of the preceding minute leave room for a call
that is to go to the remote backend, then so do the counter and the list of times, which have the tokens
of earlier days and the local calls too. -/
def NothingElseCounts (g : RemoteModelGateway) (w : GatewayRun) (c : ModelCall) : Prop :=
  ∀ text redacted, g.prepare c = .ok (text, redacted) → g.wantsRemote c = true →
    ¬NoRoom g.budget w.sent c.now (estimateTokens text) →
      g.overBudget w.state (estimateTokens text) = false ∧ g.rateExceeded w.state c.now = false

section Spec

variable {g : RemoteModelGateway} {w w' : GatewayRun} {c : ModelCall} {e : SentCall}
  {sent : List SentCall} {p q : SentCall → Bool}

/-! ## Counting -/

theorem tokensOf_cons : tokensOf p (e :: sent) = (if p e then e.tokens else 0) + tokensOf p sent := by
  unfold tokensOf
  cases hp : p e <;> simp [hp]

theorem tokensOf_le (h : ∀ e ∈ sent, p e = true → q e = true) : tokensOf p sent ≤ tokensOf q sent := by
  induction sent with
  | nil => exact le_rfl
  | cons e sent ih =>
    have hrest := ih fun e he => h e (List.mem_cons_of_mem _ he)
    have hfirst := h e List.mem_cons_self
    rw [tokensOf_cons, tokensOf_cons]
    cases hp : p e with
    | true =>
      rw [hfirst hp, if_pos rfl]
      omega
    | false =>
      rw [if_neg (by simp)]
      omega

/-- The counter and the list of times are those of the calls that were answered, and the limits are
kept. -/
structure Books (budget : ModelBudget) (w : GatewayRun) : Prop where
  tokens : w.state.tokensUsed = tokensOf SentCall.answered w.sent
  times : w.state.requestTimes = ((w.sent.filter SentCall.answered).map SentCall.time).reverse
  answered : ∀ e ∈ w.sent, e.isRemote = true → e.answered = true
  accounted : Accounted budget w.sent

/-- The calls that are counted in the list of times. -/
theorem Books.length_recent {budget : ModelBudget} (h : Books budget w) (now : Time) :
    (RemoteModelGateway.recent w.state now).length =
      w.sent.countP fun e => e.answered && decide (now - minute ≤ e.time) := by
  rw [RemoteModelGateway.recent, h.times, List.filter_reverse, List.length_reverse,
    List.filter_map, List.length_map, List.filter_filter, ← List.countP_eq_length_filter]
  refine List.countP_congr fun e _ => ?_
  rw [Function.comp_apply, Bool.and_comm]

/-! ## One call -/

/-- A call that is not to go to the remote backend, or that has room, goes where it wants. -/
theorem backend_eq_remote_iff {s : GatewayState} {estimate : ℕ} :
    g.backend s c estimate = .remoteModel ↔
      g.wantsRemote c = true ∧ g.overBudget s estimate = false ∧ g.rateExceeded s c.now = false := by
  unfold RemoteModelGateway.backend RemoteModelGateway.degraded
  cases g.wantsRemote c <;> cases g.overBudget s estimate <;> cases g.rateExceeded s c.now <;> simp

theorem step_cases (h : w.step g c = some w') :
    (w' = w ∧ ((∃ error, g.prepare c = .error error) ∨ g.budget.dailyTokenBudget = 0)) ∨
      ∃ text redacted e, g.prepare c = .ok (text, redacted) ∧
      e = GatewayRun.sending g c (g.backend w.state c (estimateTokens text)) text ∧
      w'.sent = e :: w.sent ∧
      w'.state = if e.answered then w.state.account e.time e.tokens else w.state := by
  obtain rfl := Option.some.inj h
  rcases call_cases g w.state c with ⟨hnone, hstate, hreason⟩ |
    ⟨text, redacted, hprepare, hsent, hstate⟩
  · rw [hnone, hstate]
    exact .inl ⟨rfl, hreason⟩
  · refine .inr ⟨text, redacted, _, hprepare, rfl, ?_, hstate⟩
    rw [hsent]

theorem remoteOn_cons {day : ℤ} :
    remoteOn day (e :: sent) =
      (if e.isRemote && e.onDay day then e.tokens else 0) + remoteOn day sent := tokensOf_cons

theorem remoteWithin_cons {start stop : Time} :
    remoteWithin start stop (e :: sent) =
      remoteWithin start stop sent + if e.isRemote && e.within start stop then 1 else 0 :=
  List.countP_cons

/-- Remote calls that are all answered are counted in the counter. -/
theorem remoteOn_le {day : ℤ} (h : ∀ e ∈ sent, e.isRemote = true → e.answered = true) :
    remoteOn day sent ≤ tokensOf SentCall.answered sent := by
  refine tokensOf_le fun e he hremote => h e he ?_
  rw [Bool.and_eq_true] at hremote
  exact hremote.1

/-- What goes to the remote backend keeps the budget of its day. -/
theorem Books.daily_step {budget : ModelBudget} (h : Books budget w)
    (hroom : e.isRemote = true → w.state.tokensUsed + e.tokens ≤ budget.dailyTokenBudget) (day : ℤ)
    (hday : ∃ e' ∈ e :: w.sent, (e'.isRemote && e'.onDay day) = true) :
    remoteOn day (e :: w.sent) ≤ budget.dailyTokenBudget := by
  rw [remoteOn_cons]
  cases hnew : e.isRemote && e.onDay day with
  | true =>
    have hle : remoteOn day w.sent ≤ tokensOf SentCall.answered w.sent := remoteOn_le h.answered
    have htokens := hroom (Bool.and_eq_true _ _ ▸ hnew : _ ∧ _).1
    rw [h.tokens] at htokens
    rw [if_pos rfl]
    push_cast
    omega
  | false =>
    -- The new call is not one of the day.
    obtain ⟨e', he', hremote⟩ := hday
    rcases List.mem_cons.mp he' with rfl | hmem
    · rw [hnew] at hremote
      cases hremote
    · simpa using h.accounted.daily day ⟨e', hmem, hremote⟩

/-- What goes to the remote backend keeps the limit of any minute. -/
theorem Books.rate_step {budget : ModelBudget} (h : Books budget w)
    (hroom : e.isRemote = true →
      ((RemoteModelGateway.recent w.state e.time).length : ℤ) < budget.rateLimitPerMin) (start : Time)
    (hwindow : ∃ e' ∈ e :: w.sent, (e'.isRemote && e'.within start (start + minute)) = true) :
    remoteWithin start (start + minute) (e :: w.sent) ≤ budget.rateLimitPerMin := by
  rw [remoteWithin_cons]
  cases hnew : e.isRemote && e.within start (start + minute) with
  | true =>
    rw [Bool.and_eq_true] at hnew
    obtain ⟨hremote, hwithin⟩ := hnew
    have hfew := hroom hremote
    rw [h.length_recent] at hfew
    -- The other calls of the window are in the minute before the new one.
    have hle : remoteWithin start (start + minute) w.sent ≤
        w.sent.countP fun e' => e'.answered && decide (e.time - minute ≤ e'.time) := by
      refine List.countP_mono_left fun e' he' hcounted => ?_
      simp only [SentCall.within, Bool.and_eq_true, decide_eq_true_eq] at hcounted hwithin ⊢
      have hstop : e.time ≤ e'.time + minute := hwithin.2.trans (add_le_add_left hcounted.2.1 minute)
      exact ⟨h.answered e' he' hcounted.1, sub_le_iff_le_add.mpr hstop⟩
    rw [if_pos rfl]
    push_cast
    omega
  | false =>
    obtain ⟨e', he', hremote⟩ := hwindow
    rcases List.mem_cons.mp he' with rfl | hmem
    · rw [hnew] at hremote
      cases hremote
    · simpa using h.accounted.rate start ⟨e', hmem, hremote⟩

theorem room_of_remote {s : GatewayState} {text : Str}
    (h : (GatewayRun.sending g c (g.backend s c (estimateTokens text)) text).isRemote = true) :
    s.tokensUsed + estimateTokens text ≤ g.budget.dailyTokenBudget ∧
      ((RemoteModelGateway.recent s c.now).length : ℤ) < g.budget.rateLimitPerMin := by
  obtain ⟨-, hbudget, hrate⟩ := backend_eq_remote_iff.mp (of_decide_eq_true h)
  exact ⟨not_lt.mp (of_decide_eq_false hbudget), not_le.mp (of_decide_eq_false hrate)⟩

/-- A call is degraded for need, if nothing else counts. -/
theorem noRoom_of_degraded {text : Str} {redacted : Bool} (hroom : NothingElseCounts g w c)
    (hprepare : g.prepare c = .ok (text, redacted))
    (h : (GatewayRun.sending g c (g.backend w.state c (estimateTokens text)) text).isDegraded = true) :
    NoRoom g.budget w.sent c.now (estimateTokens text) := by
  obtain ⟨hwants, hlocal⟩ := (Bool.and_eq_true _ _).mp h
  by_contra hfree
  obtain ⟨hbudget, hrate⟩ := hroom text redacted hprepare hwants hfree
  have hremote := backend_eq_remote_iff.mpr ⟨hwants, hbudget, hrate⟩
  rw [GatewayRun.sending, hremote] at hlocal
  cases hlocal

/-- **One call** keeps the books, if the remote backend answers it and nothing else counts. -/
theorem Books.step (h : Books g.budget w) (hanswers : RemoteAnswers g w c)
    (hroom : NothingElseCounts g w c) (hstep : w.step g c = some w') : Books g.budget w' := by
  rcases step_cases hstep with ⟨rfl, -⟩ | ⟨text, redacted, e, hprepare, rfl, hsent, hstate⟩
  · exact h
  have hanswered : ∀ e' ∈ w'.sent, e'.isRemote = true → e'.answered = true := by
    intro e' he' hremote
    rw [hsent] at he'
    rcases List.mem_cons.mp he' with rfl | he'
    · have hbackend := of_decide_eq_true hremote
      have hok := hanswers text redacted hprepare hbackend
      rw [← hbackend] at hok
      exact hok
    · exact h.answered e' he' hremote
  refine ⟨?_, ?_, hanswered, ?_⟩
  · rw [hsent, hstate, tokensOf_cons, apply_ite GatewayState.tokensUsed, GatewayState.account, h.tokens]
    split
    · push_cast
      exact add_comm _ _
    · simp
  · rw [hsent, hstate, apply_ite GatewayState.requestTimes, GatewayState.account, h.times,
      List.filter_cons]
    split
    · rw [List.map_cons, List.reverse_cons]
    · rfl
  · rw [hsent]
    exact ⟨h.daily_step fun hremote => (room_of_remote hremote).1,
      h.rate_step fun hremote => (room_of_remote hremote).2,
      fun hdegraded => noRoom_of_degraded hroom hprepare hdegraded, h.accounted.degraded⟩

/-- A call that keeps the accounts is one for which nothing else counts. -/
theorem nothingElseCounts_of_step (hstep : w.step g c = some w') (h : Needed g.budget w'.sent) :
    NothingElseCounts g w c := by
  intro text redacted hprepare hwants hfree
  rcases step_cases hstep with
    ⟨-, ⟨error, herror⟩ | hzero⟩ | ⟨text', redacted', e, hprepare', rfl, hsent, -⟩
  · rw [hprepare] at herror
    cases herror
  · -- A budget of zero leaves no room for any text.
    refine absurd (.inl ?_) hfree
    have hpos : 1 ≤ estimateTokens text := le_max_left _ _
    omega
  · rw [hprepare] at hprepare'
    cases hprepare'
    rw [hsent] at h
    have hnot : ¬(GatewayRun.sending g c (g.backend w.state c (estimateTokens text)) text).isDegraded =
        true := fun hdegraded => hfree (h.1 hdegraded)
    have hremote : g.backend w.state c (estimateTokens text) = .remoteModel := by
      cases hbackend : g.backend w.state c (estimateTokens text) with
      | remoteModel => rfl
      | localModel =>
        exact absurd (by simp [GatewayRun.sending, SentCall.isDegraded, hwants, hbackend]) hnot
    exact (backend_eq_remote_iff.mp hremote).2

/-- **The accounts are kept** in every state of a run in which the remote backend answers and nothing
else counts for a call. And they are kept only in runs in which nothing else counts. -/
theorem accounted_of_runMeets (g : RemoteModelGateway) (calls : List ModelCall) :
    (runMeets (GatewayRun.step g) (fun w c => RemoteAnswers g w c ∧ NothingElseCounts g w c) {} calls →
      Always (GatewayRun.step g) (fun w => Accounted g.budget w.sent) {} calls) ∧
    (Always (GatewayRun.step g) (fun w => Accounted g.budget w.sent) {} calls →
      runMeets (GatewayRun.step g) (NothingElseCounts g) {} calls) := by
  constructor
  · intro h before after t hlabels ht
    have hbooks : Books g.budget {} := by
      refine ⟨rfl, rfl, fun _ hmem => (by cases hmem), ?_, ?_, trivial⟩
      · rintro day ⟨_, hmem, -⟩
        cases hmem
      · rintro start ⟨_, hmem, -⟩
        cases hmem
    exact (always_of_runMeets (fun w c w' hw hc => Books.step hw hc.1 hc.2) hbooks h before after t
      hlabels ht).accounted
  · intro h
    refine runMeets_of_always (fun w c hnext => ?_) h
    exact nothingElseCounts_of_step rfl (hnext _ rfl).degraded

end Spec

/-! ### A call on the next day -/

/-- A gateway with a remote backend and ten tokens a day. -/
def smallGateway : RemoteModelGateway where
  redact := .ok
  remote := true
  budget := { dailyTokenBudget := 10 }

/-- A prompt of forty characters uses up the first day; on the second day a short one follows. -/
def twoDays : List ModelCall :=
  [{ prompt := List.replicate 40 'a', classification := .publicData, now := 0, preferRemote := true
     answer := fun _ => .ok [] },
    { prompt := "ping".toList, classification := .publicData, now := 86400000000, preferRemote := true
      answer := fun _ => .ok [] }]

/-- The second call is degraded, though no token was used on its day and no call made in the preceding
minute. -/
theorem second_day_degraded :
    (runLabels (GatewayRun.step smallGateway) {} twoDays).map (fun w =>
        w.sent.map fun e => (SentCall.dayOf e.time, e.tokens, e.isDegraded)) =
      some [(1, 1, true), (0, 10, false)] ∧
      ¬Always (GatewayRun.step smallGateway) (fun w => Accounted smallGateway.budget w.sent) {}
        twoDays := by
  have hend : (runLabels (GatewayRun.step smallGateway) {} twoDays).map (fun w => w.sent) =
      some [⟨86400000000, 1, .localModel, true, true⟩, ⟨0, 10, .remoteModel, true, true⟩] := by
    decide +kernel
  obtain ⟨w, hw, hsent⟩ := Option.map_eq_some_iff.mp hend
  refine ⟨by rw [hw, Option.map_some, hsent]; rfl, fun h => ?_⟩
  have hneeded := (h twoDays [] w (List.append_nil _).symm hw).degraded
  rw [hsent] at hneeded
  rcases hneeded.1 rfl with hbudget | hrate
  · exact absurd hbudget (by decide +kernel)
  · exact absurd hrate (by decide +kernel)

end RemoteModel

end SecOpent
