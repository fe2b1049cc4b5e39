import LineGateway.Traceability.Attribution

/-! A machine that waits is served. Once a session has subscribed, as long as it is not lost,
its writes succeed, its first read is answered and its handlers do not panic, the gateway is
never at rest while the machine waits for it: not for the response to a request, nor for the
reset of the response. The steps left to the gateway are counted, and none of them is in vain. -/

namespace LineGateway.Traceability.Handshake

open Foundation Config Opcua

variable {D : DecimalClass}

/-- The machine waits for the gateway: its request is not answered, or its reset is not. -/
def Waits (s : Handshake D) : Prop := ¬ (s.request = 0 ↔ s.response = 0)

/-- The reply to a check is a readable response code. -/
def Readable (e : Event handlerSignature) : Prop :=
  ∃ node v c, e = ⟨.read [node], .ok [v]⟩ ∧ v.tryUaValueAs UInt8 = .ok c

/-- The session goes on: writes and the first read succeed, and no handler panics. -/
def Smooth (s : Handshake D) (l : Label) : Prop :=
  s.Conforming l ∧ match l with
    | .subscribe _ | .answerFails _ => False
    | .check t _ => ∀ e ∈ t, Readable e
    | .finish _ o => ∀ m, o ≠ .panicked m
    | _ => True

/-! ### The invariant of a session that goes on -/

/-- What the session has taken is answered, or is to be answered, by a code of its kind. -/
def Settles (s : Handshake D) (u : Session D) : Phase D → Prop
  | .waiting => u.isInitial = false → (s.valueAt u.cursor = 0 ↔ s.response = 0)
  | .answering x => s.valueAt u.cursor = 0 ↔ x.code = 0
  | .dead _ => False
  | _ => True

structure Serving (s : Handshake D) : Prop where
  inv : s.Inv
  inFlight : s.inFlight = []
  session : ∃ u, s.session = some u ∧ s.Settles u u.phase

section Steps

variable {s s' : Handshake D} {u : Session D} {l : Label}

/-- The value checked is a request, and so is what is read as the response. -/
theorem check_answered {h : TraceabilityHandler TraceabilityContext} {value : DataValue}
    {t : List (Event handlerSignature)}
    (hy : Yields (isInitialRequestAnswered h value : HandlerProg Empty Bool) t (.returned true))
    (ht : s.Honest h t) (hread : ∀ e ∈ t, Readable e) :
    value.tryUaValueAs UInt8 ≠ .ok 0 ∧ s.response ≠ 0 := by
  unfold isInitialRequestAnswered at hy
  split at hy
  · cases (Yields.ret_iff.mp hy).2
  · next hreset =>
    obtain ⟨r, t', rfl, hy'⟩ := Yields.call_iff.mp hy
    obtain ⟨rfl, hr⟩ := Yields.ret_iff.mp hy'
    obtain ⟨node, v, c, heq, hv⟩ := hread _ (List.mem_singleton_self _)
    injection heq with he hreply
    subst hreply
    refine ⟨fun hzero => hreset ?_, fun hresponse => ?_⟩
    · rw [hzero]
      rfl
    · have hc : c = s.response := ht v (List.mem_singleton_self _) c hv
      have hanswered : (true : Bool) = answeredBy (.ok [v]) := Outcome.returned.inj hr
      simp only [answeredBy, hv, hc, hresponse, responseReset] at hanswered
      cases hanswered

theorem Inv.checking_value (h : s.Inv) (hu : s.session = some u) {m : Notification}
    (hp : u.phase = .checking m) : m.value.tryUaValueAs UInt8 = .ok (s.valueAt u.cursor) := by
  have hphase := (h.session u hu).phase
  simp only [hp, PhaseInv] at hphase
  exact hphase.1 ▸ hphase.2.1

theorem Inv.executing_value (h : s.Inv) (hu : s.session = some u) {m : Notification} {started : ℕ}
    (hp : u.phase = .executing m started) :
    m.value.tryUaValueAs UInt8 = .ok (s.valueAt u.cursor) := by
  have hphase := (h.session u hu).phase
  simp only [hp, PhaseInv] at hphase
  exact hphase.1.index ▸ hphase.1.value

/-- A request is answered by a code other than reset, and a reset by reset. -/
theorem Inv.answer_settles (h : s.Inv) (hu : s.session = some u) {x : Answer D}
    (hp : u.phase = .executing x.toNotification x.started) :
    s.valueAt u.cursor = 0 ↔ x.code = 0 := by
  have hvalue := h.executing_value hu hp
  constructor
  · intro hzero
    exact Answer.code_eq_zero (hzero ▸ hvalue)
  · intro hcode
    have hcode_eq := x.code_eq
    rw [hcode] at hcode_eq
    have hreset := responseCode_reset x.yields hcode_eq
    exact Except.ok.inj (hvalue.symm.trans hreset)

theorem Serving.step (h : s.Serving) (hs : Step s l s') (hl : s.Smooth l) : s'.Serving := by
  have hinv := hs.inv hl.1 h.inv
  obtain ⟨hold, hflight, v, hv, hsettles⟩ := h
  refine ⟨hinv, ?_, ?_⟩
  · cases hs with
    | subscribe => exact hl.2.elim
    | answerFails => exact hl.2.elim
    | land x k hk => simp [hflight] at hk
    | _ => exact hflight
  cases hs with
  | write c =>
    have hlt := (hold.session v hv).cursor_lt
    refine ⟨v, hv, ?_⟩
    unfold Settles at hsettles ⊢
    rw [valueAt_append hlt]
    exact hsettles
  | subscribe => exact hl.2.elim
  | notifyInitial u m hu hw hi hm hd => exact ⟨_, rfl, trivial⟩
  | notify u m hu hw hi hm hlt hd => exact ⟨_, rfl, trivial⟩
  | check u m t answered hu hp hy ht =>
    refine ⟨_, rfl, ?_⟩
    cases answered with
    | false => trivial
    | true =>
      intro _
      obtain ⟨hvalue, hresponse⟩ := check_answered hy ht hl.2
      have hgood := hold.checking_value hu hp
      exact iff_of_false (fun hzero => hvalue (hgood.trans (congrArg Except.ok hzero))) hresponse
  | start u m hu hp => exact ⟨_, rfl, trivial⟩
  | finish u x hu hh hp => exact ⟨_, rfl, hold.answer_settles hu hp⟩
  | panic u m started t message hu hp hy => exact absurd rfl (hl.2 message)
  | answer u x hu hp =>
    refine ⟨_, rfl, fun _ => ?_⟩
    cases hv.symm.trans hu
    rw [hp] at hsettles
    exact hsettles
  | answerFails => exact hl.2.elim
  | land x k hk => simp [hflight] at hk

/-- A session that has just subscribed. -/
theorem Inv.subscribed (h : s.Inv) (v : TraceabilityHandler TraceabilityContext) :
    Serving { s with session := some ⟨v, true, s.requests.length - 1, .waiting⟩, inFlight := [] } :=
  ⟨h.subscribe v, rfl, _, rfl, nofun⟩

theorem Serving.run {ls : List Label} (h : s.Serving) (hr : Run (guarded Step Smooth) s ls s') :
    s'.Serving :=
  hr.invariant (fun _ _ _ h hs => h.step hs.1 hs.2) h

/-! ### No deadlock -/

/-- A handler that fails is answered by the code of its error. -/
theorem exists_refusal {ε : Type} {p : HandlerProg ε Unit} {wrap : ε → HandleRequestError}
    (hp : ∃ t e, Yields p t (.failed e)) : ∃ t o code,
      Yields (p.mapErr wrap >>= fun _ => pure responseSuccess :
        HandlerProg HandleRequestError UInt8) t o ∧ responseCode o = some code := by
  obtain ⟨t, e, hy⟩ := hp
  exact ⟨t, .failed (wrap e), _, Yields.bind_iff.mpr
    (.inr (.inl ⟨_, rfl, Yields.mapErr_iff.mpr (.inr (.inl ⟨e, rfl, hy⟩))⟩)), rfl⟩

/-- A request can be refused: its first read fails, or the check of the queues does. -/
theorem exists_answer (D : DecimalClass) (h : TraceabilityHandler TraceabilityContext)
    (value : DataValue) : ∃ t o code, Yields (handleRequest D h value) t o ∧
      responseCode o = some code := by
  cases hv : value.tryUaValueAs UInt8 with
  | error e => exact ⟨[], .failed (.valueError e), _, by simp [handleRequest, hv], rfl⟩
  | ok code =>
    simp only [handleRequest, hv, Prog.attempt_ok, Prog.ret_bind]
    cases TraceabilityRequest.fromRepr code with
    | none => exact ⟨[], .failed (.unknownValue code), _, .fail _, rfl⟩
    | some request =>
      cases request with
      | reset => exact ⟨[], .returned responseReset, _, .ret _, rfl⟩
      | createPartId =>
        refine exists_refusal ?_
        rcases preparePartId_cases D h with hfail | ⟨lineId, nodes, hread⟩
        · refine ⟨[], .notConfigured, ?_⟩
          rw [createPartId, hfail]
          exact .fail _
        · refine ⟨[⟨.read nodes, .error ⟨.good⟩⟩], .readVariables ⟨.good⟩, ?_⟩
          rw [createPartId, hread]
          exact .call _ (.fail _)
      | readPartSheet =>
        have hfail : ∃ t e, Yields (handleRead h) t (.failed e) := by
          rw [handleRead_eq]
          exact ⟨[⟨.read _, .error ⟨.good⟩⟩], _, .call _ (.fail _)⟩
        exact exists_refusal hfail
      | savePartSheets =>
        have hfail : ∃ t e, Yields (handleSave h) t (.failed e) := by
          rw [handleSave_eq]
          exact ⟨[⟨.checkEnqueuingAllowed, .error (.tooMuchEnqueued 0 0)⟩], _, .call _ (.fail _)⟩
        exact exists_refusal hfail

theorem sampleValue_good (code : UInt8) : (sampleValue code).tryUaValueAs UInt8 = .ok code :=
  DataValue.tryUaValueAs_ok_iff.mpr ⟨.byte code, show StatusCode.good.isGood by decide, rfl,
    tryFromVariant_byte_ok_iff.mpr rfl⟩

/-- The reply to a check that reads the response as it is. -/
theorem exists_check (h : TraceabilityHandler TraceabilityContext) (value : DataValue) :
    ∃ t answered, Yields (isInitialRequestAnswered h value : HandlerProg Empty Bool) t
      (.returned answered) ∧ s.Honest h t ∧ ∀ e ∈ t, Readable e := by
  unfold isInitialRequestAnswered
  split
  · exact ⟨[], false, .ret _, fun v hv => (nomatch hv), fun e he => nomatch he⟩
  · refine ⟨[⟨.read [h.state.protocol.response], .ok [sampleValue s.response]⟩], _,
      .call _ (.ret _), fun v hv c hc => ?_, fun e he => ?_⟩
    · obtain ⟨-, heq⟩ := Sigma.mk.inj (List.mem_singleton.mp hv)
      cases eq_of_heq heq
      exact sampleValue_eq hc
    · rw [List.mem_singleton.mp he]
      exact ⟨_, _, _, rfl, sampleValue_good _⟩

theorem Serving.enabled (h : s.Serving) (hw : s.Waits) :
    ∃ l s', Step s l s' ∧ s.Smooth l := by
  obtain ⟨hinv, hflight, u, hu, hsettles⟩ := h
  have hpos := hinv.pos
  have hsession := hinv.session u hu
  cases hp : u.phase with
  | dead message =>
    rw [hp] at hsettles
    exact hsettles.elim
  | checking m =>
    obtain ⟨t, answered, hy, hhonest, hread⟩ := exists_check (s := s) u.handler m.value
    exact ⟨_, _, .check s u m t answered hu hp hy hhonest, trivial, hread⟩
  | accepted m => exact ⟨_, _, .start s u m hu hp, trivial, trivial⟩
  | executing m started =>
    obtain ⟨t, o, code, hy, hcode⟩ := exists_answer D u.handler m.value
    refine ⟨_, _, .finish s u ⟨m, u.handler, started, t, o, code, hy, hcode⟩ hu rfl hp, trivial, ?_⟩
    rintro message rfl
    cases hcode
  | answering x => exact ⟨_, _, .answer s u x hu hp, trivial, trivial⟩
  | waiting =>
    cases hi : u.isInitial with
    | true =>
      refine ⟨_, _, .notifyInitial s u ⟨u.cursor, sampleValue (s.valueAt u.cursor)⟩ hu hp hi rfl
        fun c hc => sampleValue_eq hc, ⟨⟨_, sampleValue_good _⟩, fun v hv hne => ?_⟩, trivial⟩
      cases hu.symm.trans hv
      exact absurd hi hne
    | false =>
      have hlt : u.cursor < s.requests.length - 1 := by
        have hcursor := hsession.cursor_lt
        rw [hp] at hsettles
        by_contra hge
        have hlast : u.cursor = s.requests.length - 1 := by omega
        exact hw (by rw [request, ← hlast]; exact hsettles hi)
      refine ⟨_, _, .notify s u ⟨s.requests.length - 1, sampleValue s.request⟩ hu hp (by simp [hi])
        hlt.le (by simp only; omega) fun c hc => sampleValue_eq hc, ⟨⟨_, sampleValue_good _⟩, fun v hv _ => ?_⟩,
        trivial⟩
      cases hu.symm.trans hv
      exact hlt

/-! ### The steps left -/

/-- The steps until the notification being handled is done with. -/
def stepsLeft : Phase D → ℕ
  | .waiting => 0
  | .checking _ => 4
  | .accepted _ => 3
  | .executing _ _ => 2
  | .answering _ => 1
  | .dead _ => 0

/-- At most this many steps are left to the session if nothing is written to the request
variable. -/
def sessionWork (n : ℕ) (u : Session D) : ℕ :=
  5 * (n - 1 - u.cursor) + if u.isInitial then 5 else stepsLeft u.phase

def work (s : Handshake D) : ℕ := (s.session.map (sessionWork s.requests.length)).getD 0

theorem work_eq (hu : s.session = some u) : s.work = sessionWork s.requests.length u := by
  rw [work, hu]
  rfl

/-- While the machine waits, every step brings the session on. -/
theorem Serving.work_lt (h : s.Serving) (hw : s.Waits) (hs : Step s l s') (hl : s.Smooth l) :
    s'.work < s.work := by
  have hinv := h.inv
  have hflight := h.inFlight
  have hnot : ∀ {u : Session D}, s.session = some u → u.phase ≠ .waiting → ¬ u.isInitial :=
    fun hu hne hi => hne ((hinv.session _ hu).initial hi)
  cases hs with
  | write c =>
    have hc := hl.1
    simp only [Conforming] at hc
    split_ifs at hc
    · exact absurd (iff_of_false hc.1 hc.2) hw
    · exact absurd (iff_of_true hc.1 hc.2) hw
  | subscribe => exact hl.2.elim
  | notifyInitial u m hu hwait hi hm hd =>
    rw [work_eq hu]
    simp [work, sessionWork, hi, stepsLeft]
  | notify u m hu hwait hi hm hlt hd =>
    have hlater := hl.1.2 u hu hi
    rw [work_eq hu]
    simp only [work, sessionWork, hwait, stepsLeft, if_neg hi, Option.map_some, Option.getD_some]
    omega
  | check u m t answered hu hp hy ht =>
    have hi := hnot hu (by simp [hp])
    rw [work_eq hu]
    cases answered <;> simp [work, sessionWork, hp, hi, stepsLeft]
  | start u m hu hp =>
    have hi := hnot hu (by simp [hp])
    rw [work_eq hu]
    simp [work, sessionWork, hp, hi, stepsLeft]
  | finish u x hu hh hp =>
    have hi := hnot hu (by simp [hp])
    rw [work_eq hu]
    simp [work, sessionWork, hp, hi, stepsLeft]
  | panic u m started t message hu hp hy => exact absurd rfl (hl.2 message)
  | answer u x hu hp =>
    have hi := hnot hu (by simp [hp])
    rw [work_eq hu]
    simp [work, sessionWork, hp, hi, stepsLeft]
  | answerFails => exact hl.2.elim
  | land x k hk => simp [hflight] at hk

theorem Serving.length_le {ls : List Label} (h : s.Serving)
    (hr : Run (guarded Step fun s l => s.Smooth l ∧ s.Waits) s ls s') :
    ls.length + s'.work ≤ s.work := by
  induction hr with
  | nil => simp
  | cons head _ ih =>
    have hlt := h.work_lt head.2.2 head.1 head.2.1
    have hle := ih (h.step head.1 head.2.1)
    rw [List.length_cons]
    omega

theorem Serving.work_le (h : s.Serving) : s.work ≤ 5 * s.requests.length := by
  obtain ⟨hinv, -, u, hu, -⟩ := h
  have hpos := hinv.pos
  have hsteps : (if u.isInitial then 5 else stepsLeft u.phase) ≤ 5 := by
    split
    · exact le_rfl
    · cases u.phase <;> simp [stepsLeft]
  rw [work_eq hu, sessionWork]
  omega

end Steps

/-- Once a session has subscribed and as long as it goes on, a machine that waits is served:
a step is always possible, and no more than five for each value of the request variable
are taken until the machine waits no longer. -/
theorem waiting_served {s₀ s₁ s : Handshake D} {ls₀ ls : List Label}
    {v : TraceabilityHandler TraceabilityContext}
    (hr₀ : Run (guarded Step Conforming) initial ls₀ s₀) (hsub : Step s₀ (.subscribe v) s₁)
    (hr : Run (guarded Step Smooth) s₁ ls s) :
    (s.Waits → ∃ l s', Step s l s' ∧ s.Smooth l) ∧
      ∀ ls' s', Run (guarded Step fun s l => s.Smooth l ∧ s.Waits) s ls' s' →
        ls'.length ≤ 5 * s.requests.length := by
  cases hsub with
  | subscribe =>
    have hserving := ((run_inv hr₀).subscribed v).run hr
    refine ⟨hserving.enabled, fun ls' s' hr' => ?_⟩
    have hlength := hserving.length_le hr'
    have hwork := hserving.work_le
    omega

/-- A creation is requested before the session subscribes. -/
theorem waiting_served_creation : ∃ s : Handshake asciiDecimal,
    s.requests = [0, 1] ∧ s.response = 0 ∧ (∃ l s', Step s l s' ∧ s.Smooth l) ∧
      ∀ ls' s', Run (guarded Step fun s l => s.Smooth l ∧ s.Waits) s ls' s' → ls'.length ≤ 10 := by
  have hr : Run (guarded Step Conforming) (initial : Handshake asciiDecimal) [.write 1]
      { initial with requests := [0, 1] } := .single ⟨.write _ _, rfl, rfl⟩
  obtain ⟨henabled, hlength⟩ :=
    waiting_served hr (.subscribe _ Creations.sampleHandler) (.nil _)
  exact ⟨_, rfl, rfl, henabled (by simp [Waits, request, valueAt, initial]), hlength⟩

end LineGateway.Traceability.Handshake
