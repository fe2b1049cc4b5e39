import LineGateway.Traceability.Handshake

/-! A request that has been answered is not executed again, as long as nothing but the
first notification of a session delivers it. Then its response is read, and found not
to be reset. Any later notification of the session is executed unchecked: it is enough
that the first one is not good, or that the status changes and changes back. -/

namespace LineGateway.Traceability.Handshake

open Foundation Config Opcua

variable {D : DecimalClass}

/-- The value asks for the execution of a handler. -/
def Requests (value : DataValue) : Prop :=
  ∃ code req, value.tryUaValueAs UInt8 = .ok code ∧
    TraceabilityRequest.fromRepr code = some req ∧ req ≠ .reset

/-- A request has been answered, and the machine has not written reset since. -/
def Answered (s : Handshake D) : Prop :=
  ∃ j, s.answered = some j ∧ ∀ i, j < i → i < s.requests.length → s.valueAt i ≠ 0

/-- A handler is about to be executed. -/
def Executes (s : Handshake D) : Prop :=
  ∃ u m, s.session = some u ∧ u.phase = .accepted m ∧ Requests m.value

/-- An answered request is delivered by the first notification of a session only, and
no earlier reset of the response takes effect once it is answered. -/
def Unrepeated (s : Handshake D) : Label → Prop
  | .notify m => s.Answered → Requests m.value → ∀ u, s.session = some u → u.isInitial
  | .land k => s.Answered → ∀ x, s.inFlight[k]? = some x → x.code ≠ 0
  | _ => True

/-! ### The invariant -/

/-- What a session handles is the value at its cursor. -/
def Phase.At (s : Handshake D) (cursor : ℕ) : Phase D → Prop
  | .checking m => m.index = cursor ∧ s.Delivers m
  | .accepted m => m.index = cursor ∧ s.Delivers m ∧ (s.Answered → ¬ Requests m.value)
  | .executing m _ => m.index = cursor ∧ s.Delivers m
  | .answering x => x.index = cursor ∧ s.Delivers x.toNotification
  | _ => True

structure OnceSession (s : Handshake D) (u : Session D) : Prop where
  cursor_lt : u.cursor < s.requests.length
  answered_le : ∀ j, s.answered = some j → j ≤ u.cursor
  phase : Phase.At s u.cursor u.phase

structure Once (s : Handshake D) : Prop where
  pos : 0 < s.requests.length
  answered : ∀ j, s.answered = some j → j < s.requests.length ∧ s.valueAt j ≠ 0
  response : s.Answered → s.response ≠ 0
  session : ∀ u, s.session = some u → s.OnceSession u

theorem initial_once : Once (initial : Handshake D) where
  pos := Nat.zero_lt_one
  answered j hj := by simp [initial] at hj
  response ha := by simp [initial, Answered] at ha
  session u hu := by simp [initial] at hu

theorem not_requests_zero {value : DataValue} (hv : value.tryUaValueAs UInt8 = .ok 0) :
    ¬ Requests value := by
  rintro ⟨code, req, hcode, hreq, hne⟩
  obtain rfl : code = 0 := Except.ok.inj (hcode.symm.trans hv)
  rw [fromRepr_eq_reset_iff.mpr rfl] at hreq
  exact hne (Option.some.inj hreq).symm

section Steps

variable {s : Handshake D} {u : Session D} {m : Notification} {x : Answer D}

/-! ### The machine -/

theorem Answered.of_write {c : UInt8}
    (h : ({ s with requests := s.requests ++ [c] } : Handshake D).Answered) : s.Answered := by
  obtain ⟨j, hj, hne⟩ := h
  refine ⟨j, hj, fun i hji hi => ?_⟩
  rw [← valueAt_append hi]
  exact hne i hji (by simp; omega)

theorem Delivers.write {c : UInt8} (h : s.Delivers m) (hm : m.index < s.requests.length) :
    ({ s with requests := s.requests ++ [c] } : Handshake D).Delivers m := by
  intro code hcode
  rw [valueAt_append hm]
  exact h code hcode

theorem Once.write (h : s.Once) (c : UInt8) : Once { s with requests := s.requests ++ [c] } where
  pos := by simp
  answered j hj := by
    obtain ⟨hlt, hne⟩ := h.answered j hj
    exact ⟨by simp; omega, by rwa [valueAt_append hlt]⟩
  response ha := h.response ha.of_write
  session u hu := by
    obtain ⟨hlt, hle, hphase⟩ := h.session u hu
    refine ⟨by simp; omega, hle, ?_⟩
    unfold Phase.At at hphase ⊢
    cases hp : u.phase with
    | waiting => trivial
    | dead message => trivial
    | checking m => simp only [hp] at hphase ⊢; exact ⟨hphase.1, hphase.2.write (by omega)⟩
    | executing m started => simp only [hp] at hphase ⊢; exact ⟨hphase.1, hphase.2.write (by omega)⟩
    | answering x => simp only [hp] at hphase ⊢; exact ⟨hphase.1, hphase.2.write (by omega)⟩
    | accepted m =>
      simp only [hp] at hphase ⊢
      exact ⟨hphase.1, hphase.2.1.write (by omega), fun ha => hphase.2.2 ha.of_write⟩

/-! ### The session -/

theorem Once.subscribe (h : s.Once) (v : TraceabilityHandler TraceabilityContext) :
    Once { s with session := some ⟨v, true, s.requests.length - 1, .waiting⟩, inFlight := [] } where
  pos := h.pos
  answered := h.answered
  response := h.response
  session u hu := by
    have hpos := h.pos
    cases hu
    refine ⟨by simp; omega, fun j hj => ?_, trivial⟩
    have := (h.answered j hj).1
    simp only
    omega

/-- A step of the session that writes no response. -/
theorem Once.progress (h : s.Once) (hu : s.session = some u) {u' : Session D}
    {flight : List (Answer D)} (hle : u.cursor ≤ u'.cursor) (hlt : u'.cursor < s.requests.length)
    (hp : Phase.At s u'.cursor u'.phase) :
    Once { s with session := some u', inFlight := flight } where
  pos := h.pos
  answered := h.answered
  response := h.response
  session _ hv := by
    cases hv
    exact ⟨hlt, fun j hj => ((h.session u hu).answered_le j hj).trans hle, hp⟩

theorem Once.check (h : s.Once) (hu : s.session = some u) (hp : u.phase = .checking m)
    {t : List (Event handlerSignature)} {answered : Bool}
    (hy : Yields (isInitialRequestAnswered u.handler m.value : HandlerProg Empty Bool) t
      (.returned answered)) (ht : s.Honest u.handler t) :
    Once { s with
      session := some { u with phase := if answered then .waiting else .accepted m } } := by
  obtain ⟨hlt, hle, hphase⟩ := h.session u hu
  simp only [hp, Phase.At] at hphase
  refine h.progress hu le_rfl hlt ?_
  cases answered with
  | true => trivial
  | false =>
    refine ⟨hphase.1, hphase.2, fun ha => ?_⟩
    -- The response of an answered request is not read as reset.
    rcases isInitialRequestAnswered_false hy with hz | ⟨v, rfl, hv⟩
    · exact not_requests_zero hz
    · exact absurd (ht v (by simp) _ hv).symm (h.response ha)

/-! ### Answers -/

/-- The answer reset is one to a reset that has been delivered. -/
theorem Delivers.valueAt_eq_zero (h : s.Delivers x.toNotification) (hx : x.code = 0) :
    s.valueAt x.index = 0 :=
  (h 0 (responseCode_reset x.yields (x.code_eq.trans (congrArg some hx)))).symm

theorem Once.answer (h : s.Once) (hu : s.session = some u) (hp : u.phase = .answering x) :
    Once { s with
      session := some { u with phase := .waiting }
      response := x.code
      source := some x
      answered := s.noteAnswered x } := by
  obtain ⟨hlt, hle, hphase⟩ := h.session u hu
  simp only [hp, Phase.At] at hphase
  obtain ⟨hindex, hd⟩ := hphase
  by_cases hx : x.code ≠ responseReset ∧ s.valueAt x.index ≠ 0
  · simp only [noteAnswered, if_pos hx]
    refine ⟨h.pos, fun j hj => ?_, fun _ => hx.1, ?_⟩
    · cases hj
      exact ⟨hindex ▸ hlt, hx.2⟩
    · rintro _ ⟨rfl⟩
      exact ⟨hlt, fun j hj => by cases hj; exact hindex.le, trivial⟩
  · simp only [noteAnswered, if_neg hx]
    refine ⟨h.pos, h.answered, fun ⟨j, hj, hne⟩ hz => ?_, ?_⟩
    · -- A reset is later than the answered request, or is this request.
      have hzero := hd.valueAt_eq_zero hz
      rcases (hle j hj).lt_or_eq with hji | rfl
      · exact hne x.index (hindex ▸ hji) (hindex ▸ hlt) hzero
      · exact (h.answered u.cursor hj).2 (hindex ▸ hzero)
    · rintro _ ⟨rfl⟩
      exact ⟨hlt, hle, trivial⟩

theorem Once.land (h : s.Once) {k : ℕ} (hx : s.Answered → x.code ≠ 0) :
    Once { s with response := x.code, source := some x, inFlight := s.inFlight.eraseIdx k } where
  pos := h.pos
  answered := h.answered
  response := hx
  session u hu := by
    obtain ⟨hlt, hle, hphase⟩ := h.session u hu
    exact ⟨hlt, hle, hphase⟩

end Steps

/-! ### Runs -/

theorem Step.once {s s' : Handshake D} {l : Label} (hs : Step s l s') (hc : s.Unrepeated l)
    (h : s.Once) : s'.Once := by
  cases hs with
  | write c => exact h.write c
  | subscribe v => exact h.subscribe v
  | notifyInitial u m hu hw hi hm hd =>
    exact h.progress hu le_rfl (h.session u hu).cursor_lt ⟨hm, hd⟩
  | notify u m hu hw hi hm hlt hd =>
    exact h.progress hu hm hlt ⟨rfl, hd, fun ha hr => hi (hc ha hr u hu)⟩
  | check u m t answered hu hp hy ht => exact h.check hu hp hy ht
  | start u m hu hp =>
    have hs := h.session u hu
    obtain ⟨hm, hd, -⟩ : Phase.At s u.cursor (.accepted m) := hp ▸ hs.phase
    exact h.progress hu le_rfl hs.cursor_lt ⟨hm, hd⟩
  | finish u x hu hh hp =>
    have hs := h.session u hu
    have hphase : Phase.At s u.cursor (.executing x.toNotification x.started) := hp ▸ hs.phase
    exact h.progress hu le_rfl hs.cursor_lt hphase
  | panic u m started t message hu hp hy =>
    exact h.progress hu le_rfl (h.session u hu).cursor_lt trivial
  | answer u x hu hp => exact h.answer hu hp
  | answerFails u x dies hu hp =>
    exact h.progress hu le_rfl (h.session u hu).cursor_lt (by cases dies <;> trivial)
  | land x k hk => exact h.land fun ha => hc ha x hk

/-- In a run that repeats no answered request, an answered request is not executed. -/
theorem answered_not_executed {s : Handshake D} {ls : List Label}
    (hr : Run (guarded Step Unrepeated) initial ls s) (ha : s.Answered) : ¬ s.Executes := by
  rintro ⟨u, m, hu, hp, hrequests⟩
  have h : s.Once := hr.invariant (fun _ _ _ h hs => hs.1.once hs.2 h) initial_once
  have hphase : Phase.At s u.cursor (.accepted m) := hp ▸ (h.session u hu).phase
  exact hphase.2.2 ha hrequests

/-! ### Reconnections -/

/-- A creation is requested and answered; then the session is lost. -/
def answeredLabels : List Label :=
  [.write 1, .subscribe Creations.sampleHandler, .notify ⟨1, sampleValue 1⟩,
    .check (sampleRead 0) false, .start, .finish sampleAnswer.trace sampleAnswer.outcome, .answer,
    .subscribe Creations.sampleHandler]

def answeredState : Handshake asciiDecimal where
  requests := [0, 1]
  response := 1
  session := some ⟨Creations.sampleHandler, true, 1, .waiting⟩
  inFlight := []
  source := some sampleAnswer
  answered := some 1

theorem requests_sampleValue : Requests (sampleValue 1) := ⟨1, .createPartId, rfl, rfl, by decide⟩

theorem answeredState_run :
    Run (guarded Step Unrepeated) (initial : Handshake asciiDecimal) answeredLabels answeredState :=
  .cons ⟨.write _ _, trivial⟩ <| .cons ⟨.subscribe _ _, trivial⟩ <|
    .cons ⟨.notifyInitial _ _ ⟨1, sampleValue 1⟩ rfl rfl rfl rfl fun _ hc => sampleValue_eq hc,
      fun _ _ u hu => by cases hu; rfl⟩ <|
    .cons ⟨.check _ _ _ _ false rfl rfl (.call _ (.ret _)) (honest_sampleRead _), trivial⟩ <|
    .cons ⟨.start _ _ _ rfl rfl, trivial⟩ <| .cons ⟨.finish _ _ sampleAnswer rfl rfl rfl, trivial⟩ <|
    .cons ⟨.answer _ _ _ rfl rfl, trivial⟩ <| .cons ⟨.subscribe _ _, trivial⟩ <| .nil _

theorem answeredState_answered : answeredState.Answered :=
  ⟨1, rfl, fun i hi hlt => absurd hlt (by simp [answeredState]; omega)⟩

/-- The next session delivers the answered request first, and ignores it. -/
theorem answered_not_executed_first :
    ∃ s : Handshake asciiDecimal, Run (guarded Step Unrepeated) initial
        (answeredLabels ++ [.notify ⟨1, sampleValue 1⟩, .check (sampleRead 1) true]) s ∧
      s.Answered ∧ ¬ s.Executes := by
  have hrun : Run (guarded Step Unrepeated) answeredState
      [.notify ⟨1, sampleValue 1⟩, .check (sampleRead 1) true]
      { answeredState with session := some ⟨Creations.sampleHandler, false, 1, .waiting⟩ } :=
    .cons ⟨.notifyInitial _ _ ⟨1, sampleValue 1⟩ rfl rfl rfl rfl fun _ hc => sampleValue_eq hc,
        fun _ _ u hu => by cases hu; rfl⟩ <|
      .cons ⟨.check _ _ _ _ true rfl rfl (.call _ (.ret _)) (honest_sampleRead _), trivial⟩ <| .nil _
  have hr := answeredState_run.append hrun
  exact ⟨_, hr, answeredState_answered, answered_not_executed hr answeredState_answered⟩

/-- What is notified while the initial value is awaited. -/
def awaitedValue : DataValue := ⟨none, some ⟨0x80320000⟩⟩

/-- The next session delivers a value that is not good first, and then the answered
request, which is executed again. -/
theorem answered_executed_again :
    ∃ s : Handshake asciiDecimal, Run Step initial (answeredLabels ++ [.notify ⟨1, awaitedValue⟩,
        .check (sampleRead 1) true, .notify ⟨1, sampleValue 1⟩]) s ∧
      s.Answered ∧ s.Executes := by
  have hrun : Run Step answeredState [.notify ⟨1, awaitedValue⟩, .check (sampleRead 1) true,
        .notify ⟨1, sampleValue 1⟩]
      { answeredState with
        session := some ⟨Creations.sampleHandler, false, 1, .accepted ⟨1, sampleValue 1⟩⟩ } :=
    .cons (.notifyInitial _ _ ⟨1, awaitedValue⟩ rfl rfl rfl rfl fun _ hc => nomatch hc) <|
      .cons (.check _ _ _ _ true rfl rfl (.call _ (.ret _)) (honest_sampleRead _)) <|
      .cons (.notify _ _ ⟨1, sampleValue 1⟩ rfl rfl (by simp) le_rfl (by decide)
        fun _ hc => sampleValue_eq hc) <| .nil _
  exact ⟨_, answeredState_run.of_guarded.append hrun, answeredState_answered,
    _, _, rfl, rfl, requests_sampleValue⟩

end LineGateway.Traceability.Handshake
