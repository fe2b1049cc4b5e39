import LineGateway.Traceability.Handshake

/-! Attribution of response codes, for a conforming machine and good notifications. A
response code other than reset that is seen while a request is outstanding results from
an execution of this very request, started after it was issued. The values at odd
positions of the history are the requests; as long as one of them has not been taken by
the session it is the last value, and the response is reset. -/

namespace LineGateway.Traceability.Handshake

open Foundation Config Opcua

variable {D : DecimalClass}

/-- The machine issues a request when request and response are reset, and resets it when
the response is not. Notifications are good, and each of a later value than the last. -/
def Conforming (s : Handshake D) : Label → Prop
  | .write c => if c = 0 then s.request ≠ 0 ∧ s.response ≠ 0 else s.request = 0 ∧ s.response = 0
  | .notify m => (∃ c, m.value.tryUaValueAs UInt8 = .ok c) ∧
      ∀ u, s.session = some u → ¬ u.isInitial → u.cursor < m.index
  | _ => True

/-! ### The invariant -/

/-- The answer is one to the request in force, executed since it was issued. -/
structure Current (s : Handshake D) (x : Answer D) : Prop where
  index : x.index + 1 = s.requests.length
  started : x.started = s.requests.length
  outstanding : s.requests.length % 2 = 0
  value : x.value.tryUaValueAs UInt8 = .ok s.request

theorem Current.congr {s s' : Handshake D} {x : Answer D} (h : s.Current x)
    (hr : s'.requests = s.requests) : s'.Current x where
  index := hr ▸ h.index
  started := hr ▸ h.started
  outstanding := hr ▸ h.outstanding
  value := by simpa only [request, valueAt, hr] using h.value

/-- A response to the request in force is the code of a current answer. -/
def Attributed (s : Handshake D) : Prop :=
  s.requests.length % 2 = 0 → s.response ≠ 0 →
    ∃ x, s.source = some x ∧ s.Current x ∧ x.code = s.response

theorem Attributed.congr {s s' : Handshake D} (h : s.Attributed) (hr : s'.requests = s.requests)
    (hc : s'.response = s.response) (hx : s'.source = s.source) : s'.Attributed := by
  intro hn hne
  rw [hr] at hn
  rw [hc] at hne
  obtain ⟨x, hs, hcur, hcode⟩ := h hn hne
  exact ⟨x, hx.trans hs, hcur.congr hr, hcode.trans hc.symm⟩

/-- A request being handled is in force and not answered. -/
structure Taken (s : Handshake D) (u : Session D) (m : Notification) : Prop where
  index : m.index = u.cursor
  value : m.value.tryUaValueAs UInt8 = .ok (s.valueAt m.index)
  inForce : u.cursor % 2 = 1 → s.requests.length = u.cursor + 1 ∧ s.response = 0
  below : ∀ x ∈ s.inFlight, x.index < u.cursor

/-- Until the initial notification is checked, the machine can only have seen the end of
the request at subscription time. -/
structure Unchecked (s : Handshake D) (u : Session D) : Prop where
  inFlight : s.inFlight = []
  moved : u.cursor % 2 = 1 → s.requests.length = u.cursor + 1 ∨
    s.requests.length = u.cursor + 2 ∧ s.response ≠ 0

def PhaseInv (s : Handshake D) (u : Session D) : Phase D → Prop
  | .waiting => if u.isInitial then s.Unchecked u else ∀ x ∈ s.inFlight, x.index ≤ u.cursor
  | .checking m => m.index = u.cursor ∧ m.value.tryUaValueAs UInt8 = .ok (s.valueAt m.index) ∧
      s.Unchecked u
  | .accepted m => s.Taken u m
  | .executing m started => s.Taken u m ∧ (u.cursor % 2 = 1 → started = s.requests.length)
  | .answering x => x.index = u.cursor ∧ (x.code ≠ 0 → s.Current x ∧ s.response = 0) ∧
      ∀ y ∈ s.inFlight, y.index < u.cursor
  | .dead _ => ∀ x ∈ s.inFlight, x.index ≤ u.cursor

structure SessionInv (s : Handshake D) (u : Session D) : Prop where
  cursor_lt : u.cursor < s.requests.length
  fresh : ∀ i, u.cursor < i → i % 2 = 1 → s.requests.length ≤ i + 1 ∧
    (s.requests.length = i + 1 → s.response = 0)
  initial : u.isInitial → u.phase = .waiting
  phase : s.PhaseInv u u.phase

structure Inv (s : Handshake D) : Prop where
  pos : 0 < s.requests.length
  parity : ∀ i < s.requests.length, (s.valueAt i = 0 ↔ i % 2 = 0)
  attributed : s.Attributed
  flight : ∀ x ∈ s.inFlight, x.code ≠ 0 → s.Current x ∧ s.response = 0
  order : s.inFlight.Pairwise fun x y => x.index < y.index
  session : ∀ u, s.session = some u → s.SessionInv u

theorem initial_inv : Inv (initial : Handshake D) where
  pos := Nat.zero_lt_one
  parity i hi := by
    obtain rfl : i = 0 := by simpa [initial] using hi
    simp [initial, valueAt]
  attributed h := by simp [initial] at h
  flight x hx := by simp [initial] at hx
  order := .nil
  session u hu := by simp [initial] at hu

/-! ### The machine -/

section Write

variable {s : Handshake D} {c : UInt8}

theorem valueAt_append_self :
    ({ s with requests := s.requests ++ [c] } : Handshake D).valueAt s.requests.length = c := by
  simp [valueAt]

theorem Inv.request_eq_zero_iff (h : Inv s) : s.request = 0 ↔ s.requests.length % 2 = 1 := by
  have hpos := h.pos
  rw [request, h.parity _ (by omega)]
  omega

/-- A conforming machine issues a request on a reset response, or resets an answered one. -/
theorem Inv.write_cases (h : Inv s) (hc : s.Conforming (.write c)) :
    s.requests.length % 2 = 0 ∧ s.response ≠ 0 ∧ c = 0 ∨
      s.requests.length % 2 = 1 ∧ s.response = 0 ∧ c ≠ 0 := by
  simp only [Conforming] at hc
  split_ifs at hc with hz
  · rw [Ne, h.request_eq_zero_iff] at hc
    exact .inl ⟨by omega, hc.2, hz⟩
  · rw [h.request_eq_zero_iff] at hc
    exact .inr ⟨hc.1, hc.2, hz⟩

/-- What the machine waits for is not pending when it writes. -/
theorem Inv.not_pending (h : Inv s) (hc : s.Conforming (.write c)) :
    ¬ (s.requests.length % 2 = 0 ∧ s.response = 0) := by
  rcases h.write_cases hc with ⟨-, hr, -⟩ | ⟨hn, -, -⟩
  · exact fun hp => hr hp.2
  · omega

theorem PhaseInv.write {u : Session D} (h : Inv s) (hc : s.Conforming (.write c))
    (hlt : u.cursor < s.requests.length) (hp : s.PhaseInv u u.phase) :
    PhaseInv { s with requests := s.requests ++ [c] } u u.phase := by
  have hnot := h.not_pending hc
  have hunchecked : s.Unchecked u → Unchecked { s with requests := s.requests ++ [c] } u := by
    rintro ⟨hflight, hmoved⟩
    refine ⟨hflight, fun hodd => ?_⟩
    simp only [List.length_append, List.length_singleton]
    rcases h.write_cases hc with ⟨hn, hr, -⟩ | ⟨hn, hr, -⟩
    · rcases hmoved hodd with hm | ⟨hm, -⟩
      · exact .inr ⟨by omega, hr⟩
      · omega
    · rcases hmoved hodd with hm | ⟨hm, hne⟩
      · omega
      · exact absurd hr hne
  have htaken : ∀ m, s.Taken u m → Taken { s with requests := s.requests ++ [c] } u m := by
    rintro m ⟨hindex, hvalue, hforce, hbelow⟩
    refine ⟨hindex, ?_, fun hodd => ?_, hbelow⟩
    · rw [valueAt_append (by omega)]; exact hvalue
    · obtain ⟨hn, hr⟩ := hforce hodd
      exact absurd ⟨by omega, hr⟩ hnot
  unfold PhaseInv at hp ⊢
  cases hph : u.phase with
  | waiting =>
    simp only [hph] at hp ⊢
    split_ifs at hp ⊢
    · exact hunchecked hp
    · exact hp
  | checking m =>
    simp only [hph] at hp ⊢
    obtain ⟨hindex, hvalue, hun⟩ := hp
    refine ⟨hindex, ?_, hunchecked hun⟩
    rw [valueAt_append (by omega)]; exact hvalue
  | accepted m => simp only [hph] at hp ⊢; exact htaken m hp
  | executing m started =>
    simp only [hph] at hp ⊢
    refine ⟨htaken m hp.1, fun hodd => ?_⟩
    obtain ⟨hn, hr⟩ := hp.1.inForce hodd
    exact absurd ⟨by omega, hr⟩ hnot
  | answering x =>
    simp only [hph] at hp ⊢
    refine ⟨hp.1, fun hne => ?_, hp.2.2⟩
    obtain ⟨hcur, hr⟩ := hp.2.1 hne
    exact absurd ⟨hcur.outstanding, hr⟩ hnot
  | dead message => simp only [hph] at hp ⊢; exact hp

theorem Inv.write (h : Inv s) (hc : s.Conforming (.write c)) :
    Inv { s with requests := s.requests ++ [c] } where
  pos := by simp
  parity i hi := by
    simp only [List.length_append, List.length_singleton] at hi
    by_cases hlt : i < s.requests.length
    · rw [valueAt_append hlt]
      exact h.parity i hlt
    · obtain rfl : i = s.requests.length := by omega
      rw [valueAt_append_self]
      rcases h.write_cases hc with ⟨hn, -, hz⟩ | ⟨hn, -, hz⟩
      · simp [hz, hn]
      · simp [hz, hn]
  attributed hn hr := by
    simp only [List.length_append, List.length_singleton] at hn
    rcases h.write_cases hc with ⟨hn', -, -⟩ | ⟨-, hr', -⟩
    · omega
    · exact absurd hr' hr
  flight x hx hne := by
    obtain ⟨hcur, hr⟩ := h.flight x hx hne
    exact absurd ⟨hcur.outstanding, hr⟩ (h.not_pending hc)
  order := h.order
  session u hu := by
    have hs := h.session u hu
    have hlt := hs.cursor_lt
    refine ⟨by simp; omega, fun i hi hodd => ?_, hs.initial, PhaseInv.write h hc hlt hs.phase⟩
    obtain ⟨hle, hreset⟩ := hs.fresh i hi hodd
    simp only [List.length_append, List.length_singleton]
    rcases h.write_cases hc with ⟨hn, hr, -⟩ | ⟨hn, hr, -⟩
    · have : s.requests.length ≠ i + 1 := fun heq => hr (hreset heq)
      exact ⟨by omega, by omega⟩
    · exact ⟨by omega, fun _ => hr⟩

end Write

/-! ### The session -/

section Session

variable {s : Handshake D} {u : Session D} {m : Notification}

theorem Inv.subscribe (h : Inv s) (v : TraceabilityHandler TraceabilityContext) :
    Inv { s with session := some ⟨v, true, s.requests.length - 1, .waiting⟩, inFlight := [] } where
  pos := h.pos
  parity := h.parity
  attributed := h.attributed.congr rfl rfl rfl
  flight x hx := by simp at hx
  order := .nil
  session u hu := by
    have hpos := h.pos
    cases hu
    refine ⟨by simp; omega, fun i hi _ => ?_, fun _ => rfl, ?_⟩
    · simp only at hi ⊢
      omega
    · exact ⟨rfl, fun _ => .inl (by simp; omega)⟩

/-- A step of the session alone keeps what does not depend on it. -/
theorem Inv.progress (h : Inv s) {u' : Session D} (hu' : SessionInv { s with session := some u' } u') :
    Inv { s with session := some u' } where
  pos := h.pos
  parity := h.parity
  attributed := h.attributed.congr rfl rfl rfl
  flight x hx hne := ⟨(h.flight x hx hne).1.congr rfl, (h.flight x hx hne).2⟩
  order := h.order
  session _ hv := Option.some.inj hv ▸ hu'

/-- Once something has been notified the session is not initial. -/
theorem SessionInv.not_initial (h : s.SessionInv u) (hp : u.phase ≠ .waiting) : ¬ u.isInitial :=
  fun hi => hp (h.initial hi)

theorem Inv.notifyInitial (h : Inv s) (hu : s.session = some u) (hw : u.phase = .waiting)
    (hi : u.isInitial) (hm : m.index = u.cursor) (hd : s.Delivers m)
    (hgood : ∃ c, m.value.tryUaValueAs UInt8 = .ok c) :
    Inv { s with session := some { u with isInitial := false, phase := .checking m } } := by
  obtain ⟨hlt, hfresh, -, hphase⟩ := h.session u hu
  obtain ⟨c, hc⟩ := hgood
  simp only [hw, PhaseInv, hi, if_true] at hphase
  refine h.progress ⟨hlt, hfresh, by simp, hm, ?_, hphase.inFlight, hphase.moved⟩
  exact hd c hc ▸ hc

theorem Inv.notify (h : Inv s) (hu : s.session = some u) (hw : u.phase = .waiting)
    (hi : ¬ u.isInitial) (hm : u.cursor < m.index) (hlt : m.index < s.requests.length)
    (hd : s.Delivers m) (hgood : ∃ c, m.value.tryUaValueAs UInt8 = .ok c) :
    Inv { s with session := some { u with cursor := m.index, phase := .accepted m } } := by
  obtain ⟨-, hfresh, -, hphase⟩ := h.session u hu
  obtain ⟨c, hc⟩ := hgood
  simp only [hw, PhaseInv, if_neg hi] at hphase
  refine h.progress ⟨hlt, fun i hmi => hfresh i (hm.trans hmi), fun hi' => absurd hi' hi, rfl,
    hd c hc ▸ hc, fun hodd => ?_, fun x hx => (hphase x hx).trans_lt hm⟩
  -- The request notified has not been taken before, so it is in force.
  obtain ⟨hle, hreset⟩ := hfresh m.index hm hodd
  have hn : s.requests.length = m.index + 1 := by omega
  exact ⟨hn, hreset hn⟩

theorem Inv.check (h : Inv s) (hu : s.session = some u) (hp : u.phase = .checking m)
    {t : List (Event handlerSignature)} {answered : Bool}
    (hy : Yields (isInitialRequestAnswered u.handler m.value : HandlerProg Empty Bool) t
      (.returned answered)) (ht : s.Honest u.handler t) :
    Inv { s with
      session := some { u with phase := if answered then .waiting else .accepted m } } := by
  have hs := h.session u hu
  have hi : ¬ u.isInitial := hs.not_initial (by simp [hp])
  obtain ⟨hlt, hfresh, -, hphase⟩ := hs
  simp only [hp, PhaseInv] at hphase
  obtain ⟨hindex, hvalue, hflight, hmoved⟩ := hphase
  refine h.progress ⟨hlt, hfresh, fun hi' => absurd hi' hi, ?_⟩
  cases answered with
  | true => simp [PhaseInv, hi, hflight]
  | false =>
    refine ⟨hindex, hvalue, fun (hodd : u.cursor % 2 = 1) => ?_, by simp [hflight]⟩
    -- The value is not reset, so the response has been read as reset.
    have hr : s.response = 0 := by
      rcases isInitialRequestAnswered_false hy with hz | ⟨v, rfl, hv⟩
      · have : s.valueAt m.index = 0 := Except.ok.inj (hvalue.symm.trans hz)
        rw [hindex, h.parity _ hlt] at this
        omega
      · exact (ht v (by simp) _ hv).symm
    rcases hmoved hodd with hn | ⟨-, hne⟩
    · exact ⟨hn, hr⟩
    · exact absurd hr hne

theorem Inv.start (h : Inv s) (hu : s.session = some u) (hp : u.phase = .accepted m) :
    Inv { s with session := some { u with phase := .executing m s.requests.length } } := by
  have hs := h.session u hu
  have hi : ¬ u.isInitial := hs.not_initial (by simp [hp])
  obtain ⟨hlt, hfresh, -, hphase⟩ := hs
  simp only [hp, PhaseInv] at hphase
  obtain ⟨hindex, hvalue, hforce, hbelow⟩ := hphase
  exact h.progress ⟨hlt, hfresh, fun hi' => absurd hi' hi, ⟨hindex, hvalue, hforce, hbelow⟩,
    fun _ => rfl⟩

end Session

/-! ### Answers -/

section Answers

variable {s : Handshake D} {u : Session D} {x : Answer D}

/-- The answer to a reset is reset. -/
theorem Answer.code_eq_zero (hv : x.value.tryUaValueAs UInt8 = .ok 0) : x.code = 0 := by
  have hy := x.yields
  rw [handleRequest_reset hv] at hy
  have hcode := x.code_eq
  rw [(Yields.ret_iff.mp hy).2] at hcode
  exact (Option.some.inj hcode).symm

theorem Inv.finish (h : Inv s) (hu : s.session = some u)
    (hp : u.phase = .executing x.toNotification x.started) :
    Inv { s with session := some { u with phase := .answering x } } := by
  have hs := h.session u hu
  have hi : ¬ u.isInitial := hs.not_initial (by simp [hp])
  obtain ⟨hlt, hfresh, -, hphase⟩ := hs
  simp only [hp, PhaseInv] at hphase
  obtain ⟨⟨hindex, hvalue, hforce, hbelow⟩, hstarted⟩ := hphase
  refine h.progress ⟨hlt, hfresh, fun hi' => absurd hi' hi, hindex, fun hne => ?_, hbelow⟩
  -- An answer other than reset is not one to a reset.
  have hodd : u.cursor % 2 = 1 := by
    by_contra heven
    have hz : s.valueAt x.index = 0 := by
      rw [hindex, h.parity _ hlt]
      omega
    exact hne (Answer.code_eq_zero (hz ▸ hvalue))
  obtain ⟨hn, hr⟩ := hforce hodd
  have hrequest : s.request = s.valueAt x.index := by
    rw [request, hindex]
    congr 1
    omega
  exact ⟨⟨by rw [hindex, hn], hstarted hodd, show s.requests.length % 2 = 0 by omega,
    hrequest ▸ hvalue⟩, hr⟩

theorem Inv.panic {m : Notification} {started : ℕ} {message : String} (h : Inv s)
    (hu : s.session = some u) (hp : u.phase = .executing m started) :
    Inv { s with session := some { u with phase := .dead message } } := by
  have hs := h.session u hu
  have hi : ¬ u.isInitial := hs.not_initial (by simp [hp])
  obtain ⟨hlt, hfresh, -, hphase⟩ := hs
  simp only [hp, PhaseInv] at hphase
  exact h.progress ⟨hlt, hfresh, fun hi' => absurd hi' hi,
    fun x hx => (hphase.1.below x hx).le⟩

theorem Inv.answer (h : Inv s) (hu : s.session = some u) (hp : u.phase = .answering x)
    {answered : Option ℕ} :
    Inv { s with
      session := some { u with phase := .waiting }
      response := x.code
      source := some x
      answered := answered } := by
  have hs := h.session u hu
  have hi : ¬ u.isInitial := hs.not_initial (by simp [hp])
  obtain ⟨hlt, hfresh, -, hphase⟩ := hs
  simp only [hp, PhaseInv] at hphase
  obtain ⟨hindex, hcurrent, hbelow⟩ := hphase
  refine ⟨h.pos, h.parity, fun _ hne => ?_, fun y hy hne => ?_, h.order, ?_⟩
  · exact ⟨x, rfl, (hcurrent hne).1.congr rfl, rfl⟩
  · have hcur := (h.flight y hy hne).1
    refine ⟨hcur.congr rfl, by_contra fun hx => ?_⟩
    have := (hcurrent hx).1.index
    have := hcur.index
    have := hbelow y hy
    omega
  · rintro _ ⟨rfl⟩
    refine ⟨hlt, fun i hlt' hodd => ⟨(hfresh i hlt' hodd).1, fun hn => by_contra fun hx => ?_⟩,
      fun hi' => absurd hi' hi, ?_⟩
    · have := (hcurrent hx).1.index
      simp only at hn hlt'
      omega
    · simpa [PhaseInv, hi] using fun y hy => (hbelow y hy).le

theorem Inv.answerFails {dies : Bool} {message : String} (h : Inv s) (hu : s.session = some u)
    (hp : u.phase = .answering x) :
    Inv { s with
      session := some { u with phase := if dies then .dead message else .waiting }
      inFlight := s.inFlight ++ [x] } := by
  have hs := h.session u hu
  have hi : ¬ u.isInitial := hs.not_initial (by simp [hp])
  obtain ⟨hlt, hfresh, -, hphase⟩ := hs
  simp only [hp, PhaseInv] at hphase
  obtain ⟨hindex, hcurrent, hbelow⟩ := hphase
  have hle : ∀ y ∈ s.inFlight ++ [x], y.index ≤ u.cursor := by
    intro y hy
    rcases List.mem_append.mp hy with hy | hy
    · exact (hbelow y hy).le
    · rw [List.mem_singleton.mp hy, hindex]
  refine ⟨h.pos, h.parity, h.attributed.congr rfl rfl rfl, fun y hy hne => ?_, ?_, ?_⟩
  · obtain ⟨hcur, hr⟩ : s.Current y ∧ s.response = 0 := by
      rcases List.mem_append.mp hy with hy | hy
      · exact h.flight y hy hne
      · obtain rfl := List.mem_singleton.mp hy
        exact hcurrent hne
    exact ⟨hcur.congr rfl, hr⟩
  · exact List.pairwise_append.mpr ⟨h.order, List.pairwise_singleton _ _,
      fun y hy z hz => by rw [List.mem_singleton.mp hz, hindex]; exact hbelow y hy⟩
  · rintro _ ⟨rfl⟩
    refine ⟨hlt, hfresh, fun hi' => absurd hi' hi, ?_⟩
    cases dies with
    | true => exact hle
    | false => simpa [PhaseInv, hi] using hle

/-- Answers in flight are to different requests. -/
theorem Inv.index_ne (h : Inv s) {k : ℕ} (hk : s.inFlight[k]? = some x) {y : Answer D}
    (hy : y ∈ s.inFlight.eraseIdx k) : y.index ≠ x.index := by
  obtain ⟨j, hj, hjy⟩ := List.mem_eraseIdx_iff_getElem?.mp hy
  obtain ⟨hk', rfl⟩ := List.getElem?_eq_some_iff.mp hk
  obtain ⟨hj', rfl⟩ := List.getElem?_eq_some_iff.mp hjy
  have hp := List.pairwise_iff_getElem.mp h.order
  rcases lt_or_gt_of_ne hj with hlt | hgt
  · exact (hp j k hj' hk' hlt).ne
  · exact (hp k j hk' hj' hgt).ne'

/-- Nothing in flight is ahead of the session. -/
theorem SessionInv.inFlight_le (h : s.SessionInv u) : ∀ y ∈ s.inFlight, y.index ≤ u.cursor := by
  have hphase := h.phase
  unfold PhaseInv at hphase
  split at hphase
  · split_ifs at hphase
    · simp [hphase.inFlight]
    · exact hphase
  · simp [hphase.2.2.inFlight]
  · exact fun y hy => (hphase.below y hy).le
  · exact fun y hy => (hphase.1.below y hy).le
  · exact fun y hy => (hphase.2.2 y hy).le
  · exact hphase

theorem PhaseInv.land (h : Inv s) {k : ℕ} (hk : s.inFlight[k]? = some x)
    (hp : s.PhaseInv u u.phase) :
    PhaseInv { s with response := x.code, source := some x, inFlight := s.inFlight.eraseIdx k }
      u u.phase := by
  have hmem := List.mem_of_getElem? hk
  have hsub : ∀ {y}, y ∈ s.inFlight.eraseIdx k → y ∈ s.inFlight := List.mem_of_mem_eraseIdx
  -- The request being handled is later than the one whose answer takes effect.
  have htaken : ∀ m, s.Taken u m → Taken
      { s with response := x.code, source := some x, inFlight := s.inFlight.eraseIdx k } u m := by
    rintro m ⟨hindex, hvalue, hforce, hbelow⟩
    refine ⟨hindex, hvalue, fun hodd => ⟨(hforce hodd).1, by_contra fun hne => ?_⟩,
      fun y hy => hbelow y (hsub hy)⟩
    have := (h.flight x hmem hne).1.index
    have := hbelow x hmem
    have := (hforce hodd).1
    omega
  unfold PhaseInv at hp ⊢
  cases hph : u.phase with
  | waiting =>
    simp only [hph] at hp ⊢
    split_ifs at hp ⊢
    · simp [hp.inFlight] at hmem
    · exact fun y hy => hp y (hsub hy)
  | checking m =>
    simp only [hph] at hp
    simp [hp.2.2.inFlight] at hmem
  | accepted m => simp only [hph] at hp ⊢; exact htaken m hp
  | executing m started => simp only [hph] at hp ⊢; exact ⟨htaken m hp.1, hp.2⟩
  | answering y =>
    simp only [hph] at hp ⊢
    refine ⟨hp.1, fun hne => ⟨(hp.2.1 hne).1.congr rfl, by_contra fun hx => ?_⟩,
      fun z hz => hp.2.2 z (hsub hz)⟩
    have := (h.flight x hmem hx).1.index
    have := (hp.2.1 hne).1.index
    have := hp.2.2 x hmem
    omega
  | dead message => simp only [hph] at hp ⊢; exact fun y hy => hp y (hsub hy)

theorem Inv.land (h : Inv s) {k : ℕ} (hk : s.inFlight[k]? = some x) :
    Inv { s with response := x.code, source := some x, inFlight := s.inFlight.eraseIdx k } := by
  have hmem := List.mem_of_getElem? hk
  refine ⟨h.pos, h.parity, fun _ hne => ⟨x, rfl, (h.flight x hmem hne).1.congr rfl, rfl⟩,
    fun y hy hne => ?_, h.order.sublist (List.eraseIdx_sublist ..), fun u hu => ?_⟩
  · have hcur := (h.flight y (List.mem_of_mem_eraseIdx hy) hne).1
    refine ⟨hcur.congr rfl, by_contra fun hx => h.index_ne hk hy ?_⟩
    have := (h.flight x hmem hx).1.index
    have := hcur.index
    omega
  · have hs := h.session u hu
    refine ⟨hs.cursor_lt, fun i hlt hodd => ⟨(hs.fresh i hlt hodd).1, fun hn => by_contra fun hx => ?_⟩,
      hs.initial, PhaseInv.land h hk hs.phase⟩
    have := (h.flight x hmem hx).1.index
    have := hs.inFlight_le x hmem
    simp only at hn
    omega

end Answers

/-! ### Runs -/

theorem Step.inv {s s' : Handshake D} {l : Label} (hs : Step s l s') (hc : s.Conforming l)
    (h : Inv s) : Inv s' := by
  cases hs with
  | write c => exact h.write hc
  | subscribe v => exact h.subscribe v
  | notifyInitial u m hu hw hi hm hd => exact h.notifyInitial hu hw hi hm hd hc.1
  | notify u m hu hw hi hm hlt hd => exact h.notify hu hw hi (hc.2 u hu hi) hlt hd hc.1
  | check u m t answered hu hp hy ht => exact h.check hu hp hy ht
  | start u m hu hp => exact h.start hu hp
  | finish u x hu hh hp => exact h.finish hu hp
  | panic u m started t message hu hp hy => exact h.panic hu hp
  | answer u x hu hp => exact h.answer hu hp
  | answerFails u x dies hu hp => exact h.answerFails hu hp
  | land x k hk => exact h.land hk

theorem run_inv {s : Handshake D} {ls : List Label}
    (hr : Run (guarded Step Conforming) initial ls s) : Inv s :=
  hr.invariant (fun _ _ _ h hs => hs.1.inv hs.2 h) initial_inv

/-- A response seen while a request is outstanding is the result of an execution of this
request that has started since it was issued; the response success means that the
handler of the request has succeeded. -/
theorem response_attributed {s : Handshake D} {ls : List Label}
    (hr : Run (guarded Step Conforming) initial ls s) (hrequest : s.request ≠ 0)
    (hresponse : s.response ≠ 0) :
    ∃ x, s.source = some x ∧ x.index + 1 = s.requests.length ∧ x.started = s.requests.length ∧
      x.value.tryUaValueAs UInt8 = .ok s.request ∧
      Yields (handleRequest D x.handler x.value) x.trace x.outcome ∧
      responseCode x.outcome = some s.response ∧
      (s.response = responseSuccess → Succeeded D x.handler x.trace s.request) := by
  have h := run_inv hr
  rw [Ne, h.request_eq_zero_iff] at hrequest
  obtain ⟨x, hx, hcur, hcode⟩ := h.attributed (by omega) hresponse
  refine ⟨x, hx, hcur.index, hcur.started, hcur.value, x.yields, hcode ▸ x.code_eq, fun hone => ?_⟩
  exact responseCode_success hcur.value x.yields (hone ▸ hcode ▸ x.code_eq)

/-- A creation requested before the session subscribes. -/
def sampleLabels : List Label :=
  [.write 1, .subscribe Creations.sampleHandler, .notify ⟨1, sampleValue 1⟩, .check (sampleRead 0) false,
    .start, .finish sampleAnswer.trace sampleAnswer.outcome, .answer]

theorem response_attributed_creation :
    ∃ s : Handshake asciiDecimal, Run (guarded Step Conforming) initial sampleLabels s ∧
      s.request = 1 ∧ s.response = 1 ∧ ∃ x, s.source = some x ∧
        Succeeded asciiDecimal x.handler x.trace 1 := by
  have hrun : ∃ s : Handshake asciiDecimal, Run (guarded Step Conforming) initial sampleLabels s ∧
      s.request = 1 ∧ s.response = 1 :=
    ⟨_, .cons ⟨.write _ _, rfl, rfl⟩ <| .cons ⟨.subscribe _ _, trivial⟩ <|
      .cons ⟨.notifyInitial _ _ ⟨1, sampleValue 1⟩ rfl rfl rfl rfl fun c hc => sampleValue_eq hc,
        ⟨1, rfl⟩, fun u hu hi => absurd (by cases hu; rfl) hi⟩ <|
      .cons ⟨.check _ _ _ _ false rfl rfl (.call _ (.ret _)) (honest_sampleRead _), trivial⟩ <|
      .cons ⟨.start _ _ _ rfl rfl, trivial⟩ <|
      .cons ⟨.finish _ _ sampleAnswer rfl rfl rfl, trivial⟩ <|
      .cons ⟨.answer _ _ _ rfl rfl, trivial⟩ <| .nil _, rfl, rfl⟩
  obtain ⟨s, hr, hrequest, hresponse⟩ := hrun
  obtain ⟨x, hx, -, -, -, -, -, hsucceeded⟩ :=
    response_attributed hr (by simp [hrequest]) (by simp [hresponse])
  exact ⟨s, hr, hrequest, hresponse, x, hx, hrequest ▸ hsucceeded hresponse⟩

end LineGateway.Traceability.Handshake
