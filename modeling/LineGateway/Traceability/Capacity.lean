import LineGateway.Traceability.Creations

/-! The serial numbers of a day. A number is taken when the store commits it, whatever
becomes of the request afterwards. In every run the numbers of a date count those taken, so
that a request is refused for its number only after 99999 have been taken; requests refused
for their part reference take numbers too, and can leave none for the others. -/

namespace LineGateway.Traceability

open Foundation Config Opcua Calendar

/-- The creations of all machines, with the number of serial numbers taken for each date. -/
structure Tally where
  creations : Creations
  taken : Date → ℕ

namespace Tally

def initial : Tally := ⟨.initial, fun _ => 0⟩

variable {V : VariantCodec}

/-- The date for which a call of the store commits a serial number. -/
def committed (date : Date) (faults : Faults) (s : Store) : Option Date :=
  match (nextSerial date faults s).1 with
  | .ok _ => some date
  | .error _ => none

/-- The date for which a step takes a serial number. -/
def takes (s : Store) : Creations.Label V → Option Date
  | .perform _ (.nextSerial date) (.ok faults) => committed date faults s
  | .orphan date faults => committed date faults s
  | _ => none

/-- One more number for the date. -/
def take (taken : Date → ℕ) : Option Date → Date → ℕ
  | some date => Function.update taken date (taken date + 1)
  | none => taken

/-- A step of the creations, with the serial number it takes. -/
structure Step (D : DecimalClass) (F : RowFormat) (queuesThreshold : ℕ) (t : Tally)
    (l : Creations.Label V) (t' : Tally) : Prop where
  step : Creations.Step D F queuesThreshold t.creations l t'.creations
  taken : t'.taken = take t.taken (takes t.creations.store l)

end Tally

/-! ### The counter of a date -/

/-- The counter of each date is the number of serial numbers taken for it, as long as it does
not wrap. -/
def Counter (store : Store) (taken : Date → ℕ) : Prop :=
  ∀ d, taken d < 2 ^ 32 →
    store.serials.get (serialKey d) = if taken d = 0 then none else some (taken d)

namespace Counter

variable {store : Store} {taken : Date → ℕ} {date : Date}

theorem initial : Counter .fresh fun _ => 0 := fun _ _ => rfl

theorem congr {store' : Store} (h : Counter store taken) (hs : store'.serials = store.serials) :
    Counter store' taken := by
  intro d hd
  rw [hs]
  exact h d hd

/-- The next number of a date is one above those taken. -/
theorem serialAfter_eq (h : Counter store taken) (hlt : taken date + 1 < 2 ^ 32) :
    store.serialAfter date = taken date + 1 := by
  rw [Store.serialAfter, h date (by omega)]
  by_cases hzero : taken date = 0
  · rw [if_pos hzero, hzero]
  · rw [if_neg hzero]
    exact Nat.mod_eq_of_lt hlt

theorem nextSerial (h : Counter store taken) (date : Date) :
    Counter (store.afterNextSerial date) (Tally.take taken (some date)) := by
  intro d hd
  rw [Store.afterNextSerial_serials, Tally.take]
  rw [Tally.take] at hd
  by_cases heq : d = date
  · subst heq
    rw [Function.update_self] at hd ⊢
    rw [Table.get_insert_self, h.serialAfter_eq hd, if_neg (Nat.succ_ne_zero _)]
  · rw [Function.update_of_ne heq] at hd ⊢
    rw [Table.get_insert_of_ne fun hk => heq (serialKey_inj hk)]
    exact h d hd

/-- A call of the store takes the number it commits, or changes nothing. -/
theorem call (h : Counter store taken) (date : Date) (faults : Faults) :
    Counter (Traceability.nextSerial date faults store).2
      (Tally.take taken (Tally.committed date faults store)) := by
  rw [Tally.committed]
  rcases nextSerial_cases date faults store with ⟨e, he⟩ | hok
  · rw [he]
    exact h
  · rw [hok]
    exact h.nextSerial date

end Counter

namespace Tally

variable {V : VariantCodec} {D : DecimalClass} {F : RowFormat} {queuesThreshold : ℕ} {t t' : Tally}
  {l : Creations.Label V} {ls : List (Creations.Label V)} {date : Date}

theorem counter_perform (h : Counter t.creations.store t.taken) (n : ℕ) (e : HandlerEffect)
    (i : HandlerInput V e) :
    Counter (performHandler V F queuesThreshold e i ⟨t.creations.store, []⟩).2.store
      (take t.taken (takes t.creations.store (.perform n e i))) := by
  by_cases he : ∃ date, e = .nextSerial date
  · obtain ⟨date, rfl⟩ := he
    cases i with
    | error err => exact h
    | ok faults => exact h.call date faults
  · have hne : ∀ date, e ≠ .nextSerial date := fun date heq => he ⟨date, heq⟩
    have htakes : takes (V := V) t.creations.store (.perform n e i) = none := by
      cases e with
      | nextSerial date => exact absurd rfl (hne date)
      | _ => rfl
    rw [htakes]
    exact h.congr (performHandler_serials i hne)

theorem Step.counter (hs : Step D F queuesThreshold t l t')
    (h : Counter t.creations.store t.taken) : Counter t'.creations.store t'.taken := by
  obtain ⟨c', taken'⟩ := t'
  obtain ⟨hstep, htaken⟩ := hs
  simp only at hstep htaken ⊢
  rw [htaken]
  cases hstep with
  | prepare n x e k i hn => exact counter_perform h n e i
  | write n x e k i hn => exact counter_perform h n e i
  | orphan date faults => exact h.call date faults
  | _ => exact h

/-- In every run the counters count the numbers taken, and the executions that compose are
those of create requests. -/
theorem run_counter (hr : Run (Step D F queuesThreshold) initial ls t) :
    Counter t.creations.store t.taken :=
  hr.invariant (I := fun t : Tally => Counter t.creations.store t.taken)
    (fun _ _ _ h hs => hs.counter h) Counter.initial

theorem run_preparing (hr : Run (Step D F queuesThreshold) initial ls t) :
    ∀ (n : ℕ) h p, t.creations.executions[n]? = some (h, Creation.preparing p) → Preparing D p :=
  hr.invariant
    (I := fun t : Tally => ∀ (n : ℕ) h p,
      t.creations.executions[n]? = some (h, Creation.preparing p) → Preparing D p)
    (fun _ _ _ h hs => hs.step.preparing h) fun n h p hn => by
      simp [initial, Creations.initial] at hn

/-! ### Refusals -/

/-- The step gives a request its serial number of the date, and the request is refused since
the number is too big. -/
def RefusesTooBig (date : Date) (l : Creations.Label V) (t' : Tally) : Prop :=
  ∃ n i h serial, l = .perform n (.nextSerial date) i ∧
    t'.creations.executions[n]? =
      some (h, .preparing (.fail (.partIdentifier (.serialTooBig serial))))

theorem createPartIdentifier_ne_serialTooBig {serial : ℕ} (hserial : serial ≤ 99999)
    (partRef : Text) (batch lineId : AsciiDigitsOrUpper 2) (date : Date) (n : ℕ) :
    createPartIdentifier D partRef batch lineId date serial ≠ .error (.serialTooBig n) := by
  rw [createPartIdentifier, if_neg (by omega), PartReference.tryFrom]
  split
  · next e he =>
    split at he
    · cases he
    · cases he
      simp
  · simp

/-- What follows a reply refuses the number of the reply only. -/
theorem resume_afterSerial_tooBig {h : TraceabilityHandler TraceabilityContext} {partRef : Text}
    {batch lineId : AsciiDigitsOrUpper 2} {r : Except JoinError (Except RedbError ℕ)} {serial : ℕ}
    (hr : Creation.resume h (afterSerial D partRef batch lineId date r) =
      .preparing (.fail (.partIdentifier (.serialTooBig serial)))) :
    ∃ m, r = .ok (.ok m) ∧ 99999 < m := by
  rcases r with e | e | m
  · cases hr
  · cases hr
  · refine ⟨m, rfl, ?_⟩
    by_contra hle
    simp only [afterSerial] at hr
    cases hcreate : createPartIdentifier D partRef batch lineId date m with
    | error err =>
      rw [hcreate] at hr
      cases hr
      exact createPartIdentifier_ne_serialTooBig (by omega) partRef batch lineId date _ hcreate
    | ok s =>
      rw [hcreate] at hr
      cases hr

variable (F queuesThreshold) in
/-- The store commits the next number and replies with it, or takes none. -/
theorem reply_cases (h : Counter t.creations.store t.taken) (hlt : t.taken date < 99999)
    (i : HandlerInput V (.nextSerial date)) (n : ℕ) :
    (takes t.creations.store (.perform n (.nextSerial date) i) = none ∧ ∀ serial,
      (performHandler V F queuesThreshold (.nextSerial date) i ⟨t.creations.store, []⟩).1 ≠
        .ok (.ok serial)) ∨
    (performHandler V F queuesThreshold (.nextSerial date) i ⟨t.creations.store, []⟩).1 =
      .ok (.ok (t.taken date + 1)) := by
  cases i with
  | error err => exact .inl ⟨rfl, by simp [performHandler]⟩
  | ok faults =>
    rcases nextSerial_cases date faults t.creations.store with ⟨e, he⟩ | hok
    · exact .inl ⟨by simp [takes, committed, he], by simp [performHandler, he]⟩
    · have hnext : t.creations.store.serialAfter date = t.taken date + 1 :=
        h.serialAfter_eq (by omega)
      right
      simp only [performHandler, hok, hnext]

/-- With fewer than 99999 numbers taken for the date, no request is refused for its number. -/
theorem Step.not_refusesTooBig (hs : Step D F queuesThreshold t l t')
    (hcounter : Counter t.creations.store t.taken)
    (hprep : ∀ (n : ℕ) h p, t.creations.executions[n]? = some (h, Creation.preparing p) →
      Preparing D p) (hlt : t.taken date < 99999) : ¬ RefusesTooBig date l t' := by
  rintro ⟨n, i, h, serial, rfl, hn⟩
  obtain ⟨c', taken'⟩ := t'
  obtain ⟨hstep, -⟩ := hs
  simp only at hstep hn
  cases hstep with
  | write _ x _ k _ hx =>
    have hlength := (List.getElem?_eq_some_iff.mp hx).1
    simp only [Creations.write, List.getElem?_set_self hlength, Option.some.injEq,
      Prod.mk.injEq, reduceCtorEq, and_false] at hn
  | prepare _ x _ k _ hx =>
    have hlength := (List.getElem?_eq_some_iff.mp hx).1
    obtain ⟨partRef, batch, lineId, rfl⟩ := (hprep n x _ hx).nextSerial
    simp only [Creations.prepare, List.getElem?_set_self hlength, Option.some.injEq,
      Prod.mk.injEq] at hn
    obtain ⟨-, hn⟩ := hn
    obtain ⟨m, hm, hbig⟩ := resume_afterSerial_tooBig hn
    rcases reply_cases F queuesThreshold hcounter hlt i n with ⟨-, hne⟩ | hreply
    · exact hne m hm
    · rw [hreply] at hm
      cases hm
      omega

/-- The step takes a number of the date for a request with a valid part reference. -/
structure Numbers (D : DecimalClass) (date : Date) (t : Tally) (l : Creations.Label V) (n : ℕ)
    (r : PartReference) (batch lineId : AsciiDigitsOrUpper 2) : Prop where
  label : ∃ i, l = .perform n (.nextSerial date) i
  request : ∃ h partRef, PartReference.tryFrom D partRef = .ok r ∧
    t.creations.executions[n]? = some (h, .preparing (composePartId D partRef batch lineId date))
  takes : takes t.creations.store l = some date

/-- The identifier is composed with the next number of the date. -/
theorem Step.composes (hs : Step D F queuesThreshold t l t')
    (hcounter : Counter t.creations.store t.taken) (hlt : t.taken date < 99999) {n : ℕ}
    {r : PartReference} {batch lineId : AsciiDigitsOrUpper 2}
    (hnumbers : Numbers D date t l n r batch lineId) : t'.creations.composed =
      t.creations.composed ++ [(n, composed r batch lineId date (t.taken date + 1))] := by
  obtain ⟨⟨i, rfl⟩, ⟨h, partRef, hr, hn⟩, htakes⟩ := hnumbers
  obtain ⟨c', taken'⟩ := t'
  obtain ⟨hstep, -⟩ := hs
  simp only at hstep ⊢
  cases hstep with
  | write _ x _ k _ hx =>
    rw [hn] at hx
    cases hx
  | prepare _ x _ k _ hx =>
    rw [hn, composePartId_eq] at hx
    cases hx
    have hreply := (reply_cases F queuesThreshold hcounter hlt i n).resolve_left fun hnone => by
      rw [hnone.1] at htakes
      cases htakes
    have hcreate : createPartIdentifier D partRef batch lineId date (t.taken date + 1) =
        .ok (composed r batch lineId date (t.taken date + 1)) :=
      createPartIdentifier_ok_iff.mpr ⟨by omega, r, hr, rfl⟩
    simp only [Creations.prepare, hreply, afterSerial, hcreate, Creations.composedBy]

end Tally

/-! ### Requests that take no number -/

section Failures

variable {D : DecimalClass} {p : HandlerProg CreatePartIdError Text} {e : CreatePartIdError}
  {date : Date} {serial : ℕ}

theorem afterSerial_yields_nil {partRef : Text} {batch lineId : AsciiDigitsOrUpper 2}
    {r : Except JoinError (Except RedbError ℕ)} {tr : List (Event handlerSignature)}
    {o : Outcome CreatePartIdError Text}
    (hy : Yields (afterSerial D partRef batch lineId date r) tr o) : tr = [] := by
  rcases afterSerial_cases D partRef batch lineId date r with ⟨e, he, -⟩ | ⟨serial, s, -, -, hs⟩
  · rw [he] at hy
    exact (Yields.fail_iff.mp hy).1
  · rw [hs] at hy
    exact (Yields.ret_iff.mp hy).1

/-- A preparation that fails after its number fails to compose the identifier. -/
theorem Preparing.failed_with_number (hp : Preparing D p) {tr : List (Event handlerSignature)}
    (hy : Yields p tr (.failed e))
    (hmem : (⟨.nextSerial date, .ok (.ok serial)⟩ : Event handlerSignature) ∈ tr) :
    ∃ err, e = .partIdentifier err := by
  induction tr generalizing p with
  | nil => cases hmem
  | cons ev rest ih =>
    cases hy with
    | @call eff k r _ _ tail =>
      rcases List.mem_cons.mp hmem with heq | hrest
      · cases heq
        obtain ⟨partRef, batch, lineId, rfl⟩ := hp.nextSerial
        rcases afterSerial_cases D partRef batch lineId date (.ok (.ok serial)) with
          ⟨e', he, hnumber⟩ | ⟨n, s, -, -, hs⟩
        · obtain ⟨err, -, rfl⟩ := hnumber serial rfl
          rw [he] at tail
          exact ⟨err, Outcome.failed.inj (Yields.fail_iff.mp tail).2⟩
        · rw [hs] at tail
          cases (Yields.ret_iff.mp tail).2
      · -- The number is not that of the first effect, so this one composes nothing yet.
        rcases hp.call_cases with hk | ⟨partRef, batch, lineId, today, heq⟩
        · exact ih (hk r) tail hrest
        · rw [composePartId_eq] at heq
          cases heq
          rw [afterSerial_yields_nil tail] at hrest
          exact absurd hrest List.not_mem_nil

/-- A request that takes a number fails by its identifier or by the write only. -/
theorem createPartId_failed_with_number {h : TraceabilityHandler TraceabilityContext}
    {tr : List (Event handlerSignature)} (hy : Yields (createPartId D h) tr (.failed e))
    (hmem : (⟨.nextSerial date, .ok (.ok serial)⟩ : Event handlerSignature) ∈ tr) :
    (∃ err, e = .partIdentifier err) ∨ ∃ err, e = .writePartId err := by
  rcases Yields.bind_iff.mp hy with ⟨s, t₁, t₂, -, -, hwrite⟩ | ⟨e', he, hprep⟩ | ⟨m, hm, -⟩
  · rcases Yields.mapErr_iff.mp hwrite with ⟨a, ha, -⟩ | ⟨err, herr, -⟩ | ⟨m, hm, -⟩
    · cases ha
    · exact .inr ⟨err, Outcome.failed.inj herr⟩
    · cases hm
  · cases he
    exact .inl ((Preparing.begin h).failed_with_number hprep hmem)
  · cases hm

end Failures

namespace Tally

variable {V : VariantCodec} {D : DecimalClass} {F : RowFormat} {queuesThreshold : ℕ} {t : Tally}
  {ls : List (Creations.Label V)}

/-! ### Requests of one handler on one day -/

variable (V D F queuesThreshold t) in
theorem step_start (h : TraceabilityHandler TraceabilityContext) :
    ∃ t', Step D F queuesThreshold t (.start h : Creations.Label V) t' ∧
      t'.creations.store = t.creations.store ∧
      t'.creations.executions = t.creations.executions ++ [(h, .start D h)] ∧
      t'.creations.composed = t.creations.composed ∧ t'.taken = t.taken :=
  ⟨⟨{ t.creations with executions := t.creations.executions ++ [(h, .start D h)] }, t.taken⟩,
    ⟨.start _ h, rfl⟩, rfl, rfl, rfl, rfl⟩

variable (D F queuesThreshold) in
/-- The step of the execution that started last. -/
theorem step_last {xs : List (TraceabilityHandler TraceabilityContext × Creation)}
    {h : TraceabilityHandler TraceabilityContext} {e : HandlerEffect}
    {k : e.Reply → HandlerProg CreatePartIdError Text}
    (hx : t.creations.executions = xs ++ [(h, .preparing (.call e k))]) (i : HandlerInput V e)
    {r : e.Reply × Site}
    (hr : performHandler V F queuesThreshold e i ⟨t.creations.store, []⟩ = r) :
    ∃ t', Step D F queuesThreshold t (.perform xs.length e i) t' ∧
      t'.creations.store = r.2.store ∧
      t'.creations.executions = xs ++ [(h, .resume h (k r.1))] ∧
      t'.creations.composed = t.creations.composed ++ Creations.composedBy xs.length (k r.1) ∧
      t'.taken = take t.taken (takes t.creations.store (.perform xs.length e i)) := by
  subst hr
  have hn : t.creations.executions[xs.length]? = some (h, .preparing (.call e k)) := by
    rw [hx, List.getElem?_concat_length]
  refine ⟨⟨t.creations.prepare F queuesThreshold xs.length h e k i, _⟩,
    ⟨.prepare _ _ _ _ _ _ hn, rfl⟩, rfl, ?_, rfl, rfl⟩
  simp only [Creations.prepare, hx]
  simp

/-- A part reference and a batch as read from the server. -/
def variablesRead (partRef : Text) : List DataValue :=
  [⟨some (.string (some partRef)), none⟩, ⟨some (.string (some "AA".toList)), none⟩]

def batchRead : AsciiDigitsOrUpper 2 :=
  ⟨[65, 65], rfl, AsciiDigitsOrUpper.valid_of_invalidByte rfl⟩

theorem composeFromValues_variablesRead (partRef : Text) :
    composeFromValues asciiDecimal sampleLine (variablesRead partRef) =
      composeToday asciiDecimal partRef batchRead sampleLine := by
  have hgood : StatusCode.good.isGood := by decide
  have hpartRef : (⟨some (.string (some partRef)), none⟩ : DataValue).tryUaValueAs Text =
      .ok partRef :=
    DataValue.tryUaValueAs_ok_iff.mpr ⟨_, hgood, rfl, tryFromVariant_string_ok_iff.mpr rfl⟩
  have hbatch : (⟨some (.string (some "AA".toList)), none⟩ : DataValue).tryUaValueAs
      (AsciiDigitsOrUpper 2) = .ok batchRead :=
    DataValue.tryUaValueAs_ok_iff.mpr ⟨_, hgood, rfl, tryFromVariant_ascii_ok_iff.mpr rfl⟩
  rw [variablesRead, composeFromValues, hpartRef, hbatch]
  rfl

/-- What is left of a request that asks for its number. -/
def asking (partRef : Text) : HandlerProg CreatePartIdError Text :=
  composePartId asciiDecimal partRef batchRead sampleLine Creations.sampleDate

/-- A request that goes as far as to ask for its number. -/
theorem run_asking (t : Tally) (partRef : Text) :
    ∃ (ls : List (Creations.Label plainCodec)) (t' : Tally),
      Run (Step asciiDecimal epochFormat 10) t ls t' ∧ t'.creations.store = t.creations.store ∧
      t'.creations.executions =
        t.creations.executions ++ [(Creations.sampleHandler, .preparing (asking partRef))] ∧
      t'.creations.composed = t.creations.composed ∧ t'.taken = t.taken := by
  obtain ⟨t₁, h₁, hstore₁, hexec₁, hcomposed₁, htaken₁⟩ :=
    step_start plainCodec asciiDecimal epochFormat 10 t Creations.sampleHandler
  obtain ⟨t₂, h₂, hstore₂, hexec₂, hcomposed₂, htaken₂⟩ :=
    step_last (V := plainCodec) asciiDecimal epochFormat 10 (e := .read [.new 1 6, .new 1 7])
      hexec₁ (.ok (variablesRead partRef))
      (r := (.ok (variablesRead partRef), ⟨t₁.creations.store, []⟩)) rfl
  have hexec₂ : t₂.creations.executions = t.creations.executions ++ [(Creations.sampleHandler,
      .resume Creations.sampleHandler
        (composeFromValues asciiDecimal sampleLine (variablesRead partRef)))] := hexec₂
  have hcomposed₂ : t₂.creations.composed = t₁.creations.composed ++ Creations.composedBy _
      (composeFromValues asciiDecimal sampleLine (variablesRead partRef)) := hcomposed₂
  rw [composeFromValues_variablesRead, composeToday_eq] at hexec₂ hcomposed₂
  obtain ⟨t₃, h₃, hstore₃, hexec₃, hcomposed₃, htaken₃⟩ :=
    step_last asciiDecimal epochFormat 10 hexec₂ Creations.sampleDate rfl
  refine ⟨_, t₃, .cons h₁ (.cons h₂ (.single h₃)), ?_, hexec₃, ?_, ?_⟩
  · exact hstore₃.trans (hstore₂.trans hstore₁)
  · calc t₃.creations.composed = t₂.creations.composed ++ [] := hcomposed₃
      _ = t₁.creations.composed ++ [] ++ [] := congrArg (· ++ []) hcomposed₂
      _ = t.creations.composed := by rw [List.append_nil, List.append_nil, hcomposed₁]
  · exact htaken₃.trans (htaken₂.trans htaken₁)

/-- A request that asks for its number is given the next one. -/
theorem step_numbered {xs : List (TraceabilityHandler TraceabilityContext × Creation)}
    {partRef : Text} (hx : t.creations.executions =
      xs ++ [(Creations.sampleHandler, .preparing (asking partRef))])
    (hcounter : Counter t.creations.store t.taken)
    (hlt : t.taken Creations.sampleDate + 1 < 2 ^ 32) :
    ∃ t', Step asciiDecimal epochFormat 10 t
        (.perform xs.length (.nextSerial Creations.sampleDate) (.ok noFaults) :
          Creations.Label plainCodec) t' ∧
      t'.creations.executions = xs ++ [(Creations.sampleHandler, .resume Creations.sampleHandler
        (afterSerial asciiDecimal partRef batchRead sampleLine Creations.sampleDate
          (.ok (.ok (t.taken Creations.sampleDate + 1)))))] ∧
      t'.creations.composed = t.creations.composed ++ Creations.composedBy xs.length
        (afterSerial asciiDecimal partRef batchRead sampleLine Creations.sampleDate
          (.ok (.ok (t.taken Creations.sampleDate + 1)))) ∧
      t'.taken Creations.sampleDate = t.taken Creations.sampleDate + 1 := by
  have hreply : performHandler plainCodec epochFormat 10 (.nextSerial Creations.sampleDate)
      (.ok noFaults) ⟨t.creations.store, []⟩ = (.ok (.ok (t.taken Creations.sampleDate + 1)),
        ⟨t.creations.store.afterNextSerial Creations.sampleDate, []⟩) := by
    simp only [performHandler, nextSerial_noFaults, hcounter.serialAfter_eq hlt]
  rw [asking, composePartId_eq] at hx
  obtain ⟨t', hstep, -, hexec, hcomposed, htaken⟩ :=
    step_last asciiDecimal epochFormat 10 hx (.ok noFaults) hreply
  refine ⟨t', hstep, hexec, hcomposed, ?_⟩
  rw [htaken]
  exact Function.update_self Creations.sampleDate _ t.taken

/-- A part reference that is none, and the execution refused for it. -/
def noPartRef : Text := "bad".toList

def refusedCreation : TraceabilityHandler TraceabilityContext × Creation :=
  (Creations.sampleHandler, .preparing (.fail (.partIdentifier (.partReference noPartRef))))

/-- A request that is refused for its part reference has taken a number. -/
theorem run_refused (hcounter : Counter t.creations.store t.taken)
    (hlt : t.taken Creations.sampleDate < 99999) :
    ∃ (ls : List (Creations.Label plainCodec)) (t' : Tally),
      Run (Step asciiDecimal epochFormat 10) t ls t' ∧
      t'.creations.executions = t.creations.executions ++ [refusedCreation] ∧
      t'.creations.composed = t.creations.composed ∧
      t'.taken Creations.sampleDate = t.taken Creations.sampleDate + 1 := by
  obtain ⟨ls, t₁, hrun, hstore, hexec, hcomposed, htaken⟩ := run_asking t noPartRef
  have hcounter₁ : Counter t₁.creations.store t₁.taken := by
    rw [hstore, htaken]
    exact hcounter
  obtain ⟨t₂, hstep, hexec₂, hcomposed₂, htaken₂⟩ :=
    step_numbered hexec hcounter₁ (by rw [htaken]; omega)
  have hcreate : createPartIdentifier asciiDecimal noPartRef batchRead sampleLine
      Creations.sampleDate (t₁.taken Creations.sampleDate + 1) =
        .error (.partReference noPartRef) := by
    rw [createPartIdentifier, if_neg (by rw [htaken]; omega)]
    rfl
  simp only [afterSerial, hcreate] at hexec₂ hcomposed₂
  refine ⟨_, t₂, hrun.snoc hstep, hexec₂, ?_, ?_⟩
  · rw [hcomposed₂, hcomposed]
    exact List.append_nil _
  · rw [htaken₂, htaken]

/-- Requests refused for their part reference alone use up the numbers of a day. -/
theorem run_refusals {n : ℕ} (hn : n ≤ 99999) :
    ∃ (ls : List (Creations.Label plainCodec)) (t : Tally),
      Run (Step asciiDecimal epochFormat 10) initial ls t ∧
      t.creations.executions = List.replicate n refusedCreation ∧ t.creations.composed = [] ∧
      t.taken Creations.sampleDate = n := by
  induction n with
  | zero => exact ⟨[], initial, .nil _, rfl, rfl, rfl⟩
  | succ n ih =>
    obtain ⟨ls, t, hrun, hexec, hcomposed, htaken⟩ := ih (by omega)
    obtain ⟨ls', t', hrun', hexec', hcomposed', htaken'⟩ :=
      run_refused (run_counter hrun) (by omega)
    refine ⟨_, t', hrun.append hrun', ?_, hcomposed'.trans hcomposed, ?_⟩
    · rw [hexec', hexec, List.replicate_succ']
    · rw [htaken', htaken]

/-! ### The main result -/

/-- In every run, as long as fewer than 99999 serial numbers have been taken for a date, no
create request of the date is refused for its number, and one with a valid part reference is
given its identifier with the next number. Only a request that has come to compose or to write
its identifier has taken a number. -/
theorem serial_capacity (hr : Run (Step D F queuesThreshold) initial ls t) {date : Date}
    (hlt : t.taken date < 99999) :
    (∀ (l : Creations.Label V) t', Step D F queuesThreshold t l t' → ¬ RefusesTooBig date l t' ∧
      ∀ n r batch lineId, Numbers D date t l n r batch lineId → t'.creations.composed =
        t.creations.composed ++ [(n, composed r batch lineId date (t.taken date + 1))]) ∧
    ∀ h tr e serial, Yields (createPartId D h) tr (.failed e) →
      (⟨.nextSerial date, .ok (.ok serial)⟩ : Event handlerSignature) ∈ tr →
        (∃ err, e = .partIdentifier err) ∨ ∃ err, e = .writePartId err := by
  refine ⟨fun l t' hs => ⟨?_, fun n r batch lineId hnumbers => ?_⟩, fun h tr e serial hy hmem => ?_⟩
  · exact hs.not_refusesTooBig (run_counter hr) (run_preparing hr) hlt
  · exact hs.composes (run_counter hr) hlt hnumbers
  · exact createPartId_failed_with_number hy hmem

/-- The first request of a day. -/
theorem serial_capacity_first :
    ∃ (ls : List (Creations.Label plainCodec)) (t t' : Tally),
      Run (Step asciiDecimal epochFormat 10) initial ls t ∧
      t.taken Creations.sampleDate < 99999 ∧
      Step asciiDecimal epochFormat 10 t
        (.perform 0 (.nextSerial Creations.sampleDate) (.ok noFaults) :
          Creations.Label plainCodec) t' ∧
      t'.creations.composed = [(0, "010498013AA422634300001".toList)] := by
  obtain ⟨ls, t, hrun, -, hexec, hcomposed, htaken⟩ := run_asking initial "1-498GR13".toList
  have hlt : t.taken Creations.sampleDate < 99999 := by
    rw [htaken]
    exact Nat.succ_pos _
  obtain ⟨t', hstep, -⟩ := step_numbered hexec (run_counter hrun) (by omega)
  have hnumbers : Numbers asciiDecimal Creations.sampleDate t
      (.perform 0 (.nextSerial Creations.sampleDate) (.ok noFaults) : Creations.Label plainCodec) 0
      ⟨"1".toList, "498".toList, "13".toList⟩ batchRead sampleLine :=
    ⟨⟨_, rfl⟩, ⟨_, _, rfl, by rw [hexec]; rfl⟩, rfl⟩
  refine ⟨ls, t, t', hrun, hlt, hstep, ?_⟩
  rw [((serial_capacity hrun hlt).1 _ t' hstep).2 _ _ _ _ hnumbers, hcomposed, htaken]
  rfl

/-- After 99999 requests refused for their part reference, and with no identifier composed, a
request with a valid part reference is refused for its number. -/
theorem capacity_used_up :
    ∃ (ls : List (Creations.Label plainCodec)) (t t' : Tally),
      Run (Step asciiDecimal epochFormat 10) initial ls t ∧ t.creations.composed = [] ∧
      t.creations.executions = List.replicate 99999 refusedCreation ++
        [(Creations.sampleHandler, .preparing (asking "1-498GR13".toList))] ∧
      Step asciiDecimal epochFormat 10 t
        (.perform 99999 (.nextSerial Creations.sampleDate) (.ok noFaults) :
          Creations.Label plainCodec) t' ∧
      t'.creations.executions = List.replicate 99999 refusedCreation ++ [(Creations.sampleHandler,
        .preparing (.fail (.partIdentifier (.serialTooBig 100000))))] := by
  obtain ⟨ls, t, hrun, hexec, hcomposed, htaken⟩ := run_refusals le_rfl
  obtain ⟨ls₁, t₁, hrun₁, -, hexec₁, hcomposed₁, htaken₁⟩ := run_asking t "1-498GR13".toList
  have hrun' := hrun.append hrun₁
  have hdate : t₁.taken Creations.sampleDate = 99999 := by rw [htaken₁, htaken]
  obtain ⟨t₂, hstep, hexec₂, -⟩ :=
    step_numbered hexec₁ (run_counter hrun') (by rw [hdate]; omega)
  rw [hexec, List.length_replicate] at hstep
  rw [hexec] at hexec₁ hexec₂
  rw [hdate] at hexec₂
  exact ⟨_, t₁, t₂, hrun', hcomposed₁.trans hcomposed, hexec₁, hstep, hexec₂⟩

end Tally

end LineGateway.Traceability
