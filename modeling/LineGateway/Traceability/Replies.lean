import LineGateway.Foundation.Behaviour
import LineGateway.Traceability.Handler.Install
import LineGateway.Traceability.ReadRequest
import LineGateway.Traceability.SaveRequest

/-! What the handlers make of the replies of a server. A write counts as a success when
no status received is bad, however many there are: with fewer statuses than values, the
last values are not acknowledged, and a bad status beyond the values has none to name.
The reply to the part identifier read is used as if its length were known. Every other
reply is checked, and answered by a response code. -/

namespace LineGateway.Traceability

open Foundation Config Opcua

/-! ### Status codes of a write -/

/-- The first bad status and its position. -/
structure FirstBad (statuses : List StatusCode) (i : ℕ) (status : StatusCode) : Prop where
  get : statuses[i]? = some status
  bad : status.isGood = false
  before : ∀ j < i, ∃ s, statuses[j]? = some s ∧ s.isGood

/-- The server has acknowledged the value at the position. -/
def AcknowledgedAt (statuses : List StatusCode) (i : ℕ) : Prop :=
  ∃ s, statuses[i]? = some s ∧ s.isGood

/-- There is one good status for each of `n` values. -/
def Acknowledged (n : ℕ) (statuses : List StatusCode) : Prop := ∀ i < n, AcknowledgedAt statuses i

/-- The first `n` statuses are good, and a bad one follows. -/
def Overrun (n : ℕ) (statuses : List StatusCode) : Prop :=
  (∀ s ∈ statuses.take n, s.isGood) ∧ ∃ s ∈ statuses.drop n, s.isGood = false

/-- Unless one of the first `n` statuses is bad, there are `n` of them and all are good. -/
def Conclusive (n : ℕ) (statuses : List StatusCode) : Prop :=
  (∀ s ∈ statuses.take n, s.isGood) → n ≤ statuses.length ∧ ∀ s ∈ statuses, s.isGood

section Statuses

variable {statuses : List StatusCode} {i n : ℕ} {status : StatusCode}

theorem find_bad_none (h : (statuses.zipIdx.find? fun r => !r.1.isGood) = none) :
    ∀ s ∈ statuses, s.isGood := by
  intro s hs
  obtain ⟨i, hi, rfl⟩ := List.getElem_of_mem hs
  have := List.find?_eq_none.mp h (statuses[i], i) (by simp [List.mem_zipIdx_iff_getElem?])
  simpa using this

theorem find_bad_some (h : (statuses.zipIdx.find? fun r => !r.1.isGood) = some (status, i)) :
    FirstBad statuses i status := by
  obtain ⟨hbad, j, hj, hget, hbefore⟩ := List.find?_eq_some_iff_getElem.mp h
  rw [List.length_zipIdx] at hj
  simp only [List.getElem_zipIdx, zero_add, Prod.mk.injEq] at hget
  obtain ⟨rfl, rfl⟩ := hget
  refine ⟨List.getElem?_eq_getElem hj, by simpa using hbad, fun k hk => ?_⟩
  have hgood := hbefore k hk
  simp only [List.getElem_zipIdx, Bool.not_not] at hgood
  exact ⟨_, List.getElem?_eq_getElem (by omega), hgood⟩

theorem FirstBad.not_good (h : FirstBad statuses i status) : ¬ ∀ s ∈ statuses, s.isGood := by
  intro hall
  have := hall status (List.mem_of_getElem? h.get)
  rw [h.bad] at this
  cases this

theorem FirstBad.not_acknowledgedAt (h : FirstBad statuses i status) : ¬ AcknowledgedAt statuses i := by
  rintro ⟨s, hs, hgood⟩
  obtain rfl : status = s := Option.some.inj (h.get.symm.trans hs)
  rw [h.bad] at hgood
  cases hgood

/-- The first `n` statuses are good exactly when the first bad one comes after them. -/
theorem FirstBad.take_good_iff (h : FirstBad statuses i status) :
    (∀ s ∈ statuses.take n, s.isGood) ↔ n ≤ i := by
  constructor
  · intro hall
    by_contra hlt
    have hmem : status ∈ statuses.take n := by
      refine List.mem_of_getElem? (i := i) ?_
      rw [List.getElem?_take_of_lt (by omega), h.get]
    have := hall status hmem
    rw [h.bad] at this
    cases this
  · intro hle s hs
    obtain ⟨j, hj, rfl⟩ := List.getElem_of_mem hs
    rw [List.length_take] at hj
    obtain ⟨s', hs', hgood⟩ := h.before j (by omega)
    rw [List.getElem_take]
    rw [List.getElem?_eq_getElem (by omega)] at hs'
    exact Option.some.inj hs' ▸ hgood

theorem FirstBad.overrun_iff (h : FirstBad statuses i status) : Overrun n statuses ↔ n ≤ i := by
  refine ⟨fun ho => h.take_good_iff.mp ho.1, fun hle => ⟨h.take_good_iff.mpr hle, status, ?_, h.bad⟩⟩
  refine List.mem_of_getElem? (i := i - n) ?_
  rw [List.getElem?_drop, Nat.add_sub_cancel' hle, h.get]

theorem FirstBad.conclusive_iff (h : FirstBad statuses i status) : Conclusive n statuses ↔ i < n := by
  rw [Conclusive, h.take_good_iff]
  constructor
  · intro hc
    by_contra hlt
    exact h.not_good (hc (by omega)).2
  · intro hlt hle
    omega

theorem not_overrun_of_good (h : ∀ s ∈ statuses, s.isGood) : ¬ Overrun n statuses := by
  rintro ⟨-, s, hs, hbad⟩
  rw [h s (List.mem_of_mem_drop hs)] at hbad
  cases hbad

theorem conclusive_iff_of_good (h : ∀ s ∈ statuses, s.isGood) :
    Conclusive n statuses ↔ n ≤ statuses.length :=
  ⟨fun hc => (hc fun s hs => h s (List.mem_of_mem_take hs)).1, fun hle _ => ⟨hle, h⟩⟩

theorem acknowledged_iff_of_good (h : ∀ s ∈ statuses, s.isGood) :
    Acknowledged n statuses ↔ n ≤ statuses.length := by
  constructor
  · intro ha
    by_contra hlt
    obtain ⟨s, hs, -⟩ := ha statuses.length (by omega)
    simp at hs
  · intro hle i hi
    exact ⟨_, List.getElem?_eq_getElem (by omega), h _ (List.getElem_mem _)⟩

end Statuses

/-! ### Checked writes -/

section Writes

variable {values : List WriteValue} {statuses : List StatusCode}

/-- A write succeeds when no status is bad, else it names the value of the first bad one,
or panics when there is no such value. -/
theorem checkWritten_cases (values : List WriteValue) (statuses : List StatusCode) :
    ((∀ s ∈ statuses, s.isGood) ∧ checkWritten values (.ok statuses) = .ret ()) ∨
      ∃ i status, FirstBad statuses i status ∧ ((∃ value, values[i]? = some value ∧
          checkWritten values (.ok statuses) = .fail (.writeStatus status value.nodeId)) ∨
        values.length ≤ i ∧ checkWritten values (.ok statuses) = .panic "index out of bounds") := by
  cases hf : statuses.zipIdx.find? fun r => !r.1.isGood with
  | none => exact .inl ⟨find_bad_none hf, by simp only [checkWritten, hf]⟩
  | some r =>
    obtain ⟨status, i⟩ := r
    refine .inr ⟨i, status, find_bad_some hf, ?_⟩
    cases hv : values[i]? with
    | none => exact .inr ⟨List.getElem?_eq_none_iff.mp hv, by simp only [checkWritten, hf, hv]⟩
    | some value => exact .inl ⟨value, rfl, by simp only [checkWritten, hf, hv]⟩

/-- Success tells that every value is acknowledged, and anything else is an error that
names the first value that is not. -/
def Answers (values : List WriteValue) (statuses : List StatusCode) (o : Outcome WriteError Unit) :
    Prop :=
  (o = .returned () ∧ Acknowledged values.length statuses) ∨ ∃ status i value,
    o = .failed (.writeStatus status value.nodeId) ∧ values[i]? = some value ∧
      ¬ AcknowledgedAt statuses i ∧ ∀ j < i, AcknowledgedAt statuses j

theorem writeChecked_answers_iff {o : Outcome WriteError Unit}
    (hy : Yields (writeChecked values) [⟨.write values, .ok statuses⟩] o) :
    Answers values statuses o ↔ Conclusive values.length statuses := by
  rw [writeChecked_eq] at hy
  obtain ⟨r, t, ht, hy⟩ := Yields.call_iff.mp hy
  cases ht
  rcases checkWritten_cases values statuses with
    ⟨hgood, hc⟩ | ⟨i, status, hbad, ⟨value, hvalue, hc⟩ | ⟨hle, hc⟩⟩ <;> rw [hc] at hy
  · obtain ⟨-, rfl⟩ := Yields.ret_iff.mp hy
    rw [conclusive_iff_of_good hgood, ← acknowledged_iff_of_good hgood]
    simp [Answers]
  · obtain ⟨-, rfl⟩ := Yields.fail_iff.mp hy
    rw [hbad.conclusive_iff]
    exact iff_of_true (.inr ⟨status, i, value, rfl, hvalue, hbad.not_acknowledgedAt, hbad.before⟩)
      (List.getElem?_eq_some_iff.mp hvalue).1
  · obtain ⟨-, rfl⟩ := Yields.panic_iff.mp hy
    rw [hbad.conclusive_iff]
    exact iff_of_false (by simp [Answers]) (by omega)

/-- A write that succeeds has a reply without a bad status. -/
theorem writeChecked_returned {t : List (Event handlerSignature)}
    (hy : Yields (writeChecked values) t (.returned ())) : ∃ statuses,
      t = [⟨.write values, .ok statuses⟩] ∧ ∀ s ∈ statuses, s.isGood := by
  rw [writeChecked_eq] at hy
  obtain ⟨r, t', rfl, hy'⟩ := Yields.call_iff.mp hy
  cases r with
  | error e => simp [checkWritten] at hy'
  | ok statuses =>
    rcases checkWritten_cases values statuses with
      ⟨hgood, hc⟩ | ⟨i, status, -, ⟨value, -, hc⟩ | ⟨-, hc⟩⟩ <;> rw [hc] at hy'
    · obtain ⟨rfl, -⟩ := Yields.ret_iff.mp hy'
      exact ⟨statuses, rfl, hgood⟩
    · simp at hy'
    · simp at hy'

end Writes

/-! ### Success of a request -/

section Success

variable {D : DecimalClass} {h : TraceabilityHandler TraceabilityContext} {value : DataValue}
  {t : List (Event handlerSignature)}

/-- The reply to the read must have one value, and is then converted. -/
theorem readPartSheetOf_cases (h : TraceabilityHandler TraceabilityContext)
    (values : List DataValue) :
    (values.length ≠ 1 ∧
        ∃ m, readPartSheetOf h values = .panic m) ∨
      values.length = 1 ∧ ((∃ e, readPartSheetOf h values = .fail e) ∨
        ∃ partId : AsciiDigitsOrUpper 23, readPartSheetOf h values =
          .call (.getGeneralPartSheet partId.asStr) (afterLookup h partId)) := by
  match values with
  | [] => exact .inl ⟨by simp, _, rfl⟩
  | [v] =>
    refine .inr ⟨rfl, ?_⟩
    cases hv : v.tryUaValueAs (AsciiDigitsOrUpper 23) with
    | error e => exact .inl ⟨.partIdValue e, by simp [readPartSheetOf, hv]⟩
    | ok partId => exact .inr ⟨partId, readPartSheetOf_ok h hv⟩
  | _ :: _ :: _ => exact .inl ⟨by simp, _, rfl⟩

theorem afterLookup_returned {partId : AsciiDigitsOrUpper 23} {r}
    (hy : Yields (afterLookup h partId r) t (.returned ())) : ∃ sheet statuses,
      r = .ok (.ok (some sheet)) ∧ t = [⟨.write (expectedValues h sheet), .ok statuses⟩] ∧
        ∀ s ∈ statuses, s.isGood := by
  rcases r with e | e | _ | sheet
  · simp [afterLookup] at hy
  · simp [afterLookup] at hy
  · simp [afterLookup] at hy
  · rw [afterLookup, Yields.mapErr_returned_iff, sheetWriteValues_eq] at hy
    obtain ⟨statuses, ht, hgood⟩ := writeChecked_returned hy
    exact ⟨sheet, statuses, rfl, ht, hgood⟩

/-- A read request succeeds by the write of the sheet found, without a bad status. -/
theorem handleRead_returned (hy : Yields (handleRead h) t (.returned ())) :
    ∃ values partId sheet statuses, t = [⟨.read [partIdNode h], .ok values⟩,
      ⟨.getGeneralPartSheet partId, .ok (.ok (some sheet))⟩,
      ⟨.write (expectedValues h sheet), .ok statuses⟩] ∧ ∀ s ∈ statuses, s.isGood := by
  rw [handleRead_eq] at hy
  obtain ⟨r, t₁, rfl, hy₁⟩ := Yields.call_iff.mp hy
  cases r with
  | error e => simp [afterPartIdRead] at hy₁
  | ok values =>
    rw [afterPartIdRead] at hy₁
    rcases readPartSheetOf_cases h values with ⟨-, m, hm⟩ | ⟨-, ⟨e, he⟩ | ⟨partId, hcall⟩⟩
    · simp [hm] at hy₁
    · simp [he] at hy₁
    · rw [hcall] at hy₁
      obtain ⟨r, t₂, rfl, hy₂⟩ := Yields.call_iff.mp hy₁
      obtain ⟨sheet, statuses, rfl, rfl, hgood⟩ := afterLookup_returned hy₂
      exact ⟨values, partId.asStr, sheet, statuses, rfl, hgood⟩

/-- A create request succeeds by the write of an identifier, without a bad status. -/
theorem createPartId_returned (hy : Yields (createPartId D h) t (.returned ())) :
    ∃ t₁ partId statuses, t = t₁ ++ [⟨.write [⟨partIdNode h, .string (some partId)⟩],
      .ok statuses⟩] ∧ ∀ s ∈ statuses, s.isGood := by
  obtain ⟨partId, t₁, t₂, rfl, -, hy₂⟩ := Yields.bind_returned_iff.mp hy
  obtain ⟨statuses, rfl, hgood⟩ := writeChecked_returned (Yields.mapErr_returned_iff.mp hy₂)
  exact ⟨t₁, partId, statuses, rfl, hgood⟩

/-- Checked writes answer as documented exactly when the statuses received are conclusive.
So a create or read request that is answered by success has written its values last, and
all of them are acknowledged exactly when that reply was conclusive. -/
theorem success_acknowledged_iff (D : DecimalClass) (h : TraceabilityHandler TraceabilityContext) :
    (∀ values statuses o, Yields (writeChecked values) [⟨.write values, .ok statuses⟩] o →
      (Answers values statuses o ↔ Conclusive values.length statuses)) ∧
    (∀ value t outcome, value.tryUaValueAs UInt8 = .ok 1 →
      Yields (handleRequest D h value) t outcome → responseCode outcome = some responseSuccess →
      ∃ t₁ partId statuses,
        t = t₁ ++ [⟨.write [⟨partIdNode h, .string (some partId)⟩], .ok statuses⟩] ∧
        (Acknowledged 1 statuses ↔ Conclusive 1 statuses)) ∧
    ∀ value t outcome, value.tryUaValueAs UInt8 = .ok 2 →
      Yields (handleRequest D h value) t outcome → responseCode outcome = some responseSuccess →
      ∃ t₁ partId sheet statuses,
        t = t₁ ++ [⟨.getGeneralPartSheet partId, .ok (.ok (some sheet))⟩,
          ⟨.write (expectedValues h sheet), .ok statuses⟩] ∧
        (Acknowledged (expectedValues h sheet).length statuses ↔
          Conclusive (expectedValues h sheet).length statuses) := by
  refine ⟨fun values statuses o hy => writeChecked_answers_iff hy, ?_, ?_⟩
  · intro value t outcome hv hy hcode
    cases responseCode_success hv hy hcode with
    | createPartId hy =>
      obtain ⟨t₁, partId, statuses, rfl, hgood⟩ := createPartId_returned hy
      refine ⟨t₁, partId, statuses, rfl, ?_⟩
      rw [acknowledged_iff_of_good hgood, conclusive_iff_of_good hgood]
  · intro value t outcome hv hy hcode
    cases responseCode_success hv hy hcode with
    | handleRead hy =>
      obtain ⟨values, partId, sheet, statuses, rfl, hgood⟩ := handleRead_returned hy
      refine ⟨[⟨.read [partIdNode h], .ok values⟩], partId, sheet, statuses, rfl, ?_⟩
      rw [acknowledged_iff_of_good hgood, conclusive_iff_of_good hgood]

end Success

/-- A creation on the sample machine, whose write is answered by the statuses. -/
def creation (statuses : List StatusCode) : List (Event handlerSignature) :=
  [⟨.read [.new 1 6, .new 1 7], .ok Creations.sampleVariables⟩, ⟨.nowZoned, Creations.sampleDate⟩,
    ⟨.nextSerial Creations.sampleDate, .ok (.ok 1)⟩,
    ⟨.write [⟨.new 1 5, .string (some "010498013AA422634300001".toList)⟩], .ok statuses⟩]

/-- A reading of the part identifier and of a sheet with one node, whose write is answered
by the statuses. -/
def reading (values : List DataValue) (statuses : List StatusCode) : List (Event handlerSignature) :=
  [⟨.read [.new 3 5], .ok values⟩,
    ⟨.getGeneralPartSheet sampleSave.partId.asStr, .ok (.ok (some [(7, .boolean true)]))⟩,
    ⟨.write [⟨.new 3 7, .boolean true⟩], .ok statuses⟩]

def byteValue (code : UInt8) : DataValue := ⟨some (.byte code), none⟩

theorem creation_yields_good : Yields (handleRequest asciiDecimal Creations.sampleHandler
    (byteValue 1)) (creation [.good]) (.returned responseSuccess) :=
  .call _ (.call _ (.call _ (.call _ (.ret _))))

theorem reading_yields_good : Yields (handleRequest asciiDecimal readingHandler (byteValue 2))
    (reading [⟨some (.string (some sampleSave.partId.asStr)), none⟩] [.good])
      (.returned responseSuccess) :=
  .call _ (.call _ (.call _ (.ret _)))

/-- An empty reply to the write of an identifier is a success, and acknowledges nothing. -/
theorem creation_not_acknowledged :
    Yields (handleRequest asciiDecimal Creations.sampleHandler (byteValue 1)) (creation [])
        (.returned responseSuccess) ∧
      Yields (writeChecked [⟨.new 1 5, .string (some "010498013AA422634300001".toList)⟩])
        [⟨.write [⟨.new 1 5, .string (some "010498013AA422634300001".toList)⟩], .ok []⟩]
        (.returned ()) ∧
      ¬ Acknowledged 1 [] := by
  refine ⟨.call _ (.call _ (.call _ (.call _ (.ret _)))), .call _ (.ret ()), fun ha => ?_⟩
  obtain ⟨s, hs, -⟩ := ha 0 Nat.one_pos
  cases hs

theorem success_acknowledged_iff_good :
    Answers [⟨.new 1 5, .empty⟩] [.good] (.returned ()) ∧
      (∃ t₁ partId statuses, creation [.good] =
        t₁ ++ [⟨.write [⟨.new 1 5, .string (some partId)⟩], .ok statuses⟩] ∧
        (Acknowledged 1 statuses ↔ Conclusive 1 statuses)) ∧
      ∃ t₁ partId sheet statuses,
        reading [⟨some (.string (some sampleSave.partId.asStr)), none⟩] [.good] =
          t₁ ++ [⟨.getGeneralPartSheet partId, .ok (.ok (some sheet))⟩,
            ⟨.write (expectedValues readingHandler sheet), .ok statuses⟩] ∧
        (Acknowledged (expectedValues readingHandler sheet).length statuses ↔
          Conclusive (expectedValues readingHandler sheet).length statuses) := by
  obtain ⟨hwrite, hcreate, -⟩ := success_acknowledged_iff asciiDecimal Creations.sampleHandler
  obtain ⟨-, -, hread⟩ := success_acknowledged_iff asciiDecimal readingHandler
  refine ⟨(hwrite [⟨.new 1 5, .empty⟩] [.good] _ (.call _ (.ret ()))).mpr ?_,
    hcreate _ _ _ rfl creation_yields_good rfl, hread _ _ _ rfl reading_yields_good rfl⟩
  exact fun _ => ⟨le_rfl, fun s hs => by rw [List.mem_singleton.mp hs]; rfl⟩

/-! ### Fatal replies -/

/-- A reply that ends the handling of the request: to the part identifier read by a read
request, other than one value; to a write, a bad status after a good one for every value. -/
def FatalReply (value : DataValue) (e : Event handlerSignature) : Prop :=
  (value.tryUaValueAs UInt8 = .ok 2 ∧
      ∃ nodes values, e = ⟨.read nodes, .ok values⟩ ∧ values.length ≠ 1) ∨
    ∃ values statuses, e = ⟨.write values, .ok statuses⟩ ∧ Overrun values.length statuses

section Fatal

variable {D : DecimalClass} {h : TraceabilityHandler TraceabilityContext} {value : DataValue}

theorem fatalReply_read_iff {nodes : List NodeId} {r : Except SessionError (List DataValue)} :
    FatalReply value ⟨.read nodes, r⟩ ↔ value.tryUaValueAs UInt8 = .ok 2 ∧
      ∃ values, r = .ok values ∧ values.length ≠ 1 := by
  constructor
  · rintro (⟨hv, _, values, heq, hlen⟩ | ⟨_, _, heq, -⟩)
    · cases heq
      exact ⟨hv, values, rfl, hlen⟩
    · cases heq
  · rintro ⟨hv, values, rfl, hlen⟩
    exact .inl ⟨hv, nodes, values, rfl, hlen⟩

theorem fatalReply_write_iff {values : List WriteValue} {r : Except SessionError (List StatusCode)} :
    FatalReply value ⟨.write values, r⟩ ↔
      ∃ statuses, r = .ok statuses ∧ Overrun values.length statuses := by
  constructor
  · rintro (⟨-, _, _, heq, -⟩ | ⟨_, statuses, heq, ho⟩)
    · cases heq
    · cases heq
      exact ⟨statuses, rfl, ho⟩
  · rintro ⟨statuses, rfl, ho⟩
    exact .inr ⟨values, statuses, rfl, ho⟩

/-- No reply to another effect is fatal. -/
theorem panicsOn_call {ε α : Type} {e : HandlerEffect} {k : e.Reply → HandlerProg ε α}
    (hread : ∀ nodes, e ≠ .read nodes) (hwrite : ∀ values, e ≠ .write values)
    (hk : ∀ r, PanicsOn (FatalReply value) (k r)) :
    PanicsOn (FatalReply value) (Prog.call (S := handlerSignature) e k) := by
  refine .call_of_not (fun r => ?_) hk
  rintro (⟨-, nodes, _, heq, -⟩ | ⟨values, _, heq, -⟩)
  · exact hread nodes (congrArg Sigma.fst heq)
  · exact hwrite values (congrArg Sigma.fst heq)

theorem panicsOn_writeChecked (values : List WriteValue) :
    PanicsOn (FatalReply value) (writeChecked values) := by
  rw [writeChecked_eq]
  refine .call (fun r hr => ?_) fun r hr => ?_
  · obtain ⟨statuses, rfl, ho⟩ := fatalReply_write_iff.mp hr
    rcases checkWritten_cases values statuses with
      ⟨hgood, -⟩ | ⟨i, status, hbad, ⟨v, hv, -⟩ | ⟨-, hc⟩⟩
    · exact absurd ho (not_overrun_of_good hgood)
    · have := hbad.overrun_iff.mp ho
      have := (List.getElem?_eq_some_iff.mp hv).1
      omega
    · exact ⟨_, hc⟩
  · cases r with
    | error e => exact .fail _
    | ok statuses =>
      rcases checkWritten_cases values statuses with
        ⟨-, hc⟩ | ⟨i, status, hbad, ⟨v, -, hc⟩ | ⟨hle, -⟩⟩
      · exact hc ▸ .ret ()
      · exact hc ▸ .fail _
      · exact absurd (fatalReply_write_iff.mpr ⟨statuses, rfl, hbad.overrun_iff.mpr hle⟩) hr

/-- A creation checks the length of its reads. -/
theorem panicsOn_createPartId (hv : value.tryUaValueAs UInt8 ≠ .ok 2) :
    PanicsOn (FatalReply value) (createPartId D h) := by
  have hcompose : ∀ partRef batch lineId today,
      PanicsOn (FatalReply value) (composePartId D partRef batch lineId today) := by
    intro partRef batch lineId today
    rw [composePartId_eq]
    refine panicsOn_call (by simp) (by simp) fun r => ?_
    rcases afterSerial_cases D partRef batch lineId today r with ⟨e, he, -⟩ | ⟨serial, s, -, -, hs⟩
    · exact he ▸ .fail e
    · exact hs ▸ .ret s
  have hvalues : ∀ lineId values,
      PanicsOn (FatalReply value) (composeFromValues D lineId values) := by
    intro lineId values
    rcases composeFromValues_cases (D := D) lineId values with ⟨e, he⟩ | ⟨partRef, batch, he⟩
    · exact he ▸ .fail e
    · rw [he, composeToday_eq]
      exact panicsOn_call (by simp) (by simp) (hcompose partRef batch lineId)
  refine .bind ?_ fun partId => (panicsOn_writeChecked _).mapErr _
  rcases preparePartId_cases D h with hfail | ⟨lineId, nodes, hcall⟩
  · exact hfail ▸ .fail _
  · rw [hcall]
    refine .call_of_not (fun r hr => hv (fatalReply_read_iff.mp hr).1) fun r => ?_
    cases r with
    | error e => exact .fail _
    | ok values => exact hvalues lineId values

/-- A reading uses the reply to its read unchecked. -/
theorem panicsOn_handleRead (hv : value.tryUaValueAs UInt8 = .ok 2) :
    PanicsOn (FatalReply value) (handleRead h) := by
  have hlookup : ∀ partId r, PanicsOn (FatalReply value) (afterLookup h partId r) := by
    intro partId r
    rcases r with e | e | _ | sheet
    · exact .fail _
    · exact .fail _
    · exact .fail _
    · exact (panicsOn_writeChecked _).mapErr _
  rw [handleRead_eq]
  refine .call (fun r hr => ?_) fun r hr => ?_
  · obtain ⟨-, values, rfl, hlen⟩ := fatalReply_read_iff.mp hr
    rcases readPartSheetOf_cases h values with ⟨-, hpanic⟩ | ⟨hone, -⟩
    · exact hpanic
    · exact absurd hone hlen
  · cases r with
    | error e => exact .fail _
    | ok values =>
      rw [afterPartIdRead]
      rcases readPartSheetOf_cases h values with ⟨hlen, -⟩ | ⟨-, ⟨e, he⟩ | ⟨partId, hcall⟩⟩
      · exact absurd (fatalReply_read_iff.mpr ⟨hv, values, rfl, hlen⟩) hr
      · exact he ▸ .fail e
      · rw [hcall]
        exact panicsOn_call (by simp) (by simp) (hlookup partId)

/-- A save checks the length of its read, and finds the part identifier in it. -/
theorem panicsOn_handleSave (hv : value.tryUaValueAs UInt8 ≠ .ok 2)
    (hindex : h.state.generalPartSheet.partIdIndex < h.state.generalPartSheet.nodes.length) :
    PanicsOn (FatalReply value) (handleSave h) := by
  rw [handleSave_eq]
  refine panicsOn_call (by simp) (by simp) fun r => ?_
  rcases r with e | u
  · exact .fail _
  · rw [afterChecked]
    refine .call_of_not (fun r hr => hv (fatalReply_read_iff.mp hr).1) fun r => ?_
    cases r with
    | error e => exact .fail _
    | ok readValues =>
      rw [afterReadSheets]
      rcases saveRead_cases hindex readValues with ⟨e, he⟩ | ⟨values, id, -, hsave⟩
      · exact he ▸ .fail e
      · rw [hsave]
        refine panicsOn_call (by simp) (by simp) fun r => ?_
        rcases r with e | e | u
        · exact .fail _
        · exact .fail _
        · exact .ret ()

theorem panicsOn_handleRequest
    (hindex : h.state.generalPartSheet.partIdIndex < h.state.generalPartSheet.nodes.length) :
    PanicsOn (FatalReply value) (handleRequest D h value) := by
  unfold handleRequest
  cases hv : value.tryUaValueAs UInt8 with
  | error e => exact .fail _
  | ok code =>
    simp only [Prog.attempt_ok, Prog.ret_bind]
    have hne : code ≠ 2 → value.tryUaValueAs UInt8 ≠ .ok 2 := by
      rw [hv]
      exact fun hcode heq => hcode (Except.ok.inj heq)
    unfold TraceabilityRequest.fromRepr
    split_ifs with h₀ h₁ h₂ h₃
    · exact .ret _
    · exact .bind ((panicsOn_createPartId (hne (by rw [h₁]; decide))).mapErr _) fun _ => .ret _
    · exact .bind ((panicsOn_handleRead (h₂ ▸ hv)).mapErr _) fun _ => .ret _
    · exact .bind ((panicsOn_handleSave (hne (by rw [h₃]; decide)) hindex).mapErr _) fun _ => .ret _
    · exact .fail _

/-- The handler of an initialised machine has a response code for a request exactly when
no reply to it was fatal. -/
theorem answered_iff {F : RowFormat} {h₀ : TraceabilityHandler Unit}
    {t₀ t : List (Event handlerSignature)} {outcome : Outcome HandleRequestError UInt8}
    (hinit : Yields (traceabilityInitialize F h₀) t₀ (.returned h))
    (hy : Yields (handleRequest D h value) t outcome) :
    (∃ code, responseCode outcome = some code) ↔ ∀ e ∈ t, ¬ FatalReply value e := by
  have hpanics := panicsOn_handleRequest (traceabilityInitialize_returned hinit).2.lt t outcome hy
  have hcode : (∃ code, responseCode outcome = some code) ↔ ¬ ∃ m, outcome = .panicked m := by
    cases outcome <;> simp [responseCode]
  rw [hcode, hpanics, not_exists]
  exact forall_congr' fun e => not_and

end Fatal

/-- A read request is never answered when its read has an empty reply. -/
theorem reading_unanswered : ∃ h t₀ t m,
    Yields (traceabilityInitialize epochFormat sampleInitial) t₀ (.returned h) ∧
      t = [⟨.read [partIdNode h], .ok []⟩] ∧
      Yields (handleRequest asciiDecimal h (byteValue 2)) t (.panicked m) ∧
        responseCode (.panicked m) = none := by
  obtain ⟨h, t₀, hinit, -⟩ := sampleInitial_returned
  exact ⟨h, t₀, _, _, hinit, rfl, .call _ (.panic _), rfl⟩

/-- A request whose read, with the value of one node, finds a sheet to be written is answered. -/
theorem answered_iff_restored : ∃ h t code,
    t = [⟨.read [partIdNode h], .ok [⟨some (.string (some sampleSave.partId.asStr)), none⟩]⟩,
      ⟨.getGeneralPartSheet sampleSave.partId.asStr, .ok (.ok (some [(7, .boolean true)]))⟩,
      ⟨.write (sheetWriteValues h [(7, .boolean true)]), .ok [.good]⟩] ∧
      Yields (handleRequest asciiDecimal h (byteValue 2)) t (.returned responseSuccess) ∧
        responseCode (.returned responseSuccess) = some code := by
  obtain ⟨h, t₀, hinit, -⟩ := sampleInitial_returned
  have hy : Yields (handleRequest asciiDecimal h (byteValue 2))
      [⟨.read [partIdNode h], .ok [⟨some (.string (some sampleSave.partId.asStr)), none⟩]⟩,
        ⟨.getGeneralPartSheet sampleSave.partId.asStr, .ok (.ok (some [(7, .boolean true)]))⟩,
        ⟨.write (sheetWriteValues h [(7, .boolean true)]), .ok [.good]⟩]
          (.returned responseSuccess) :=
    .call _ (.call _ (.call _ (.ret _)))
  obtain ⟨code, hcode⟩ := (answered_iff hinit hy).mpr fun e he => by
    simp only [List.mem_cons, List.not_mem_nil, or_false] at he
    rcases he with rfl | rfl | rfl
    · rw [fatalReply_read_iff]
      rintro ⟨-, values, hr, hlen⟩
      cases hr
      exact hlen rfl
    · rintro (⟨-, _, _, heq, -⟩ | ⟨_, _, heq, -⟩) <;> cases heq
    · rw [fatalReply_write_iff]
      rintro ⟨statuses, hr, ho⟩
      cases hr
      exact not_overrun_of_good (fun s hs => by rw [List.mem_singleton.mp hs]; rfl) ho
  exact ⟨h, _, code, rfl, hy, hcode⟩

end LineGateway.Traceability
