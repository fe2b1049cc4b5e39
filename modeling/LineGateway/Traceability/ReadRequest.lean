import LineGateway.Traceability.ArchiveDelivery
import LineGateway.Traceability.Creations
import LineGateway.Traceability.Handler.ReadPartSheet

/-! A read request writes the general part sheet of the last committed save of the part,
whichever machine made it, in whatever run of saves, serial requests and drains. -/

namespace LineGateway.Traceability

open Foundation Config Opcua

variable {V : VariantCodec} {db : TraceabilityDatabase} {F : RowFormat} {a a' : Archive}
  {ls : List (Archive.Label V)} {p : AsciiDigitsOrUpper 23}

/-! ### The cached sheet of a part -/

/-- The step commits a save of the part. -/
def CommitsSave (F : RowFormat) (p : AsciiDigitsOrUpper 23) (a : Archive) : Archive.Label V → Prop
  | .save c faults => c.partId = p ∧ (c.run F faults a.store).1 = .returned ()
  | _ => False

/-- The archive is reached by a run whose last committed save of the part is `c`. -/
def LastSave (db : TraceabilityDatabase) (F : RowFormat) (p : AsciiDigitsOrUpper 23) (c : SaveCall V)
    (a : Archive) : Prop :=
  ∃ a₁ faults, ∃ ls₁ ls₂ : List (Archive.Label V), Run (Archive.Step db F) .initial ls₁ a₁ ∧
    CommitsSave F p a₁ (.save c faults) ∧
    Run (guarded (Archive.Step db F) fun a l => ¬ CommitsSave F p a l) (a₁.save F c faults) ls₂ a

/-- A run commits no save of the part, or it has a last one. -/
theorem lastSave_or_none (hr : Run (Archive.Step db F) .initial ls a) :
    Run (guarded (Archive.Step db F) fun a l => ¬ CommitsSave F p a l) .initial ls a ∨
      ∃ c : SaveCall V, LastSave db F p c a := by
  refine hr.history (I := fun ls a =>
    Run (guarded (Archive.Step db F) fun a l => ¬ CommitsSave F p a l) .initial ls a ∨
      ∃ c : SaveCall V, LastSave db F p c a) (.inl (.nil _)) fun ls a l a' hr ih hs => ?_
  by_cases hc : CommitsSave F p a l
  · cases hs with
    | save c faults => exact .inr ⟨c, a, faults, ls, [], hr, hc, .nil _⟩
    | _ => exact hc.elim
  · rcases ih with hnone | ⟨c, a₁, faults, ls₁, ls₂, hr₁, hsave, hr₂⟩
    · exact .inl (hnone.snoc ⟨hs, hc⟩)
    · exact .inr ⟨c, a₁, faults, ls₁, ls₂ ++ [l], hr₁, hsave, hr₂.snoc ⟨hs, hc⟩⟩

/-- The cache holds the general part sheet under the part identifier. -/
def Cached (p : AsciiDigitsOrUpper 23) (c : SaveCall V) (s : Store) : Prop :=
  ∃ t bytes, s.generalPartSheet = some t ∧ t.get p.asStr = some bytes ∧
    encodePartSheetForCache V c.context c.general = .returned bytes

theorem cached_of_commit {c : SaveCall V} {faults : Faults}
    (h : CommitsSave F p a (.save c faults)) : Cached p c (a.save F c faults).store := by
  obtain ⟨rfl, hok⟩ := h
  rcases c.run_cases F faults a.store with ⟨-, hne, -⟩ | ⟨encoded, henc, hrun, -⟩
  · exact absurd hok hne
  · have hstore : (a.save F c faults).store = a.store.afterSave c.partId encoded := by
      simp [Archive.save, hrun]
    rw [hstore]
    exact ⟨_, encoded.cachedGeneral, rfl, Table.get_insert_self ..,
      (encodePartSheets_returned henc).1⟩

/-- Saves of other parts keep the entry. -/
theorem Cached.afterSave {c : SaveCall V} {s : Store} (h : Cached p c s)
    {p' : AsciiDigitsOrUpper 23} (hp : p' ≠ p) (encoded : EncodedPartSheets) :
    Cached p c (s.afterSave p' encoded) := by
  obtain ⟨t, bytes, ht, hget, henc⟩ := h
  refine ⟨_, bytes, rfl, ?_, henc⟩
  have hne : p.asStr ≠ p'.asStr := fun heq => hp (AsciiDigitsOrUpper.asStr_injective heq).symm
  rw [Table.get_insert_of_ne hne, Store.sheets, ht]
  exact hget

/-- The step of a drain leaves the cache alone. -/
theorem performDrain_generalPartSheet (e : DrainEffect) (i : DrainInput) (d : Delivery) :
    (performDrain e i d).2.store.generalPartSheet = d.store.generalPartSheet := by
  cases e with
  | getQueueBatch q => simp only [performDrain]; split <;> rfl
  | insert q query compression body =>
    simp only [performDrain]
    split
    · rfl
    · split <;> rfl
  | removeEntries q keys =>
    simp only [performDrain]
    split
    · rfl
    · next faults _ =>
      rcases removeEntries_cases q keys faults d.store with ⟨e, he⟩ | hok
      · simp [he]
      · simp [hok, Store.afterRemove]

theorem Cached.step {c : SaveCall V} {l : Archive.Label V} (hs : Archive.Step db F a l a')
    (hl : ¬ CommitsSave F p a l) (h : Cached p c a.store) : Cached p c a'.store := by
  cases hs with
  | save c' faults =>
    rcases c'.run_cases F faults a.store with ⟨hstore, -, -⟩ | ⟨encoded, -, hrun, -⟩
    · rw [show (a.save F c' faults).store = a.store by simp [Archive.save, hstore]]
      exact h
    · have hp : c'.partId ≠ p := fun hp => hl ⟨hp, by rw [hrun]⟩
      rw [show (a.save F c' faults).store = a.store.afterSave c'.partId encoded by
        simp [Archive.save, hrun]]
      exact h.afterSave hp encoded
  | nextSerial date faults =>
    rcases nextSerial_cases date faults a.store with ⟨e, he⟩ | hok
    · simpa [Archive.nextSerial, he] using h
    · rw [show (a.nextSerial date faults).store = a.store.afterNextSerial date by
        simp [Archive.nextSerial, hok]]
      exact h
  | tick hf => exact h
  | drain q i e k hcall =>
    obtain ⟨t, bytes, ht, hrest⟩ := h
    exact ⟨t, bytes, (performDrain_generalPartSheet e i a.toDelivery).trans ht, hrest⟩
  | crash applied => exact h

theorem LastSave.cached {c : SaveCall V} (h : LastSave db F p c a) : Cached p c a.store := by
  obtain ⟨a₁, faults, ls₁, ls₂, -, hsave, hr⟩ := h
  exact hr.invariant (I := fun a => Cached p c a.store)
    (fun _ _ _ hc hs => hc.step hs.1 hs.2) (cached_of_commit hsave)

/-- The sheet is looked up as it was saved, under the context of any session. -/
theorem Cached.lookup {c : SaveCall V} {s : Store} (h : Cached p c s) (ctx : V.Context)
    (faults : Faults) :
    ((∃ e, getGeneralPartSheet V p.asStr ctx faults s = .error (.redb e)) ∧ faults ≠ noFaults) ∨
      getGeneralPartSheet V p.asStr ctx faults s = .ok (some (pairs c.general)) := by
  obtain ⟨t, bytes, ht, hget, henc⟩ := h
  rcases getGeneralPartSheet_cases V p.asStr ctx faults s with ⟨e, he⟩ | hok
  · refine .inl ⟨⟨e, he⟩, ?_⟩
    rintro rfl
    exact getGeneralPartSheet_noFaults ht e he
  · right
    have hdecode : decodeCachedPartSheet V ctx bytes = .ok (pairs c.general) := by
      simpa using decode_encodePartSheetForCache henc ctx []
    rw [hok, Store.sheets, ht]
    simp [hget, hdecode]

/-! ### Reading after saving -/

/-- The values of the sheet that a machine is to receive. -/
def expectedValues (h : TraceabilityHandler TraceabilityContext)
    (sheet : List (UInt32 × Variant)) : List WriteValue :=
  (sheet.filter fun x => x.1 ∉ h.commonOpcuaConfig.excludedReadNids).map
    fun x => ⟨.new h.state.generalPartSheet.nsIndex x.1, x.2⟩

theorem eval_checkWritten {W : World handlerSignature Site} (values : List WriteValue)
    (r : Except SessionError (List StatusCode)) (env : (e : HandlerEffect) → W.Input e) (s : Site) :
    (((checkWritten values r).mapErr HandleReadError.writePartSheet).eval W env s).2 = s := by
  unfold checkWritten
  split
  · rfl
  · split
    · rfl
    · split <;> rfl

/-- What the request does with the sheet looked up is one write. -/
theorem eval_afterLookup {queuesThreshold : ℕ} (h : TraceabilityHandler TraceabilityContext)
    (sheet : List (UInt32 × Variant)) (env : (e : HandlerEffect) → HandlerInput V e) (s : Site) :
    ((afterLookup h p (.ok (.ok (some sheet)))).eval (handlerWorld V F queuesThreshold) env s).2 =
      { s with written := s.written ++ [expectedValues h sheet] } := by
  simp only [afterLookup, writeChecked_eq, Prog.mapErr_call]
  rw [Prog.eval_call, eval_checkWritten, sheetWriteValues_eq]
  rfl

/-- A read request for a part that has been saved writes the general part sheet of its
last committed save, once; only a failing lookup prevents it. -/
theorem read_after_save {c : SaveCall V} (hc : LastSave db F p c a) {queuesThreshold : ℕ}
    (h : TraceabilityHandler TraceabilityContext) (env : (e : HandlerEffect) → HandlerInput V e)
    {s : Site} (hs : s.store = a.store) {value : DataValue}
    (hread : env (.read [.new h.state.generalPartSheet.nsIndex h.commonOpcuaConfig.partIdNid]) =
      .ok [value])
    (hvalue : value.tryUaValueAs (AsciiDigitsOrUpper 23) = .ok p) :
    ((handleRead h).eval (handlerWorld V F queuesThreshold) env s).2 =
        { s with written := s.written ++ [expectedValues h (pairs c.general)] } ∨
      (∀ ctx, env (.getGeneralPartSheet p.asStr) ≠ .ok (noFaults, ctx)) ∧
        ∃ e, (handleRead h).eval (handlerWorld V F queuesThreshold) env s = (.failed e, s) := by
  obtain ⟨store, written⟩ := s
  obtain rfl : store = a.store := hs
  rw [handleRead_eq, Prog.eval_call]
  change ((afterPartIdRead h (env (.read _))).eval (handlerWorld V F queuesThreshold) env _).2 = _ ∨
    _ ∧ ∃ e, (afterPartIdRead h (env (.read _))).eval (handlerWorld V F queuesThreshold) env _ = _
  rw [hread, afterPartIdRead, readPartSheetOf_ok h hvalue, Prog.eval_call]
  cases htask : env (.getGeneralPartSheet p.asStr) with
  | error e =>
    refine .inr ⟨by simp, .cacheGetTask e, ?_⟩
    simp [performHandler, afterLookup]
  | ok input =>
    obtain ⟨faults, ctx⟩ := input
    rcases hc.cached.lookup ctx faults with ⟨⟨e, he⟩, hfaults⟩ | hok
    · refine .inr ⟨by simp [hfaults], .cacheGet (.redb e), ?_⟩
      simp [performHandler, he, afterLookup]
    · left
      simp only [handlerWorld, performHandler, hok]
      exact eval_afterLookup h _ env _

/-- A machine whose context excludes the node 8 from read requests. -/
def readingHandler : TraceabilityHandler TraceabilityContext where
  serverId := "MAC2".toList
  commonOpcuaConfig := ⟨"urn:common".toList, 1, 2, 3, 4, 5, 6, 7, [8]⟩
  machineConfig := ⟨10 ^ 9, none, ⟨"urn:machine".toList, 8⟩⟩
  state :=
    { protocol := ⟨.new 3 1, .new 3 2, .new 3 3⟩
      generalPartSheet := ⟨3, [(5, "PartId".toList)], 0⟩
      operationPartSheet := ⟨2, []⟩ }

/-- A server that holds the part identifier of the sample save. -/
def readingInput : (e : HandlerEffect) → HandlerInput plainCodec e
  | .getNamespaceIndex _ => .ok 3
  | .browse _ => []
  | .read nodes => .ok (nodes.map fun _ => ⟨some (.string (some sampleSave.partId.asStr)), none⟩)
  | .write values => .ok (values.map fun _ => .good)
  | .nowZoned => Creations.sampleDate
  | .nextSerial _ => .ok noFaults
  | .getGeneralPartSheet _ => .ok (noFaults, ())
  | .checkEnqueuingAllowed => noFaults
  | .savePartSheets .. => .ok (noFaults, (), 0)

/-- Two nodes saved, one of them excluded, then a drain of the queue. -/
def twoNodesSave : SaveCall plainCodec :=
  { sampleSave with general := [⟨7, "Scrap".toList, .boolean true⟩, ⟨8, "Hot".toList, .boolean false⟩] }

theorem twoNodesSave_lastSave : ∃ a, LastSave sampleDatabase epochFormat sampleSave.partId
    twoNodesSave a :=
  ⟨_, _, noFaults, [.save sampleSave noFaults], [.tick, .drain .general faultless],
    .cons (Archive.step_of_next rfl) (.nil _), ⟨rfl, rfl⟩,
    .cons ⟨Archive.step_of_next rfl, id⟩ <| .cons ⟨Archive.step_of_next rfl, id⟩ <| .nil _⟩

theorem read_after_save_excluded : ∃ a : Archive,
    ((handleRead readingHandler).eval (handlerWorld plainCodec epochFormat 10) readingInput
      ⟨a.store, []⟩).2 = ⟨a.store, [[⟨.new 3 7, .boolean true⟩]]⟩ := by
  obtain ⟨a, ha⟩ := twoNodesSave_lastSave
  exact ⟨a, (read_after_save ha readingHandler readingInput rfl rfl rfl).resolve_right
    fun ⟨hne, _⟩ => absurd rfl (hne ())⟩

end LineGateway.Traceability
