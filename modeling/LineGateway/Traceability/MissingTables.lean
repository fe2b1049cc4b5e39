import LineGateway.Traceability.Handler.Install
import LineGateway.Traceability.ReadRequest

/-! Tables that are not created yet. A store goes the same way with its missing tables as
with empty ones, and gives the same results, but for the lookup of a part sheet: before the
first committed save its table is missing, and then the lookup fails. -/

namespace LineGateway.Traceability

open Foundation Config Opcua Calendar

/-- The store with an empty table for each that is missing. -/
def Store.filled (s : Store) : Store :=
  ⟨some s.serials, some s.sheets, some s.seqs, fun q => some (s.rows q)⟩

/-! ### Transactions on filled stores -/

/-- The entries of a table are found in the filled store. -/
structure TableDefinition.Fills {κ ν : Type} [LinearOrder κ] (d : TableDefinition κ ν) : Prop where
  get : ∀ s, d.get s.filled = some ((d.get s).getD .empty)
  set : ∀ t s, d.set t s.filled = (d.set t s).filled

theorem serialTable_fills : serialTable.Fills := ⟨fun _ => rfl, fun _ _ => rfl⟩

theorem generalPartSheetCache_fills : generalPartSheetCache.Fills := ⟨fun _ => rfl, fun _ _ => rfl⟩

theorem queueSeq_fills : queueSeq.Fills := ⟨fun _ => rfl, fun _ _ => rfl⟩

theorem QueueTable.fills (q : QueueTable) : q.tableDefinition.Fills where
  get _ := rfl
  set t s := by
    refine Store.ext rfl rfl rfl ?_
    funext q'
    by_cases hq : q' = q
    · subst hq
      simp [tableDefinition, Store.filled, Store.rows]
    · simp [tableDefinition, Store.filled, Store.rows, hq]

section Commutes

variable {faults : Faults} {κ ν : Type} [LinearOrder κ] {d : TableDefinition κ ν}

theorem commutes_redbCall (c : RedbCall) : Txn.Commutes Store.filled faults (redbCall c) :=
  Txn.commutes_check _

theorem TableDefinition.Fills.commutes_openTable (h : d.Fills) :
    Txn.Commutes Store.filled faults (openTable d) := by
  refine (commutes_redbCall _).bind fun _ => Txn.commutes_read_bind fun s => ?_
  rw [h.get, Option.getD_some]
  exact congrArg (fun s => Except.ok ((), s)) (h.set _ s)

theorem TableDefinition.Fills.commutes_tableGet (h : d.Fills) (rank : ℕ) (k : κ) :
    Txn.Commutes Store.filled faults (tableGet d rank k) := by
  refine (commutes_redbCall _).bind fun _ => Txn.commutes_read_bind fun s => ?_
  rw [h.get, Option.getD_some]
  rfl

theorem TableDefinition.Fills.commutes_tableInsert (h : d.Fills) (rank : ℕ) (k : κ) (v : ν) :
    Txn.Commutes Store.filled faults (tableInsert d rank k v) := by
  refine (commutes_redbCall _).bind fun _ => Txn.commutes_read_bind fun s => ?_
  rw [h.get, Option.getD_some]
  exact congrArg (fun s => Except.ok ((), s)) (h.set _ s)

theorem TableDefinition.Fills.commutes_tableRemove (h : d.Fills) (rank : ℕ) (k : κ) :
    Txn.Commutes Store.filled faults (tableRemove d rank k) := by
  refine (commutes_redbCall _).bind fun _ => Txn.commutes_read_bind fun s => ?_
  rw [h.get, Option.getD_some]
  exact congrArg (fun s => Except.ok ((), s)) (h.set _ s)

theorem commutes_writeTxn {α : Type} {body : RedbTxn α}
    (h : Txn.Commutes Store.filled faults body) :
    Txn.Commutes Store.filled faults (writeTxn body) :=
  (commutes_redbCall _).bind fun _ => h.bind fun _ => (commutes_redbCall _).bind fun _ =>
    Txn.commutes_pure _

theorem commutes_nextSerialTxn (date : Date) :
    Txn.Commutes Store.filled faults (nextSerialTxn date) :=
  commutes_writeTxn <| serialTable_fills.commutes_openTable.bind fun _ =>
    (serialTable_fills.commutes_tableGet _ _).bind fun _ =>
      (serialTable_fills.commutes_tableInsert _ _ _).bind fun _ => Txn.commutes_pure _

theorem commutes_savePartSheetsTxn (partId : AsciiDigitsOrUpper 23) (encoded : EncodedPartSheets) :
    Txn.Commutes Store.filled faults (savePartSheetsTxn partId encoded) := by
  apply commutes_writeTxn
  refine queueSeq_fills.commutes_openTable.bind fun _ => ?_
  refine (queueSeq_fills.commutes_tableGet _ _).bind fun _ => ?_
  refine (queueSeq_fills.commutes_tableInsert _ _ _).bind fun _ => ?_
  refine generalPartSheetCache_fills.commutes_openTable.bind fun _ => ?_
  refine (generalPartSheetCache_fills.commutes_tableInsert _ _ _).bind fun _ => ?_
  refine (QueueTable.fills _).commutes_openTable.bind fun _ => ?_
  refine ((QueueTable.fills _).commutes_tableInsert _ _ _).bind fun _ => ?_
  refine (QueueTable.fills _).commutes_openTable.bind fun _ => ?_
  exact (QueueTable.fills _).commutes_tableInsert _ _ _

theorem commutes_removeKeys (q : QueueTable) (rank : ℕ) (keys : List ℕ) :
    Txn.Commutes Store.filled faults (removeKeys q rank keys) := by
  induction keys generalizing rank with
  | nil => exact Txn.commutes_pure _
  | cons k keys ih => exact (q.fills.commutes_tableRemove _ _).bind fun _ => ih _

theorem commutes_removeEntriesTxn (q : QueueTable) (keys : List ℕ) :
    Txn.Commutes Store.filled faults (removeEntriesTxn q keys) :=
  commutes_writeTxn <| q.fills.commutes_openTable.bind fun _ => commutes_removeKeys _ _ _

/-- The faults of the calls that are made whether or not a table exists. -/
def Faults.onOpening (faults : Faults) : Faults
  | .access _ _ => none
  | c => faults c

theorem commutes_queueLen (q : QueueTable) :
    Txn.Commutes Store.filled faults.onOpening (queueLen q) := by
  refine (commutes_redbCall _).bind fun _ => Txn.commutes_read_bind fun s => ?_
  cases hq : s.queue q with
  | none =>
    simp only [Store.filled, Store.rows, hq]
    rfl
  | some table =>
    simp only [Store.filled, Store.rows, hq]
    rfl

theorem commutes_totalEnqueued (qs : List QueueTable) :
    Txn.Commutes Store.filled faults.onOpening (totalEnqueued qs) := by
  induction qs with
  | nil => exact Txn.commutes_pure _
  | cons q qs ih =>
    exact (commutes_queueLen q).bind fun _ => ih.bind fun _ => Txn.commutes_pure _

theorem commutes_queueBatchTxn (q : QueueTable) :
    Txn.Commutes Store.filled faults.onOpening (queueBatchTxn q) := by
  refine (commutes_redbCall _).bind fun _ => (commutes_redbCall _).bind fun _ =>
    Txn.commutes_read_bind fun s => ?_
  have batch : ∀ (table : Table ℕ Text) (s : Store),
      (do
        redbCall (.access (.queue q) 0)
        let entries ← readEntries q 0 table.entries
        pure (entries.1, Text.framed entries.2) : RedbTxn (List ℕ × Text)) faults.onOpening s =
      .ok ((table.keys, Text.framed table.values), s) := by
    intro table s
    change Txn.bind (readEntries q 0 table.entries) _ faults.onOpening s = _
    have hentries : readEntries q 0 table.entries faults.onOpening s =
        .ok ((table.keys, table.values), s) :=
      readEntries_of_accesses (fun _ => rfl) s table.entries 0
    simp only [Txn.bind, hentries]
    rfl
  cases hq : s.queue q with
  | none =>
    simp only [Store.filled, Store.rows, hq]
    exact batch .empty _
  | some table =>
    simp only [Store.filled, Store.rows, hq]
    refine (batch table _).trans ?_
    rw [batch table s]
    rfl

end Commutes

/-! ### Lookups -/

theorem redbCall_onOpening {c : RedbCall} (hc : ∀ t rank, c ≠ .access t rank) (faults : Faults)
    (s : Store) : redbCall c faults.onOpening s =
      match faults c with
      | some f => .error (.fault c f)
      | none => .ok ((), s) := by
  have hmask : faults.onOpening c = faults c := by
    cases c with
    | access t rank => exact absurd rfl (hc t rank)
    | _ => rfl
  rw [redbCall, Txn.check, hmask]
  cases faults c <;> rfl

/-- What a lookup finds, by the calls that may fail before it. -/
theorem cachedValueTxn_readOnly (partId : Text) (faults : Faults) (s : Store) :
    (cachedValueTxn partId).readOnly faults.onOpening s =
      match faults .beginRead, faults (.openTable .generalPartSheet), s.generalPartSheet with
      | some f, _, _ => .error (.fault .beginRead f)
      | none, some f, _ => .error (.fault (.openTable .generalPartSheet) f)
      | none, none, none => .error (.tableDoesNotExist .generalPartSheet)
      | none, none, some table => .ok (table.get partId) := by
  have hbind : ∀ {α β : Type} (t : RedbTxn α) (k : α → RedbTxn β) (s : Store),
      (t >>= k) faults.onOpening s = match t faults.onOpening s with
        | .error e => .error e
        | .ok (a, s') => k a faults.onOpening s' := by
    intro α β t k s
    change Txn.bind t k faults.onOpening s = _
    unfold Txn.bind
    cases t faults.onOpening s <;> rfl
  simp only [Txn.readOnly, Txn.atomically, cachedValueTxn, openReadTable, hbind, Txn.read,
    redbCall_onOpening (c := .beginRead) (by simp), generalPartSheetCache,
    redbCall_onOpening (c := .openTable .generalPartSheet) (by simp)]
  cases faults .beginRead with
  | some f => rfl
  | none =>
    cases faults (.openTable .generalPartSheet) with
    | some f => rfl
    | none =>
      simp only
      cases hs : s.generalPartSheet with
      | none => rfl
      | some table => rfl

/-! ### Operations -/

/-- The operations of the cache with their arguments. -/
inductive Operation (V : VariantCodec)
  | nextSerial (date : Date)
  | savePartSheets (c : SaveCall V)
  | getGeneralPartSheet (partId : Text) (ctx : V.Context)
  | checkEnqueuingAllowed
  | getQueueBatch (q : QueueTable)
  | removeEntries (q : QueueTable) (keys : List ℕ)

inductive OperationResult
  | serial (r : Except RedbError ℕ)
  | saved (r : Outcome SavePartSheetsError Unit)
  | sheet (r : Except GetGeneralPartSheetError (Option (List (UInt32 × Variant))))
  | allowed (r : Except CheckEnqueuingError Unit)
  | batch (r : Except RedbError (List ℕ × Text))
  | removed (r : Except RedbError Unit)

section Operations

variable {V : VariantCodec} (F : RowFormat) (queuesThreshold : ℕ)

/-- An operation under faults. Reading makes accesses to tables that exist only, so that its
faults are those of the calls before. -/
def performOperation : Operation V → Faults → Store → OperationResult × Store
  | .nextSerial date, faults, s =>
    (.serial (nextSerial date faults s).1, (nextSerial date faults s).2)
  | .savePartSheets c, faults, s => (.saved (c.run F faults s).1, (c.run F faults s).2)
  | .getGeneralPartSheet partId ctx, faults, s =>
    (.sheet (getGeneralPartSheet V partId ctx faults.onOpening s), s)
  | .checkEnqueuingAllowed, faults, s =>
    (.allowed (checkEnqueuingAllowed queuesThreshold faults.onOpening s), s)
  | .getQueueBatch q, faults, s => (.batch (getQueueBatch q faults.onOpening s), s)
  | .removeEntries q keys, faults, s =>
    (.removed (removeEntries q keys faults s).1, (removeEntries q keys faults s).2)

/-- The store after a sequence of operations. -/
def storeAfter : Store → List (Operation V × Faults) → Store
  | s, [] => s
  | s, (o, faults) :: rest => storeAfter (performOperation F queuesThreshold o faults s).2 rest

/-- A save with the property is committed by the operations. -/
def Saves (P : SaveCall V → Prop) : Store → List (Operation V × Faults) → Prop
  | _, [] => False
  | s, (o, faults) :: rest =>
    (∃ c, o = .savePartSheets c ∧ P c ∧ (c.run F faults s).1 = .returned ()) ∨
      Saves P (performOperation F queuesThreshold o faults s).2 rest

variable {F queuesThreshold}

/-- A lookup on an existing table and any other operation go the same way on the filled store. -/
theorem perform_filled (o : Operation V) (faults : Faults) (s : Store)
    (h : ∀ partId ctx, o = .getGeneralPartSheet partId ctx → s.generalPartSheet ≠ none) :
    performOperation F queuesThreshold o faults s.filled =
      ((performOperation F queuesThreshold o faults s).1,
        (performOperation F queuesThreshold o faults s).2.filled) := by
  cases o with
  | nextSerial date =>
    simp only [performOperation, nextSerial, (commutes_nextSerialTxn date).atomically s]
  | savePartSheets c =>
    simp only [performOperation, SaveCall.run, savePartSheets]
    cases encodePartSheets V F c.now c.machineId c.partId c.general c.operation c.context with
    | panicked m => rfl
    | failed e => rfl
    | returned encoded =>
      simp only [(commutes_savePartSheetsTxn c.partId encoded).atomically s]
      rcases (savePartSheetsTxn c.partId encoded).atomically faults s with ⟨_ | _, s'⟩ <;> rfl
  | getGeneralPartSheet partId ctx =>
    obtain ⟨table, htable⟩ := Option.ne_none_iff_exists'.mp (h partId ctx rfl)
    have hfilled : s.filled.generalPartSheet = some table := by
      simp [Store.filled, Store.sheets, htable]
    simp only [performOperation, getGeneralPartSheet, cachedValueTxn_readOnly, hfilled, htable]
  | checkEnqueuingAllowed =>
    have hread : totalEnqueuedTxn.readOnly faults.onOpening s.filled =
        totalEnqueuedTxn.readOnly faults.onOpening s :=
      ((commutes_redbCall _).bind fun _ => commutes_totalEnqueued _).readOnly s
    simp only [performOperation, checkEnqueuingAllowed, hread]
  | getQueueBatch q =>
    simp only [performOperation, getQueueBatch, (commutes_queueBatchTxn q).readOnly s]
  | removeEntries q keys =>
    simp only [performOperation, removeEntries, (commutes_removeEntriesTxn q keys).atomically s]

theorem perform_store (o : Operation V) (faults : Faults) (s : Store) :
    (performOperation F queuesThreshold o faults s.filled).2 =
      (performOperation F queuesThreshold o faults s).2.filled := by
  cases o with
  | getGeneralPartSheet partId ctx => rfl
  | _ => rw [perform_filled _ faults s (by simp)]

theorem storeAfter_filled (s : Store) (ops : List (Operation V × Faults)) :
    storeAfter F queuesThreshold s.filled ops = (storeAfter F queuesThreshold s ops).filled := by
  induction ops generalizing s with
  | nil => rfl
  | cons x rest ih =>
    simp only [storeAfter]
    rw [perform_store, ih]

/-! ### Committed saves -/

variable (F queuesThreshold) in
/-- An operation is a save that has been committed, or keeps the cached part sheets. -/
theorem perform_sheets_cases (o : Operation V) (faults : Faults) (s : Store) :
    (∃ c encoded, o = .savePartSheets c ∧ (c.run F faults s).1 = .returned () ∧
      (performOperation F queuesThreshold o faults s).2 = s.afterSave c.partId encoded) ∨
    (∀ c, o = .savePartSheets c → (c.run F faults s).1 ≠ .returned ()) ∧
      (performOperation F queuesThreshold o faults s).2.generalPartSheet = s.generalPartSheet := by
  cases o with
  | savePartSheets c =>
    rcases c.run_cases F faults s with ⟨hstore, hne, -⟩ | ⟨encoded, -, hrun, -⟩
    · refine .inr ⟨fun c' hc => ?_, by rw [performOperation, hstore]⟩
      cases hc
      exact hne
    · exact .inl ⟨c, encoded, rfl, by rw [hrun], by rw [performOperation, hrun]⟩
  | nextSerial date =>
    refine .inr ⟨by simp, ?_⟩
    rcases nextSerial_cases date faults s with ⟨e, he⟩ | hok
    · rw [performOperation, he]
    · rw [performOperation, hok]
      rfl
  | removeEntries q keys =>
    refine .inr ⟨by simp, ?_⟩
    rcases removeEntries_cases q keys faults s with ⟨e, he⟩ | hok
    · rw [performOperation, he]
    · rw [performOperation, hok]
      rfl
  | _ => exact .inr ⟨by simp, rfl⟩

/-- The table of part sheets exists once a save has been committed. -/
theorem storeAfter_generalPartSheet_iff (s : Store) (ops : List (Operation V × Faults)) :
    (storeAfter F queuesThreshold s ops).generalPartSheet ≠ none ↔
      s.generalPartSheet ≠ none ∨ Saves F queuesThreshold (fun _ => True) s ops := by
  induction ops generalizing s with
  | nil => simp [storeAfter, Saves]
  | cons x rest ih =>
    obtain ⟨o, faults⟩ := x
    rw [storeAfter, ih, Saves]
    rcases perform_sheets_cases F queuesThreshold o faults s with
      ⟨c, encoded, rfl, hok, hs⟩ | ⟨hne, hs⟩
    · have hleft : (s.afterSave c.partId encoded).generalPartSheet ≠ none := by
        simp [Store.afterSave]
      rw [hs]
      exact iff_of_true (.inl hleft) (.inr (.inl ⟨c, rfl, trivial, hok⟩))
    · rw [hs]
      refine or_congr_right ⟨.inr, fun h => h.resolve_left ?_⟩
      rintro ⟨c, hc, -, hok⟩
      exact hne c hc hok

/-- A part that has no sheet and is not saved has no sheet. -/
theorem storeAfter_sheets_get {p : AsciiDigitsOrUpper 23} {s : Store}
    {ops : List (Operation V × Faults)} (h : s.sheets.get p.asStr = none)
    (hnot : ¬ Saves F queuesThreshold (fun c => c.partId = p) s ops) :
    (storeAfter F queuesThreshold s ops).sheets.get p.asStr = none := by
  induction ops generalizing s with
  | nil => exact h
  | cons x rest ih =>
    obtain ⟨o, faults⟩ := x
    rw [Saves, not_or] at hnot
    refine ih ?_ hnot.2
    rcases perform_sheets_cases F queuesThreshold o faults s with
      ⟨c, encoded, rfl, hok, hs⟩ | ⟨-, hs⟩
    · have hp : p.asStr ≠ c.partId.asStr := fun heq =>
        hnot.1 ⟨c, rfl, (AsciiDigitsOrUpper.asStr_injective heq).symm, hok⟩
      rw [hs, Store.afterSave_sheets, Table.get_insert_of_ne hp]
      exact h
    · rw [Store.sheets, hs]
      exact h

/-! ### Read requests -/

/-- The machine asks for the part sheet of a part, and the lookup is made without faults. -/
structure AsksFor (h : TraceabilityHandler TraceabilityContext)
    (env : (e : HandlerEffect) → HandlerInput V e) (value : DataValue)
    (p : AsciiDigitsOrUpper 23) : Prop where
  code : value.tryUaValueAs UInt8 = .ok 2
  partId : ∃ v, env (.read [.new h.state.generalPartSheet.nsIndex h.commonOpcuaConfig.partIdNid]) =
    .ok [v] ∧ v.tryUaValueAs (AsciiDigitsOrUpper 23) = .ok p
  lookup : ∃ ctx, env (.getGeneralPartSheet p.asStr) = .ok (noFaults, ctx)

variable {D : DecimalClass} {h : TraceabilityHandler TraceabilityContext}
  {env : (e : HandlerEffect) → HandlerInput V e} {value : DataValue} {p : AsciiDigitsOrUpper 23}

/-- The code that answers a request made on the store. -/
def answerOn (D : DecimalClass) (F : RowFormat) (queuesThreshold : ℕ)
    (h : TraceabilityHandler TraceabilityContext) (env : (e : HandlerEffect) → HandlerInput V e)
    (value : DataValue) (s : Site) : Option UInt8 :=
  responseCode ((handleRequest D h value).eval (handlerWorld V F queuesThreshold) env s).1

variable (F queuesThreshold D) in
theorem AsksFor.answerOn (ha : AsksFor h env value p) (s : Site) :
    ∃ ctx, answerOn D F queuesThreshold h env value s = responseCode
      (((afterLookup h p (.ok (getGeneralPartSheet V p.asStr ctx noFaults s.store))).mapErr
        HandleRequestError.handleRead >>= fun _ => pure responseSuccess).eval
          (handlerWorld V F queuesThreshold) env s).1 := by
  obtain ⟨v, hread, hv⟩ := ha.partId
  obtain ⟨ctx, hctx⟩ := ha.lookup
  refine ⟨ctx, ?_⟩
  have hreq : TraceabilityRequest.fromRepr 2 = some .readPartSheet := rfl
  simp only [Traceability.answerOn, handleRequest, ha.code, Prog.attempt_ok, Prog.ret_bind, hreq,
    handleKnown, handleRead_eq, Prog.mapErr_call, Prog.call_bind, Prog.eval_call, performHandler,
    hread, afterPartIdRead, readPartSheetOf_ok h hv, hctx]

/-- Without a sheet of the part in an existing table, the answer is that it is missing. -/
theorem AsksFor.answerOn_missing (ha : AsksFor h env value p) {s : Site} {t : Table Text Bytes}
    (ht : s.store.generalPartSheet = some t) (hp : t.get p.asStr = none) :
    Traceability.answerOn D F queuesThreshold h env value s = some 24 := by
  obtain ⟨ctx, hanswer⟩ := ha.answerOn F queuesThreshold D s
  have hlookup : getGeneralPartSheet V p.asStr ctx noFaults s.store = .ok none := by
    rcases getGeneralPartSheet_cases V p.asStr ctx noFaults s.store with ⟨e, he⟩ | hok
    · exact absurd he (getGeneralPartSheet_noFaults ht e)
    · have hsheets : s.store.sheets = t := by rw [Store.sheets, ht, Option.getD_some]
      rw [hok, hsheets, hp]
  rw [hanswer, hlookup]
  rfl

/-- Without the table, the answer is that the lookup failed. -/
theorem AsksFor.answerOn_noTable (ha : AsksFor h env value p) {s : Site}
    (hs : s.store.generalPartSheet = none) :
    Traceability.answerOn D F queuesThreshold h env value s = some 23 := by
  obtain ⟨ctx, hanswer⟩ := ha.answerOn F queuesThreshold D s
  have hlookup : getGeneralPartSheet V p.asStr ctx noFaults s.store =
      .error (.redb (.tableDoesNotExist .generalPartSheet)) := by
    have hnoFaults : noFaults = Faults.onOpening noFaults := by
      funext c
      cases c <;> rfl
    rw [getGeneralPartSheet, hnoFaults, cachedValueTxn_readOnly, hs]
    rfl
  rw [hanswer, hlookup]
  rfl

/-! ### The main result -/

section Results

variable (F queuesThreshold)

/-- The operation is a lookup that comes to its table before a save has been committed. -/
def LooksUpMissing (before : List (Operation V × Faults)) (o : Operation V) (faults : Faults) :
    Prop :=
  (∃ partId ctx, o = .getGeneralPartSheet partId ctx) ∧
    (faults .beginRead = none ∧ faults (.openTable .generalPartSheet) = none) ∧
      ¬ Saves F queuesThreshold (fun _ => True) .fresh before

/-- The result of an operation after others, from a fresh file and from empty tables. -/
structure Compares (before : List (Operation V × Faults)) (o : Operation V) (faults : Faults) :
    Prop where
  same : ¬ LooksUpMissing F queuesThreshold before o faults →
    (performOperation F queuesThreshold o faults (storeAfter F queuesThreshold .fresh before)).1 =
      (performOperation F queuesThreshold o faults
        (storeAfter F queuesThreshold Store.fresh.filled before)).1
  missing : LooksUpMissing F queuesThreshold before o faults →
    (performOperation F queuesThreshold o faults (storeAfter F queuesThreshold .fresh before)).1 =
        .sheet (.error (.redb (.tableDoesNotExist .generalPartSheet))) ∧
      (performOperation F queuesThreshold o faults
        (storeAfter F queuesThreshold Store.fresh.filled before)).1 = .sheet (.ok none)

/-- The answer after the operations to a read request for a part that has no sheet. -/
structure AnswersMissing (D : DecimalClass) (h : TraceabilityHandler TraceabilityContext)
    (env : (e : HandlerEffect) → HandlerInput V e) (value : DataValue)
    (before : List (Operation V × Faults)) (written : List (List WriteValue)) : Prop where
  empty : answerOn D F queuesThreshold h env value
    ⟨storeAfter F queuesThreshold Store.fresh.filled before, written⟩ = some 24
  later : Saves F queuesThreshold (fun _ => True) .fresh before →
    answerOn D F queuesThreshold h env value ⟨storeAfter F queuesThreshold .fresh before, written⟩ =
      some 24
  first : ¬ Saves F queuesThreshold (fun _ => True) .fresh before →
    answerOn D F queuesThreshold h env value ⟨storeAfter F queuesThreshold .fresh before, written⟩ =
      some 23

end Results

variable (F queuesThreshold) in
theorem perform_lookup_noTable {s : Store} (hs : s.generalPartSheet = none) (partId : Text)
    (ctx : V.Context) (faults : Faults) :
    if faults .beginRead = none ∧ faults (.openTable .generalPartSheet) = none then
      (performOperation F queuesThreshold (.getGeneralPartSheet partId ctx) faults s).1 =
          .sheet (.error (.redb (.tableDoesNotExist .generalPartSheet))) ∧
        (performOperation F queuesThreshold (.getGeneralPartSheet partId ctx) faults s.filled).1 =
          .sheet (.ok none)
    else (performOperation F queuesThreshold (.getGeneralPartSheet partId ctx) faults s).1 =
      (performOperation F queuesThreshold (.getGeneralPartSheet partId ctx) faults s.filled).1 := by
  have hfilled : s.filled.generalPartSheet = some .empty := by
    simp [Store.filled, Store.sheets, hs]
  simp only [performOperation, getGeneralPartSheet, cachedValueTxn_readOnly, hs, hfilled]
  cases faults .beginRead with
  | some f => simp
  | none => cases faults (.openTable .generalPartSheet) <;> simp [Table.get]

/-- A fresh file has the table of part sheets from the first committed save on. -/
theorem storeAfter_fresh_iff (before : List (Operation V × Faults)) :
    (storeAfter F queuesThreshold .fresh before).generalPartSheet ≠ none ↔
      Saves F queuesThreshold (fun _ => True) .fresh before :=
  (storeAfter_generalPartSheet_iff .fresh before).trans (or_iff_right (not_not.mpr rfl))

theorem compares (before : List (Operation V × Faults)) (o : Operation V) (faults : Faults) :
    Compares F queuesThreshold before o faults := by
  by_cases hlookup : ∃ partId ctx, o = .getGeneralPartSheet partId ctx
  · obtain ⟨partId, ctx, rfl⟩ := hlookup
    by_cases hsaved : Saves F queuesThreshold (fun _ => True) .fresh before
    · refine ⟨fun _ => ?_, fun hmiss => absurd hsaved hmiss.2.2⟩
      rw [storeAfter_filled,
        perform_filled _ _ _ fun _ _ _ => (storeAfter_fresh_iff before).mpr hsaved]
    · have hnone : (storeAfter F queuesThreshold .fresh before).generalPartSheet = none :=
        not_not.mp fun h => hsaved ((storeAfter_fresh_iff before).mp h)
      have hperform := perform_lookup_noTable F queuesThreshold hnone
        partId ctx faults
      constructor
      · intro hmiss
        rw [if_neg fun hcalls => hmiss ⟨⟨partId, ctx, rfl⟩, hcalls, hsaved⟩] at hperform
        rw [storeAfter_filled, hperform]
      · intro hmiss
        rw [if_pos hmiss.2.1] at hperform
        rwa [storeAfter_filled]
  · refine ⟨fun _ => ?_, fun hmiss => absurd hmiss.1 hlookup⟩
    rw [storeAfter_filled, perform_filled o faults _ fun partId ctx ho =>
      absurd ⟨partId, ctx, ho⟩ hlookup]

theorem AsksFor.answersMissing (ha : AsksFor h env value p) {before : List (Operation V × Faults)}
    (hnot : ¬ Saves F queuesThreshold (fun c => c.partId = p) .fresh before)
    (written : List (List WriteValue)) :
    AnswersMissing F queuesThreshold D h env value before written := by
  have hp : (storeAfter F queuesThreshold .fresh before).sheets.get p.asStr = none :=
    storeAfter_sheets_get rfl hnot
  constructor
  · rw [storeAfter_filled]
    exact ha.answerOn_missing rfl hp
  · intro hsaved
    obtain ⟨t, ht⟩ := Option.ne_none_iff_exists'.mp ((storeAfter_fresh_iff before).mpr hsaved)
    rw [Store.sheets, ht] at hp
    exact ha.answerOn_missing ht hp
  · intro hsaved
    exact ha.answerOn_noTable (not_not.mp fun h => hsaved ((storeAfter_fresh_iff before).mp h))

/-- From a fresh file the operations give the results they give on empty tables, but for a
lookup that comes to its table before the first committed save, which fails. A read request for
a part never saved is answered 24 after the first committed save and 23 before. -/
theorem missing_tables (F : RowFormat) (queuesThreshold : ℕ) (before : List (Operation V × Faults)) :
    (∀ o faults, Compares F queuesThreshold before o faults) ∧
      ∀ D h (env : (e : HandlerEffect) → HandlerInput V e) value p written, AsksFor h env value p →
        ¬ Saves F queuesThreshold (fun c => c.partId = p) .fresh before →
          AnswersMissing F queuesThreshold D h env value before written :=
  ⟨fun o faults => compares before o faults,
    fun _ _ _ _ _ written ha hnot => ha.answersMissing hnot written⟩

theorem sampleRead_asksFor :
    AsksFor readingHandler readingInput ⟨some (.byte 2), none⟩ sampleSave.partId :=
  ⟨rfl, ⟨_, rfl, rfl⟩, (), rfl⟩

theorem missing_tables_fresh :
    Compares epochFormat 10 [] (.getQueueBatch .general : Operation plainCodec) noFaults ∧
      AnswersMissing epochFormat 10 asciiDecimal readingHandler readingInput
        ⟨some (.byte 2), none⟩ [] [] := by
  obtain ⟨hcompares, hanswers⟩ := missing_tables (V := plainCodec) epochFormat 10 []
  exact ⟨hcompares _ _, hanswers _ _ _ _ _ _ sampleRead_asksFor id⟩

/-- The first lookup ever made fails, and a read request is answered 23. -/
theorem first_lookup_fails :
    (performOperation epochFormat 10 (.getGeneralPartSheet sampleSave.partId.asStr () :
        Operation plainCodec) noFaults .fresh).1 ≠
      (performOperation epochFormat 10 (.getGeneralPartSheet sampleSave.partId.asStr () :
        Operation plainCodec) noFaults Store.fresh.filled).1 ∧
    answerOn asciiDecimal epochFormat 10 readingHandler readingInput ⟨some (.byte 2), none⟩
      ⟨.fresh, []⟩ = some 23 ∧
    answerOn asciiDecimal epochFormat 10 readingHandler readingInput ⟨some (.byte 2), none⟩
      ⟨Store.fresh.filled, []⟩ = some 24 := by
  refine ⟨fun h => ?_, rfl, rfl⟩
  cases h

end Operations

end LineGateway.Traceability
