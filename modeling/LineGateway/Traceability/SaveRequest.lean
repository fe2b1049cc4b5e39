import LineGateway.Traceability.Creations
import LineGateway.Traceability.Handler.SavePartSheets
import LineGateway.Traceability.Sequence

/-! A save request is all or nothing. In a context that initialisation returned, it
never panics; it either commits one save, in which every value belongs to the node at
its position, or leaves the store as it was. A save adds a row to each queue when the
next numbers are free, as they are in every store that saves have made; in another store
it takes the place of the row under its number. -/

namespace LineGateway.Traceability

open Foundation Config Opcua

/-- The items of nodes and their values. -/
def itemsOf (nodes : List (UInt32 × Text)) (values : List Variant) : List SavedPartSheetItem :=
  List.zipWith (fun node value => ⟨node.1, node.2, value⟩) nodes values

section Items

variable {nodes : List (UInt32 × Text)} {values : List Variant}

theorem length_itemsOf (h : values.length = nodes.length) :
    (itemsOf nodes values).length = nodes.length := by simp [itemsOf, h]

/-- Items cut at a number of nodes are the items of the first nodes and of the others. -/
theorem take_itemsOf (others : List (UInt32 × Text)) (values : List Variant) :
    (itemsOf (nodes ++ others) values).take nodes.length =
      itemsOf nodes (values.take nodes.length) := by
  simp [itemsOf, List.take_zipWith]

theorem drop_itemsOf (others : List (UInt32 × Text)) (values : List Variant) :
    (itemsOf (nodes ++ others) values).drop nodes.length =
      itemsOf others (values.drop nodes.length) := by
  simp [itemsOf, List.drop_zipWith]

theorem value_itemsOf {i : ℕ} {item : SavedPartSheetItem}
    (h : (itemsOf nodes values)[i]? = some item) : values[i]? = some item.value := by
  obtain ⟨node, value, -, hvalue, rfl⟩ := List.getElem?_zipWith_eq_some.mp h
  exact hvalue

/-- Collection attributes the values, all good and present, to the nodes in order. -/
theorem collectPartSheets_ok {nodes : List (UInt32 × Text)} {readValues : List DataValue}
    {items : List SavedPartSheetItem} (hlen : readValues.length = nodes.length)
    (h : collectPartSheets (nodes.zip readValues) = .ok items) :
    ∃ values, readValues.map DataValue.tryIntoVariant = values.map Except.ok ∧
      items = itemsOf nodes values := by
  induction nodes generalizing readValues items with
  | nil =>
    obtain rfl := List.length_eq_zero_iff.mp hlen
    cases h
    exact ⟨[], rfl, rfl⟩
  | cons node nodes ih =>
    obtain ⟨value, rest, rfl⟩ := List.exists_cons_of_length_eq_add_one hlen
    change (Except.bind _ _) = _ at h
    obtain ⟨variant, hvariant, h⟩ := bind_ok_iff.mp h
    change (Except.bind _ _) = _ at h
    obtain ⟨others, hothers, h⟩ := bind_ok_iff.mp h
    cases h
    obtain ⟨values, hvalues, rfl⟩ := ih (by simpa using hlen) hothers
    refine ⟨variant :: values, ?_, rfl⟩
    rw [List.map_cons, List.map_cons, hvalues, mapError_ok_iff.mp hvariant]

end Items

/-- The values read, all good and present, with a valid part identifier among them. -/
structure ReadSheets (h : TraceabilityHandler TraceabilityContext) (readValues : List DataValue)
    (values : List Variant) (id : AsciiDigitsOrUpper 23) : Prop where
  good : readValues.map DataValue.tryIntoVariant = values.map Except.ok
  length : values.length =
    h.state.generalPartSheet.nodes.length + h.state.operationPartSheet.nodes.length
  partId : ∃ value, values[h.state.generalPartSheet.partIdIndex]? = some value ∧
    tryFromVariant value = .ok id
  valid : validatePartIdentifier id = .returned ()

/-- The items of the general part sheet, out of all values. -/
def generalItems (h : TraceabilityHandler TraceabilityContext) (values : List Variant) :
    List SavedPartSheetItem :=
  itemsOf h.state.generalPartSheet.nodes (values.take h.state.generalPartSheet.nodes.length)

/-- The items of the operation part sheet, out of all values. -/
def operationItems (h : TraceabilityHandler TraceabilityContext) (values : List Variant) :
    List SavedPartSheetItem :=
  itemsOf h.state.operationPartSheet.nodes (values.drop h.state.generalPartSheet.nodes.length)

/-- The values read are refused, or saved under the part identifier among them. -/
theorem saveRead_cases {h : TraceabilityHandler TraceabilityContext}
    (hindex : h.state.generalPartSheet.partIdIndex < h.state.generalPartSheet.nodes.length)
    (readValues : List DataValue) : (∃ e, saveRead h readValues = .fail e) ∨
      ∃ values id, ReadSheets h readValues values id ∧ saveRead h readValues =
        .call (.savePartSheets h.serverId id (generalItems h values) (operationItems h values))
          afterSaved := by
  unfold saveRead
  split
  · exact .inl ⟨_, rfl⟩
  · next hlen =>
    have hlen' : readValues.length = (h.state.generalPartSheet.nodes ++
        h.state.operationPartSheet.nodes).length := by simpa [nodesToRead] using not_not.mp hlen
    simp only
    cases hc : collectPartSheets ((h.state.generalPartSheet.nodes ++
      h.state.operationPartSheet.nodes).zip readValues) with
    | error e => exact .inl ⟨_, rfl⟩
    | ok items =>
      obtain ⟨values, hvalues, rfl⟩ := collectPartSheets_ok hlen' hc
      have hcount : values.length = (h.state.generalPartSheet.nodes ++
          h.state.operationPartSheet.nodes).length := by
        have := congrArg List.length hvalues
        simp only [List.length_map] at this
        rw [← this, hlen']
      have hitems := (length_itemsOf hcount).trans List.length_append
      obtain ⟨item, hitem⟩ : ∃ item, (itemsOf (h.state.generalPartSheet.nodes ++
          h.state.operationPartSheet.nodes) values)[h.state.generalPartSheet.partIdIndex]? =
            some item := ⟨_, List.getElem?_eq_getElem (by omega)⟩
      simp only [Prog.attempt_ok, Prog.ret_bind, saveCollected, hitem, Prog.expect_some]
      cases hid : (tryFromVariant item.value : Except _ (AsciiDigitsOrUpper 23)) with
      | error e => exact .inl ⟨_, rfl⟩
      | ok id =>
        simp only [Prog.attempt_ok, Prog.ret_bind]
        cases hvalid : validatePartIdentifier id with
        | panicked m => exact absurd hvalid (validatePartIdentifier_ne_panicked id m)
        | failed e => exact .inl ⟨_, rfl⟩
        | returned u =>
          refine .inr ⟨values, id, ⟨hvalues, by rw [hcount, List.length_append],
            ⟨_, value_itemsOf hitem, hid⟩, hvalid⟩, ?_⟩
          simp only [Prog.ofOutcome, Prog.ret_bind]
          rw [splitOff_of_le (by omega), take_itemsOf, drop_itemsOf]
          simp only [Prog.expect_some, Prog.ret_bind]
          rw [sendSave_eq]
          rfl

/-- A save is the last effect of its request, after the check and the read. -/
theorem handleSave_saves {h : TraceabilityHandler TraceabilityContext}
    (hindex : h.state.generalPartSheet.partIdIndex < h.state.generalPartSheet.nodes.length)
    {t : List (Event handlerSignature)} {o : Outcome HandleSaveError Unit}
    (hy : Yields (handleSave h) t o) {machineId : Text} {id : AsciiDigitsOrUpper 23}
    {general operation : List SavedPartSheetItem} {r}
    (he : (⟨.savePartSheets machineId id general operation, r⟩ : Event handlerSignature) ∈ t) :
    ∃ readValues values, ReadSheets h readValues values id ∧ machineId = h.serverId ∧
      general = generalItems h values ∧ operation = operationItems h values ∧
      t = [⟨.checkEnqueuingAllowed, .ok ()⟩, ⟨.read (nodesToRead h), .ok readValues⟩,
        ⟨.savePartSheets machineId id general operation, r⟩] := by
  rw [handleSave_eq] at hy
  obtain ⟨allowed, t₁, rfl, hy₁⟩ := Yields.call_iff.mp hy
  have he₁ := (List.mem_cons.mp he).resolve_left fun heq => nomatch heq
  rcases allowed with e | u
  · obtain ⟨rfl, -⟩ := Yields.fail_iff.mp hy₁
    cases he₁
  · rw [afterChecked] at hy₁
    obtain ⟨read, t₂, rfl, hy₂⟩ := Yields.call_iff.mp hy₁
    have he₂ := (List.mem_cons.mp he₁).resolve_left fun heq => nomatch heq
    rcases read with e | readValues
    · obtain ⟨rfl, -⟩ := Yields.fail_iff.mp hy₂
      cases he₂
    · rw [afterReadSheets] at hy₂
      rcases saveRead_cases hindex readValues with ⟨e, hfail⟩ | ⟨values, id', hread, hsave⟩
      · rw [hfail] at hy₂
        obtain ⟨rfl, -⟩ := Yields.fail_iff.mp hy₂
        cases he₂
      · rw [hsave] at hy₂
        obtain ⟨reply, t₃, rfl, hy₃⟩ := Yields.call_iff.mp hy₂
        have ht₃ : t₃ = [] := by
          rcases reply with e | e | u
          · exact (Yields.fail_iff.mp hy₃).1
          · exact (Yields.fail_iff.mp hy₃).1
          · exact (Yields.ret_iff.mp hy₃).1
        subst ht₃
        cases List.mem_singleton.mp he₂
        exact ⟨readValues, values, hread, rfl, rfl, rfl, rfl⟩

/-- The queues have no row under the numbers of the next save. -/
def Store.NextFree (s : Store) : Prop :=
  ∀ q, (s.rows q).get (Store.rowKey s.seqAfter q) = none

/-- The numbers of the next save are above those of all saves before. -/
theorem QueueRun.Numbered.nextFree {V : VariantCodec} {F : RowFormat} {s : QueueRun V}
    (h : s.Numbered F) (hlen : s.history.length < 2 ^ 63) : s.store.NextFree := by
  intro q
  rw [h.counted.rowKey hlen q, Table.get_eq_none_iff]
  intro hkey
  obtain ⟨e, he, heq⟩ := List.mem_map.mp hkey
  exact absurd heq (h.key_lt q e he).ne

/-- The store after a save of the values under the part identifier found among them,
every value under its node. -/
structure Saved (V : VariantCodec) (F : RowFormat) (h : TraceabilityHandler TraceabilityContext)
    (values : List Variant) (id : AsciiDigitsOrUpper 23) (ctx : V.Context) (now : Timestamp)
    (s s' : Store) : Prop where
  partId : ∃ value, values[h.state.generalPartSheet.partIdIndex]? = some value ∧
    tryFromVariant value = .ok id
  cached : ∃ bytes, encodePartSheetForCache V ctx (itemsOf h.state.generalPartSheet.nodes
      (values.take h.state.generalPartSheet.nodes.length)) = .returned bytes ∧
    s'.sheets = s.sheets.insert id.asStr bytes
  general : ∃ row, encodePartSheetForDb F now h.serverId id
      (itemsOf h.state.generalPartSheet.nodes
        (values.take h.state.generalPartSheet.nodes.length)) = .ok row ∧
    s'.rows .general = (s.rows .general).insert s.seqAfter row ∧
    (s.NextFree → (s.rows .general).Added (s'.rows .general) s.seqAfter row)
  operation : ∃ row, encodePartSheetForDb F now h.serverId id
      (itemsOf h.state.operationPartSheet.nodes
        (values.drop h.state.generalPartSheet.nodes.length)) = .ok row ∧
    s'.rows .operation = (s.rows .operation).insert ((s.seqAfter + 1) % 2 ^ 64) row ∧
    (s.NextFree → (s.rows .operation).Added (s'.rows .operation) ((s.seqAfter + 1) % 2 ^ 64) row)
  seqs : s'.seqs = s.seqs.insert () s.seqAfter
  serials : s'.serials = s.serials

/-- The request ends without a panic; on success it has saved the values read, all good and
present, and on failure the store is as before. -/
structure AllOrNothing (V : VariantCodec) (F : RowFormat)
    (h : TraceabilityHandler TraceabilityContext) (read : Except SessionError (List DataValue))
    (s : Site) (r : Outcome HandleSaveError Unit × Site) : Prop where
  total : ∀ m, r.1 ≠ .panicked m
  returned : r.1 = .returned () → ∃ readValues values id ctx now, read = .ok readValues ∧
    readValues.map DataValue.tryIntoVariant = values.map Except.ok ∧
    values.length =
      h.state.generalPartSheet.nodes.length + h.state.operationPartSheet.nodes.length ∧
    Saved V F h values id ctx now s.store r.2.store
  failed : ∀ e, r.1 = .failed e → r.2 = s

section Proof

variable {V : VariantCodec} {F : RowFormat} {queuesThreshold : ℕ}
  {h : TraceabilityHandler TraceabilityContext} {env : (e : HandlerEffect) → HandlerInput V e}
  {read : Except SessionError (List DataValue)} {s : Site}

theorem allOrNothing_failed (e : HandleSaveError) : AllOrNothing V F h read s (.failed e, s) where
  total := by simp
  returned hr := by cases hr
  failed _ _ := rfl

variable (V F queuesThreshold) in
/-- The effect of a save is one committed save, or an error and no change. -/
theorem performHandler_savePartSheets (machineId : Text) (partId : AsciiDigitsOrUpper 23)
    (general operation : List SavedPartSheetItem)
    (i : HandlerInput V (.savePartSheets machineId partId general operation)) (s : Site) :
    (∃ e, performHandler V F queuesThreshold (.savePartSheets machineId partId general operation)
        i s = (.error e, s)) ∨
      (∃ e, performHandler V F queuesThreshold (.savePartSheets machineId partId general operation)
        i s = (.ok (.error e), s)) ∨
      ∃ ctx now encoded,
        encodePartSheets V F now machineId partId general operation ctx = .returned encoded ∧
        performHandler V F queuesThreshold (.savePartSheets machineId partId general operation) i s =
          (.ok (.ok ()), { s with store := s.store.afterSave partId encoded }) := by
  rcases i with e | ⟨faults, ctx, now⟩
  · exact .inl ⟨e, rfl⟩
  · rcases savePartSheets_cases V F machineId partId general operation ctx now faults s.store with
      ⟨m, h⟩ | ⟨e, h⟩ | ⟨encoded, henc, h⟩
    · exact .inl ⟨.panic m, by simp [performHandler, h, taskResult]⟩
    · exact .inr (.inl ⟨e, by simp [performHandler, h, taskResult]⟩)
    · exact .inr (.inr ⟨ctx, now, encoded, henc, by simp [performHandler, h, taskResult]⟩)

/-- In every context of an initialisation, a save request is all or nothing. -/
theorem allOrNothing_of_initialize {h₀ : TraceabilityHandler Unit}
    {t : List (Event handlerSignature)}
    (hinit : Yields (traceabilityInitialize F h₀) t (.returned h))
    (env : (e : HandlerEffect) → HandlerInput V e) (s : Site) :
    AllOrNothing V F h (env (.read (nodesToRead h))) s
      ((handleSave h).eval (handlerWorld V F queuesThreshold) env s) := by
  have hindex := (traceabilityInitialize_returned hinit).2.lt
  rw [handleSave_eq, Prog.eval_call]
  change AllOrNothing V F h _ s (((afterChecked h) (checkEnqueuingAllowed queuesThreshold
    (env .checkEnqueuingAllowed) s.store)).eval (handlerWorld V F queuesThreshold) env s)
  cases checkEnqueuingAllowed queuesThreshold (env .checkEnqueuingAllowed) s.store with
  | error e => exact allOrNothing_failed _
  | ok u =>
    simp only [afterChecked]
    rw [Prog.eval_call]
    change AllOrNothing V F h _ s (((afterReadSheets h) (env (.read (nodesToRead h)))).eval
      (handlerWorld V F queuesThreshold) env s)
    cases env (.read (nodesToRead h)) with
    | error e => exact allOrNothing_failed _
    | ok readValues =>
      simp only [afterReadSheets]
      rcases saveRead_cases hindex readValues with ⟨e, he⟩ | ⟨values, id, hread, hsave⟩
      · rw [he]
        exact allOrNothing_failed _
      · rw [hsave, Prog.eval_call]
        rcases performHandler_savePartSheets V F queuesThreshold h.serverId id
          (generalItems h values) (operationItems h values) (env _) s with
            ⟨e, he⟩ | ⟨e, he⟩ | ⟨ctx, now, encoded, henc, hok⟩
        · simp only [he, afterSaved]
          exact allOrNothing_failed _
        · simp only [he, afterSaved]
          exact allOrNothing_failed _
        · simp only [hok, afterSaved]
          obtain ⟨hcached, hgeneral, hoperation⟩ := encodePartSheets_returned henc
          exact ⟨by simp, fun _ => ⟨readValues, values, id, ctx, now, rfl, hread.good,
            hread.length, hread.partId, ⟨_, hcached, rfl⟩,
            ⟨_, hgeneral, rfl, fun hfree => Table.added_insert (hfree .general) _⟩,
            ⟨_, hoperation, rfl, fun hfree => Table.added_insert (hfree .operation) _⟩, rfl, rfl⟩,
            fun e he => by cases he⟩

/-- A save request is all or nothing, and its rows are added to those queued in every store
that fewer than `2 ^ 63` saves have made. -/
theorem handleSave_allOrNothing {h₀ : TraceabilityHandler Unit} {t : List (Event handlerSignature)}
    (hinit : Yields (traceabilityInitialize F h₀) t (.returned h)) :
    (∀ (env : (e : HandlerEffect) → HandlerInput V e) (s : Site),
      AllOrNothing V F h (env (.read (nodesToRead h))) s
        ((handleSave h).eval (handlerWorld V F queuesThreshold) env s)) ∧
    ∀ (ls : List (QueueRun.Label V)) (q : QueueRun V), Run (QueueRun.Step F) .initial ls q →
      q.history.length < 2 ^ 63 → q.store.NextFree :=
  ⟨fun env s => allOrNothing_of_initialize hinit env s,
    fun _ _ hr hlen => (QueueRun.run_numbered hr hlen).nextFree hlen⟩

end Proof

/-- A handler to be initialised. -/
def sampleInitial : TraceabilityHandler Unit where
  serverId := "MAC1".toList
  commonOpcuaConfig := ⟨"urn:common".toList, 1, 2, 3, 4, 5, 6, 7, []⟩
  machineConfig := ⟨10 ^ 9, none, ⟨"urn:machine".toList, 8⟩⟩
  state := ()

def samplePartId : DataValue := ⟨some (.string (some "010498013AA422634300001".toList)), none⟩

def sampleScrap : DataValue := ⟨some (.boolean true), some .good⟩

/-- What a server with one node in each part sheet answers. -/
def sampleInput : (e : HandlerEffect) → HandlerInput plainCodec e
  | .getNamespaceIndex url => .ok (if url = "urn:common".toList then 1 else 2)
  | .browse root => [.ok ⟨.good, if root = .new 1 4 then [(.new 1 5, some "PartId".toList)]
      else [(.new 2 9, some "Scrap".toList)]⟩]
  | .read nodes => .ok (nodes.map fun node => if node = .new 1 5 then samplePartId else sampleScrap)
  | .write values => .ok (values.map fun _ => .good)
  | .nowZoned => Creations.sampleDate
  | .nextSerial _ => .ok noFaults
  | .getGeneralPartSheet _ => .ok (noFaults, ())
  | .checkEnqueuingAllowed => noFaults
  | .savePartSheets .. => .ok (noFaults, (), 0)

theorem sampleInitial_returned : ∃ h t,
    Yields (traceabilityInitialize epochFormat sampleInitial) t (.returned h) ∧
      ((handleSave h).eval (handlerWorld plainCodec epochFormat 10) sampleInput
        ⟨.fresh, []⟩).1 = .returned () := by
  obtain ⟨t, ht⟩ := Yields.of_eval (handlerWorld plainCodec epochFormat 10) sampleInput
    (traceabilityInitialize epochFormat sampleInitial) ⟨.fresh, []⟩
  exact ⟨_, t, ht, rfl⟩

/-- A store without a counter that has a row under the first number. -/
def uncounted : Store :=
  { Store.fresh with queue := fun _ => some (Table.empty.insert 0 "{}".toList) }

/-- A save to this store puts its row in the place of the one there. -/
theorem uncounted_overwritten : ∃ h t,
    Yields (traceabilityInitialize epochFormat sampleInitial) t (.returned h) ∧
      ∃ r, (handleSave h).eval (handlerWorld plainCodec epochFormat 10) sampleInput
          ⟨uncounted, []⟩ = r ∧
        r.1 = .returned () ∧ (uncounted.rows .general).get 0 = some "{}".toList ∧
        (r.2.store.rows .general).get 0 ≠ some "{}".toList ∧
        (r.2.store.rows .general).len = (uncounted.rows .general).len := by
  obtain ⟨t, ht⟩ := Yields.of_eval (handlerWorld plainCodec epochFormat 10) sampleInput
    (traceabilityInitialize epochFormat sampleInitial) ⟨.fresh, []⟩
  exact ⟨_, t, ht, _, rfl, rfl, rfl, by decide +kernel, rfl⟩

/-- A save from the context of an initialisation, into a fresh store. -/
theorem handleSave_allOrNothing_fresh : ∃ h,
    AllOrNothing plainCodec epochFormat h (sampleInput (.read (nodesToRead h))) ⟨.fresh, []⟩
        ((handleSave h).eval (handlerWorld plainCodec epochFormat 10) sampleInput ⟨.fresh, []⟩) ∧
      ((handleSave h).eval (handlerWorld plainCodec epochFormat 10) sampleInput
        ⟨.fresh, []⟩).1 = .returned () := by
  obtain ⟨h, t, hinit, hreturned⟩ := sampleInitial_returned
  exact ⟨h, (handleSave_allOrNothing hinit).1 sampleInput ⟨.fresh, []⟩, hreturned⟩

end LineGateway.Traceability
