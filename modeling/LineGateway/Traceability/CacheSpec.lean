import LineGateway.Traceability.Cache

/-! What each operation of the traceability cache does to the store. An operation
either fails, and then the store is as before, or has the explicit effect stated
here; without faults it does not fail. -/

namespace LineGateway.Traceability

open Foundation Config Opcua

/-! ### Calls inside a transaction -/

section Calls

variable {faults : Faults} {s s' : Store} {u : Unit} {κ ν : Type} [LinearOrder κ] {d : TableDefinition κ ν}

@[simp] theorem redbCall_ok_iff {c : RedbCall} :
    redbCall c faults s = .ok (u, s') ↔ faults c = none ∧ s = s' := by
  simp [redbCall]

@[simp] theorem openTable_ok_iff : openTable d faults s = .ok (u, s') ↔
    faults (.openTable d.table) = none ∧ d.set ((d.get s).getD .empty) s = s' := by
  simp [openTable, Txn.bind_ok_iff]

@[simp] theorem tableGet_ok_iff {rank : ℕ} {k : κ} {v : Option ν} :
    tableGet d rank k faults s = .ok (v, s') ↔
      faults (.access d.table rank) = none ∧ ((d.get s).getD .empty).get k = v ∧ s = s' := by
  simp only [tableGet, Txn.bind_ok_iff, redbCall_ok_iff, Txn.read_ok_iff, Txn.pure_ok_iff]
  constructor
  · rintro ⟨_, _, ⟨h, rfl⟩, _, _, ⟨rfl, rfl⟩, hv, hs⟩
    exact ⟨h, hv, hs⟩
  · rintro ⟨h, hv, hs⟩
    exact ⟨(), s, ⟨h, rfl⟩, s, s, ⟨rfl, rfl⟩, hv, hs⟩

@[simp] theorem tableInsert_ok_iff {rank : ℕ} {k : κ} {v : ν} :
    tableInsert d rank k v faults s = .ok (u, s') ↔ faults (.access d.table rank) = none ∧
      d.set (((d.get s).getD .empty).insert k v) s = s' := by
  simp [tableInsert, Txn.bind_ok_iff]

@[simp] theorem tableRemove_ok_iff {rank : ℕ} {k : κ} :
    tableRemove d rank k faults s = .ok (u, s') ↔ faults (.access d.table rank) = none ∧
      d.set (((d.get s).getD .empty).remove k) s = s' := by
  simp [tableRemove, Txn.bind_ok_iff]

@[simp] theorem writeTxn_ok_iff {α : Type} {body : RedbTxn α} {a : α} :
    writeTxn body faults s = .ok (a, s') ↔
      faults .beginWrite = none ∧ faults .commit = none ∧ body faults s = .ok (a, s') := by
  simp only [writeTxn, Txn.bind_ok_iff, redbCall_ok_iff, Txn.pure_ok_iff]
  constructor
  · rintro ⟨_, _, ⟨h₁, rfl⟩, a', s₁, h₂, _, _, ⟨h₃, rfl⟩, rfl, rfl⟩
    exact ⟨h₁, h₃, h₂⟩
  · rintro ⟨h₁, h₃, h₂⟩
    exact ⟨(), s, ⟨h₁, rfl⟩, a, s', h₂, (), s', ⟨h₃, rfl⟩, rfl, rfl⟩

end Calls

/-! ### The store after an operation -/

/-- The row of a save for a queue. -/
def EncodedPartSheets.row (encoded : EncodedPartSheets) : QueueTable → Text
  | .general => encoded.jsonGeneral
  | .operation => encoded.jsonOperation

namespace Store

/-- The serial number that comes next for a date. -/
def serialAfter (s : Store) (date : Calendar.Date) : ℕ :=
  match s.serials.get (serialKey date) with
  | some v => (v + 1) % 2 ^ 32
  | none => 1

def afterNextSerial (s : Store) (date : Calendar.Date) : Store :=
  { s with serial := some (s.serials.insert (serialKey date) (s.serialAfter date)) }

/-- The sequence number that the next save uses first. -/
def seqAfter (s : Store) : ℕ :=
  match s.seqs.get () with
  | some v => (v + 2) % 2 ^ 64
  | none => 0

/-- The key of a save's row in a queue. -/
def rowKey (seq : ℕ) : QueueTable → ℕ
  | .general => seq
  | .operation => (seq + 1) % 2 ^ 64

def afterSave (s : Store) (partId : AsciiDigitsOrUpper 23) (encoded : EncodedPartSheets) : Store :=
  { s with
    archiveSeq := some (s.seqs.insert () s.seqAfter)
    generalPartSheet := some (s.sheets.insert partId.asStr encoded.cachedGeneral)
    queue := fun q => some ((s.rows q).insert (rowKey s.seqAfter q) (encoded.row q)) }

def afterRemove (s : Store) (q : QueueTable) (keys : List ℕ) : Store :=
  { s with queue := Function.update s.queue q (some ((s.rows q).removeAll keys)) }

section Tables

variable (s : Store) (date : Calendar.Date) (partId : AsciiDigitsOrUpper 23)
  (encoded : EncodedPartSheets) (q : QueueTable) (keys : List ℕ)

@[simp] theorem afterNextSerial_serials : (s.afterNextSerial date).serials =
    s.serials.insert (serialKey date) (s.serialAfter date) := rfl

@[simp] theorem afterNextSerial_sheets : (s.afterNextSerial date).sheets = s.sheets := rfl

@[simp] theorem afterNextSerial_seqs : (s.afterNextSerial date).seqs = s.seqs := rfl

@[simp] theorem afterNextSerial_rows : (s.afterNextSerial date).rows q = s.rows q := rfl

@[simp] theorem afterSave_serials : (s.afterSave partId encoded).serials = s.serials := rfl

@[simp] theorem afterSave_sheets : (s.afterSave partId encoded).sheets =
    s.sheets.insert partId.asStr encoded.cachedGeneral := rfl

@[simp] theorem afterSave_seqs : (s.afterSave partId encoded).seqs =
    s.seqs.insert () s.seqAfter := rfl

@[simp] theorem afterSave_rows : (s.afterSave partId encoded).rows q =
    (s.rows q).insert (rowKey s.seqAfter q) (encoded.row q) := rfl

@[simp] theorem afterRemove_serials : (s.afterRemove q keys).serials = s.serials := rfl

@[simp] theorem afterRemove_sheets : (s.afterRemove q keys).sheets = s.sheets := rfl

@[simp] theorem afterRemove_seqs : (s.afterRemove q keys).seqs = s.seqs := rfl

@[simp] theorem afterRemove_rows_self :
    (s.afterRemove q keys).rows q = (s.rows q).removeAll keys := by
  simp [afterRemove, rows]

@[simp] theorem afterRemove_rows_of_ne {q' : QueueTable} (h : q' ≠ q) :
    (s.afterRemove q keys).rows q' = s.rows q' := by
  simp [afterRemove, rows, h]

end Tables

end Store

/-! ### Serial numbers and saves -/

theorem nextSerialTxn_ok {date : Calendar.Date} {faults : Faults} {s s' : Store} {n : ℕ}
    (h : nextSerialTxn date faults s = .ok (n, s')) :
    n = s.serialAfter date ∧ s' = s.afterNextSerial date := by
  simp only [nextSerialTxn, writeTxn_ok_iff, Txn.bind_ok_iff, openTable_ok_iff, tableGet_ok_iff,
    tableInsert_ok_iff, Txn.pure_ok_iff] at h
  obtain ⟨-, -, _, _, ⟨-, rfl⟩, v, _, ⟨-, rfl, rfl⟩, _, _, ⟨-, rfl⟩, rfl, rfl⟩ := h
  exact ⟨rfl, rfl⟩

/-- A serial number is issued and recorded, or nothing changes. -/
theorem nextSerial_cases (date : Calendar.Date) (faults : Faults) (s : Store) :
    (∃ e, nextSerial date faults s = (.error e, s)) ∨
      nextSerial date faults s = (.ok (s.serialAfter date), s.afterNextSerial date) := by
  rcases Txn.atomically_cases (nextSerialTxn date) faults s with ⟨e, he⟩ | ⟨n, s', hok, htxn⟩
  · exact .inl ⟨e, he⟩
  · obtain ⟨rfl, rfl⟩ := nextSerialTxn_ok htxn
    exact .inr hok

/-- What the encodings of a save are. -/
theorem encodePartSheets_returned {V : VariantCodec} {F : RowFormat} {now : Timestamp}
    {machineId : Text} {partId : AsciiDigitsOrUpper 23} {general operation : List SavedPartSheetItem}
    {ctx : V.Context} {encoded : EncodedPartSheets}
    (h : encodePartSheets V F now machineId partId general operation ctx = .returned encoded) :
    encodePartSheetForCache V ctx general = .returned encoded.cachedGeneral ∧
      encodePartSheetForDb F now machineId partId general = .ok encoded.jsonGeneral ∧
        encodePartSheetForDb F now machineId partId operation = .ok encoded.jsonOperation := by
  unfold encodePartSheets at h
  cases hcached : encodePartSheetForCache V ctx general with
  | panicked m => simp [hcached] at h
  | failed e => simp [hcached] at h
  | returned cachedGeneral =>
    cases hgeneral : encodePartSheetForDb F now machineId partId general with
    | error e => simp [hcached, hgeneral] at h
    | ok jsonGeneral =>
      cases hoperation : encodePartSheetForDb F now machineId partId operation with
      | error e => simp [hcached, hgeneral, hoperation] at h
      | ok jsonOperation =>
        simp only [hcached, hgeneral, hoperation, Outcome.returned.injEq] at h
        subst h
        exact ⟨rfl, rfl, rfl⟩

theorem savePartSheetsTxn_ok {partId : AsciiDigitsOrUpper 23} {encoded : EncodedPartSheets}
    {faults : Faults} {s s' : Store} {u : Unit}
    (h : savePartSheetsTxn partId encoded faults s = .ok (u, s')) :
    s' = s.afterSave partId encoded := by
  simp only [savePartSheetsTxn, writeTxn_ok_iff, Txn.bind_ok_iff, openTable_ok_iff,
    tableGet_ok_iff, tableInsert_ok_iff] at h
  obtain ⟨-, -, _, _, ⟨-, rfl⟩, v, _, ⟨-, rfl, rfl⟩, _, _, ⟨-, rfl⟩, _, _, ⟨-, rfl⟩, _, _, ⟨-, rfl⟩,
    _, _, ⟨-, rfl⟩, _, _, ⟨-, rfl⟩, _, _, ⟨-, rfl⟩, -, rfl⟩ := h
  refine Store.ext rfl rfl rfl ?_
  funext q
  cases q <;> rfl

/-- A save encodes both sheets and takes effect as a whole, or changes nothing. -/
theorem savePartSheets_cases (V : VariantCodec) (F : RowFormat) (machineId : Text)
    (partId : AsciiDigitsOrUpper 23) (general operation : List SavedPartSheetItem)
    (ctx : V.Context) (now : Timestamp) (faults : Faults) (s : Store) :
    (∃ m, savePartSheets V F machineId partId general operation ctx now faults s =
        (.panicked m, s)) ∨
      (∃ e, savePartSheets V F machineId partId general operation ctx now faults s =
        (.failed e, s)) ∨
      ∃ encoded, encodePartSheets V F now machineId partId general operation ctx =
          .returned encoded ∧
        savePartSheets V F machineId partId general operation ctx now faults s =
          (.returned (), s.afterSave partId encoded) := by
  unfold savePartSheets
  cases henc : encodePartSheets V F now machineId partId general operation ctx with
  | panicked m => exact .inl ⟨m, rfl⟩
  | failed e => exact .inr (.inl ⟨e, rfl⟩)
  | returned encoded =>
    right
    rcases Txn.atomically_cases (savePartSheetsTxn partId encoded) faults s with
      ⟨e, he⟩ | ⟨u, s', hok, htxn⟩
    · exact .inl ⟨.redb e, by simp [he]⟩
    · obtain rfl := savePartSheetsTxn_ok htxn
      exact .inr ⟨encoded, rfl, by simp [hok]⟩

theorem Store.savePartSheets_noFaults {V : VariantCodec} {F : RowFormat} {machineId : Text}
    {partId : AsciiDigitsOrUpper 23} {general operation : List SavedPartSheetItem}
    {ctx : V.Context} {now : Timestamp} {encoded : EncodedPartSheets}
    (h : encodePartSheets V F now machineId partId general operation ctx = .returned encoded)
    (s : Store) : savePartSheets V F machineId partId general operation ctx now noFaults s =
      (.returned (), s.afterSave partId encoded) := by
  have htxn : (savePartSheetsTxn partId encoded).atomically noFaults s =
      (.ok (), s.afterSave partId encoded) := by
    rw [Txn.atomically_ok_iff]
    change Except.ok ((), _) = _
    congr 2
    refine Store.ext rfl rfl rfl ?_
    funext q
    cases q <;> rfl
  simp [savePartSheets, h, htxn]

theorem nextSerial_noFaults (date : Calendar.Date) (s : Store) :
    nextSerial date noFaults s = (.ok (s.serialAfter date), s.afterNextSerial date) := rfl

/-! ### Batches -/

theorem readEntries_ok {q : QueueTable} {faults : Faults} {s s' : Store} {entries : List (ℕ × Text)}
    {rank : ℕ} {r : List ℕ × List Text} (h : readEntries q rank entries faults s = .ok (r, s')) :
    r = (entries.map Prod.fst, entries.map Prod.snd) := by
  induction entries generalizing rank r s s' with
  | nil => simp only [readEntries, Txn.pure_ok_iff] at h; simp [← h.1]
  | cons e entries ih =>
    obtain ⟨k, v⟩ := e
    simp only [readEntries, Txn.bind_ok_iff, redbCall_ok_iff, Txn.pure_ok_iff] at h
    obtain ⟨_, _, ⟨-, rfl⟩, r', _, hr', rfl, rfl⟩ := h
    rw [ih hr']
    rfl

/-- The entries are all read when no access to the table fails. -/
theorem readEntries_of_accesses {q : QueueTable} {faults : Faults}
    (h : ∀ rank, faults (.access (.queue q) rank) = none) (s : Store)
    (entries : List (ℕ × Text)) (rank : ℕ) :
    readEntries q rank entries faults s =
      .ok ((entries.map Prod.fst, entries.map Prod.snd), s) := by
  induction entries generalizing rank with
  | nil => rfl
  | cons e entries ih =>
    have haccess : redbCall (.access (.queue q) (rank + 1)) faults s = .ok ((), s) :=
      redbCall_ok_iff.mpr ⟨h _, rfl⟩
    exact Txn.bind_ok_iff.mpr ⟨(), s, haccess, Txn.bind_ok_iff.mpr ⟨_, s, ih (rank + 1), rfl⟩⟩

theorem Store.rows_of_none {s : Store} {q : QueueTable} (h : s.queue q = none) :
    s.rows q = .empty := by rw [Store.rows, h]; rfl

theorem Store.rows_of_some {s : Store} {q : QueueTable} {t : Table ℕ Text}
    (h : s.queue q = some t) : s.rows q = t := by rw [Store.rows, h]; rfl

theorem queueBatchTxn_ok {q : QueueTable} {faults : Faults} {s s' : Store} {r : List ℕ × Text}
    (h : queueBatchTxn q faults s = .ok (r, s')) :
    r = ((s.rows q).keys, Text.framed (s.rows q).values) := by
  simp only [queueBatchTxn, Txn.bind_ok_iff, redbCall_ok_iff, Txn.read_ok_iff] at h
  obtain ⟨_, _, ⟨-, rfl⟩, _, _, ⟨-, rfl⟩, _, _, ⟨rfl, rfl⟩, h⟩ := h
  cases hq : s.queue q with
  | none =>
    simp only [hq, Txn.pure_ok_iff] at h
    rw [Store.rows_of_none hq, ← h.1]
    rfl
  | some table =>
    simp only [hq, Txn.bind_ok_iff, redbCall_ok_iff, Txn.pure_ok_iff] at h
    obtain ⟨_, _, ⟨-, rfl⟩, r', _, hr, rfl, rfl⟩ := h
    rw [readEntries_ok hr, Store.rows_of_some hq]
    rfl

/-- A batch is the whole queue in key order. -/
theorem getQueueBatch_cases (q : QueueTable) (faults : Faults) (s : Store) :
    (∃ e, getQueueBatch q faults s = .error e) ∨
      getQueueBatch q faults s = .ok ((s.rows q).keys, Text.framed (s.rows q).values) := by
  cases hbatch : getQueueBatch q faults s with
  | error e => exact .inl ⟨e, rfl⟩
  | ok r =>
    obtain ⟨s', hs'⟩ := Txn.readOnly_ok_iff.mp hbatch
    exact .inr (congrArg _ (queueBatchTxn_ok hs'))

theorem getQueueBatch_noFaults (q : QueueTable) (s : Store) :
    getQueueBatch q noFaults s = .ok ((s.rows q).keys, Text.framed (s.rows q).values) := by
  refine Txn.readOnly_ok_iff.mpr ⟨s, ?_⟩
  simp only [queueBatchTxn, Txn.bind_ok_iff, redbCall_ok_iff, Txn.read_ok_iff]
  refine ⟨(), s, ⟨rfl, rfl⟩, (), s, ⟨rfl, rfl⟩, s, s, ⟨rfl, rfl⟩, ?_⟩
  cases hq : s.queue q with
  | none => rw [Store.rows_of_none hq]; rfl
  | some table =>
    simp only [Txn.bind_ok_iff, redbCall_ok_iff, Txn.pure_ok_iff]
    refine ⟨(), s, ⟨rfl, rfl⟩, _, s, readEntries_of_accesses (fun _ => rfl) s table.entries 0, ?_, rfl⟩
    rw [Store.rows_of_some hq]
    rfl

/-! ### Removals -/

theorem removeKeys_ok {q : QueueTable} {faults : Faults} {s s' : Store} {u : Unit} {keys : List ℕ}
    {rank : ℕ} {t : Table ℕ Text} (ht : s.queue q = some t)
    (h : removeKeys q rank keys faults s = .ok (u, s')) : s' = s.afterRemove q keys := by
  induction keys generalizing rank s t with
  | nil =>
    simp only [removeKeys, Txn.pure_ok_iff] at h
    obtain ⟨-, rfl⟩ := h
    refine Store.ext rfl rfl rfl ?_
    change s.queue = Function.update s.queue q (some (s.rows q))
    rw [Store.rows_of_some ht, ← ht, Function.update_eq_self]
  | cons k keys ih =>
    simp only [removeKeys, Txn.bind_ok_iff, tableRemove_ok_iff] at h
    obtain ⟨_, _, ⟨-, rfl⟩, h⟩ := h
    rw [ih (t := t.remove k) (by simp [QueueTable.tableDefinition, ht]) h]
    refine Store.ext rfl rfl rfl ?_
    simp [Store.afterRemove, Store.rows, QueueTable.tableDefinition, ht, Table.removeAll]

/-- The entries with the keys are removed from the queue, or nothing changes. -/
theorem removeEntries_cases (q : QueueTable) (keys : List ℕ) (faults : Faults) (s : Store) :
    (∃ e, removeEntries q keys faults s = (.error e, s)) ∨
      removeEntries q keys faults s = (.ok (), s.afterRemove q keys) := by
  rcases Txn.atomically_cases (removeEntriesTxn q keys) faults s with ⟨e, he⟩ | ⟨u, s', hok, h⟩
  · exact .inl ⟨e, he⟩
  · right
    simp only [removeEntriesTxn, writeTxn_ok_iff, Txn.bind_ok_iff, openTable_ok_iff] at h
    obtain ⟨-, -, _, _, ⟨-, rfl⟩, h⟩ := h
    rw [removeKeys_ok (t := s.rows q) (by simp [QueueTable.tableDefinition, Store.rows]) h] at hok
    refine hok.trans (congrArg _ (Store.ext rfl rfl rfl ?_))
    simp [Store.afterRemove, Store.rows, QueueTable.tableDefinition]

theorem removeKeys_noFaults {q : QueueTable} (keys : List ℕ) (rank : ℕ) (s : Store) :
    ∃ s', removeKeys q rank keys noFaults s = .ok ((), s') := by
  induction keys generalizing rank s with
  | nil => exact ⟨s, rfl⟩
  | cons k keys ih =>
    obtain ⟨s', hs'⟩ := ih (rank + 1) (q.tableDefinition.set ((s.rows q).remove k) s)
    exact ⟨s', Txn.bind_ok_iff.mpr ⟨(), _, tableRemove_ok_iff.mpr ⟨rfl, rfl⟩, hs'⟩⟩

theorem removeEntries_noFaults (q : QueueTable) (keys : List ℕ) (s : Store) :
    removeEntries q keys noFaults s = (.ok (), s.afterRemove q keys) := by
  obtain ⟨s', hs'⟩ := removeKeys_noFaults (q := q) keys 0
    (q.tableDefinition.set ((s.queue q).getD .empty) s)
  have htxn : removeEntriesTxn q keys noFaults s = .ok ((), s') :=
    writeTxn_ok_iff.mpr ⟨rfl, rfl, Txn.bind_ok_iff.mpr ⟨(), _, openTable_ok_iff.mpr ⟨rfl, rfl⟩, hs'⟩⟩
  rcases removeEntries_cases q keys noFaults s with ⟨e, he⟩ | hok
  · rw [removeEntries, Txn.atomically_ok_iff.mpr htxn] at he
    cases he
  · exact hok

/-! ### Reading -/

/-- A cached sheet is looked up, or the store fails. -/
theorem getGeneralPartSheet_cases (V : VariantCodec) (partId : Text) (ctx : V.Context)
    (faults : Faults) (s : Store) :
    (∃ e, getGeneralPartSheet V partId ctx faults s = .error (.redb e)) ∨
      getGeneralPartSheet V partId ctx faults s = match s.sheets.get partId with
        | none => .ok none
        | some bytes => match decodeCachedPartSheet V ctx bytes with
          | .error e => .error (.decoding e)
          | .ok sheet => .ok (some sheet) := by
  unfold getGeneralPartSheet
  cases hr : (cachedValueTxn partId).readOnly faults s with
  | error e => exact .inl ⟨e, rfl⟩
  | ok value =>
    right
    obtain ⟨s', h⟩ := Txn.readOnly_ok_iff.mp hr
    simp only [cachedValueTxn, openReadTable, Txn.bind_ok_iff, redbCall_ok_iff, Txn.read_ok_iff,
      Txn.pure_ok_iff] at h
    obtain ⟨_, _, ⟨-, rfl⟩, table, _, ⟨_, _, ⟨-, rfl⟩, _, _, ⟨rfl, rfl⟩, htable⟩, _, _, ⟨-, rfl⟩,
      rfl, rfl⟩ := h
    cases hs : generalPartSheetCache.get s with
    | none => simp [hs] at htable
    | some t =>
      simp only [hs, Txn.pure_ok_iff] at htable
      have hsheets : s.sheets = table := by
        change s.generalPartSheet = some t at hs
        rw [Store.sheets, hs, ← htable.1]
        rfl
      rw [hsheets]
      cases table.get partId <;> rfl

/-- Once the table exists, a lookup without faults does not fail in the store. -/
theorem getGeneralPartSheet_noFaults {V : VariantCodec} {partId : Text} {ctx : V.Context} {s : Store}
    {t : Table Text Bytes} (h : s.generalPartSheet = some t) (e : RedbError) :
    getGeneralPartSheet V partId ctx noFaults s ≠ .error (.redb e) := by
  have htxn : cachedValueTxn partId noFaults s = .ok (t.get partId, s) := by
    simp only [cachedValueTxn, openReadTable, Txn.bind_ok_iff, redbCall_ok_iff, Txn.read_ok_iff,
      Txn.pure_ok_iff]
    refine ⟨(), s, ⟨rfl, rfl⟩, t, s, ⟨(), s, ⟨rfl, rfl⟩, s, s, ⟨rfl, rfl⟩, ?_⟩, (), s, ⟨rfl, rfl⟩,
      rfl, rfl⟩
    simp [generalPartSheetCache, h]
  rw [getGeneralPartSheet, Txn.readOnly_ok_iff.mpr ⟨s, htxn⟩]
  cases t.get partId with
  | none => simp
  | some bytes => cases hd : decodeCachedPartSheet V ctx bytes <;> simp [hd]

theorem queueLen_ok {q : QueueTable} {faults : Faults} {s s' : Store} {n : ℕ}
    (h : queueLen q faults s = .ok (n, s')) : n = (s.rows q).len ∧ s' = s := by
  simp only [queueLen, Txn.bind_ok_iff, redbCall_ok_iff, Txn.read_ok_iff] at h
  obtain ⟨_, _, ⟨-, rfl⟩, _, _, ⟨rfl, rfl⟩, h⟩ := h
  cases hq : s.queue q with
  | none =>
    simp only [hq, Txn.pure_ok_iff] at h
    rw [Store.rows_of_none hq]
    exact ⟨h.1.symm, h.2.symm⟩
  | some t =>
    simp only [hq, Txn.bind_ok_iff, redbCall_ok_iff, Txn.pure_ok_iff] at h
    obtain ⟨_, _, ⟨-, rfl⟩, rfl, rfl⟩ := h
    rw [Store.rows_of_some hq]
    exact ⟨rfl, rfl⟩

theorem totalEnqueued_ok {qs : List QueueTable} {faults : Faults} {s s' : Store} {n : ℕ}
    (h : totalEnqueued qs faults s = .ok (n, s')) : n = (qs.map fun q => (s.rows q).len).sum := by
  induction qs generalizing n s' with
  | nil => simp only [totalEnqueued, Txn.pure_ok_iff] at h; exact h.1.symm
  | cons q qs ih =>
    simp only [totalEnqueued, Txn.bind_ok_iff, Txn.pure_ok_iff] at h
    obtain ⟨len, _, hlen, rest, _, hrest, rfl, rfl⟩ := h
    obtain ⟨rfl, rfl⟩ := queueLen_ok hlen
    rw [ih hrest]
    rfl

/-- The number of rows in the two queues. -/
def Store.total (s : Store) : ℕ := (s.rows .general).len + (s.rows .operation).len

/-- Enqueuing is allowed below the threshold only. -/
theorem checkEnqueuingAllowed_cases (threshold : ℕ) (faults : Faults) (s : Store) :
    (∃ e, checkEnqueuingAllowed threshold faults s = .error (.redb e)) ∨
      checkEnqueuingAllowed threshold faults s =
        if s.total ≥ threshold then .error (.tooMuchEnqueued s.total threshold) else .ok () := by
  unfold checkEnqueuingAllowed
  cases hr : totalEnqueuedTxn.readOnly faults s with
  | error e => exact .inl ⟨e, rfl⟩
  | ok total =>
    right
    obtain ⟨s', h⟩ := Txn.readOnly_ok_iff.mp hr
    simp only [totalEnqueuedTxn, Txn.bind_ok_iff, redbCall_ok_iff] at h
    obtain ⟨_, _, ⟨-, rfl⟩, h⟩ := h
    obtain rfl := totalEnqueued_ok h
    simp [QueueTable.variants, Store.total]

theorem queueLen_noFaults (q : QueueTable) (s : Store) :
    queueLen q noFaults s = .ok ((s.rows q).len, s) := by
  simp only [queueLen, Txn.bind_ok_iff, redbCall_ok_iff, Txn.read_ok_iff]
  refine ⟨(), s, ⟨rfl, rfl⟩, s, s, ⟨rfl, rfl⟩, ?_⟩
  cases hq : s.queue q with
  | none => rw [Store.rows_of_none hq]; rfl
  | some table => rw [Store.rows_of_some hq]; rfl

/-- Without faults, the check compares the number of rows with the threshold. -/
theorem checkEnqueuingAllowed_noFaults (threshold : ℕ) (s : Store) :
    checkEnqueuingAllowed threshold noFaults s =
      if s.total ≥ threshold then .error (.tooMuchEnqueued s.total threshold) else .ok () := by
  have htxn : totalEnqueuedTxn noFaults s = .ok (s.total, s) := by
    simp only [totalEnqueuedTxn, Txn.bind_ok_iff, redbCall_ok_iff, totalEnqueued,
      QueueTable.variants, Txn.pure_ok_iff]
    exact ⟨(), s, ⟨rfl, rfl⟩, _, s, queueLen_noFaults .general s, _, s,
      ⟨_, s, queueLen_noFaults .operation s, 0, s, ⟨rfl, rfl⟩, rfl, rfl⟩, rfl, rfl⟩
  rw [checkEnqueuingAllowed, Txn.readOnly_ok_iff.mpr ⟨s, htxn⟩]

end LineGateway.Traceability
