import LineGateway.Foundation.Calendar
import LineGateway.Foundation.Table
import LineGateway.Foundation.Transaction
import LineGateway.Traceability.PartSheet
import Mathlib.Data.Char
import Mathlib.Data.List.Lex

/-! The traceability cache: tables of an embedded store and the operations on them,
each one transaction. Any call to the store may fail, and then the operation fails
and leaves the store as it was. For each operation the store after a success is
given explicitly. -/

namespace LineGateway.Traceability

open Foundation Config Opcua

/-- Part sheet queue table dispatch. -/
inductive QueueTable
  | general
  | operation
  deriving DecidableEq

def QueueTable.variants : List QueueTable := [.general, .operation]

/-! ### The store -/

/-- The tables of the store; a table not created yet is missing. -/
@[ext] structure Store where
  serial : Option (Table Text ℕ)
  generalPartSheet : Option (Table Text Bytes)
  archiveSeq : Option (Table Unit ℕ)
  queue : QueueTable → Option (Table ℕ Text)

namespace Store

def fresh : Store := ⟨none, none, none, fun _ => none⟩

/-- The entries of a table, none when it is missing. -/
def serials (s : Store) : Table Text ℕ := s.serial.getD .empty

def sheets (s : Store) : Table Text Bytes := s.generalPartSheet.getD .empty

def seqs (s : Store) : Table Unit ℕ := s.archiveSeq.getD .empty

def rows (s : Store) (q : QueueTable) : Table ℕ Text := (s.queue q).getD .empty

end Store

inductive TableName
  | dailySerial
  | generalPartSheet
  | archiveSeq
  | queue (q : QueueTable)
  deriving DecidableEq

def TableName.name : TableName → Text
  | .dailySerial => "daily_serial".toList
  | .generalPartSheet => "general_part_sheet".toList
  | .archiveSeq => "archive_seq".toList
  | .queue .general => "general_queue".toList
  | .queue .operation => "operation_queue".toList

/-- A table definition: its name and where its entries are kept. -/
structure TableDefinition (κ ν : Type) [LinearOrder κ] where
  table : TableName
  get : Store → Option (Table κ ν)
  set : Table κ ν → Store → Store

def serialTable : TableDefinition Text ℕ :=
  ⟨.dailySerial, Store.serial, fun t s => { s with serial := some t }⟩

def generalPartSheetCache : TableDefinition Text Bytes :=
  ⟨.generalPartSheet, Store.generalPartSheet, fun t s => { s with generalPartSheet := some t }⟩

def queueSeq : TableDefinition Unit ℕ :=
  ⟨.archiveSeq, Store.archiveSeq, fun t s => { s with archiveSeq := some t }⟩

def QueueTable.tableDefinition (q : QueueTable) : TableDefinition ℕ Text :=
  ⟨.queue q, fun s => s.queue q, fun t s => { s with queue := Function.update s.queue q (some t) }⟩

/-! ### Calls to the store -/

/-- The calls of one transaction; an access carries its rank on its table. -/
inductive RedbCall
  | beginRead
  | beginWrite
  | openTable (t : TableName)
  | access (t : TableName) (rank : ℕ)
  | commit
  deriving DecidableEq

/-- A failure of the embedded store. -/
structure RedbFault where
  message : Text
  deriving DecidableEq

inductive RedbError
  | fault (call : RedbCall) (f : RedbFault)
  | tableDoesNotExist (t : TableName)
  deriving DecidableEq

/-- Which calls of a transaction fail. -/
abbrev Faults := RedbCall → Option RedbFault

def noFaults : Faults := fun _ => none

abbrev RedbTxn := Txn Faults RedbError Store

def redbCall (c : RedbCall) : RedbTxn Unit := .check fun faults => (faults c).map (.fault c)

section Table

variable {κ ν : Type} [LinearOrder κ] (d : TableDefinition κ ν)

/-- Open a table for writing, creating it when it is missing. -/
def openTable : RedbTxn Unit := do
  redbCall (.openTable d.table)
  let s ← Txn.read
  Txn.write (d.set ((d.get s).getD .empty) s)

def tableGet (rank : ℕ) (k : κ) : RedbTxn (Option ν) := do
  redbCall (.access d.table rank)
  let s ← Txn.read
  pure (((d.get s).getD .empty).get k)

def tableInsert (rank : ℕ) (k : κ) (v : ν) : RedbTxn Unit := do
  redbCall (.access d.table rank)
  let s ← Txn.read
  Txn.write (d.set (((d.get s).getD .empty).insert k v) s)

def tableRemove (rank : ℕ) (k : κ) : RedbTxn Unit := do
  redbCall (.access d.table rank)
  let s ← Txn.read
  Txn.write (d.set (((d.get s).getD .empty).remove k) s)

/-- Open a table for reading; it must exist. -/
def openReadTable : RedbTxn (Table κ ν) := do
  redbCall (.openTable d.table)
  let s ← Txn.read
  match d.get s with
  | some t => pure t
  | none => Txn.fail (.tableDoesNotExist d.table)

end Table

/-- A write transaction around its accesses. -/
def writeTxn {α : Type} (body : RedbTxn α) : RedbTxn α := do
  redbCall .beginWrite
  let a ← body
  redbCall .commit
  pure a

/-! ### Operations -/

/-- `strftime("%Y%m%d")` -/
def serialKey (date : Calendar.Date) : Text :=
  Text.fixed 4 date.year ++ Text.fixed 2 date.month ++ Text.fixed 2 date.day

def nextSerialTxn (date : Calendar.Date) : RedbTxn ℕ := writeTxn do
  openTable serialTable
  let last ← tableGet serialTable 0 (serialKey date)
  let next := match last with
    | some v => (v + 1) % 2 ^ 32
    | none => 1
  tableInsert serialTable 1 (serialKey date) next
  pure next

/-- Get the next serial number for the provided date. -/
def nextSerial (date : Calendar.Date) (faults : Faults) (s : Store) : Except RedbError ℕ × Store :=
  (nextSerialTxn date).atomically faults s

/-- Why a spawned task has no result. -/
inductive JoinError
  | cancelled
  | panic (message : String)
  deriving DecidableEq

inductive GetGeneralPartSheetError
  | redb (e : RedbError)
  | decoding (e : DecodeError)
  deriving DecidableEq

def cachedValueTxn (partId : Text) : RedbTxn (Option Bytes) := do
  redbCall .beginRead
  let table ← openReadTable generalPartSheetCache
  redbCall (.access .generalPartSheet 0)
  pure (table.get partId)

/-- Get a general part sheet from the cache. -/
def getGeneralPartSheet (V : VariantCodec) (partId : Text) (ctx : V.Context) (faults : Faults)
    (s : Store) : Except GetGeneralPartSheetError (Option (List (UInt32 × Variant))) :=
  match (cachedValueTxn partId).readOnly faults s with
  | .error e => .error (.redb e)
  | .ok none => .ok none
  | .ok (some bytes) => match decodeCachedPartSheet V ctx bytes with
    | .error e => .error (.decoding e)
    | .ok sheet => .ok (some sheet)

inductive SavePartSheetsError
  | elementsCount (e : TryFromIntError)
  | generalSerialization (message : String)
  | operationSerialization (message : String)
  | redb (e : RedbError)
  deriving DecidableEq

/-- The encodings of the two part sheets of a save. -/
structure EncodedPartSheets where
  cachedGeneral : Bytes
  jsonGeneral : Text
  jsonOperation : Text

def encodePartSheets (V : VariantCodec) (F : RowFormat) (savedAt : Timestamp) (machineId : Text)
    (partId : AsciiDigitsOrUpper 23) (general operation : List SavedPartSheetItem)
    (ctx : V.Context) : Outcome SavePartSheetsError EncodedPartSheets :=
  match encodePartSheetForCache V ctx general with
  | .panicked m => .panicked m
  | .failed e => .failed (.elementsCount e)
  | .returned cachedGeneral =>
    match encodePartSheetForDb F savedAt machineId partId general with
    | .error e => .failed (.generalSerialization e)
    | .ok jsonGeneral =>
      match encodePartSheetForDb F savedAt machineId partId operation with
      | .error e => .failed (.operationSerialization e)
      | .ok jsonOperation => .returned ⟨cachedGeneral, jsonGeneral, jsonOperation⟩

def savePartSheetsTxn (partId : AsciiDigitsOrUpper 23) (encoded : EncodedPartSheets) :
    RedbTxn Unit := writeTxn do
  openTable queueSeq
  let last ← tableGet queueSeq 0 ()
  -- Two sequence numbers are used below.
  let seq := match last with
    | some v => (v + 2) % 2 ^ 64
    | none => 0
  tableInsert queueSeq 1 () seq
  openTable generalPartSheetCache
  tableInsert generalPartSheetCache 0 partId.asStr encoded.cachedGeneral
  openTable QueueTable.general.tableDefinition
  tableInsert QueueTable.general.tableDefinition 0 seq encoded.jsonGeneral
  openTable QueueTable.operation.tableDefinition
  tableInsert QueueTable.operation.tableDefinition 0 ((seq + 1) % 2 ^ 64) encoded.jsonOperation

/-- Save the general part sheet to the cache and enqueue both for database insertion. -/
def savePartSheets (V : VariantCodec) (F : RowFormat) (machineId : Text)
    (partId : AsciiDigitsOrUpper 23) (general operation : List SavedPartSheetItem)
    (ctx : V.Context) (now : Timestamp) (faults : Faults) (s : Store) :
    Outcome SavePartSheetsError Unit × Store :=
  match encodePartSheets V F now machineId partId general operation ctx with
  | .panicked m => (.panicked m, s)
  | .failed e => (.failed e, s)
  | .returned encoded => match (savePartSheetsTxn partId encoded).atomically faults s with
    | (.error e, s') => (.failed (.redb e), s')
    | (.ok (), s') => (.returned (), s')

inductive CheckEnqueuingError
  | redb (e : RedbError)
  | tooMuchEnqueued (total threshold : ℕ)
  deriving DecidableEq

/-- The length of a queue; a table that does not exist counts as an empty one. -/
def queueLen (q : QueueTable) : RedbTxn ℕ := do
  redbCall (.openTable (.queue q))
  let s ← Txn.read
  match s.queue q with
  | none => pure 0
  | some table => do
    redbCall (.access (.queue q) 0)
    pure table.len

def totalEnqueued : List QueueTable → RedbTxn ℕ
  | [] => pure 0
  | q :: qs => do
    let len ← queueLen q
    let rest ← totalEnqueued qs
    pure (len + rest)

def totalEnqueuedTxn : RedbTxn ℕ := do
  redbCall .beginRead
  totalEnqueued QueueTable.variants

/-- Success if enqueuing part sheets is possible, according to the queues threshold. -/
def checkEnqueuingAllowed (queuesThreshold : ℕ) (faults : Faults) (s : Store) :
    Except CheckEnqueuingError Unit :=
  match totalEnqueuedTxn.readOnly faults s with
  | .error e => .error (.redb e)
  | .ok total =>
    if total ≥ queuesThreshold then .error (.tooMuchEnqueued total queuesThreshold) else .ok ()

/-- Read the entries from a rank on, failing at the first that cannot be read. -/
def readEntries (q : QueueTable) : ℕ → List (ℕ × Text) → RedbTxn (List ℕ × List Text)
  | _, [] => pure ([], [])
  | rank, (k, v) :: rest => do
    redbCall (.access (.queue q) (rank + 1))
    let (keys, values) ← readEntries q (rank + 1) rest
    pure (k :: keys, v :: values)

def queueBatchTxn (q : QueueTable) : RedbTxn (List ℕ × Text) := do
  redbCall .beginRead
  redbCall (.openTable (.queue q))
  let s ← Txn.read
  match s.queue q with
  | none => pure ([], [])
  | some table => do
    redbCall (.access (.queue q) 0)
    let (keys, values) ← readEntries q 0 table.entries
    pure (keys, Text.framed values)

/-- Get a batch from a rows queue: the keys and the body of lines. -/
def getQueueBatch (q : QueueTable) (faults : Faults) (s : Store) :
    Except RedbError (List ℕ × Text) :=
  (queueBatchTxn q).readOnly faults s

/-- Remove keys one after the other. -/
def removeKeys (q : QueueTable) : ℕ → List ℕ → RedbTxn Unit
  | _, [] => pure ()
  | rank, k :: ks => do
    tableRemove q.tableDefinition rank k
    removeKeys q (rank + 1) ks

def removeEntriesTxn (q : QueueTable) (keys : List ℕ) : RedbTxn Unit := writeTxn do
  openTable q.tableDefinition
  removeKeys q 0 keys

/-- Remove the entries of a batch with the provided keys from the queue. -/
def removeEntries (q : QueueTable) (keys : List ℕ) (faults : Faults) (s : Store) :
    Except RedbError Unit × Store :=
  (removeEntriesTxn q keys).atomically faults s

end LineGateway.Traceability
