import LineGateway.Traceability.CacheSpec

/-! The draining of the part sheet queues to the database. A drain reads the whole
queue, sends it as one insertion and removes its keys once the insertion is
acknowledged; it is a program over these three effects. The world it runs in keeps,
beside the store, the bodies acknowledged and the bodies applied by the database. -/

namespace LineGateway.Traceability

open Foundation

/-- Why an insertion is not acknowledged. -/
inductive InsertError
  | badResponse (status : ℕ)
  | network (message : String)
  | timedOut
  deriving DecidableEq

/-- Errors that can occur during draining the part sheet queues. -/
inductive DrainQueuesError
  | getBatchTask (e : JoinError)
  | getBatch (e : RedbError)
  | insert (e : InsertError)
  | removeQueuedTask (e : JoinError)
  | removeQueued (e : RedbError)
  deriving DecidableEq

/-- The tables of the database for the two queues. -/
structure TraceabilityDatabase where
  generalPartSheetTable : Text
  operationPartSheetTable : Text

def TraceabilityDatabase.partSheetTable (db : TraceabilityDatabase) : QueueTable → Text
  | .general => db.generalPartSheetTable
  | .operation => db.operationPartSheetTable

def TraceabilityDatabase.query (db : TraceabilityDatabase) (q : QueueTable) : Text :=
  "INSERT INTO ".toList ++ db.partSheetTable q ++ " FORMAT JSONEachRow".toList

/-! ### The program -/

inductive DrainEffect
  | getQueueBatch (q : QueueTable)
  | insert (q : QueueTable) (query : Text) (compression : Bool) (body : Text)
  | removeEntries (q : QueueTable) (keys : List ℕ)

abbrev DrainEffect.Reply : DrainEffect → Type
  | .getQueueBatch _ => Except JoinError (Except RedbError (List ℕ × Text))
  | .insert .. => Except InsertError Unit
  | .removeEntries .. => Except JoinError (Except RedbError Unit)

abbrev drainSignature : Signature := ⟨DrainEffect, DrainEffect.Reply⟩

abbrev DrainProg := Prog drainSignature DrainQueuesError Unit

def drainCall (e : DrainEffect) : Prog drainSignature DrainQueuesError e.Reply :=
  Prog.perform (S := drainSignature) e

/-- Remove the part sheet queue elements. -/
def removeRows (q : QueueTable) (keys : List ℕ) : DrainProg := do
  let task ← drainCall (.removeEntries q keys)
  let result ← Prog.attempt .removeQueuedTask task
  Prog.attempt .removeQueued result

/-- Insert the part sheet rows in the database, then remove them from the queue. -/
def insertRows (db : TraceabilityDatabase) (q : QueueTable) (keys : List ℕ) (body : Text) :
    DrainProg := do
  -- An empty body is sent without compression.
  let result ← drainCall (.insert q (db.query q) (!body.isEmpty) body)
  Prog.attempt .insert result
  removeRows q keys

/-- Drain a part sheet queue to the database. -/
def drainPartSheetQueue (db : TraceabilityDatabase) (q : QueueTable) (skipIfEmpty : Bool) :
    DrainProg := do
  let task ← drainCall (.getQueueBatch q)
  let result ← Prog.attempt .getBatchTask task
  let (keys, body) ← (Prog.attempt .getBatch result : Prog _ _ (List ℕ × Text))
  if skipIfEmpty && keys.isEmpty then pure ()
  else insertRows db q keys body

/-! ### What follows each reply -/

section Continuations

variable (db : TraceabilityDatabase) (q : QueueTable)

def afterBatch (skipIfEmpty : Bool) :
    Except JoinError (Except RedbError (List ℕ × Text)) → DrainProg
  | .error e => .fail (.getBatchTask e)
  | .ok (.error e) => .fail (.getBatch e)
  | .ok (.ok (keys, body)) =>
    if skipIfEmpty && keys.isEmpty then .ret () else insertRows db q keys body

def afterInsert (keys : List ℕ) : Except InsertError Unit → DrainProg
  | .error e => .fail (.insert e)
  | .ok () => removeRows q keys

def afterRemoval : Except JoinError (Except RedbError Unit) → DrainProg
  | .error e => .fail (.removeQueuedTask e)
  | .ok (.error e) => .fail (.removeQueued e)
  | .ok (.ok ()) => .ret ()

theorem drainPartSheetQueue_eq (skipIfEmpty : Bool) : drainPartSheetQueue db q skipIfEmpty =
    .call (.getQueueBatch q) (afterBatch db q skipIfEmpty) := by
  refine congrArg (Prog.call (S := drainSignature) (.getQueueBatch q)) (funext fun r => ?_)
  rcases r with e | e | ⟨keys, body⟩ <;> rfl

theorem insertRows_eq (keys : List ℕ) (body : Text) : insertRows db q keys body =
    .call (.insert q (db.query q) (!body.isEmpty) body) (afterInsert q keys) := by
  refine congrArg (Prog.call (S := drainSignature) (.insert ..)) (funext fun r => ?_)
  rcases r with e | _ <;> rfl

theorem removeRows_eq (keys : List ℕ) :
    removeRows q keys = .call (.removeEntries q keys) afterRemoval := by
  refine congrArg (Prog.call (S := drainSignature) (.removeEntries q keys)) (funext fun r => ?_)
  rcases r with e | e | _ <;> rfl

end Continuations

/-! ### The world -/

/-- The persisted store and what the database has acknowledged and applied. -/
structure Delivery where
  store : Store
  acknowledged : QueueTable → List Text
  applied : QueueTable → List Text

/-- What the world decides for an effect of a drain. A blocking task may be lost, and
then it has not run; an insertion that is not acknowledged may have been applied. -/
structure DrainInput where
  task : Except JoinError Faults
  insertion : Except InsertError Unit
  applied : Bool

namespace Delivery

variable (d : Delivery)

/-- Note a body that the database has applied. -/
def apply (q : QueueTable) (body : Text) : Delivery :=
  { d with applied := Function.update d.applied q (d.applied q ++ [body]) }

/-- Note a body that the database has acknowledged, and thus applied. -/
def acknowledge (q : QueueTable) (body : Text) : Delivery :=
  { d.apply q body with
    acknowledged := Function.update d.acknowledged q (d.acknowledged q ++ [body]) }

end Delivery

def performDrain : (e : DrainEffect) → DrainInput → Delivery → e.Reply × Delivery
  | .getQueueBatch q, i, d => match i.task with
    | .error e => (.error e, d)
    | .ok faults => (.ok (getQueueBatch q faults d.store), d)
  | .insert q _ _ body, i, d => match i.insertion with
    | .ok () => (.ok (), d.acknowledge q body)
    | .error e => (.error e, if i.applied then d.apply q body else d)
  | .removeEntries q keys, i, d => match i.task with
    | .error e => (.error e, d)
    | .ok faults =>
      (.ok (removeEntries q keys faults d.store).1,
        { d with store := (removeEntries q keys faults d.store).2 })

abbrev drainWorld : World drainSignature Delivery := ⟨fun _ => DrainInput, performDrain⟩

end LineGateway.Traceability
