import LineGateway.Foundation.Run
import LineGateway.Traceability.Database

/-! The archive as a system: saves of any machines interleaved with the steps of the
draining task and with crashes. The task drains both queues side by side and starts
its next run when both are done. A crash keeps the persisted store only. The rows of
committed saves are recorded to state what becomes of them. -/

namespace LineGateway.Traceability

open Foundation Config

/-- The arguments of a save, with what it reads from the clock and the session. -/
structure SaveCall (V : VariantCodec) where
  machineId : Text
  partId : AsciiDigitsOrUpper 23
  general : List SavedPartSheetItem
  operation : List SavedPartSheetItem
  context : V.Context
  now : Timestamp

namespace SaveCall

variable {V : VariantCodec} (c : SaveCall V) (F : RowFormat)

def encode : Outcome SavePartSheetsError EncodedPartSheets :=
  encodePartSheets V F c.now c.machineId c.partId c.general c.operation c.context

def run (faults : Faults) (s : Store) : Outcome SavePartSheetsError Unit × Store :=
  savePartSheets V F c.machineId c.partId c.general c.operation c.context c.now faults s

/-- The rows that the save has committed to a queue. -/
def committedRows (faults : Faults) (s : Store) (q : QueueTable) : List Text :=
  match (c.run F faults s).1, c.encode F with
  | .returned (), .returned encoded => [encoded.row q]
  | _, _ => []

/-- A save commits its row in each queue, or changes nothing. -/
theorem run_cases (faults : Faults) (s : Store) :
    ((c.run F faults s).2 = s ∧ (c.run F faults s).1 ≠ .returned () ∧
        c.committedRows F faults s = fun _ => []) ∨
      ∃ encoded, c.encode F = .returned encoded ∧
        c.run F faults s = (.returned (), s.afterSave c.partId encoded) ∧
          c.committedRows F faults s = fun q => [encoded.row q] := by
  rcases savePartSheets_cases V F c.machineId c.partId c.general c.operation c.context c.now
    faults s with ⟨m, h⟩ | ⟨e, h⟩ | ⟨encoded, henc, h⟩
  · left
    have hrun : c.run F faults s = (.panicked m, s) := h
    refine ⟨by rw [hrun], by simp [hrun], ?_⟩
    funext q
    simp [committedRows, hrun]
  · left
    have hrun : c.run F faults s = (.failed e, s) := h
    refine ⟨by rw [hrun], by simp [hrun], ?_⟩
    funext q
    simp [committedRows, hrun]
  · right
    have hrun : c.run F faults s = (.returned (), s.afterSave c.partId encoded) := h
    refine ⟨encoded, henc, hrun, ?_⟩
    funext q
    have henc' : c.encode F = .returned encoded := henc
    simp [committedRows, hrun, henc']

end SaveCall

/-- The store and the database, the two drains, and the rows of committed saves. -/
structure Archive extends Delivery where
  drain : QueueTable → DrainProg
  firstRun : Bool
  saved : QueueTable → List Text

/-- A program without a next effect. -/
def Finished : DrainProg → Prop
  | .call _ _ => False
  | _ => True

/-- The body of an insertion in flight. -/
def inFlight : DrainProg → Option Text
  | .call (.insert _ _ _ body) _ => some body
  | _ => none

/-- The next effect removes an acknowledged batch. -/
def Removing : DrainProg → Prop
  | .call (.removeEntries ..) _ => True
  | _ => False

/-- The number of acknowledged rows whose removal is the next step. -/
def awaitingRemoval : DrainProg → ℕ
  | .call (.removeEntries _ keys) _ => keys.length
  | _ => 0

namespace Archive

def initial : Archive where
  store := .fresh
  acknowledged := fun _ => []
  applied := fun _ => []
  drain := fun _ => .ret ()
  firstRun := true
  saved := fun _ => []

inductive Label (V : VariantCodec)
  | save (c : SaveCall V) (faults : Faults)
  | nextSerial (date : Calendar.Date) (faults : Faults)
  | tick
  | drain (q : QueueTable) (i : DrainInput)
  | crash (applied : QueueTable → Bool)

variable {V : VariantCodec}

def save (F : RowFormat) (a : Archive) (c : SaveCall V) (faults : Faults) : Archive :=
  { a with
    store := (c.run F faults a.store).2
    saved := fun q => a.saved q ++ c.committedRows F faults a.store q }

def nextSerial (a : Archive) (date : Calendar.Date) (faults : Faults) : Archive :=
  { a with store := (Traceability.nextSerial date faults a.store).2 }

/-- Start a run of the draining task; only the first run sends empty batches. -/
def tick (db : TraceabilityDatabase) (a : Archive) : Archive :=
  { a with drain := fun q => drainPartSheetQueue db q (!a.firstRun), firstRun := false }

/-- Perform the next effect of a drain. -/
def step (a : Archive) (q : QueueTable) (i : DrainInput) (e : DrainEffect)
    (k : e.Reply → DrainProg) : Archive :=
  { a with
    toDelivery := (performDrain e i a.toDelivery).2
    drain := Function.update a.drain q (k (performDrain e i a.toDelivery).1) }

/-- A restart on the persisted store; an insertion in flight may have been applied. -/
def crash (a : Archive) (applied : QueueTable → Bool) : Archive :=
  { a with
    applied := fun q => a.applied q ++ if applied q then (inFlight (a.drain q)).toList else []
    drain := fun _ => .ret ()
    firstRun := true }

inductive Step (db : TraceabilityDatabase) (F : RowFormat) : Archive → Label V → Archive → Prop
  | save (a : Archive) (c : SaveCall V) (faults : Faults) :
      Step db F a (.save c faults) (a.save F c faults)
  | nextSerial (a : Archive) (date : Calendar.Date) (faults : Faults) :
      Step db F a (.nextSerial date faults) (a.nextSerial date faults)
  | tick (a : Archive) (h : ∀ q, Finished (a.drain q)) : Step db F a .tick (a.tick db)
  | drain (a : Archive) (q : QueueTable) (i : DrainInput) (e : DrainEffect)
      (k : e.Reply → DrainProg) (h : a.drain q = .call e k) :
      Step db F a (.drain q i) (a.step q i e k)
  | crash (a : Archive) (applied : QueueTable → Bool) :
      Step db F a (.crash applied) (a.crash applied)

/-! ### Executing a label -/

def isFinished : DrainProg → Bool
  | .call _ _ => false
  | _ => true

theorem finished_of_isFinished {p : DrainProg} (h : isFinished p) : Finished p := by
  cases p with
  | call e k => cases h
  | _ => trivial

/-- The state after a label, if the label is possible. -/
def next (db : TraceabilityDatabase) (F : RowFormat) (a : Archive) : Label V → Option Archive
  | .save c faults => some (a.save F c faults)
  | .nextSerial date faults => some (a.nextSerial date faults)
  | .tick =>
    if isFinished (a.drain .general) && isFinished (a.drain .operation) then some (a.tick db)
    else none
  | .drain q i => match a.drain q with
    | .call e k => some (a.step q i e k)
    | _ => none
  | .crash applied => some (a.crash applied)

theorem step_of_next {db : TraceabilityDatabase} {F : RowFormat} {a a' : Archive} {l : Label V}
    (h : a.next db F l = some a') : Step db F a l a' := by
  cases l with
  | save c faults => cases h; exact .save a c faults
  | nextSerial date faults => cases h; exact .nextSerial a date faults
  | tick =>
    simp only [next, Option.ite_none_right_eq_some, Bool.and_eq_true, Option.some.injEq] at h
    obtain ⟨⟨hg, ho⟩, rfl⟩ := h
    refine .tick a fun q => ?_
    cases q with
    | general => exact finished_of_isFinished hg
    | operation => exact finished_of_isFinished ho
  | drain q i =>
    cases hp : a.drain q with
    | call e k =>
      simp only [next, hp, Option.some.injEq] at h
      subst h
      exact .drain a q i e k hp
    | _ => simp [next, hp] at h
  | crash applied => cases h; exact .crash a applied

/-! ### Conditions on steps -/

/-- No failed insertion has been applied, no removal fails, and no crash comes between
an acknowledgement and the removal. -/
def Clean (a : Archive) : Label V → Prop
  | .drain q i => match a.drain q with
    | .call (.insert ..) _ => i.insertion = .ok () ∨ i.applied = false
    | .call (.removeEntries q' keys) _ =>
      (performDrain (.removeEntries q' keys) i a.toDelivery).1 = .ok (.ok ())
    | _ => True
  | .crash applied => ∀ q, applied q = false ∧ ¬ Removing (a.drain q)
  | _ => True

/-- The step is no successful removal from the queue. -/
def NoRemoval (q : QueueTable) (a : Archive) : Label V → Prop
  | .drain q' i => match a.drain q' with
    | .call (.removeEntries q'' keys) _ => q'' = q →
      (performDrain (.removeEntries q'' keys) i a.toDelivery).1 ≠ .ok (.ok ())
    | _ => True
  | _ => True

end Archive

end LineGateway.Traceability
