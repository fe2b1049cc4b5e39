import LineGateway.Foundation.Run
import LineGateway.Traceability.Handler.CreatePartId
import LineGateway.Traceability.PartIdFormat

/-! The creations of all machines on one store. Creations start at any time, perform
their effects in any interleaving, and are abandoned at any point; the store outlives a
restart. An identifier ends with the day it was created and the serial number of that
day, and a serial number is given once, so no identifier is composed twice. -/

namespace LineGateway.Traceability

open Foundation Config Opcua Calendar

/-! ### The fields of an identifier -/

/-- The dates in use. -/
def InUse (d : Date) : Prop := 2000 ≤ d.year ∧ d.year ≤ 2099

theorem serialKey_inj {d e : Date} (h : serialKey d = serialKey e) : d = e := by
  have width : ∀ d : Date, (Text.fixed 2 d.month).length = 2 ∧ (Text.fixed 2 d.day).length = 2 :=
    fun d => ⟨Text.length_fixed (by decide) (by have := d.month_le; omega),
      Text.length_fixed (by decide) (by have := d.day_le_31; omega)⟩
  obtain ⟨hym, hday⟩ := List.append_inj' h (by rw [(width d).2, (width e).2])
  obtain ⟨hyear, hmonth⟩ := List.append_inj' hym (by rw [(width d).1, (width e).1])
  exact Date.ext (Text.fixed_injective 4 hyear) (Text.fixed_injective 2 hmonth)
    (Text.fixed_injective 2 hday)

/-- The text was composed for the day and the serial number. -/
def ComposedFor (D : DecimalClass) (d : Date) (serial : ℕ) (s : Text) : Prop :=
  ∃ raw batch lineId, createPartIdentifier D raw batch lineId d serial = .ok s

/-- An identifier determines its day and serial number. -/
theorem ComposedFor.unique {D : DecimalClass} {d e : Date} {m n : ℕ} {s : Text} (hd : InUse d)
    (he : InUse e) (h : ComposedFor D d m s) (h' : ComposedFor D e n s) : d = e ∧ m = n := by
  obtain ⟨raw, batch, lineId, h⟩ := h
  obtain ⟨raw', batch', lineId', h'⟩ := h'
  obtain ⟨hm, r, -, rfl⟩ := createPartIdentifier_ok_iff.mp h
  obtain ⟨hn, r', -, heq⟩ := createPartIdentifier_ok_iff.mp h'
  obtain ⟨hfront, hserial⟩ := List.append_inj' heq (by
    rw [length_fixed_five hm, length_fixed_five hn])
  obtain ⟨-, hday⟩ := List.append_inj' hfront (by
    rw [length_strftimeYearAndDay, length_strftimeYearAndDay])
  exact ⟨strftimeYearAndDay_inj (by have := hd.1; have := hd.2; have := he.1; have := he.2; omega)
    hday, Text.fixed_injective 5 hserial⟩

/-! ### The system -/

/-- How far the execution of a create request has come. -/
inductive Creation
  | preparing (p : HandlerProg CreatePartIdError Text)
  | writing (p : HandlerProg CreatePartIdError Unit)
  | abandoned

namespace Creation

variable (D : DecimalClass) (h : TraceabilityHandler TraceabilityContext)

def start : Creation := .preparing (preparePartId D h)

/-- Go on to the writing of the identifier once it is composed. -/
def resume : HandlerProg CreatePartIdError Text → Creation
  | .ret s => .writing (writePartId h s)
  | p => .preparing p

/-- What is left to run. -/
def rest : Creation → Option (HandlerProg CreatePartIdError Unit)
  | .preparing p => some (p >>= writePartId h)
  | .writing p => some p
  | .abandoned => none

/-- An execution starts as the whole request. -/
theorem rest_start : (start D h).rest h = some (createPartId D h) := rfl

/-- Splitting off the writing does not change what is left to run. -/
theorem rest_resume (p : HandlerProg CreatePartIdError Text) :
    (resume h p).rest h = some (p >>= writePartId h) := by
  cases p <;> rfl

end Creation

/-- The store with the executions of create requests, in the order they started. The
identifiers composed and the serial numbers asked for are recorded. -/
structure Creations where
  store : Store
  executions : List (TraceabilityHandler TraceabilityContext × Creation)
  composed : List (ℕ × Text)
  calls : Date → ℕ

namespace Creations

def initial : Creations := ⟨.fresh, [], [], fun _ => 0⟩

/-- An identifier that is there. -/
def composedBy (n : ℕ) : HandlerProg CreatePartIdError Text → List (ℕ × Text)
  | .ret s => [(n, s)]
  | _ => []

def countCall (c : Creations) : HandlerEffect → Date → ℕ
  | .nextSerial date => Function.update c.calls date (c.calls date + 1)
  | _ => c.calls

variable (V : VariantCodec)

inductive Label
  | start (h : TraceabilityHandler TraceabilityContext)
  | perform (n : ℕ) (e : HandlerEffect) (i : HandlerInput V e)
  | orphan (date : Date) (faults : Faults)
  | abandon (n : ℕ)
  | restart

variable {V} (D : DecimalClass) (F : RowFormat) (queuesThreshold : ℕ)

/-- Perform an effect of a creation that is not composed yet. -/
def prepare (c : Creations) (n : ℕ) (h : TraceabilityHandler TraceabilityContext) (e : HandlerEffect)
    (k : e.Reply → HandlerProg CreatePartIdError Text) (i : HandlerInput V e) : Creations :=
  let r := performHandler V F queuesThreshold e i ⟨c.store, []⟩
  { store := r.2.store
    executions := c.executions.set n (h, .resume h (k r.1))
    composed := c.composed ++ composedBy n (k r.1)
    calls := c.countCall e }

/-- Perform an effect of a creation whose identifier is composed. -/
def write (c : Creations) (n : ℕ) (h : TraceabilityHandler TraceabilityContext) (e : HandlerEffect)
    (k : e.Reply → HandlerProg CreatePartIdError Unit) (i : HandlerInput V e) : Creations :=
  let r := performHandler V F queuesThreshold e i ⟨c.store, []⟩
  { c with
    store := r.2.store
    executions := c.executions.set n (h, .writing (k r.1))
    calls := c.countCall e }

inductive Step : Creations → Label V → Creations → Prop
  | start (c : Creations) (h : TraceabilityHandler TraceabilityContext) :
      Step c (.start h) { c with executions := c.executions ++ [(h, .start D h)] }
  | prepare (c : Creations) (n : ℕ) (h : TraceabilityHandler TraceabilityContext) (e : HandlerEffect)
      (k : e.Reply → HandlerProg CreatePartIdError Text) (i : HandlerInput V e)
      (hn : c.executions[n]? = some (h, .preparing (.call e k))) :
      Step c (.perform n e i) (c.prepare F queuesThreshold n h e k i)
  | write (c : Creations) (n : ℕ) (h : TraceabilityHandler TraceabilityContext) (e : HandlerEffect)
      (k : e.Reply → HandlerProg CreatePartIdError Unit) (i : HandlerInput V e)
      (hn : c.executions[n]? = some (h, .writing (.call e k))) :
      Step c (.perform n e i) (c.write F queuesThreshold n h e k i)
  -- The blocking task of an abandoned creation may still run.
  | orphan (c : Creations) (date : Date) (faults : Faults) :
      Step c (.orphan date faults)
        { c with store := (nextSerial date faults c.store).2, calls := c.countCall (.nextSerial date) }
  | abandon (c : Creations) (n : ℕ) :
      Step c (.abandon n)
        { c with executions := c.executions.modify n fun x => (x.1, .abandoned) }
  | restart (c : Creations) :
      Step c .restart { c with executions := c.executions.map fun x => (x.1, .abandoned) }

/-- A serial number is asked for a day in use, fewer than `2 ^ 32 - 1` times for each. -/
def EffectAllowed (c : Creations) : HandlerEffect → Prop
  | .nextSerial date => InUse date ∧ c.calls date + 1 < 2 ^ 32 - 1
  | _ => True

def Allowed (c : Creations) : Label V → Prop
  | .perform _ e _ => c.EffectAllowed e
  | .orphan date _ => c.EffectAllowed (.nextSerial date)
  | _ => True

end Creations

/-! ### What a creation can do before its identifier is composed -/

/-- The programs of a creation before its identifier is composed. -/
inductive Preparing (D : DecimalClass) : HandlerProg CreatePartIdError Text → Prop
  | begin (h : TraceabilityHandler TraceabilityContext) : Preparing D (preparePartId D h)
  | today (partRef : Text) (batch lineId : AsciiDigitsOrUpper 2) :
      Preparing D (composeToday D partRef batch lineId)
  | compose (partRef : Text) (batch lineId : AsciiDigitsOrUpper 2) (today : Date) :
      Preparing D (composePartId D partRef batch lineId today)
  | failed (e : CreatePartIdError) : Preparing D (.fail e)

theorem Preparing.ne_ret {D : DecimalClass} {p : HandlerProg CreatePartIdError Text}
    (h : Preparing D p) (s : Text) : p ≠ .ret s := by
  cases h with
  | begin h =>
    rcases preparePartId_cases D h with hp | ⟨lineId, nodes, hp⟩ <;> rw [hp] <;> intro hc <;> cases hc
  | today => rw [composeToday_eq]; intro hc; cases hc
  | compose => rw [composePartId_eq]; intro hc; cases hc
  | failed => intro hc; cases hc

/-- The next effect is the serial number, or the identifier is not composed by it. -/
theorem Preparing.call_cases {D : DecimalClass} {e : HandlerEffect}
    {k : e.Reply → HandlerProg CreatePartIdError Text} (h : Preparing D (.call e k)) :
    (∀ r, Preparing D (k r)) ∨ ∃ partRef batch lineId today,
      Prog.call (S := handlerSignature) e k = composePartId D partRef batch lineId today := by
  generalize hp : Prog.call (S := handlerSignature) e k = p at h
  cases h with
  | begin h =>
    left
    rcases preparePartId_cases D h with hfail | ⟨lineId, nodes, hcall⟩
    · rw [hfail] at hp; cases hp
    · rw [hcall] at hp
      cases hp
      intro r
      cases r with
      | error err => exact .failed _
      | ok values =>
        rcases composeFromValues_cases (D := D) lineId values with ⟨err, he⟩ | ⟨partRef, batch, he⟩
        · simp only [he]; exact .failed err
        · simp only [he]; exact .today partRef batch lineId
  | today partRef batch lineId =>
    left
    rw [composeToday_eq] at hp
    cases hp
    exact fun r => .compose partRef batch lineId r
  | compose partRef batch lineId today =>
    exact .inr ⟨partRef, batch, lineId, today, rfl⟩
  | failed => cases hp

/-- A serial number is asked for to compose the identifier of the day. -/
theorem Preparing.nextSerial {D : DecimalClass} {date : Date}
    {k : (HandlerEffect.nextSerial date).Reply → HandlerProg CreatePartIdError Text}
    (h : Preparing D (.call (.nextSerial date) k)) :
    ∃ partRef batch lineId, k = afterSerial D partRef batch lineId date := by
  generalize hp : Prog.call (S := handlerSignature) (.nextSerial date) k = p at h
  cases h with
  | begin h =>
    rcases preparePartId_cases D h with hfail | ⟨lineId, nodes, hcall⟩
    · rw [hfail] at hp; cases hp
    · rw [hcall] at hp; cases hp
  | today partRef batch lineId => rw [composeToday_eq] at hp; cases hp
  | compose partRef batch lineId today =>
    rw [composePartId_eq] at hp
    cases hp
    exact ⟨partRef, batch, lineId, rfl⟩
  | failed => cases hp

/-- After any reply the creation is still one of these, or goes on to the writing. -/
theorem Preparing.resume {D : DecimalClass} {e : HandlerEffect}
    {k : e.Reply → HandlerProg CreatePartIdError Text} (h : Preparing D (.call e k))
    {x : TraceabilityHandler TraceabilityContext} {r : e.Reply} (p : HandlerProg CreatePartIdError Text)
    (hp : Creation.resume x (k r) = .preparing p) : Preparing D p := by
  have hresume : ∀ q, Preparing D q → Creation.resume x q = .preparing p → Preparing D p := by
    intro q hq heq
    cases q with
    | ret s => exact absurd rfl (hq.ne_ret s)
    | _ => cases heq; exact hq
  rcases h.call_cases with hk | ⟨partRef, batch, lineId, today, heq⟩
  · exact hresume _ (hk r) hp
  · rw [composePartId_eq] at heq
    cases heq
    rcases afterSerial_cases D partRef batch lineId today r with ⟨e, he, -⟩ | ⟨serial, s, -, -, hs⟩
    · rw [he] at hp
      exact hresume _ (.failed e) hp
    · rw [hs] at hp
      cases hp

/-! ### Serial numbers are given once -/

/-- The serial table follows the calls, and every identifier composed carries a serial
number already given, no two of them the same text. -/
structure Counts (D : DecimalClass) (store : Store) (composed : List (ℕ × Text))
    (calls : Date → ℕ) : Prop where
  counted : ∀ d v, InUse d → store.serials.get (serialKey d) = some v → v ≤ calls d
  calls_lt : ∀ d, calls d < 2 ^ 32 - 1
  given : ∀ x ∈ composed, ∃ d serial, InUse d ∧ ComposedFor D d serial x.2 ∧
    ∃ v, store.serials.get (serialKey d) = some v ∧ serial ≤ v
  distinct : composed.Pairwise fun x y => x.2 ≠ y.2

namespace Counts

variable {D : DecimalClass} {store : Store} {composed : List (ℕ × Text)} {calls : Date → ℕ}
  {date : Date}

theorem initial : Counts D .fresh [] fun _ => 0 where
  counted d v _ h := by simp [Store.fresh, Store.serials, Table.get] at h
  calls_lt _ := by decide
  given x hx := by simp at hx
  distinct := .nil

theorem congr {store' : Store} (h : Counts D store composed calls)
    (hs : store'.serials = store.serials) : Counts D store' composed calls where
  counted := hs ▸ h.counted
  calls_lt := h.calls_lt
  given := hs ▸ h.given
  distinct := h.distinct

/-- A call that gives no serial number. -/
theorem count (h : Counts D store composed calls) (hlt : calls date + 1 < 2 ^ 32 - 1) :
    Counts D store composed (Function.update calls date (calls date + 1)) where
  counted d v hd hv := by
    have := h.counted d v hd hv
    by_cases heq : d = date
    · subst heq; rw [Function.update_self]; omega
    · rwa [Function.update_of_ne heq]
  calls_lt d := by
    by_cases heq : d = date
    · subst heq; rwa [Function.update_self]
    · rw [Function.update_of_ne heq]; exact h.calls_lt d
  given := h.given
  distinct := h.distinct

/-- The counter of a date in use is below its bound, so the next number is above the last. -/
theorem serialAfter_eq (h : Counts D store composed calls) (hd : InUse date) {v : ℕ}
    (hv : store.serials.get (serialKey date) = some v) : store.serialAfter date = v + 1 := by
  have hle := h.counted date v hd hv
  have hlt := h.calls_lt date
  simp only [Store.serialAfter, hv]
  exact Nat.mod_eq_of_lt (by omega)

/-- The next serial number of a date is above all those given for it. -/
theorem serial_lt (h : Counts D store composed calls) (hd : InUse date) {x : ℕ × Text}
    (hx : x ∈ composed) {serial : ℕ} (hc : ComposedFor D date serial x.2) :
    serial < store.serialAfter date := by
  obtain ⟨d, n, hin, hcomp, v, hv, hle⟩ := h.given x hx
  obtain ⟨rfl, rfl⟩ := hc.unique hd hin hcomp
  rw [h.serialAfter_eq hd hv]
  omega

theorem nextSerial (h : Counts D store composed calls) (hd : InUse date)
    (hlt : calls date + 1 < 2 ^ 32 - 1) :
    Counts D (store.afterNextSerial date) composed
      (Function.update calls date (calls date + 1)) where
  counted d v hin hv := by
    rw [Store.afterNextSerial_serials] at hv
    by_cases heq : d = date
    · subst heq
      rw [Table.get_insert_self, Option.some.injEq] at hv
      rw [Function.update_self, ← hv]
      cases hlast : store.serials.get (serialKey d) with
      | none => simp [Store.serialAfter, hlast]
      | some w =>
        rw [h.serialAfter_eq hin hlast]
        exact Nat.succ_le_succ (h.counted d w hin hlast)
    · rw [Table.get_insert_of_ne fun hk => heq (serialKey_inj hk)] at hv
      rw [Function.update_of_ne heq]
      exact h.counted d v hin hv
  calls_lt := (h.count hlt).calls_lt
  given x hx := by
    obtain ⟨d, serial, hin, hcomp, v, hv, hle⟩ := h.given x hx
    refine ⟨d, serial, hin, hcomp, ?_⟩
    rw [Store.afterNextSerial_serials]
    by_cases heq : d = date
    · subst heq
      exact ⟨_, Table.get_insert_self .., by rw [h.serialAfter_eq hin hv]; omega⟩
    · rw [Table.get_insert_of_ne fun hk => heq (serialKey_inj hk)]
      exact ⟨v, hv, hle⟩
  distinct := h.distinct

/-- The identifier composed with the next serial number is a new one. -/
theorem compose (h : Counts D store composed calls) (hd : InUse date)
    (hlt : calls date + 1 < 2 ^ 32 - 1) {s : Text}
    (hs : ComposedFor D date (store.serialAfter date) s) (n : ℕ) :
    Counts D (store.afterNextSerial date) (composed ++ [(n, s)])
      (Function.update calls date (calls date + 1)) where
  counted := (h.nextSerial hd hlt).counted
  calls_lt := (h.nextSerial hd hlt).calls_lt
  given x hx := by
    rcases List.mem_append.mp hx with hx | hx
    · exact (h.nextSerial hd hlt).given x hx
    · rw [List.mem_singleton.mp hx]
      exact ⟨date, _, hd, hs, _, Table.get_insert_self .., le_rfl⟩
  distinct := by
    refine List.pairwise_append.mpr ⟨h.distinct, List.pairwise_singleton .., ?_⟩
    intro x hx y hy
    rw [List.mem_singleton.mp hy]
    rintro rfl
    exact (h.serial_lt hd hx hs).false

end Counts

/-! ### The invariant of a run -/

section Perform

variable {V : VariantCodec} {F : RowFormat} {queuesThreshold : ℕ} {s : Site}

variable (V F queuesThreshold) in
/-- A serial number is given and recorded, or nothing changes. -/
theorem performHandler_nextSerial (date : Date) (i : Except JoinError Faults)
    (s : Site) : (∃ r, performHandler V F queuesThreshold (.nextSerial date) i s = (r, s) ∧
        ∀ serial, r ≠ .ok (.ok serial)) ∨
      performHandler V F queuesThreshold (.nextSerial date) i s =
        (.ok (.ok (s.store.serialAfter date)), { s with store := s.store.afterNextSerial date }) := by
  cases i with
  | error e => exact .inl ⟨.error e, rfl, by simp⟩
  | ok faults =>
    rcases nextSerial_cases date faults s.store with ⟨e, he⟩ | hok
    · exact .inl ⟨.ok (.error e), by simp [performHandler, he], by simp⟩
    · exact .inr (by simp [performHandler, hok])

/-- No other effect changes the serial table. -/
theorem performHandler_serials {e : HandlerEffect} (i : HandlerInput V e)
    (he : ∀ date, e ≠ .nextSerial date) :
    (performHandler V F queuesThreshold e i s).2.store.serials = s.store.serials := by
  cases e with
  | nextSerial date => exact absurd rfl (he date)
  | getGeneralPartSheet partId => rcases i with e | ⟨faults, ctx⟩ <;> rfl
  | savePartSheets machineId partId general operation =>
    rcases i with e | ⟨faults, ctx, now⟩
    · rfl
    · rcases savePartSheets_cases V F machineId partId general operation ctx now faults s.store with
        ⟨m, h⟩ | ⟨e, h⟩ | ⟨encoded, -, h⟩ <;> simp [performHandler, h]
  | _ => rfl

end Perform

namespace Creations

variable {V : VariantCodec} {D : DecimalClass} {F : RowFormat} {queuesThreshold : ℕ}

structure Inv (D : DecimalClass) (c : Creations) : Prop where
  preparing : ∀ (n : ℕ) h p, c.executions[n]? = some (h, Creation.preparing p) → Preparing D p
  counts : Counts D c.store c.composed c.calls

theorem initial_inv : Inv D initial where
  preparing n h p hn := by simp [initial] at hn
  counts := .initial

variable (F queuesThreshold) in
/-- An effect whose reply composes nothing keeps the counts. -/
theorem Inv.perform {c : Creations} (h : Inv D c) (e : HandlerEffect) (i : HandlerInput V e)
    (hok : c.EffectAllowed e) :
    Counts D (performHandler V F queuesThreshold e i ⟨c.store, []⟩).2.store c.composed
      (c.countCall e) := by
  by_cases he : ∃ date, e = .nextSerial date
  · obtain ⟨date, rfl⟩ := he
    rcases performHandler_nextSerial V F queuesThreshold date i ⟨c.store, []⟩ with
      ⟨r, hr, -⟩ | hr <;> rw [hr]
    · exact h.counts.count hok.2
    · exact h.counts.nextSerial hok.1 hok.2
  · have hne : ∀ date, e ≠ .nextSerial date := fun date heq => he ⟨date, heq⟩
    have hcount : c.countCall e = c.calls := by
      cases e with
      | nextSerial date => exact absurd rfl (hne date)
      | _ => rfl
    rw [hcount]
    exact h.counts.congr (performHandler_serials i hne)

/-- Other executions are not concerned by what one of them becomes. -/
theorem preparing_set {c : Creations}
    (h : ∀ (n : ℕ) x p, c.executions[n]? = some (x, Creation.preparing p) → Preparing D p) {n : ℕ}
    {x : TraceabilityHandler TraceabilityContext} {next : Creation}
    (hx : ∀ p, next = .preparing p → Preparing D p) :
    ∀ (m : ℕ) y p, (c.executions.set n (x, next))[m]? = some (y, Creation.preparing p) →
      Preparing D p := by
  intro m y p hm
  rw [List.getElem?_set] at hm
  split at hm
  · split at hm
    · simp only [Option.some.injEq, Prod.mk.injEq] at hm
      exact hx p hm.2
    · cases hm
  · exact h m y p hm

theorem Step.preparing {c c' : Creations} {l : Label V} (hs : Step D F queuesThreshold c l c')
    (h : ∀ (n : ℕ) x p, c.executions[n]? = some (x, Creation.preparing p) → Preparing D p) :
    ∀ (n : ℕ) x p, c'.executions[n]? = some (x, Creation.preparing p) → Preparing D p := by
  cases hs with
  | start x =>
    intro n y p hn
    rw [List.getElem?_append] at hn
    split at hn
    · exact h n y p hn
    · have := List.mem_of_getElem? hn
      simp only [List.mem_singleton, Prod.mk.injEq, Creation.start, Creation.preparing.injEq] at this
      exact this.2 ▸ .begin x
  | prepare n x e k i hn => exact preparing_set h (h n x _ hn).resume
  | write n x e k i hn => exact preparing_set h fun _ hp => nomatch hp
  | orphan date faults => exact h
  | abandon n =>
    intro m x p hm
    rw [List.getElem?_modify] at hm
    split at hm
    · simp at hm
    · exact h m x p (by simpa using hm)
  | restart =>
    intro m x p hm
    simp at hm

theorem prepare_counts_of_preparing {c : Creations} {n : ℕ}
    {h : TraceabilityHandler TraceabilityContext} {e : HandlerEffect}
    {k : e.Reply → HandlerProg CreatePartIdError Text} {i : HandlerInput V e} (hinv : Inv D c)
    (hok : c.EffectAllowed e)
    (hk : Preparing D (k (performHandler V F queuesThreshold e i ⟨c.store, []⟩).1)) :
    Counts D (c.prepare F queuesThreshold n h e k i).store
      (c.prepare F queuesThreshold n h e k i).composed
      (c.prepare F queuesThreshold n h e k i).calls := by
  have hcounts := hinv.perform F queuesThreshold e i hok
  simp only [prepare]
  generalize performHandler V F queuesThreshold e i ⟨c.store, []⟩ = r at hk hcounts ⊢
  generalize k r.1 = p at hk ⊢
  cases p with
  | ret s => exact absurd rfl (hk.ne_ret s)
  | _ => simpa [composedBy] using hcounts

theorem prepare_counts {c : Creations} {n : ℕ} {h : TraceabilityHandler TraceabilityContext}
    {e : HandlerEffect} {k : e.Reply → HandlerProg CreatePartIdError Text} {i : HandlerInput V e}
    (hinv : Inv D c) (hn : c.executions[n]? = some (h, .preparing (.call e k)))
    (hok : c.EffectAllowed e) : Counts D (c.prepare F queuesThreshold n h e k i).store
      (c.prepare F queuesThreshold n h e k i).composed
      (c.prepare F queuesThreshold n h e k i).calls := by
  rcases (hinv.preparing n h _ hn).call_cases with hk | ⟨partRef, batch, lineId, today, hp⟩
  · exact prepare_counts_of_preparing hinv hok (hk _)
  · rw [composePartId_eq] at hp
    cases hp
    rcases afterSerial_cases D partRef batch lineId today
      (performHandler V F queuesThreshold (.nextSerial today) i ⟨c.store, []⟩).1 with
        ⟨e, he, -⟩ | ⟨serial, s, hr, hcreate, hs⟩
    · exact prepare_counts_of_preparing hinv hok (he ▸ .failed e)
    · -- The serial number has been given, and the identifier is composed with it.
      unfold prepare
      rcases performHandler_nextSerial V F queuesThreshold today i ⟨c.store, []⟩ with
        ⟨r, heq, hne⟩ | heq
      · rw [heq] at hr
        exact absurd hr (hne serial)
      · rw [heq] at hr hs ⊢
        cases hr
        simp only at hs ⊢
        rw [hs]
        exact hinv.counts.compose hok.1 hok.2 ⟨partRef, batch, lineId, hcreate⟩ n

theorem Step.inv {c c' : Creations} {l : Label V} (hs : Step D F queuesThreshold c l c')
    (hinv : Inv D c) (hok : c.Allowed l) : Inv D c' := by
  refine ⟨hs.preparing hinv.preparing, ?_⟩
  cases hs with
  | prepare n h e k i hn => exact prepare_counts hinv hn hok
  | write n h e k i hn => exact hinv.perform F queuesThreshold e i hok
  | orphan date faults =>
    exact hinv.perform (V := V) F queuesThreshold (.nextSerial date) (.ok faults) hok
  | _ => exact hinv.counts

/-- No two identifiers composed in a run are the same text. -/
theorem identifiers_unique {c : Creations} {ls : List (Label V)}
    (hr : Run (guarded (Step D F queuesThreshold) Allowed) initial ls c) :
    c.composed.Pairwise fun x y => x.2 ≠ y.2 := by
  have hinv : Inv D c := hr.invariant (fun _ _ _ h hs => hs.1.inv h hs.2) initial_inv
  exact hinv.counts.distinct

/-- A handler that creates identifiers for line 42. -/
def sampleHandler : TraceabilityHandler TraceabilityContext where
  serverId := "MAC1".toList
  commonOpcuaConfig := ⟨"urn:common".toList, 1, 2, 3, 4, 5, 6, 7, []⟩
  machineConfig := ⟨10 ^ 9, some sampleLine, ⟨"urn:machine".toList, 8⟩⟩
  state :=
    { protocol := ⟨.new 1 1, .new 1 2, .new 1 3⟩
      generalPartSheet := ⟨1, [(5, "PartId".toList)], 0⟩
      operationPartSheet := ⟨2, []⟩ }

def sampleVariables : List DataValue :=
  [⟨some (.string (some "1-498GR13".toList)), none⟩, ⟨some (.string (some "AA".toList)), none⟩]

def sampleDate : Date := ⟨2026, 12, 9, by decide, by decide, by decide⟩

/-- A creation up to its identifier. -/
def sampleCreation (n : ℕ) : List (Label plainCodec) :=
  [.start sampleHandler, .perform n (.read [.new 1 6, .new 1 7]) (.ok sampleVariables),
    .perform n .nowZoned sampleDate, .perform n (.nextSerial sampleDate) (.ok noFaults)]

/-- Two creations from the same variables on the same day. -/
theorem identifiers_unique_same_variables :
    ∃ c, Run (guarded (Step asciiDecimal epochFormat 10) Allowed) initial
        (sampleCreation 0 ++ sampleCreation 1) c ∧
      c.composed = [(0, "010498013AA422634300001".toList), (1, "010498013AA422634300002".toList)] ∧
        c.composed.Pairwise fun x y => x.2 ≠ y.2 := by
  have hrun : ∃ c, Run (guarded (Step asciiDecimal epochFormat 10) Allowed) initial
      (sampleCreation 0 ++ sampleCreation 1) c ∧ c.composed =
        [(0, "010498013AA422634300001".toList), (1, "010498013AA422634300002".toList)] :=
    ⟨_, .cons ⟨.start _ _, trivial⟩ <| .cons ⟨.prepare _ 0 sampleHandler _ _ _ rfl, trivial⟩ <|
      .cons ⟨.prepare _ 0 sampleHandler _ _ _ rfl, trivial⟩ <|
      .cons ⟨.prepare _ 0 sampleHandler _ _ _ rfl, ⟨by decide, by decide⟩, by decide⟩ <|
      .cons ⟨.start _ _, trivial⟩ <| .cons ⟨.prepare _ 1 sampleHandler _ _ _ rfl, trivial⟩ <|
      .cons ⟨.prepare _ 1 sampleHandler _ _ _ rfl, trivial⟩ <|
      .cons ⟨.prepare _ 1 sampleHandler _ _ _ rfl, ⟨by decide, by decide⟩, by decide⟩ <| .nil _, rfl⟩
  obtain ⟨c, hr, hc⟩ := hrun
  exact ⟨c, hr, hc, identifiers_unique hr⟩

end Creations

end LineGateway.Traceability
