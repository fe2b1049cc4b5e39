import LineGateway.Foundation.JsonParse
import LineGateway.Traceability.Sequence

/-! A batch of a queue read back. A serialised value represents the variant, a row is
parsed as an object with the time, machine and part of its save and the values of its
part sheet in order, and the body of a batch is cut into one such row for each key. -/

namespace LineGateway.Opcua

open Foundation

/-- Finite floats are written as numbers with a fraction or an exponent. -/
structure FloatFormat.Valid (F : FloatFormat) : Prop where
  float : ∀ bits token, F.float bits = some token → Json.IsFloat token.text
  double : ∀ bits token, F.double bits = some token → Json.IsFloat token.text

/-- The value is the variant: nulls, booleans, integers and strings as they are, and
arrays element by element. -/
inductive Represents (F : FloatFormat) : Variant → Json → Prop
  | empty : Represents F .empty .null
  | boolean (v : Bool) : Represents F (.boolean v) (.bool v)
  | sByte (v : Int8) : Represents F (.sByte v) (.int v.toInt)
  | byte (v : UInt8) : Represents F (.byte v) (.int v.toNat)
  | int16 (v : Int16) : Represents F (.int16 v) (.int v.toInt)
  | uInt16 (v : UInt16) : Represents F (.uInt16 v) (.int v.toNat)
  | int32 (v : Int32) : Represents F (.int32 v) (.int v.toInt)
  | uInt32 (v : UInt32) : Represents F (.uInt32 v) (.int v.toNat)
  | int64 (v : Int64) : Represents F (.int64 v) (.int v.toInt)
  | uInt64 (v : UInt64) : Represents F (.uInt64 v) (.int v.toNat)
  | float (bits : UInt32) : Represents F (.float bits) (FloatFormat.json (F.float bits))
  | double (bits : UInt64) : Represents F (.double bits) (FloatFormat.json (F.double bits))
  | nullString : Represents F (.string none) .null
  | string (s : Text) : Represents F (.string (some s)) (.string s)
  | array (t : ScalarTypeId) {values : List Variant} {items : List Json}
      (h : List.Forall₂ (Represents F) values items) :
      Represents F (.array t values none) (.array items)

section Serialize

variable {F : FloatFormat}

theorem FloatFormat.grammatical_json {o : Option NumberToken}
    (h : ∀ token, o = some token → Json.IsFloat token.text) :
    (FloatFormat.json o).Grammatical := by
  cases o with
  | none => trivial
  | some token => exact h token rfl

theorem serializeElements_cons_ok {v : Variant} {vs : List Variant} {js : List Json}
    (h : serializeElements F (v :: vs) = .ok js) :
    ∃ j js', serializeVariant F v = .ok j ∧ serializeElements F vs = .ok js' ∧ js = j :: js' := by
  rw [serializeElements] at h
  cases hv : serializeVariant F v with
  | error e => rw [hv] at h; cases h
  | ok j =>
    cases hvs : serializeElements F vs with
    | error e => rw [hv, hvs] at h; cases h
    | ok js' =>
      rw [hv, hvs] at h
      cases h
      exact ⟨j, js', rfl, rfl, rfl⟩

theorem serializeVariant_array_ok {t : ScalarTypeId} {values : List Variant}
    {dimensions : Option (List UInt32)} {j : Json}
    (h : serializeVariant F (.array t values dimensions) = .ok j) :
    dimensions = none ∧ ∃ items, serializeElements F values = .ok items ∧ j = .array items := by
  rw [serializeVariant] at h
  cases dimensions with
  | some ds => cases h
  | none =>
    cases hvs : serializeElements F values with
    | error e => rw [hvs] at h; cases h
    | ok items =>
      rw [hvs] at h
      cases h
      exact ⟨rfl, items, rfl, rfl⟩

mutual

theorem serializeVariant_represents : (v : Variant) → ∀ {j : Json},
    serializeVariant F v = .ok j → Represents F v j
  | .empty, _, h => by cases h; exact .empty
  | .boolean v, _, h => by cases h; exact .boolean v
  | .sByte v, _, h => by cases h; exact .sByte v
  | .byte v, _, h => by cases h; exact .byte v
  | .int16 v, _, h => by cases h; exact .int16 v
  | .uInt16 v, _, h => by cases h; exact .uInt16 v
  | .int32 v, _, h => by cases h; exact .int32 v
  | .uInt32 v, _, h => by cases h; exact .uInt32 v
  | .int64 v, _, h => by cases h; exact .int64 v
  | .uInt64 v, _, h => by cases h; exact .uInt64 v
  | .float bits, _, h => by cases h; exact .float bits
  | .double bits, _, h => by cases h; exact .double bits
  | .string none, _, h => by cases h; exact .nullString
  | .string (some s), _, h => by cases h; exact .string s
  | .array t values dimensions, _, h => by
    obtain ⟨rfl, items, hitems, rfl⟩ := serializeVariant_array_ok h
    exact .array t (serializeElements_represents values hitems)
  | .other _ _, _, h => by cases h

theorem serializeElements_represents : (vs : List Variant) → ∀ {js : List Json},
    serializeElements F vs = .ok js → List.Forall₂ (Represents F) vs js
  | [], _, h => by cases h; exact .nil
  | v :: vs, _, h => by
    obtain ⟨j, js', hv, hvs, rfl⟩ := serializeElements_cons_ok h
    exact .cons (serializeVariant_represents v hv) (serializeElements_represents vs hvs)

end

mutual

theorem serializeVariant_grammatical (hF : F.Valid) : (v : Variant) → ∀ {j : Json},
    serializeVariant F v = .ok j → j.Grammatical
  | .empty, _, h | .boolean _, _, h | .sByte _, _, h | .byte _, _, h | .int16 _, _, h
  | .uInt16 _, _, h | .int32 _, _, h | .uInt32 _, _, h | .int64 _, _, h | .uInt64 _, _, h
  | .string none, _, h | .string (some _), _, h => by cases h; trivial
  | .float bits, _, h => by cases h; exact FloatFormat.grammatical_json (hF.float bits)
  | .double bits, _, h => by cases h; exact FloatFormat.grammatical_json (hF.double bits)
  | .array _ values _, _, h => by
    obtain ⟨rfl, items, hitems, rfl⟩ := serializeVariant_array_ok h
    rw [Json.Grammatical]
    exact serializeElements_grammatical hF values hitems
  | .other _ _, _, h => by cases h

theorem serializeElements_grammatical (hF : F.Valid) : (vs : List Variant) → ∀ {js : List Json},
    serializeElements F vs = .ok js → Json.GrammaticalItems js
  | [], _, h => by cases h; trivial
  | v :: vs, _, h => by
    obtain ⟨j, js', hv, hvs, rfl⟩ := serializeElements_cons_ok h
    rw [Json.GrammaticalItems]
    exact ⟨serializeVariant_grammatical hF v hv, serializeElements_grammatical hF vs hvs⟩

end

end Serialize

end LineGateway.Opcua

namespace LineGateway.Traceability

open Foundation Config Opcua

/-- The field of a row for an item of a part sheet. -/
def FieldOf (F : RowFormat) (item : SavedPartSheetItem) (field : Text × Json) : Prop :=
  field.1 = item.name ∧ Represents F.toFloatFormat item.value field.2

/-- The object of a row, with the fields of its data. -/
def rowObject (F : RowFormat) (savedAt : Timestamp) (machineId : Text)
    (partId : AsciiDigitsOrUpper 23) (fields : List (Text × Json)) : Json :=
  .object
    [("saved_at".toList, .string (F.timestamp savedAt)), ("machine_id".toList, .string machineId),
      ("part_id".toList, .string partId.asStr), ("data".toList, .object fields)]

section Row

variable {F : RowFormat} {savedAt : Timestamp} {machineId : Text} {partId : AsciiDigitsOrUpper 23}
  {partSheet : List SavedPartSheetItem}

/-- The fields of the data are those of the items, in order. -/
theorem serializePartSheet_fields (hF : F.Valid) {fields : List (Text × Json)}
    (h : serializePartSheet F partSheet = .ok fields) :
    List.Forall₂ (FieldOf F) partSheet fields ∧ Json.GrammaticalFields fields := by
  induction partSheet generalizing fields with
  | nil =>
    cases h
    exact ⟨.nil, trivial⟩
  | cons item rest ih =>
    obtain ⟨value, hvalue, h⟩ := bind_ok_iff.mp h
    obtain ⟨tail, htail, h⟩ := bind_ok_iff.mp h
    cases h
    obtain ⟨hfields, hgrammar⟩ := ih htail
    refine ⟨.cons ⟨rfl, serializeVariant_represents item.value hvalue⟩ hfields, ?_⟩
    rw [Json.GrammaticalFields]
    exact ⟨serializeVariant_grammatical hF item.value hvalue, hgrammar⟩

/-- A row is parsed as the object of what was saved. -/
theorem parse_row (hF : F.Valid) {row : Text}
    (h : encodePartSheetForDb F savedAt machineId partId partSheet = .ok row) :
    ∃ fields, List.Forall₂ (FieldOf F) partSheet fields ∧
      Json.parse row = some (rowObject F savedAt machineId partId fields) := by
  obtain ⟨j, hj, h⟩ := bind_ok_iff.mp h
  cases h
  obtain ⟨fields, hfields, hj⟩ := bind_ok_iff.mp hj
  cases hj
  obtain ⟨hitems, hgrammar⟩ := serializePartSheet_fields hF hfields
  refine ⟨fields, hitems, Json.parse_render ?_⟩
  simpa [Json.Grammatical, Json.GrammaticalFields] using hgrammar

end Row

namespace SaveCall

variable {V : VariantCodec}

/-- The part sheet that a save writes to a queue. -/
def sheet (c : SaveCall V) : QueueTable → List SavedPartSheetItem
  | .general => c.general
  | .operation => c.operation

theorem Encodes.row {F : RowFormat} {c : SaveCall V} {q : QueueTable} {row : Text}
    (h : c.Encodes F q row) :
    encodePartSheetForDb F c.now c.machineId c.partId (c.sheet q) = .ok row := by
  obtain ⟨encoded, henc, rfl⟩ := h
  obtain ⟨-, hgeneral, hoperation⟩ := encodePartSheets_returned henc
  cases q with
  | general => exact hgeneral
  | operation => exact hoperation

/-- The row read as JSON is the object of the save for the queue. -/
def ReadBack (F : RowFormat) (c : SaveCall V) (q : QueueTable) (row : Text) : Prop :=
  ∃ fields, List.Forall₂ (FieldOf F) (c.sheet q) fields ∧
    Json.parse row = some (rowObject F c.now c.machineId c.partId fields)

theorem Encodes.readBack {F : RowFormat} {c : SaveCall V} {q : QueueTable} {row : Text}
    (hF : F.Valid) (h : c.Encodes F q row) : c.ReadBack F q row := parse_row hF h.row

end SaveCall

namespace QueueRun

variable {V : VariantCodec} {F : RowFormat} {s s' : QueueRun V} {l : Label V} {ls : List (Label V)}

/-- Every row in a queue is that of a committed save. -/
def Saved (F : RowFormat) (s : QueueRun V) : Prop :=
  ∀ q, ∀ e ∈ (s.store.rows q).entries, ∃ c ∈ s.history, c.Encodes F q e.2

theorem Saved.step (h : Saved F s) (hs : Step F s l s') : Saved F s' := by
  rcases hs.cases with rfl | ⟨c, encoded, henc, rfl⟩ | ⟨q, keys, rfl⟩ | ⟨date, rfl⟩
  · exact h
  · intro q e he
    rw [Store.afterSave_rows, Table.mem_insert] at he
    rcases he with rfl | ⟨he, -⟩
    · exact ⟨c, by simp, encoded, henc, rfl⟩
    · obtain ⟨c', hc', hrow⟩ := h q e he
      exact ⟨c', List.mem_append_left _ hc', hrow⟩
  · intro q' e he
    by_cases hq : q' = q
    · subst hq
      rw [Store.afterRemove_rows_self, Table.removeAll_entries] at he
      exact h q' e (List.mem_filter.mp he).1
    · rw [Store.afterRemove_rows_of_ne _ _ _ hq] at he
      exact h q' e he
  · exact h

theorem run_saved (hr : Run (Step F) initial ls s) : Saved F s :=
  hr.invariant (fun _ _ _ h hs => h.step hs) fun q e he => by cases he

/-- Of a row of a queue: its save, which is the one told by the key as long as keys are
not used twice. -/
structure RowOf (F : RowFormat) (s : QueueRun V) (q : QueueTable) (key : ℕ) (row : Text)
    (n : ℕ) (c : SaveCall V) : Prop where
  save : s.history[n]? = some c
  rank : s.history.length < 2 ^ 63 → key = q.key n
  readBack : c.ReadBack F q row

theorem exists_rowOf (hF : F.Valid) (hr : Run (Step F) initial ls s) {q : QueueTable} {e : ℕ × Text}
    (he : e ∈ (s.store.rows q).entries) : ∃ n c, RowOf F s q e.1 e.2 n c := by
  by_cases hlen : s.history.length < 2 ^ 63
  · obtain ⟨n, c, hc, hkey, henc⟩ := (run_numbered hr hlen).queued q e he
    exact ⟨n, c, hc, fun _ => hkey, henc.readBack hF⟩
  · obtain ⟨c, hc, henc⟩ := run_saved hr q e he
    obtain ⟨n, hn⟩ := List.mem_iff_getElem?.mp hc
    exact ⟨n, c, hn, fun hlt => absurd hlt hlen, henc.readBack hF⟩

/-- The keys and the body of a batch: the keys increase, and the body is cut into one row
for each key, in order, with nothing left over. -/
structure BatchImage (F : RowFormat) (s : QueueRun V) (q : QueueTable) (keys : List ℕ)
    (body : Text) : Prop where
  increasing : keys.Pairwise (· < ·)
  whole : keys = (s.store.rows q).keys
  rows : ∃ rows, Text.cut body = (rows, []) ∧
    List.Forall₂ (fun key row => ∃ n c, RowOf F s q key row n c) keys rows

theorem newline_not_mem_values (hr : Run (Step F) initial ls s) (q : QueueTable) :
    ∀ row ∈ (s.store.rows q).values, '\n' ∉ row := by
  intro row hrow
  obtain ⟨e, he, rfl⟩ := List.mem_map.mp hrow
  obtain ⟨c, -, henc⟩ := run_saved hr q e he
  exact newline_not_mem_row henc.row

/-- In every state of every run a batch can be read, and what is read is the image of the
queue. -/
theorem batch_image (hF : F.Valid) (hr : Run (Step F) initial ls s) (q : QueueTable) :
    (∃ r, getQueueBatch q noFaults s.store = .ok r) ∧
      ∀ faults keys body, getQueueBatch q faults s.store = .ok (keys, body) →
        BatchImage F s q keys body := by
  refine ⟨⟨_, getQueueBatch_noFaults q s.store⟩, fun faults keys body h => ?_⟩
  rcases getQueueBatch_cases q faults s.store with ⟨e, he⟩ | hok
  · rw [he] at h
    cases h
  · rw [hok] at h
    cases h
    refine ⟨List.pairwise_map.mpr (s.store.rows q).sorted, rfl, (s.store.rows q).values,
      Text.cut_framed (newline_not_mem_values hr q), ?_⟩
    rw [Table.keys, Table.values, List.forall₂_map_left_iff, List.forall₂_map_right_iff,
      List.forall₂_same]
    exact fun e he => exists_rowOf hF hr he

/-- A save with a quote, a backslash, a newline and a letter out of ASCII in its texts. -/
def quotedSave : SaveCall plainCodec :=
  { sampleSave with
    machineId := "a\"\\".toList
    general := [⟨7, "Gr\nöße".toList, .string (some "\t\"x\"\n".toList)⟩] }

theorem epochFormat_valid : epochFormat.Valid where
  float _ _ h := by cases h
  double _ _ h := by cases h

theorem batch_image_quoted : ∃ s : QueueRun plainCodec,
    Run (Step epochFormat) initial [.save quotedSave noFaults, .save sampleSave noFaults] s ∧
      ∃ body, getQueueBatch .general noFaults s.store = .ok ([0, 2], body) ∧
        BatchImage epochFormat s .general [0, 2] body := by
  have hrun : ∃ (s : QueueRun plainCodec) (body : Text),
      Run (Step epochFormat) initial [.save quotedSave noFaults, .save sampleSave noFaults] s ∧
        getQueueBatch .general noFaults s.store = .ok ([0, 2], body) :=
    ⟨_, _, .cons rfl <| .cons rfl <| .nil _, rfl⟩
  obtain ⟨s, body, hr, hbatch⟩ := hrun
  exact ⟨s, hr, body, hbatch, (batch_image epochFormat_valid hr .general).2 noFaults _ _ hbatch⟩

end QueueRun

end LineGateway.Traceability
