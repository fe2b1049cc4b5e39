import LineGateway.Traceability.Batch
import LineGateway.Traceability.Line

/-! What the validation of part identifiers accepts, and what it protects. It accepts
exactly the identifiers with a reference and a serial number of digits and with five
digits of a day that the year of the archive has, whatever century the gateway reads it
in. No other identifier reaches the cache or the queues, so the column expressions of the
archive tables give a date for every row. -/

namespace LineGateway.Traceability

open Foundation Config Opcua Calendar

/-! ### The day of an identifier -/

/-- A number is read from at least one and at most `w` digits. -/
theorem takeNumber_some {w n : ℕ} {s r : Text} (h : takeNumber w s = some (n, r)) :
    ∃ a, a ≠ [] ∧ Text.Digits a ∧ a.length ≤ w ∧ s = a ++ r ∧ n = Text.value a := by
  simp only [takeNumber] at h
  split_ifs at h with hne
  cases h
  have hacked : (s.take w).takeWhile Char.isDigit <+: s :=
    (List.takeWhile_prefix _).trans (List.take_prefix w s)
  refine ⟨_, hne, fun c hc => List.mem_takeWhile_imp hc, ?_, ?_, rfl⟩
  · exact (List.takeWhile_prefix _).length_le.trans (List.length_take_le w s)
  · exact (List.prefix_iff_eq_append.mp hacked).symm

/-- The two readings of a two-digit year give years of the same length. -/
theorem daysInYear_pivotYear {yy : ℕ} (h : yy < 100) :
    daysInYear (pivotYear yy) = daysInYear (2000 + yy) := by
  unfold pivotYear
  split_ifs with hpivot
  · rfl
  · have hleap : isLeap (1900 + yy) = isLeap (2000 + yy) := by
      rw [Bool.eq_iff_iff]
      simp only [isLeap, decide_eq_true_eq]
      omega
    rw [daysInYear, daysInYear, hleap]

/-- The day exists in the year. -/
def DayExists (year day : ℕ) : Prop := 1 ≤ day ∧ day ≤ daysInYear year

instance (year day : ℕ) : Decidable (DayExists year day) := inferInstanceAs (Decidable (_ ∧ _))

/-- Five characters are read as a day exactly when they are digits of a day of a year
from 2000 on. -/
theorem strptimeYearAndDay_isSome_iff {s : Text} (hlen : s.length = 5) :
    (strptimeYearAndDay s).isSome ↔ Text.Digits s ∧
      DayExists (2000 + Text.value (s.take 2)) (Text.value (s.drop 2)) := by
  have hread : ∀ {a b : Text}, Text.Digits a → a.length = 2 → Text.Digits b → b.length = 3 →
      ((strptimeYearAndDay (a ++ b)).isSome ↔
        DayExists (2000 + Text.value a) (Text.value b)) := by
    intro a b ha hla hb hlb
    have hyy := Text.value_lt ha
    rw [hla] at hyy
    rw [strptimeYearAndDay_append ha hla hb hlb, ofDayOfYear_isSome_iff, daysInYear_pivotYear hyy]
    rfl
  constructor
  · intro h
    obtain ⟨d, hd⟩ := Option.isSome_iff_exists.mp h
    simp only [strptimeYearAndDay, Option.bind_eq_bind, Option.bind_eq_some_iff] at hd
    obtain ⟨⟨yy, r⟩, hyy, ⟨day, r'⟩, hday, hd⟩ := hd
    obtain ⟨a, -, ha, hla, rfl, rfl⟩ := takeNumber_some hyy
    obtain ⟨b, -, hb, hlb, rfl, rfl⟩ := takeNumber_some hday
    split_ifs at hd with hr
    obtain rfl := not_not.mp hr
    rw [List.append_nil] at h hlen ⊢
    rw [List.length_append] at hlen
    have hla : a.length = 2 := by omega
    have hlb : b.length = 3 := by omega
    refine ⟨ha.append hb, ?_⟩
    rw [← hla, List.take_left, List.drop_left]
    exact (hread ha hla hb hlb).mp h
  · rintro ⟨hdigits, hday⟩
    have hsplit := List.take_append_drop 2 s
    rw [← hsplit] at hdigits
    rw [← hsplit]
    refine (hread hdigits.left ?_ hdigits.right ?_).mpr hday
    · rw [List.length_take]
      omega
    · rw [List.length_drop]
      omega

/-! ### What is accepted -/

/-- An identifier for the archive: digits where the columns expect digits, and a day of a
year from 2000 on. -/
structure Exact (a : AsciiDigitsOrUpper 23) : Prop where
  partRef : Text.Digits (substring a.asStr 1 9)
  yearAndDay : Text.Digits (substring a.asStr 14 5)
  day : DayExists (2000 + Text.value (substring a.asStr 14 2)) (Text.value (substring a.asStr 16 3))
  serial : Text.Digits (substring a.asStr 19 5)

theorem substring_take {α : Type} (s : List α) (offset : ℕ) :
    (substring s offset 5).take 2 = substring s offset 2 := by
  rw [substring, substring, List.take_take]
  rfl

theorem substring_drop {α : Type} (s : List α) {offset : ℕ} (h : 0 < offset) :
    (substring s offset 5).drop 2 = substring s (offset + 2) 3 := by
  rw [substring, substring, List.drop_take, List.drop_drop]
  congr 2
  omega

theorem validatePartIdentifier_iff_exact (a : AsciiDigitsOrUpper 23) :
    validatePartIdentifier a = .returned () ↔ Exact a := by
  have hlen : (substring a.asStr 14 5).length = 5 := by
    rw [substring, List.length_take, List.length_drop, a.length_asStr]
    rfl
  rw [validatePartIdentifier_returned_iff, strptimeYearAndDay_isSome_iff hlen, substring_take,
    substring_drop _ (by decide)]
  constructor
  · rintro ⟨hpartRef, ⟨hyearAndDay, hday⟩, hserial⟩
    exact ⟨hpartRef, hyearAndDay, hday, hserial⟩
  · rintro ⟨hpartRef, hyearAndDay, hday, hserial⟩
    exact ⟨hpartRef, ⟨hyearAndDay, hday⟩, hserial⟩

/-! ### What the archive computes -/

/-- The column expressions of the archive tables do not throw on the identifier: fixed
strings are filled and the production date is a date. -/
structure Archived (a : AsciiDigitsOrUpper 23) : Prop where
  partRef : (partRefColumn (Text.utf8 a.asStr)).length = 9
  lineId : (lineIdColumn (Text.utf8 a.asStr)).length = 2
  producedOn : (producedOnColumn (Text.utf8 a.asStr)).isSome

theorem length_substring {a : AsciiDigitsOrUpper 23} {offset n : ℕ} (h : offset + n ≤ 24)
    (hpos : 0 < offset) : (substring a.bytes offset n).length = n := by
  rw [substring, List.length_take, List.length_drop, a.length_eq]
  omega

/-- A field of digits is read by the archive as its number. -/
theorem toUInt_substring {a : AsciiDigitsOrUpper 23} {w offset n : ℕ}
    (h : Text.Digits (substring a.asStr offset n)) (hoffset : offset + n ≤ 24) (hpos : 0 < offset)
    (hn : 0 < n) (hw : 10 ^ n ≤ 2 ^ w) :
    toUInt w (substring a.bytes offset n) = some (Text.value (substring a.asStr offset n)) := by
  have hlen := length_substring (a := a) hoffset hpos
  have hne : substring a.bytes offset n ≠ [] := by
    rw [← List.length_pos_iff, hlen]
    exact hn
  rw [substring_asStr] at h ⊢
  have hlt := Text.value_lt h
  rw [Text.length_ofAscii, hlen] at hlt
  rw [toUInt, if_pos ⟨hne, h⟩, Nat.mod_eq_of_lt (hlt.trans_le hw)]

theorem Exact.archived {a : AsciiDigitsOrUpper 23} (h : Exact a) : Archived a := by
  have hbytes : Text.utf8 a.asStr = a.bytes := Text.utf8_ofAscii a.ascii
  have hyear : Text.Digits (substring a.asStr 14 2) := by
    rw [← substring_take]
    exact fun c hc => h.yearAndDay c (List.mem_of_mem_take hc)
  have hday : Text.Digits (substring a.asStr 16 3) := by
    rw [← substring_drop a.asStr (by decide : 0 < 14)]
    exact fun c hc => h.yearAndDay c (List.mem_of_mem_drop hc)
  refine ⟨?_, ?_, ?_⟩
  · rw [hbytes, partRefColumn, length_substring (by decide) (by decide)]
  · rw [hbytes, lineIdColumn, length_substring (by decide) (by decide)]
  · rw [hbytes, producedOnColumn,
      toUInt_substring hyear (by decide) (by decide) (by decide) (by decide),
      toUInt_substring hday (by decide) (by decide) (by decide) (by decide)]
    exact ofDayOfYear_isSome_iff.mpr h.day

/-! ### What reaches the store -/

variable {V : VariantCodec}

/-- Every committed save is of a valid part identifier. -/
def QueueRun.Validated (s : QueueRun V) : Prop :=
  ∀ c ∈ s.history, validatePartIdentifier c.partId = .returned ()

theorem QueueRun.mem_savedBy {F : RowFormat} {store : Store} {e : HandlerEffect}
    {i : HandlerInput V e} {c : SaveCall V} (h : c ∈ savedBy F store e i) :
    ∃ machineId general operation, e = .savePartSheets machineId c.partId general operation := by
  cases e with
  | savePartSheets machineId partId general operation =>
    cases i with
    | error e => cases h
    | ok i =>
      simp only [savedBy, SaveCall.committed] at h
      split at h
      · cases List.mem_singleton.mp h
        exact ⟨machineId, general, operation, rfl⟩
      · cases h
  | _ => cases h

namespace Line

variable {D : DecimalClass} {F : RowFormat} {queuesThreshold : ℕ} {s s' : Line V} {l : Label V}
  {ls : List (Label V)} {store : Store}

theorem validated_step (ho : Obedient s) (h : s.queue.Validated)
    (hs : Step D F queuesThreshold s l s') : s'.queue.Validated := by
  cases hs with
  | start h' value => exact h
  | perform n e k m i hn =>
    intro c hc
    rcases List.mem_append.mp hc with hc | hc
    · exact h c hc
    · obtain ⟨machineId, general, operation, rfl⟩ := QueueRun.mem_savedBy hc
      exact (ho _ m (List.mem_of_getElem? hn)).1.2
  | remove q keys faults => exact h
  | abandon n => exact h
  | restart => exact h

theorem run_validated (hr : Run (Step D F queuesThreshold) (start store) ls s) :
    s.queue.Validated := by
  refine hr.history (I := fun _ s => s.queue.Validated)
    (fun c hc => (List.not_mem_nil hc).elim) fun ls s l s' hr h hs => ?_
  exact validated_step (reachable_obedient ⟨ls, hr⟩) h hs

/-- The row was encoded with the part identifier. -/
def RowOfPart (F : RowFormat) (row : Text) (a : AsciiDigitsOrUpper 23) : Prop :=
  ∃ savedAt machineId partSheet, encodePartSheetForDb F savedAt machineId a partSheet = .ok row

/-- Validation accepts the identifiers that are exact for the archive, and never panics; in
every state that requests and drains reach, the parts of the cache and of all rows are
those that the archive computes a date for. -/
theorem stored_parts_archived (hr : Run (Step D F queuesThreshold) (start (V := V) .fresh) ls s) :
    (∀ a, (validatePartIdentifier a = .returned () ↔ Exact a) ∧
      ∀ m, validatePartIdentifier a ≠ .panicked m) ∧
    (∀ e ∈ s.queue.store.sheets.entries, ∃ a : AsciiDigitsOrUpper 23, e.1 = a.asStr ∧ Archived a) ∧
    ∀ q, ∀ e ∈ (s.queue.store.rows q).entries, ∃ a, RowOfPart F e.2 a ∧ Archived a := by
  have harchived : ∀ c ∈ s.queue.history, Archived c.partId := fun c hc =>
    ((validatePartIdentifier_iff_exact _).mp (run_validated hr c hc)).archived
  obtain ⟨ls', hr'⟩ := run_queue hr
  refine ⟨fun a => ⟨validatePartIdentifier_iff_exact a, validatePartIdentifier_ne_panicked a⟩,
    fun e he => ?_, fun q e he => ?_⟩
  · obtain ⟨n, c, encoded, hlast, -⟩ := QueueRun.run_cacheCurrent hr' e he
    exact ⟨c.partId, hlast.partId.symm, harchived c (List.mem_of_getElem? hlast.get)⟩
  · obtain ⟨c, hc, henc⟩ := QueueRun.run_saved hr' q e he
    exact ⟨c.partId, ⟨_, _, _, henc.row⟩, harchived c hc⟩

theorem stored_parts_archived_sample : ∃ s : Line plainCodec,
    Run (Step asciiDecimal epochFormat 2) (start .fresh)
        (.start Creations.sampleHandler saveRequest :: sampleSaving 0) s ∧
      s.queue.store.sheets.keys = ["123456789XX422634300001".toList] ∧
      ∀ e ∈ s.queue.store.sheets.entries, ∃ a : AsciiDigitsOrUpper 23, e.1 = a.asStr ∧ Archived a := by
  have hrun : ∃ s : Line plainCodec, Run (Step asciiDecimal epochFormat 2) (start .fresh)
      (.start Creations.sampleHandler saveRequest :: sampleSaving 0) s ∧
        s.queue.store.sheets.keys = ["123456789XX422634300001".toList] :=
    ⟨_, .cons (.start _ _ _) <| .cons (.perform _ 0 _ _ _ _ rfl) <|
      .cons (.perform _ 0 _ _ _ _ rfl) <| .cons (.perform _ 0 _ _ _ _ rfl) <| .nil _, rfl⟩
  obtain ⟨s, hr, hkeys⟩ := hrun
  exact ⟨s, hr, hkeys, (stored_parts_archived hr).2.1⟩

end Line

end LineGateway.Traceability
