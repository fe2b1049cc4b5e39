import LineGateway.Traceability.CacheSpec

/-! The cache encoding of part sheets, cut short or too long. The count and the identifiers
have a fixed width, so that the encoding of a sheet is delimited when those of the values
are: it is decoded whatever follows, and no proper prefix of it is. A sheet whose count
does not fit is refused before anything is stored. -/

namespace LineGateway.Traceability

open Foundation Config Opcua

/-- No proper prefix of the encoding of a variant is decoded, under the context of any
session. -/
def VariantCodec.FailsShort (V : VariantCodec) : Prop :=
  ∀ ctx ctx' v bytes, V.encode ctx v = some bytes → Codec.FailsShort (V.decode ctx') bytes

section Cut

variable {V : VariantCodec} {ctx : V.Context}

theorem decodeElement_eq (ctx' : V.Context) : decodeElement V ctx' =
    Codec.andThen (Codec.readLe .unexpectedEof 4) fun id =>
      Codec.andThen (V.decode ctx') fun variant buf => .ok ((UInt32.ofNat id, variant), buf) := by
  funext buf
  simp only [decodeElement, Codec.andThen, bind, Except.bind]
  cases Codec.readLe DecodeError.unexpectedEof 4 buf with
  | error e => rfl
  | ok r =>
    obtain ⟨id, buf⟩ := r
    simp only
    cases V.decode ctx' buf <;> rfl

/-- An element is an identifier of four bytes, then a variant. -/
theorem decodeElement_failsShort (hV : V.FailsShort) {item : SavedPartSheetItem} {variant : Bytes}
    (h : V.encode ctx item.value = some variant) (ctx' : V.Context) :
    Codec.FailsShort (decodeElement V ctx') (Codec.leBytes 4 item.id.toNat ++ variant) := by
  rw [decodeElement_eq]
  apply Codec.FailsShort.andThen
  · exact Codec.readLe_leBytes _ item.id.toNat_lt
  · exact Codec.failsShort_readLe _ (Codec.length_leBytes ..)
  · exact (hV ctx ctx' item.value variant h).map

theorem decodeMany_failsShort (hV : V.FailsShort) {partSheet : List SavedPartSheetItem}
    {bytes : Bytes} (h : encodeElements V ctx partSheet = some bytes) (ctx' : V.Context) :
    Codec.FailsShort (Codec.decodeMany (decodeElement V ctx') partSheet.length) bytes := by
  induction partSheet generalizing bytes with
  | nil =>
    cases h
    exact Codec.failsShort_nil _
  | cons item rest ih =>
    simp only [encodeElements, Option.bind_eq_bind, Option.bind_eq_some_iff, Option.some.injEq] at h
    obtain ⟨variant, hv, tail, ht, rfl⟩ := h
    rw [List.length_cons, Codec.decodeMany_succ]
    apply Codec.FailsShort.andThen
    · exact decodeElement_encode hv ctx'
    · exact decodeElement_failsShort hV hv ctx'
    · exact (ih ht).map

/-- A cached part sheet that was cut is not decoded. -/
theorem decodeCachedPartSheet_cut (hV : V.FailsShort) {partSheet : List SavedPartSheetItem}
    {bytes p : Bytes} (h : encodePartSheetForCache V ctx partSheet = .returned bytes)
    (ctx' : V.Context) (hp : p <+: bytes) (hne : p ≠ bytes) :
    ∃ e, decodeCachedPartSheet V ctx' p = .error e := by
  unfold encodePartSheetForCache at h
  split_ifs at h with hcount
  cases he : encodeElements V ctx partSheet with
  | none => simp [he] at h
  | some elements =>
    simp only [he, Outcome.returned.injEq] at h
    subst h
    have hlt : partSheet.length < 256 ^ 2 := by omega
    have hshort := Codec.FailsShort.andThen (f := Codec.decodeMany (decodeElement V ctx'))
      (Codec.readLe_leBytes DecodeError.unexpectedEof hlt)
      (Codec.failsShort_readLe _ (Codec.length_leBytes ..)) (decodeMany_failsShort hV he ctx')
    obtain ⟨e, he⟩ := hshort p hp hne
    refine ⟨e, ?_⟩
    unfold Codec.andThen at he
    simp only [decodeCachedPartSheet, bind, Except.bind]
    cases hr : Codec.readLe DecodeError.unexpectedEof 2 p with
    | error e' =>
      rw [hr] at he
      cases he
      rfl
    | ok r =>
      rw [hr] at he
      simp only [he]

end Cut

theorem encodeElements_cases (V : VariantCodec) (ctx : V.Context)
    (partSheet : List SavedPartSheetItem) :
    (∃ bytes, encodeElements V ctx partSheet = some bytes) ∨
      ∃ item ∈ partSheet, V.encode ctx item.value = none := by
  induction partSheet with
  | nil => exact .inl ⟨[], rfl⟩
  | cons item rest ih =>
    cases hv : V.encode ctx item.value with
    | none => exact .inr ⟨item, by simp, hv⟩
    | some variant =>
      rcases ih with ⟨tail, ht⟩ | ⟨item', hmem, hnone⟩
      · exact .inl ⟨Codec.leBytes 4 item.id.toNat ++ variant ++ tail, by
          simp [encodeElements, hv, ht]⟩
      · exact .inr ⟨item', List.mem_cons_of_mem _ hmem, hnone⟩

/-- The bytes are read back as the pairs of the sheet whatever follows, and not at all when
they are cut, neither by themselves nor as an entry of the cache. -/
structure Delimits (V : VariantCodec) (partSheet : List SavedPartSheetItem) (bytes : Bytes) :
    Prop where
  whole : ∀ ctx r, decodeCachedPartSheet V ctx (bytes ++ r) = .ok (pairs partSheet)
  cut : ∀ ctx p, p <+: bytes → p ≠ bytes → ∃ e, decodeCachedPartSheet V ctx p = .error e
  entry : ∀ ctx p partId faults s, p <+: bytes → p ≠ bytes → s.sheets.get partId = some p →
    ∃ e, getGeneralPartSheet V partId ctx faults s = .error e

theorem delimits_of_encode {V : VariantCodec} (hV : V.FailsShort) {ctx : V.Context}
    {partSheet : List SavedPartSheetItem} {bytes : Bytes}
    (h : encodePartSheetForCache V ctx partSheet = .returned bytes) :
    Delimits V partSheet bytes where
  whole ctx' r := decode_encodePartSheetForCache h ctx' r
  cut ctx' p hp hne := decodeCachedPartSheet_cut hV h ctx' hp hne
  entry ctx' p partId faults s hp hne hget := by
    obtain ⟨e, he⟩ := decodeCachedPartSheet_cut hV h ctx' hp hne
    rcases getGeneralPartSheet_cases V partId ctx' faults s with ⟨e', he'⟩ | hok
    · exact ⟨_, he'⟩
    · rw [hget] at hok
      simp only [he] at hok
      exact ⟨_, hok⟩

/-! ### The codec of booleans and strings -/

theorem readAscii_eq : readAscii =
    Codec.andThen (Codec.readLe .unexpectedEof 4) fun n r =>
      if r.length < n then .error .unexpectedEof else .ok (Text.ofAscii (r.take n), r.drop n) := by
  funext bs
  rw [readAscii, Codec.andThen]
  cases Codec.readLe DecodeError.unexpectedEof 4 bs <;> rfl

theorem readAscii_failsShort {s : Text} (hlen : s.length < 256)
    (hascii : ∀ c ∈ s, c.toNat < 128) :
    Codec.FailsShort readAscii (Codec.leBytes 4 s.length ++ Text.utf8 s) := by
  have hn : s.length < 256 ^ 4 := by omega
  have hutf : (Text.utf8 s).length = s.length := by rw [Text.utf8_eq_map hascii, List.length_map]
  rw [readAscii_eq]
  apply Codec.FailsShort.andThen (Codec.readLe_leBytes _ hn)
  · exact Codec.failsShort_readLe _ (Codec.length_leBytes ..)
  · intro p hp hne
    have hlt : p.length < s.length := by
      by_contra hge
      exact hne (hp.eq_of_length_le (by omega))
    exact ⟨.unexpectedEof, if_pos hlt⟩

theorem plainCodec_failsShort : plainCodec.FailsShort := by
  intro _ _ v bytes h p hp hne
  cases v with
  | boolean b =>
    cases h
    rcases p with _ | ⟨b₁, _ | ⟨b₂, p⟩⟩
    · exact ⟨_, rfl⟩
    · obtain ⟨rfl, -⟩ := List.cons_prefix_cons.mp hp
      exact ⟨_, rfl⟩
    · exact absurd (hp.eq_of_length_le (by simp)) hne
  | string o =>
    cases o with
    | none => cases h
    | some s =>
      simp only [plainCodec, Option.ite_none_right_eq_some] at h
      obtain ⟨⟨hlen, hascii⟩, hbs⟩ := h
      cases hbs
      rcases p with _ | ⟨b, p⟩
      · exact ⟨_, rfl⟩
      · obtain ⟨rfl, hp'⟩ := List.cons_prefix_cons.mp hp
        obtain ⟨e, he⟩ := readAscii_failsShort hlen (Text.forall_mem_of_all hascii) p hp'
          fun heq => hne (by rw [heq])
        exact ⟨e, by simp only [plainCodec, he]⟩
  | _ => cases h

/-! ### The main result -/

/-- A sheet whose count fits in 16 bits is encoded so that it can be read back whole only,
unless a value has no encoding; a longer one is refused, and a save of it stores nothing. -/
theorem cache_codec {V : VariantCodec} (hV : V.FailsShort) (ctx : V.Context)
    (partSheet : List SavedPartSheetItem) :
    (partSheet.length ≤ 65535 →
      (∃ bytes, encodePartSheetForCache V ctx partSheet = .returned bytes ∧
        Delimits V partSheet bytes) ∨ ∃ item ∈ partSheet, V.encode ctx item.value = none) ∧
    (65535 < partSheet.length → encodePartSheetForCache V ctx partSheet = .failed .outOfRange ∧
      ∀ F machineId partId operation now faults s,
        savePartSheets V F machineId partId partSheet operation ctx now faults s =
          (.failed (.elementsCount .outOfRange), s)) := by
  constructor
  · intro hlen
    refine (encodeElements_cases V ctx partSheet).imp_left fun ⟨elements, he⟩ => ?_
    have henc : encodePartSheetForCache V ctx partSheet =
        .returned (Codec.leBytes 2 partSheet.length ++ elements) := by
      rw [encodePartSheetForCache, if_pos (by omega), he]
    exact ⟨_, henc, delimits_of_encode hV henc⟩
  · intro hlen
    have henc : encodePartSheetForCache V ctx partSheet = .failed .outOfRange :=
      if_neg (by omega)
    refine ⟨henc, fun F machineId partId operation now faults s => ?_⟩
    rw [savePartSheets, encodePartSheets, henc]

theorem cache_codec_sample :
    (∃ bytes, encodePartSheetForCache plainCodec () [⟨1, "Weight".toList, .boolean true⟩,
        ⟨2, "Label".toList, .string (some "AB".toList)⟩] = .returned bytes ∧
      Delimits plainCodec [⟨1, "Weight".toList, .boolean true⟩,
        ⟨2, "Label".toList, .string (some "AB".toList)⟩] bytes) ∧
      encodePartSheetForCache plainCodec ()
        (List.replicate 65536 ⟨1, "Weight".toList, .boolean true⟩) = .failed .outOfRange := by
  constructor
  · refine ((cache_codec plainCodec_failsShort () _).1 (by decide)).resolve_right ?_
    rintro ⟨item, hmem, hnone⟩
    simp only [List.mem_cons, List.not_mem_nil, or_false] at hmem
    rcases hmem with rfl | rfl
    · cases hnone
    · revert hnone
      decide
  · have hlen : 65535 <
        (List.replicate 65536 (⟨1, "Weight".toList, .boolean true⟩ : SavedPartSheetItem)).length := by
      rw [List.length_replicate]
      norm_num
    exact ((cache_codec plainCodec_failsShort () _).2 hlen).1

end LineGateway.Traceability
