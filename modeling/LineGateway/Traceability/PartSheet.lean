import LineGateway.Config.AsciiText
import LineGateway.Foundation.Codec
import LineGateway.Opcua.SerializeVariant

/-! Part sheets in their two encodings. The cache encoding is a count followed by
identifiers and values and is decoded back to the same pairs; the archive encoding
is a JSON row on one line. -/

namespace LineGateway.Traceability

open Foundation Config Opcua

/-- An item of a part sheet: numeric identifier, browse name and value of a node. -/
structure SavedPartSheetItem where
  id : UInt32
  name : Text
  value : Variant

/-- The number of elements does not fit in 16 bits. -/
inductive TryFromIntError
  | outOfRange
  deriving DecidableEq

/-- Why decoding a cached part sheet failed. -/
inductive DecodeError
  | unexpectedEof
  | invalidData (message : Text)
  deriving DecidableEq

/-- The OPC-UA binary codec of variants under the contexts of sessions. Encoding may
fail; what was encoded under one context is decoded under any other. -/
structure VariantCodec where
  Context : Type
  encode : Context → Variant → Option Bytes
  decode : Context → Decoder DecodeError Variant
  decode_encode : ∀ c c' v bs r, encode c v = some bs → decode c' (bs ++ r) = .ok (v, r)

/-! ### Cache encoding -/

/-- The elements after the count, unless a variant cannot be encoded. -/
def encodeElements (V : VariantCodec) (ctx : V.Context) : List SavedPartSheetItem → Option Bytes
  | [] => some []
  | item :: rest => do
    let variant ← V.encode ctx item.value
    let bytes ← encodeElements V ctx rest
    some (Codec.leBytes 4 item.id.toNat ++ variant ++ bytes)

/-- Encode a part sheet for caching. -/
def encodePartSheetForCache (V : VariantCodec) (ctx : V.Context)
    (partSheet : List SavedPartSheetItem) : Outcome TryFromIntError Bytes :=
  if partSheet.length < 2 ^ 16 then
    match encodeElements V ctx partSheet with
    | some elements => .returned (Codec.leBytes 2 partSheet.length ++ elements)
    | none => .panicked "writing to a Vec should not fail"
  else .failed .outOfRange

/-- Decode an identifier and a variant. -/
def decodeElement (V : VariantCodec) (ctx : V.Context) : Decoder DecodeError (UInt32 × Variant) :=
  fun buf => do
    let (id, buf) ← Codec.readLe .unexpectedEof 4 buf
    let (variant, buf) ← V.decode ctx buf
    .ok ((UInt32.ofNat id, variant), buf)

/-- Decode a part sheet; bytes after the last element are ignored. -/
def decodeCachedPartSheet (V : VariantCodec) (ctx : V.Context) (buf : Bytes) :
    Except DecodeError (List (UInt32 × Variant)) := do
  let (count, buf) ← Codec.readLe .unexpectedEof 2 buf
  let (out, _) ← Codec.decodeMany (decodeElement V ctx) count buf
  .ok out

/-- The identifiers and values of a part sheet. -/
def pairs (partSheet : List SavedPartSheetItem) : List (UInt32 × Variant) :=
  partSheet.map fun item => (item.id, item.value)

theorem decodeElement_encode {V : VariantCodec} {ctx : V.Context} {item : SavedPartSheetItem}
    {variant : Bytes} (h : V.encode ctx item.value = some variant) (ctx' : V.Context) (r : Bytes) :
    decodeElement V ctx' (Codec.leBytes 4 item.id.toNat ++ variant ++ r) =
      .ok ((item.id, item.value), r) := by
  have hid : item.id.toNat < 256 ^ 4 := item.id.toNat_lt
  simp [decodeElement, List.append_assoc, Codec.readLe_leBytes _ hid, bind, Except.bind,
    V.decode_encode ctx ctx' item.value variant r h]

theorem decodeMany_encodeElements {V : VariantCodec} {ctx ctx' : V.Context}
    {partSheet : List SavedPartSheetItem} {bytes : Bytes}
    (h : encodeElements V ctx partSheet = some bytes) (r : Bytes) :
    Codec.decodeMany (decodeElement V ctx') partSheet.length (bytes ++ r) =
      .ok (pairs partSheet, r) := by
  induction partSheet generalizing bytes with
  | nil => cases h; rfl
  | cons item rest ih =>
    simp only [encodeElements, Option.bind_eq_bind, Option.bind_eq_some_iff, Option.some.injEq] at h
    obtain ⟨variant, hv, tail, ht, rfl⟩ := h
    have hhead := decodeElement_encode hv ctx' (tail ++ r)
    simp only [List.append_assoc] at hhead ⊢
    simp [Codec.decodeMany, hhead, ih ht, pairs]

/-- A cached part sheet is decoded back to its pairs, under the context of any session. -/
theorem decode_encodePartSheetForCache {V : VariantCodec} {ctx : V.Context}
    {partSheet : List SavedPartSheetItem} {bytes : Bytes}
    (h : encodePartSheetForCache V ctx partSheet = .returned bytes) (ctx' : V.Context) (r : Bytes) :
    decodeCachedPartSheet V ctx' (bytes ++ r) = .ok (pairs partSheet) := by
  unfold encodePartSheetForCache at h
  split_ifs at h with hcount
  cases he : encodeElements V ctx partSheet with
  | none => simp [he] at h
  | some elements =>
    simp only [he, Outcome.returned.injEq] at h
    subst h
    have hlt : partSheet.length < 256 ^ 2 := by omega
    simp [decodeCachedPartSheet, List.append_assoc, Codec.readLe_leBytes _ hlt, bind, Except.bind,
      decodeMany_encodeElements he]

/-- Read an ASCII string behind its length. -/
def readAscii : Decoder DecodeError Text := fun bs =>
  match Codec.readLe .unexpectedEof 4 bs with
  | .error e => .error e
  | .ok (n, r) =>
    if r.length < n then .error .unexpectedEof else .ok (Text.ofAscii (r.take n), r.drop n)

theorem readAscii_utf8 {s : Text} (hlen : s.length < 256) (hascii : ∀ c ∈ s, c.toNat < 128)
    (r : Bytes) : readAscii (Codec.leBytes 4 s.length ++ Text.utf8 s ++ r) = .ok (s, r) := by
  have hn : s.length < 256 ^ 4 := by omega
  have hutf : (Text.utf8 s).length = s.length := by rw [Text.utf8_eq_map hascii, List.length_map]
  have htake : (Text.utf8 s ++ r).take s.length = Text.utf8 s := by rw [← hutf, List.take_left]
  have hdrop : (Text.utf8 s ++ r).drop s.length = r := by rw [← hutf, List.drop_left]
  have hlt : ¬ (Text.utf8 s ++ r).length < s.length := by simp [hutf]
  rw [readAscii, List.append_assoc, Codec.readLe_leBytes _ hn]
  simp only [if_neg hlt, htake, hdrop]
  rw [Text.ofAscii_utf8]
  rw [Text.utf8_eq_map hascii]
  simp only [List.forall_mem_map, UInt8.toNat_ofNat']
  intro c hc
  have := hascii c hc
  omega

/-- The codec restricted to booleans and to ASCII strings below 256 characters. -/
def plainCodec : VariantCodec where
  Context := Unit
  encode _ v := match v with
    | .boolean b => some [1, if b then 1 else 0]
    | .string (some s) =>
      if s.length < 256 ∧ s.all fun c => c.toNat < 128 then
        some (12 :: (Codec.leBytes 4 s.length ++ Text.utf8 s))
      else none
    | _ => none
  decode _ bs := match bs with
    | 1 :: b :: r => .ok (.boolean (b ≠ 0), r)
    | 12 :: r => match readAscii r with
      | .error e => .error e
      | .ok (s, r) => .ok (.string (some s), r)
    | _ => .error (.invalidData "unsupported type".toList)
  decode_encode _ _ v bs r h := by
    cases v with
    | boolean b =>
      cases h
      cases b <;> rfl
    | string o =>
      cases o with
      | none => cases h
      | some s =>
        simp only [Option.ite_none_right_eq_some] at h
        obtain ⟨⟨hlen, hascii⟩, hbs⟩ := h
        cases hbs
        simp only [List.cons_append, readAscii_utf8 hlen (Text.forall_mem_of_all hascii)]
    | _ => cases h

/-! ### Archive encoding -/

/-- Nanoseconds since the epoch. -/
abbrev Timestamp := ℤ

/-- The texts of times and floats in rows. -/
structure RowFormat extends FloatFormat where
  timestamp : Timestamp → Text

def serializePartSheet (F : RowFormat) : List SavedPartSheetItem → Except String (List (Text × Json))
  | [] => .ok []
  | item :: rest => do
    let value ← serializeVariant F.toFloatFormat item.value
    let fields ← serializePartSheet F rest
    .ok ((item.name, value) :: fields)

/-- A part sheet database row. -/
def partSheetRow (F : RowFormat) (savedAt : Timestamp) (machineId : Text)
    (partId : AsciiDigitsOrUpper 23) (data : List SavedPartSheetItem) : Except String Json := do
  let fields ← serializePartSheet F data
  .ok (.object
    [("saved_at".toList, .string (F.timestamp savedAt)), ("machine_id".toList, .string machineId),
      ("part_id".toList, .string partId.asStr), ("data".toList, .object fields)])

def encodePartSheetForDb (F : RowFormat) (savedAt : Timestamp) (machineId : Text)
    (partId : AsciiDigitsOrUpper 23) (partSheet : List SavedPartSheetItem) : Except String Text := do
  let row ← partSheetRow F savedAt machineId partId partSheet
  .ok row.render

/-- The format of rows without floats, saved at the epoch. -/
def epochFormat : RowFormat where
  float _ := none
  double _ := none
  timestamp _ := "1970-01-01 00:00:00".toList

/-- A row is one line. -/
theorem newline_not_mem_row {F : RowFormat} {savedAt : Timestamp} {machineId : Text}
    {partId : AsciiDigitsOrUpper 23} {partSheet : List SavedPartSheetItem} {row : Text}
    (h : encodePartSheetForDb F savedAt machineId partId partSheet = .ok row) : '\n' ∉ row := by
  obtain ⟨j, -, hj⟩ := bind_ok_iff.mp h
  cases hj
  exact j.newline_not_mem_render

end LineGateway.Traceability
