import SecOpent.Audit.Events
import SecOpent.Python.JsonText

/-!
# Canonical JSON

`domain/common/canonical.py`: the text on which digests, signatures and audit links rest. Two values
have the same text exactly if they are equal as JSON values.

## Main definitions

* `canonicalJson`, `canonicalDigest`

## Main results

* `canonicalJson_eq_iff`: the text determines the value up to the order of keys
* `canonicalJson_reread`: a value that was sent as text and read back has the text and the digest it had
-/

namespace SecOpent

open Python

/-- `canonical_json`. -/
def canonicalJson (value : JsonValue) : Str := value.json.dumps

/-- `canonical_digest`. -/
def canonicalDigest (H : Sha256) (value : JsonValue) : Str :=
  sha256Tag ++ H.hexdigest (canonicalJson value)

/-- **The text determines the value**: two values have the same text exactly if they are equal up to
the order of keys. -/
theorem canonicalJson_eq_iff (a b : JsonValue) :
    canonicalJson a = canonicalJson b ↔ Json.Same a.json b.json :=
  Json.dumps_eq_iff a.distinct

/-- The order of keys does not matter, and the type of a value does. -/
example :
    (Json.object [("b", .int 1), ("a", .bool true)]).dumps =
        (Json.object [("a", .bool true), ("b", .int 1)]).dumps ∧
      (Json.text "1").dumps ≠ (Json.int 1).dumps := by
  decide +kernel

/-! ## Values that were sent as text -/

/-- The value with its members in the order of their keys. -/
def JsonValue.sorted (value : JsonValue) : JsonValue := ⟨value.json.canonical, value.distinct.canonical⟩

theorem canonicalJson_sorted (value : JsonValue) :
    canonicalJson (JsonValue.sorted value) = canonicalJson value := by
  rw [canonicalJson, canonicalJson, Json.dumps, Json.dumps, JsonValue.sorted, Json.canonical_canonical]

theorem loads_canonicalJson {value : JsonValue} (hvalue : value.json.Writable) {depth : ℕ}
    (hdepth : value.json.depth ≤ depth) :
    JsonDecoder.loads depth (canonicalJson value) = .ok (JsonValue.sorted value).json.decoded := by
  rw [canonicalJson, Json.dumps, ← Json.write_compact]
  exact JsonDecoder.loads_written .compact hvalue.canonical
    (value.json.depth_canonical_le.trans hdepth)

/-- **A value that was sent as text and read back has the canonical text it had**, and the digest: the
text may be the canonical one, or one that `json.dumps` writes in another style. -/
theorem canonicalJson_reread {value : JsonValue} (hvalue : value.json.Writable) {depth : ℕ}
    (hdepth : value.json.depth ≤ depth) (style : JsonStyle) :
    ((∃ read : JsonValue, JsonDecoder.loads depth (value.json.write style) = .ok read.json.decoded) ∧
      ∃ read : JsonValue, JsonDecoder.loads depth (canonicalJson value) = .ok read.json.decoded) ∧
    ∀ read : JsonValue,
      JsonDecoder.loads depth (value.json.write style) = .ok read.json.decoded ∨
        JsonDecoder.loads depth (canonicalJson value) = .ok read.json.decoded →
      canonicalJson read = canonicalJson value ∧
        ∀ H : Sha256, canonicalDigest H read = canonicalDigest H value := by
  have hstyle := JsonDecoder.loads_written style hvalue hdepth
  have hcanonical := loads_canonicalJson hvalue hdepth
  refine ⟨⟨⟨value, hstyle⟩, _, hcanonical⟩, fun read hread => ?_⟩
  have htext : canonicalJson read = canonicalJson value := by
    rcases hread with hread | hread
    · rw [hstyle] at hread
      rw [canonicalJson, canonicalJson,
        Json.decoded_inj read.distinct value.distinct (Except.ok.inj hread).symm]
    · rw [hcanonical] at hread
      have hsorted : read.json = (JsonValue.sorted value).json :=
        Json.decoded_inj read.distinct (JsonValue.sorted value).distinct (Except.ok.inj hread).symm
      rw [← canonicalJson_sorted value, canonicalJson, canonicalJson, hsorted]
  refine ⟨htext, fun H => ?_⟩
  rw [canonicalDigest, canonicalDigest, htext]

/-- A manifest with a character outside of ASCII, sent with the defaults of `json.dumps`. -/
theorem canonicalJson_reread_manifest :
    ∃ read : JsonValue,
      JsonDecoder.loads 2 "\x7b\"b\": [1, null], \"a\": \"\\u00e9\"\x7d".toList =
          .ok read.json.decoded ∧
        canonicalJson read = "\x7b\"a\":\"é\",\"b\":[1,null]\x7d".toList := by
  let value : JsonValue := ⟨.object [("b", .list [.int 1, .null]), ("a", .text "é")],
    ⟨by decide, ⟨trivial, trivial, trivial⟩, trivial, trivial⟩⟩
  have hdigits : (Json.int 1).Writable :=
    show (Nat.toDigits 10 1).length ≤ JsonDecoder.intMaxStrDigits by decide
  have hwritable : value.json.Writable := ⟨⟨hdigits, trivial, trivial⟩, trivial, trivial⟩
  have hdepth : value.json.depth ≤ 2 := by decide
  obtain ⟨⟨⟨read, hread⟩, -⟩, hall⟩ := canonicalJson_reread hwritable hdepth JsonStyle.default
  have htext : value.json.write JsonStyle.default =
      "\x7b\"b\": [1, null], \"a\": \"\\u00e9\"\x7d".toList := by decide +kernel
  have hcanonical : canonicalJson value = "\x7b\"a\":\"é\",\"b\":[1,null]\x7d".toList := by
    decide +kernel
  exact ⟨read, htext ▸ hread, (hall read (Or.inl hread)).1.trans hcanonical⟩

end SecOpent
