/-
Attributes as older nodes give them. Each text has one spelling in base64 and is read from it
alone, so that attributes, events and block results in base64 are read as exactly those of
which they are the translation, and a block read so is the same as the block in plain texts.
-/
import ChainIndex.Block.Events
import ChainIndex.Proofs.Outcomes
import ChainIndex.Proofs.Spelling

namespace ChainIndex

open Bytes (ofText)

theorem base64Text_eq_ok_iff {s t : String} :
    base64Text s = .ok t ↔ s = Bytes.Base64.encode (ofText t) := by
  rw [← Bytes.Base64.decode?_eq_some_iff, base64Text]
  constructor
  · intro h
    split at h
    · next found =>
      cases h
      obtain ⟨bs, decoded, text⟩ := Option.bind_eq_some_iff.mp found
      rw [decoded, Bytes.toText?_eq_some_iff.mp text]
    · cases h
  · intro decoded
    rw [decoded, Option.bind_some, Bytes.toText?_ofText]

namespace Attribute

theorem ofBase64_eq_ok_iff (a b : Attribute) : a.ofBase64 = .ok b ↔ a = b.toBase64 := by
  obtain ⟨key, value⟩ := a
  rw [toBase64, Attribute.mk.injEq, ← base64Text_eq_ok_iff, ← base64Text_eq_ok_iff, ofBase64]
  constructor
  · intro h
    obtain ⟨k, readKey, h⟩ := bind_eq_ok h
    obtain ⟨v, readValue, h⟩ := bind_eq_ok h
    cases h
    exact ⟨readKey, readValue⟩
  · rintro ⟨readKey, readValue⟩
    rw [readKey, readValue]
    rfl

/-- Attributes are read from their translation and from nothing else. -/
theorem normalizeAll_eq_ok_iff {encoded as : List Attribute} :
    normalizeAll true encoded = .ok as ↔ encoded = as.map toBase64 :=
  mapM_eq_ok_iff_eq_map ofBase64_eq_ok_iff

end Attribute

namespace Event

/-- The event as an older node gives it. -/
def toBase64 (e : Event) : Event :=
  { e with attributes := e.attributes.map Attribute.toBase64 }

theorem normalize_eq_ok_iff (encoded e : Event) :
    encoded.normalize true = .ok e ↔ encoded = e.toBase64 := by
  obtain ⟨eventType, attributes⟩ := encoded
  rw [toBase64, Event.mk.injEq, ← Attribute.normalizeAll_eq_ok_iff, normalize]
  constructor
  · intro h
    obtain ⟨as, read, h⟩ := bind_eq_ok h
    cases h
    exact ⟨rfl, read⟩
  · rintro ⟨rfl, read⟩
    rw [read]
    rfl

theorem normalize_plain (e : Event) : e.normalize false = .ok e := rfl

end Event

namespace BlockResults

/-- The results as an older node gives them. -/
def toBase64 (r : BlockResults) : BlockResults :=
  { r with
    beginEvents := r.beginEvents.map Event.toBase64
    endEvents := r.endEvents.map Event.toBase64 }

end BlockResults

namespace BlockEvents

variable {r : BlockResults} {es : BlockEvents}

/-- The events of a block are read from their translation and from nothing else. -/
theorem ofResults_base64_eq_ok_iff : ofResults true r = .ok es ↔
    r.beginEvents = es.begins.map Event.toBase64 ∧ r.endEvents = es.ends.map Event.toBase64 := by
  rw [← mapM_eq_ok_iff_eq_map Event.normalize_eq_ok_iff,
    ← mapM_eq_ok_iff_eq_map Event.normalize_eq_ok_iff, ofResults]
  constructor
  · intro h
    obtain ⟨begins, readBegins, h⟩ := bind_eq_ok h
    obtain ⟨ends, readEnds, h⟩ := bind_eq_ok h
    cases h
    exact ⟨readBegins, readEnds⟩
  · rintro ⟨readBegins, readEnds⟩
    rw [readBegins, readEnds]
    rfl

theorem ofResults_plain (r : BlockResults) :
    ofResults false r = .ok ⟨r.beginEvents, r.endEvents⟩ := by
  have each (es : List Event) : es.mapM (Event.normalize false) = .ok es := by
    rw [mapM_eq_ok_iff, List.forall₂_same]
    exact fun e _ => e.normalize_plain
  rw [ofResults, each, each]
  rfl

end BlockEvents

/-- **Attributes in base64 are read without loss.** The translation of a list of attributes is
read as that list, and a list is read as nothing of which it is not the translation. So the
events of any block results, translated, are read with the same begin events, end events and
records as the events themselves in plain texts. -/
theorem legacy_attributes_read_without_loss :
    (∀ as : List Attribute, Attribute.normalizeAll true (as.map Attribute.toBase64) = .ok as) ∧
    (∀ encoded as : List Attribute, Attribute.normalizeAll true encoded = .ok as ↔
      as.map Attribute.toBase64 = encoded) ∧
    ∀ r : BlockResults, ∃ es : BlockEvents,
      BlockEvents.ofResults true r.toBase64 = .ok es ∧ BlockEvents.ofResults false r = .ok es ∧
      es.begins = r.beginEvents ∧ es.ends = r.endEvents ∧
      es.records = BlockEvent.number .beginBlock r.beginEvents ++
        BlockEvent.number .endBlock r.endEvents := by
  refine ⟨fun as => Attribute.normalizeAll_eq_ok_iff.mpr rfl, fun encoded as => ?_, fun r => ?_⟩
  · rw [Attribute.normalizeAll_eq_ok_iff, eq_comm]
  · exact ⟨⟨r.beginEvents, r.endEvents⟩, BlockEvents.ofResults_base64_eq_ok_iff.mpr ⟨rfl, rfl⟩,
      BlockEvents.ofResults_plain r, rfl, rfl, rfl⟩

end ChainIndex
