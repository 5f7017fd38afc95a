/-
Block results in all the spellings of nodes. A whole number stands as a number or as a
numeral in a text, a zero also as null or as an empty text; an empty list stands as null
too, and a field may be left out if it has its default. However block results are spelt,
they are read as the same results, from the value as from its text, if their numbers are
in range; a number that is out of range is refused in each of its spellings.
-/
import ChainIndex.Block.Basic
import ChainIndex.Proofs.JsonText
import ChainIndex.Proofs.PayloadForms

namespace ChainIndex

namespace Json

/-! ## Spellings -/

/-- A whole number as nodes write it: as a number, as a numeral in a text, and a zero also
as null or as an empty text. -/
inductive SpellsInt (n : Int) : Json → Prop where
  | number {j : Json} (read : ofText? (toString n) = some j) : SpellsInt n j
  | numeral {s : String} (h : Text.IsNumeral n s) : SpellsInt n (.string s)
  | null (zero : n = 0) : SpellsInt n .null
  | blank (zero : n = 0) : SpellsInt n (.string "")

def SpellsText (s : String) (j : Json) : Prop := j = .string s

/-- An array, or null if the list is empty. -/
def SpellsList {α : Type} (spells : α → Json → Prop) (xs : List α) (j : Json) : Prop :=
  j.ShowsAll spells xs ∨ j = .null ∧ xs = []

/-- A field of a record, which may be left out if it has its default. -/
def SpellsField {α : Type} (default : α) (spells : α → Json → Prop) (a : α)
    (found : Option Json) : Prop :=
  match found with
  | none => a = default
  | some j => spells a j

/-- An object with no other than these fields, in any order and each at most once. -/
def IsRecord (fields : List (String × (Option Json → Prop))) (j : Json) : Prop :=
  ∃ members, j = .object members ∧ (members.map (·.1)).Nodup ∧
    (∀ m ∈ members, m.1 ∈ fields.map (·.1)) ∧ ∀ f ∈ fields, f.2 (members.lookup f.1)

variable {n : Int} {j : Json}

theorem int64_ofWhole (n : Int) :
    int64 (ofWhole n) = if Text.fitsInt64 n then some n else none := by
  by_cases bits : -(Text.maxInt64 + 1 : Int) ≤ n ∧ n ≤ Text.maxWord64
  · rw [ofWhole_of_bits bits.1 bits.2]
    rfl
  · have wide : Text.maxInt64 ≤ Text.maxWord64 := by decide
    have misfit : ¬ Text.fitsInt64 n = true := by
      rw [Text.fitsInt64_iff]
      omega
    rw [if_neg misfit]
    -- What has more than 64 bits is a fraction, or nothing at all.
    unfold ofWhole Reader.ofDigits
    by_cases negative : n < 0
    · rw [if_pos (decide_eq_true negative), if_neg (by omega)]
      split <;> rfl
    · rw [if_neg (by simpa using negative), if_neg (by omega)]
      split <;> rfl

theorem SpellsInt.int64 (h : SpellsInt n j) :
    int64 j = if Text.fitsInt64 n then some n else none := by
  cases h with
  | number read =>
    rw [ofText?_toString, Option.some.injEq] at read
    rw [← read, int64_ofWhole]
  | numeral h =>
    rw [Json.int64, Text.isEmpty_of_isNumeral h]
    exact Text.int64?_of_isNumeral h
  | null zero =>
    subst zero
    rfl
  | blank zero =>
    subst zero
    rfl

/-- A 32-bit number in any of its spellings. -/
theorem SpellsInt.word32 (h : SpellsInt n j) :
    word32 j = if 0 ≤ n ∧ n ≤ Text.maxWord32 then some n.toNat else none := by
  rw [Json.word32, h.int64]
  by_cases fits : Text.fitsInt64 n = true
  · rw [if_pos fits]
    rfl
  · have narrow : Text.maxWord32 ≤ Text.maxInt64 := by decide
    rw [Text.fitsInt64_iff] at fits
    rw [if_neg (by rwa [Text.fitsInt64_iff]), if_neg (by omega)]
    rfl

/-! ## Reading -/

variable {α : Type} {spells : α → Json → Prop} {read : Json → Option α}

theorem SpellsList.listOrNull {xs : List α} (each : ∀ x ∈ xs, ∀ j, spells x j → read j = some x)
    (h : SpellsList spells xs j) : listOrNull read j = some xs := by
  obtain shown | ⟨rfl, rfl⟩ := h
  · obtain ⟨items, rfl, same⟩ := shown
    exact ShowsAll.list_of_mem each ⟨items, rfl, same⟩
  · rfl

theorem SpellsField.getD {f : Fields} {name : String} {default a : α}
    (h : SpellsField default spells a (f name)) (each : ∀ j, spells a j → read j = some a) :
    f.getD name default read = some a := by
  unfold Fields.getD
  cases found : f name with
  | none =>
    rw [found] at h
    exact congrArg some h.symm
  | some j =>
    rw [found] at h
    exact each j h

theorem SpellsText.text {s : String} (h : SpellsText s j) : text j = some s := by
  rw [h]
  rfl

theorem IsRecord.fields {specs : List (String × (Option Json → Prop))} (h : IsRecord specs j) :
    ∃ f, j.fields (specs.map (·.1)) = some f ∧ ∀ spec ∈ specs, spec.2 (f spec.1) := by
  obtain ⟨members, rfl, once, -, meets⟩ := h
  have whole : HasMembers members (.object members) := ⟨members, rfl, .refl members⟩
  obtain ⟨f, fields, found⟩ := whole.fields once (specs.map (·.1))
  refine ⟨f, fields, fun spec hs => ?_⟩
  rw [found spec.1 (List.mem_map_of_mem hs)]
  exact meets spec hs

/-! ## Writing and reading text -/

/-- What has this spelling is legible, and its plain value has the same spelling. -/
def Portable (levels : Nat) (p : Json → Prop) : Prop :=
  ∀ j, p j → j.Legible levels ∧ p j.plain

namespace Portable

variable {levels : Nat}

theorem mono {p : Json → Prop} {more : Nat} (h : Portable levels p) (fewer : levels ≤ more) :
    Portable more p :=
  fun j spelt => ⟨(h j spelt).1.mono fewer, (h j spelt).2⟩

theorem text (s : String) : Portable levels (SpellsText s) := by
  rintro j rfl
  exact ⟨.string s, rfl⟩

theorem int (low : -(Text.maxInt64 + 1 : Int) ≤ n) (high : n ≤ Text.maxWord64) :
    Portable levels (SpellsInt n) := by
  intro j h
  cases h with
  | number read =>
    have same := read
    rw [ofText?_toString, ofWhole_of_bits low high, Option.some.injEq] at same
    subst same
    exact ⟨.whole low high, .number read⟩
  | numeral h => exact ⟨.string _, .numeral h⟩
  | null zero => exact ⟨.null, .null zero⟩
  | blank zero => exact ⟨.string _, .blank zero⟩

theorem int64 (h : Text.fitsInt64 n) : Portable levels (SpellsInt n) :=
  .int (Text.bits_of_fitsInt64 h).1 (Text.bits_of_fitsInt64 h).2

theorem list {xs : List α} (each : ∀ x ∈ xs, Portable levels (spells x)) :
    Portable (levels + 1) (SpellsList spells xs) := by
  rintro j (⟨items, rfl, shown⟩ | ⟨rfl, empty⟩)
  · have both : (∀ j ∈ items, j.Legible levels) ∧ List.Forall₂ spells xs (items.map plain) := by
      induction shown with
      | nil => exact ⟨fun j hj => absurd hj List.not_mem_nil, .nil⟩
      | cons first _ ih =>
        have here := each _ List.mem_cons_self _ first
        have others := ih fun x hx => each x (List.mem_cons_of_mem _ hx)
        exact ⟨List.forall_mem_cons.mpr ⟨here.1, others.1⟩, .cons here.2 others.2⟩
    obtain ⟨legible, plain⟩ := both
    rw [plain_array fun j hj => (legible j hj).isReadable]
    exact ⟨.array legible, .inl ⟨_, rfl, plain⟩⟩
  · exact ⟨.null, .inr ⟨rfl, empty⟩⟩

theorem record {specs : List (String × (Option Json → Prop))}
    (each : ∀ spec ∈ specs, Portable levels fun j => spec.2 (some j)) :
    Portable (levels + 1) (IsRecord specs) := by
  rintro j ⟨members, rfl, once, known, meets⟩
  have ported : ∀ m ∈ members, m.2.Legible levels := by
    intro m hm
    obtain ⟨spec, hs, name⟩ := List.mem_map.mp (known m hm)
    have met := meets spec hs
    rw [name, lookup_of_mem once hm] at met
    exact (each spec hs m.2 met).1
  obtain ⟨listed, value, same, distinct⟩ :=
    exists_plain_object once fun m hm => (ported m hm).isReadable
  refine ⟨.object ported, listed, value, distinct, ?_, ?_⟩
  · intro m hm
    obtain ⟨m', hm', rfl⟩ := List.mem_map.mp (same.mem_iff.mp hm)
    exact known m' hm'
  · intro spec hs
    have met := meets spec hs
    rw [lookup_of_perm same (((same.map _).nodup_iff).mp distinct), lookup_map_plain]
    cases found : members.lookup spec.1 with
    | none => rwa [found] at met
    | some j =>
      rw [found] at met
      exact (each spec hs j met).2

end Portable

theorem SpellsInt.ofInt (h : Text.fitsInt64 n) : SpellsInt n (.ofInt n) := by
  refine .number ?_
  rw [ofText?_toString, ofWhole_of_bits (Text.bits_of_fitsInt64 h).1 (Text.bits_of_fitsInt64 h).2]

theorem SpellsList.array {write : α → Json} {xs : List α} (each : ∀ x ∈ xs, spells x (write x)) :
    SpellsList spells xs (.array (xs.map write)) :=
  .inl ⟨_, rfl, List.forall₂_map_right_iff.mpr (List.forall₂_same.mpr each)⟩

/-! ## Refusing -/

/-- A member of an object that has no key twice. -/
def HasField (j : Json) (key : String) (v : Json) : Prop :=
  ∃ members, j = .object members ∧ (members.map (·.1)).Nodup ∧ (key, v) ∈ members

variable {key : String} {v : Json}

theorem HasField.fields (h : j.HasField key v) (names : List String) (listed : key ∈ names) :
    ∃ f, j.fields names = some f ∧ f key = some v := by
  obtain ⟨members, rfl, once, hm⟩ := h
  have whole : HasMembers members (.object members) := ⟨members, rfl, .refl members⟩
  obtain ⟨f, fields, found⟩ := whole.fields once names
  exact ⟨f, fields, (found key listed).trans (lookup_of_mem once hm)⟩

theorem HasField.plain (h : j.HasField key v) (readable : j.IsReadable) :
    v.IsReadable ∧ j.plain.HasField key v.plain := by
  obtain ⟨members, rfl, once, hm⟩ := h
  have each := readable.of_mem_members
  obtain ⟨listed, value, same, distinct⟩ := exists_plain_object once each
  exact ⟨each _ hm, listed, value, distinct, same.mem_iff.mpr (List.mem_map.mpr ⟨_, hm, rfl⟩)⟩

theorem SpellsInt.plain (h : SpellsInt n j) (readable : j.IsReadable) : j.plain = j := by
  cases h with
  | number read =>
    rw [ofText?_toString, Option.some.injEq] at read
    subst read
    obtain ⟨k, number⟩ | spoilt := ofWhole_number_or_unreadable n
    · rw [number]
      rfl
    · rw [spoilt] at readable
      cases readable
  | numeral | null | blank => rfl

theorem mapM_eq_none_of_mem {items : List Json} {item : Json} (mem : item ∈ items)
    (refused : read item = none) : items.mapM read = none := by
  induction items with
  | nil => cases mem
  | cons first items ih =>
    rw [List.mapM_cons]
    obtain rfl | later := List.mem_cons.mp mem
    · rw [refused]
      rfl
    · rw [ih later]
      exact Option.bind_fun_none _

end Json

open Json

/-- What nodes write for an attribute. -/
def Attribute.Spelt (a : Attribute) : Json → Prop := IsRecord [
  ("key", SpellsField "" SpellsText a.key),
  ("value", SpellsField "" SpellsText a.value)]

def Event.Spelt (e : Event) : Json → Prop := IsRecord [
  ("type", SpellsField "" SpellsText e.eventType),
  ("attributes", SpellsField [] (SpellsList Attribute.Spelt) e.attributes)]

/-- The result of a transaction. -/
def TxResult.Spelt (t : TxResult) : Json → Prop := IsRecord [
  ("code", SpellsField 0 (fun code => SpellsInt (code : Nat)) t.code),
  ("codespace", SpellsField "" SpellsText t.codespace),
  ("log", SpellsField "" SpellsText t.log),
  ("info", SpellsField "" SpellsText t.info),
  ("gas_wanted", SpellsField 0 SpellsInt t.gasWanted),
  ("gas_used", SpellsField 0 SpellsInt t.gasUsed),
  ("events", SpellsField [] (SpellsList Event.Spelt) t.events)]

def BlockResults.Spelt (r : BlockResults) : Json → Prop := IsRecord [
  ("height", SpellsField 0 SpellsInt r.height),
  ("txs_results", SpellsField [] (SpellsList TxResult.Spelt) r.txResults),
  ("begin_block_events", SpellsField [] (SpellsList Event.Spelt) r.beginEvents),
  ("end_block_events", SpellsField [] (SpellsList Event.Spelt) r.endEvents),
  ("finalize_block_events", SpellsField [] (SpellsList Event.Spelt) r.finalizeEvents)]

/-- The numbers of the result of a transaction are of the types a node has for them. -/
structure TxResult.InRange (t : TxResult) : Prop where
  code : t.code ≤ Text.maxWord32
  gasWanted : Text.fitsInt64 t.gasWanted
  gasUsed : Text.fitsInt64 t.gasUsed

structure BlockResults.InRange (r : BlockResults) : Prop where
  height : Text.fitsInt64 r.height
  results : ∀ t ∈ r.txResults, t.InRange

variable {j : Json}

theorem Attribute.ofJson?_of_spelt (a : Attribute) (h : a.Spelt j) : ofJson? j = some a := by
  obtain ⟨f, fields, meets⟩ := h.fields
  simp only [List.forall_mem_cons, List.not_mem_nil, false_implies, implies_true, and_true] at meets
  obtain ⟨key, value⟩ := meets
  have fields : j.fields ["key", "value"] = some f := fields
  have key := key.getD fun j => SpellsText.text
  have value := value.getD fun j => SpellsText.text
  rw [ofJson?, fields]
  simp only [Option.bind_eq_bind, Option.bind_some, key, value]
  rfl

theorem Event.ofJson?_of_spelt (e : Event) (h : e.Spelt j) : ofJson? j = some e := by
  obtain ⟨f, fields, meets⟩ := h.fields
  simp only [List.forall_mem_cons, List.not_mem_nil, false_implies, implies_true, and_true] at meets
  obtain ⟨eventType, attributes⟩ := meets
  have fields : j.fields ["type", "attributes"] = some f := fields
  have eventType := eventType.getD fun j => SpellsText.text
  have attributes := attributes.getD fun j =>
    SpellsList.listOrNull fun a _ j => a.ofJson?_of_spelt
  rw [ofJson?, fields]
  simp only [Option.bind_eq_bind, Option.bind_some, eventType, attributes]
  rfl

theorem TxResult.ofJson?_of_spelt {t : TxResult} (inRange : t.InRange) (h : t.Spelt j) :
    ofJson? j = some t := by
  obtain ⟨f, fields, meets⟩ := h.fields
  simp only [List.forall_mem_cons, List.not_mem_nil, false_implies, implies_true, and_true] at meets
  obtain ⟨code, codespace, log, info, gasWanted, gasUsed, events⟩ := meets
  have fields : j.fields fieldNames = some f := fields
  have small : 0 ≤ (t.code : Int) ∧ (t.code : Int) ≤ Text.maxWord32 := by
    have small := inRange.code
    omega
  have code := code.getD fun j h => h.word32.trans (if_pos small)
  have codespace := codespace.getD fun j => SpellsText.text
  have log := log.getD fun j => SpellsText.text
  have info := info.getD fun j => SpellsText.text
  have gasWanted := gasWanted.getD fun j h => h.int64.trans (if_pos inRange.gasWanted)
  have gasUsed := gasUsed.getD fun j h => h.int64.trans (if_pos inRange.gasUsed)
  have events := events.getD fun j => SpellsList.listOrNull fun e _ j => e.ofJson?_of_spelt
  rw [ofJson?, fields]
  simp only [Option.bind_eq_bind, Option.bind_some, code, codespace, log, info, gasWanted, gasUsed,
    events]
  rfl

theorem BlockResults.ofJson?_of_spelt {r : BlockResults} (inRange : r.InRange) (h : r.Spelt j) :
    ofJson? j = some r := by
  obtain ⟨f, fields, meets⟩ := h.fields
  simp only [List.forall_mem_cons, List.not_mem_nil, false_implies, implies_true, and_true] at meets
  obtain ⟨height, results, beginEvents, endEvents, finalizeEvents⟩ := meets
  have fields : j.fields fieldNames = some f := fields
  have events {es : List Event} (j : Json) (h : SpellsList Event.Spelt es j) :
      listOrNull Event.ofJson? j = some es :=
    h.listOrNull fun e _ j => e.ofJson?_of_spelt
  have height := height.getD fun j h => h.int64.trans (if_pos inRange.height)
  have results := results.getD fun j =>
    SpellsList.listOrNull fun t ht j => TxResult.ofJson?_of_spelt (inRange.results t ht)
  have beginEvents := beginEvents.getD events
  have endEvents := endEvents.getD events
  have finalizeEvents := finalizeEvents.getD events
  rw [ofJson?, fields]
  simp only [Option.bind_eq_bind, Option.bind_some, height, results, beginEvents, endEvents,
    finalizeEvents]
  rfl

/-! ## Block results as text -/

theorem Attribute.portable (a : Attribute) : Portable 1 a.Spelt := by
  refine Portable.record ?_
  simp only [List.forall_mem_cons, List.not_mem_nil, false_implies, implies_true, and_true]
  exact ⟨.text a.key, .text a.value⟩

theorem Event.portable (e : Event) : Portable 3 e.Spelt := by
  refine Portable.record ?_
  simp only [List.forall_mem_cons, List.not_mem_nil, false_implies, implies_true, and_true]
  exact ⟨.text e.eventType, .list fun a _ => a.portable⟩

theorem TxResult.portable {t : TxResult} (inRange : t.InRange) : Portable 5 t.Spelt := by
  refine Portable.record ?_
  have narrow : Text.maxWord32 ≤ Text.maxWord64 := by decide
  have code := inRange.code
  simp only [List.forall_mem_cons, List.not_mem_nil, false_implies, implies_true, and_true]
  exact ⟨.int (by omega) (by omega), .text t.codespace, .text t.log, .text t.info,
    .int64 inRange.gasWanted, .int64 inRange.gasUsed, .list fun e _ => e.portable⟩

theorem BlockResults.portable {r : BlockResults} (inRange : r.InRange) : Portable 7 r.Spelt := by
  have events (es : List Event) : Portable 6 (SpellsList Event.Spelt es) :=
    (Portable.list fun e _ => e.portable).mono (by decide)
  refine Portable.record ?_
  simp only [List.forall_mem_cons, List.not_mem_nil, false_implies, implies_true, and_true]
  exact ⟨.int64 inRange.height, .list fun t ht => t.portable (inRange.results t ht), events _,
    events _, events _⟩

/-! ## The spelling that is written -/

theorem Attribute.spelt_toJson (a : Attribute) : a.Spelt a.toJson := by
  refine ⟨_, rfl, by simp, by simp, ?_⟩
  simp only [List.forall_mem_cons, List.not_mem_nil, false_implies, implies_true, and_true]
  exact ⟨rfl, rfl⟩

theorem Event.spelt_toJson (e : Event) : e.Spelt e.toJson := by
  refine ⟨_, rfl, by simp, by simp, ?_⟩
  simp only [List.forall_mem_cons, List.not_mem_nil, false_implies, implies_true, and_true]
  exact ⟨rfl, .array fun a _ => a.spelt_toJson⟩

theorem TxResult.spelt_toJson {t : TxResult} (inRange : t.InRange) : t.Spelt t.toJson := by
  have code : Text.fitsInt64 t.code := by
    have narrow : Text.maxWord32 ≤ Text.maxInt64 := by decide
    have small := inRange.code
    rw [Text.fitsInt64_iff]
    omega
  refine ⟨_, rfl, by simp, by simp, ?_⟩
  simp only [List.forall_mem_cons, List.not_mem_nil, false_implies, implies_true, and_true]
  exact ⟨.ofInt code, rfl, rfl, rfl, .ofInt inRange.gasWanted, .ofInt inRange.gasUsed,
    .array fun e _ => e.spelt_toJson⟩

theorem BlockResults.spelt_toJson {r : BlockResults} (inRange : r.InRange) : r.Spelt r.toJson := by
  have events (es : List Event) : SpellsList Event.Spelt es (.array (es.map Event.toJson)) :=
    .array fun e _ => e.spelt_toJson
  refine ⟨_, rfl, by simp, by simp, ?_⟩
  simp only [List.forall_mem_cons, List.not_mem_nil, false_implies, implies_true, and_true]
  exact ⟨.ofInt inRange.height, .array fun t ht => t.spelt_toJson (inRange.results t ht), events _,
    events _, events _⟩

/-! ## Numbers out of range -/

/-- The object has a number, in one of its spellings, that the result of a transaction
cannot have there. -/
inductive TxResult.OutOfRange (j : Json) : Prop where
  | code {n : Int} {v : Json} (field : j.HasField "code" v) (spelt : SpellsInt n v)
      (out : ¬ (0 ≤ n ∧ n ≤ Text.maxWord32))
  | gas {key : String} {n : Int} {v : Json} (which : key = "gas_wanted" ∨ key = "gas_used")
      (field : j.HasField key v) (spelt : SpellsInt n v) (out : ¬ Text.fitsInt64 n)

/-- The same of block results and the results of transactions in them. -/
inductive BlockResults.OutOfRange (j : Json) : Prop where
  | height {n : Int} {v : Json} (field : j.HasField "height" v) (spelt : SpellsInt n v)
      (out : ¬ Text.fitsInt64 n)
  | result {items : List Json} {item : Json} (field : j.HasField "txs_results" (.array items))
      (mem : item ∈ items) (out : TxResult.OutOfRange item)

theorem TxResult.OutOfRange.plain (h : OutOfRange j) (readable : j.IsReadable) :
    OutOfRange j.plain := by
  cases h with
  | code field spelt out =>
    obtain ⟨readable, field⟩ := field.plain readable
    exact .code field ((spelt.plain readable).symm ▸ spelt) out
  | gas which field spelt out =>
    obtain ⟨readable, field⟩ := field.plain readable
    exact .gas which field ((spelt.plain readable).symm ▸ spelt) out

theorem BlockResults.OutOfRange.plain (h : OutOfRange j) (readable : j.IsReadable) :
    OutOfRange j.plain := by
  cases h with
  | height field spelt out =>
    obtain ⟨readable, field⟩ := field.plain readable
    exact .height field ((spelt.plain readable).symm ▸ spelt) out
  | result field mem out =>
    obtain ⟨readable, field⟩ := field.plain readable
    have each := readable.of_mem_items
    rw [plain_array each] at field
    exact .result field (List.mem_map_of_mem mem) (out.plain (each _ mem))

theorem TxResult.ofJson?_of_outOfRange (h : OutOfRange j) : ofJson? j = none := by
  cases h with
  | code field spelt out =>
    obtain ⟨f, fields, found⟩ := field.fields fieldNames (by simp [fieldNames])
    simp [ofJson?, fields, Fields.getD_of_eq found, spelt.word32, out]
  | gas which field spelt out =>
    obtain rfl | rfl := which
    all_goals
      obtain ⟨f, fields, found⟩ := field.fields fieldNames (by simp [fieldNames])
      simp [ofJson?, fields, Fields.getD_of_eq found, spelt.int64, out]

theorem BlockResults.ofJson?_of_outOfRange (h : OutOfRange j) : ofJson? j = none := by
  cases h with
  | height field spelt out =>
    obtain ⟨f, fields, found⟩ := field.fields fieldNames (by simp [fieldNames])
    simp [ofJson?, fields, Fields.getD_of_eq found, spelt.int64, out]
  | result field mem out =>
    obtain ⟨f, fields, found⟩ := field.fields fieldNames (by simp [fieldNames])
    have refused := mapM_eq_none_of_mem mem (TxResult.ofJson?_of_outOfRange out)
    simp [ofJson?, fields, Fields.getD_of_eq found, listOrNull, list, refused]

/-! ## In every spelling -/

/-- Block results whose numbers are in range are read from each of their spellings, which
what is written of them is one of: from the value, and from its text with either reader. A
number that is out of range is refused, in the value and in every text that is read as it. -/
theorem BlockResults.read_in_every_spelling :
    (∀ r : BlockResults, r.InRange → r.Spelt r.toJson ∧ ∀ j, r.Spelt j → ofJson? j = some r ∧
      (ofText? j.render).bind ofJson? = some r ∧ (parse? j.render).bind ofJson? = some r) ∧
    ∀ j, OutOfRange j → ofJson? j = none ∧ ∀ s, ofText? s = some j →
      (ofText? s).bind ofJson? = none ∧ (parse? s).bind ofJson? = none := by
  constructor
  · intro r inRange
    refine ⟨spelt_toJson inRange, fun j spelt => ⟨ofJson?_of_spelt inRange spelt, ?_, ?_⟩⟩
    all_goals
      obtain ⟨legible, plain⟩ := portable inRange j spelt
      have legible := legible.mono (show 7 ≤ maxDepth by decide)
    · rw [ofText?_render legible, Option.bind_some, ofJson?_of_spelt inRange spelt]
    · rw [parse?_render legible, Option.bind_some, ofJson?_of_spelt inRange plain]
  · intro j out
    refine ⟨ofJson?_of_outOfRange out, fun s read => ⟨?_, ?_⟩⟩
    · rw [read, Option.bind_some, ofJson?_of_outOfRange out]
    · rw [parse?, read, Option.bind_some]
      cases value : j.canonical with
      | none => rfl
      | some c =>
        have readable : j.IsReadable := Option.isSome_of_eq_some value
        rw [readable.canonical, Option.some.injEq] at value
        rw [Option.bind_some, ← value]
        exact ofJson?_of_outOfRange (out.plain readable)

def transferEvent : Event := ⟨"transfer", [⟨"amount", "5uatom"⟩]⟩

def transferResult : TxResult := ⟨0, "", "[]", "", 200000, 81234, []⟩

/-- Results with one transaction and one event. -/
def transferResults : BlockResults := ⟨42, [transferResult], [], [transferEvent], []⟩

def transferResultSpelling : Json := .object [("gas_wanted", .string "200000"),
  ("gas_used", .string "81234"), ("code", .null), ("log", .string "[]"), ("events", .null)]

/-- The same with numbers in texts, null for a zero and for empty lists, and fields left out. -/
def transferSpelling : Json := .object [("txs_results", .array [transferResultSpelling]),
  ("height", .string "42"), ("begin_block_events", .null),
  ("end_block_events", .array [transferEvent.toJson])]

theorem BlockResults.read_in_every_spelling_transfer :
    transferResults.InRange ∧ transferResults.Spelt transferSpelling ∧
      (parse? transferSpelling.render).bind ofJson? = some transferResults ∧
      ofJson? (.object [("height", .string "9223372036854775808")]) = none := by
  have inRange : transferResults.InRange := by
    refine ⟨by decide, fun t ht => ?_⟩
    obtain rfl := List.mem_singleton.mp ht
    exact ⟨by decide, by decide, by decide⟩
  have numeral (n : Int) {s : String} (text : toString n = s) : SpellsInt n (.string s) :=
    .numeral (text ▸ Text.isNumeral_toString n)
  have result : transferResult.Spelt transferResultSpelling := by
    refine ⟨_, rfl, by simp, by simp, ?_⟩
    simp only [List.forall_mem_cons, List.not_mem_nil, false_implies, implies_true, and_true]
    exact ⟨.null rfl, rfl, rfl, rfl, numeral 200000 rfl, numeral 81234 rfl, .inr ⟨rfl, rfl⟩⟩
  have spelt : transferResults.Spelt transferSpelling := by
    refine ⟨_, rfl, by simp, by simp, ?_⟩
    simp only [List.forall_mem_cons, List.not_mem_nil, false_implies, implies_true, and_true]
    exact ⟨numeral 42 rfl, .inl ⟨_, rfl, .cons result .nil⟩, .inr ⟨rfl, rfl⟩,
      .inl ⟨_, rfl, .cons transferEvent.spelt_toJson .nil⟩, rfl⟩
  have out : OutOfRange (.object [("height", .string "9223372036854775808")]) :=
    .height ⟨_, rfl, by simp, List.mem_singleton_self _⟩ (numeral 9223372036854775808 rfl)
      (by decide)
  exact ⟨inRange, spelt, ((read_in_every_spelling.1 _ inRange).2 _ spelt).2.2,
    (read_in_every_spelling.2 _ out).1⟩

end ChainIndex
