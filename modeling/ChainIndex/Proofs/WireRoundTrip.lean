/-
What is written on the wire is read back. A list of fields that fit the wire is read
from its bytes, whatever the nesting that is left, and the readers of single fields
find in a list what the writers put there. `Spells` says that a list of fields is the
record which a reader makes of it; records in records are read where each of them is
spelt, provided that the whole is below 2^64 bytes.
-/
import ChainIndex.Proofs.Outcomes
import ChainIndex.Wire.Field

namespace ChainIndex

namespace Wire

/-- Lengths on the wire stay below this. -/
def maxLength : Nat := 0x10000000000000000

/-- A field that can be written: its number has at most 29 bits and is not zero, and
its value is of its type's size. Groups are only read. -/
def Field.Fits (f : Field) : Prop :=
  0 < f.number ∧ f.number < 0x20000000 ∧
    match f.value with
    | .varint n => n < 0x10000000000000000
    | .fixed64 x => x.length = 8
    | .bytes _ => True
    | .group => False
    | .fixed32 x => x.length = 4

def Writable (fs : List Field) : Prop := ∀ f ∈ fs, f.Fits

/-! ## One field -/

theorem key?_writeKey {number wireType : Nat} (hn : 0 < number) (hl : number < 0x20000000)
    (hw : wireType < 8) (rest : Bytes) :
    key? (writeKey number wireType ++ rest) = some (number, wireType, rest) := by
  have small : 8 * number + wireType < 0x10000000000000000 := by omega
  have quotient : (8 * number + wireType) / 8 = number := by omega
  have remainder : (8 * number + wireType) % 8 = wireType := by omega
  have inRange : 8 * number + wireType < 0x100000000 ∧ 8 ≤ 8 * number + wireType := by omega
  simp only [key?, writeKey, Varint.read?_write small, bind, Option.bind]
  rw [if_pos inRange, quotient, remainder]

/-- As many bytes as there are in front are taken from what follows. -/
theorem take?_length_append (front rest : Bytes) :
    take? front.length (front ++ rest) = some (front, rest) := by
  simp [take?]

/-- A field is read back from its bytes, whatever stands behind them. -/
theorem field?_writeField {f : Field} (fits : f.Fits) (small : (writeField f).length < maxLength)
    (nesting : Nat) (rest : Bytes) : field? nesting (writeField f ++ rest) = some (f, rest) := by
  obtain ⟨number, value⟩ := f
  obtain ⟨hn, hl, hv⟩ := fits
  cases value with
  | varint n =>
    simp only [writeField, List.append_assoc, field?, bind, Option.bind]
    rw [key?_writeKey hn hl (by omega)]
    simp [plainValue?, Varint.read?_write hv]
  | fixed64 x =>
    have taken := take?_length_append x rest
    rw [show x.length = 8 from hv] at taken
    simp only [writeField, List.append_assoc, field?, bind, Option.bind]
    rw [key?_writeKey hn hl (by omega)]
    simp [plainValue?, taken]
  | bytes content =>
    have short : content.length < 0x10000000000000000 := by
      simp only [writeField, List.length_append, maxLength] at small
      omega
    simp only [writeField, List.append_assoc, field?, bind, Option.bind]
    rw [key?_writeKey hn hl (by omega)]
    simp [plainValue?, Varint.read?_write short, take?_length_append, bind, Option.bind]
  | group => exact absurd hv id
  | fixed32 x =>
    have taken := take?_length_append x rest
    rw [show x.length = 4 from hv] at taken
    simp only [writeField, List.append_assoc, field?, bind, Option.bind]
    rw [key?_writeKey hn hl (by omega)]
    simp [plainValue?, taken]

/-! ## All fields -/

theorem write_ne_nil (n : Nat) : Varint.write n ≠ [] := by
  rw [Varint.write]
  split <;> simp

theorem writeField_ne_nil (f : Field) : writeField f ≠ [] := by
  obtain ⟨number, value⟩ := f
  have key (wireType : Nat) : writeKey number wireType ≠ [] := write_ne_nil _
  cases value <;> simp [writeField, key]

@[simp] theorem write_nil : write [] = [] := rfl

@[simp] theorem write_cons (f : Field) (fs : List Field) :
    write (f :: fs) = writeField f ++ write fs := rfl

theorem write_append (fs gs : List Field) : write (fs ++ gs) = write fs ++ write gs :=
  List.flatMap_append

/-- A field takes a byte at least. -/
theorem length_le_length_write (fs : List Field) : fs.length ≤ (write fs).length := by
  induction fs with
  | nil => simp
  | cons f fs ih =>
    have := List.length_pos_iff.mpr (writeField_ne_nil f)
    simp only [List.length_cons, write_cons, List.length_append]
    omega

theorem fieldsUpTo_write {fs : List Field} (fits : Writable fs)
    (small : (write fs).length < maxLength) (nesting : Nat) {fuel : Nat} (enough : fs.length ≤ fuel) :
    fieldsUpTo fuel nesting (write fs) = some fs := by
  -- Each field uses up one unit of fuel and leaves the bytes of the others.
  induction fs generalizing fuel with
  | nil => simp [fieldsUpTo]
  | cons f fs ih =>
    obtain ⟨fuel, rfl⟩ : ∃ n, fuel = n + 1 := ⟨fuel - 1, by simp at enough; omega⟩
    simp only [write_cons, List.length_append] at small
    have first := field?_writeField (fits f List.mem_cons_self) (by omega) nesting (write fs)
    have others := ih (fun g hg => fits g (List.mem_cons_of_mem f hg)) (by omega)
      (Nat.le_of_succ_le_succ enough)
    have cons : write (f :: fs) ≠ [] := by simp [writeField_ne_nil]
    rw [write_cons] at cons ⊢
    rw [fieldsUpTo.eq_3 _ _ _ cons, first]
    simp [others]

/-- **Fields are read back from their bytes.** -/
theorem fields?_write {fs : List Field} (fits : Writable fs)
    (small : (write fs).length < maxLength) (nesting : Nat) :
    fields? nesting (write fs) = some fs :=
  fieldsUpTo_write fits small nesting (length_le_length_write fs)

/-- What a field holds is no longer than the message around it. -/
theorem length_le_of_mem {number : Nat} {content : Bytes} {fs : List Field}
    (mem : ⟨number, .bytes content⟩ ∈ fs) : content.length ≤ (write fs).length := by
  induction fs with
  | nil => cases mem
  | cons f fs ih =>
    simp only [write_cons, List.length_append]
    rcases List.mem_cons.mp mem with rfl | mem
    · simp only [writeField, List.length_append]
      omega
    · have := ih mem
      omega

/-! ## Writers -/

/-- The records of a repeated field, or the one of a field that may be missing. -/
def ofRecords {α : Type} (number : Nat) (fields : α → List Field) (xs : List α) : List Field :=
  xs.map fun x => ofRecord number (fields x)

/-- The byte strings of a repeated field. -/
def ofByteStrings (number : Nat) (xs : List Bytes) : List Field :=
  xs.map fun x => ⟨number, .bytes x⟩

@[simp] theorem writable_nil : Writable [] := fun _ h => absurd h List.not_mem_nil

@[simp] theorem writable_append {fs gs : List Field} :
    Writable (fs ++ gs) ↔ Writable fs ∧ Writable gs := by
  simp only [Writable, List.mem_append, or_imp, forall_and]

section

variable {number k : Nat} {fs : List Field}

theorem writable_ofWord (h : 0 < number) (h' : number < 0x20000000) (n : UInt64) :
    Writable (ofWord number n.toNat) := by
  intro f hf
  unfold ofWord at hf
  split at hf
  · cases hf
  · cases List.mem_singleton.mp hf
    exact ⟨h, h', n.toNat_lt⟩

theorem writable_ofBytes (h : 0 < number) (h' : number < 0x20000000) (content : Bytes) :
    Writable (ofBytes number content) := by
  intro f hf
  unfold ofBytes at hf
  split at hf
  · cases hf
  · cases List.mem_singleton.mp hf
    exact ⟨h, h', trivial⟩

theorem writable_ofText (h : 0 < number) (h' : number < 0x20000000) (s : String) :
    Writable (ofText number s) :=
  writable_ofBytes h h' _

theorem writable_ofRecords (h : 0 < number) (h' : number < 0x20000000) {α : Type}
    (fields : α → List Field) (xs : List α) : Writable (ofRecords number fields xs) := by
  intro f hf
  obtain ⟨x, -, rfl⟩ := List.mem_map.mp hf
  exact ⟨h, h', trivial⟩

theorem writable_ofByteStrings (h : 0 < number) (h' : number < 0x20000000) (xs : List Bytes) :
    Writable (ofByteStrings number xs) := by
  intro f hf
  obtain ⟨x, -, rfl⟩ := List.mem_map.mp hf
  exact ⟨h, h', trivial⟩

/-! ## Values under a number -/

@[simp] theorem valuesOf_append (gs : List Field) :
    valuesOf k (fs ++ gs) = valuesOf k fs ++ valuesOf k gs := by
  simp [valuesOf]

theorem mem_of_mem_valuesOf {v : Value} (mem : v ∈ valuesOf k fs) : ⟨k, v⟩ ∈ fs := by
  obtain ⟨f, kept, rfl⟩ := List.mem_map.mp mem
  obtain ⟨there, same⟩ := List.mem_filter.mp kept
  obtain rfl : f.number = k := by simpa using same
  exact there

/-- Fields of one number are all found under it, and none under another. -/
theorem valuesOf_of_number (h : ∀ f ∈ fs, f.number = number) :
    valuesOf k fs = if number = k then fs.map (·.value) else [] := by
  unfold valuesOf
  split
  · next same =>
    rw [List.filter_eq_self.mpr fun f hf => by simp [h f hf, same]]
  · next other =>
    rw [List.filter_eq_nil_iff.mpr fun f hf => by simp [h f hf, other], List.map_nil]

@[simp] theorem valuesOf_ofWord (n : Nat) :
    valuesOf k (ofWord number n) = if number = k then (ofWord number n).map (·.value) else [] := by
  refine valuesOf_of_number fun f hf => ?_
  unfold ofWord at hf
  split at hf <;> simp_all

@[simp] theorem valuesOf_ofBytes (content : Bytes) :
    valuesOf k (ofBytes number content) =
      if number = k then (ofBytes number content).map (·.value) else [] := by
  refine valuesOf_of_number fun f hf => ?_
  unfold ofBytes at hf
  split at hf <;> simp_all

@[simp] theorem valuesOf_ofText (s : String) :
    valuesOf k (ofText number s) = if number = k then (ofText number s).map (·.value) else [] :=
  valuesOf_ofBytes _

@[simp] theorem valuesOf_ofRecords {α : Type} (fields : α → List Field) (xs : List α) :
    valuesOf k (ofRecords number fields xs) =
      if number = k then (ofRecords number fields xs).map (·.value) else [] := by
  refine valuesOf_of_number fun f hf => ?_
  obtain ⟨x, -, rfl⟩ := List.mem_map.mp hf
  rfl

@[simp] theorem valuesOf_ofByteStrings (xs : List Bytes) :
    valuesOf k (ofByteStrings number xs) =
      if number = k then (ofByteStrings number xs).map (·.value) else [] := by
  refine valuesOf_of_number fun f hf => ?_
  obtain ⟨x, -, rfl⟩ := List.mem_map.mp hf
  rfl

/-! ## Readers -/

theorem word64_of_values {n : Nat} (h : valuesOf k fs = (ofWord k n).map (·.value)) :
    word64 k fs = some n := by
  unfold word64 single repeated
  rw [h]
  unfold ofWord
  split
  · next zero => simp [zero]
  · simp [Value.varint?]

theorem byteString_of_values {content : Bytes}
    (h : valuesOf k fs = (ofBytes k content).map (·.value)) :
    byteString k fs = some content := by
  unfold byteString single repeated
  rw [h]
  unfold ofBytes
  split
  · next empty => simp [List.isEmpty_iff.mp empty]
  · simp [Value.bytes?]

theorem text_of_values {s : String} (h : valuesOf k fs = (ofText k s).map (·.value)) :
    text k fs = some s := by
  unfold text single repeated
  rw [h]
  unfold ofText ofBytes
  split
  · next empty =>
    -- Only the empty text has no bytes.
    have read := Bytes.toText?_ofText s
    rw [List.isEmpty_iff.mp empty, show ([] : Bytes) = Bytes.ofText "" from rfl,
      Bytes.toText?_ofText] at read
    simpa using read
  · simp [Value.text?, Value.bytes?, Bytes.toText?_ofText]

theorem byteStrings_of_values {xs : List Bytes}
    (h : valuesOf k fs = (ofByteStrings k xs).map (·.value)) :
    repeated Value.bytes? k fs = some xs := by
  have values : (ofByteStrings k xs).map (·.value) = xs.map Value.bytes := by
    simp [ofByteStrings]
  have read : (xs.map Value.bytes).mapM Value.bytes? = pure (xs.map id) :=
    mapM_map_eq_pure fun x _ => rfl
  rw [repeated, h, values, read, List.map_id]
  rfl

/-! ## Records -/

/-- These fields can be written, and at a nesting they are read as this record. -/
structure Spells {α : Type} (read : Nat → List Field → Option α) (nesting : Nat)
    (fs : List Field) (a : α) : Prop where
  writable : Writable fs
  reads : (write fs).length < maxLength → read nesting fs = some a

variable {α β : Type} {read : Nat → List Field → Option β} {n : Nat}

/-- A record that is a whole message is read from its bytes. -/
theorem Spells.message {a : β} (h : Spells read maxNesting fs a)
    (small : (write fs).length < maxLength) : message? read (write fs) = some a := by
  simp [message?, fields?_write h.writable small, h.reads small]

/-- What the records of a field hold is as small as the message. -/
theorem contents_of_values {fields : α → List Field} {xs : List α}
    (small : (write fs).length < maxLength)
    (h : valuesOf k fs = (ofRecords k fields xs).map (·.value)) :
    repeated Value.bytes? k fs = some (xs.map fun x => write (fields x)) ∧
      ∀ x ∈ xs, (write (fields x)).length < maxLength := by
  have values : (ofRecords k fields xs).map (·.value) =
      xs.map fun x => Value.bytes (write (fields x)) := by simp [ofRecords, ofRecord]
  constructor
  · rw [repeated, h, values]
    exact mapM_map_eq_pure fun x _ => rfl
  · intro x hx
    have listed : Value.bytes (write (fields x)) ∈ valuesOf k fs := by
      rw [h, values]
      exact List.mem_map_of_mem hx
    exact Nat.lt_of_le_of_lt (length_le_of_mem (mem_of_mem_valuesOf listed)) small

/-- The records of a repeated field are read in their order. -/
theorem records_of_values {fields : α → List Field} {g : α → β} {xs : List α}
    (each : ∀ x ∈ xs, Spells read n (fields x) (g x)) (small : (write fs).length < maxLength)
    (h : valuesOf k fs = (ofRecords k fields xs).map (·.value)) :
    records (n + 1) read k fs = some (xs.map g) := by
  obtain ⟨contents, smaller⟩ := contents_of_values small h
  have inner : ∀ x ∈ xs, (fields? n (write (fields x)) >>= fun fs => read n fs) = pure (g x) := by
    intro x hx
    rw [fields?_write (each x hx).writable (smaller x hx)]
    exact (each x hx).reads (smaller x hx)
  unfold records
  rw [if_neg (by simp), contents]
  exact mapM_map_eq_pure inner

/-- The record of a field that may be missing is read if it is there. -/
theorem record?_of_values {fields : α → List Field} {g : α → β} {o : Option α}
    (each : ∀ x ∈ o, Spells read n (fields x) (g x)) (small : (write fs).length < maxLength)
    (h : valuesOf k fs = (ofRecords k fields o.toList).map (·.value)) :
    record? (n + 1) read k fs = some (o.map g) := by
  obtain ⟨contents, smaller⟩ := contents_of_values small h
  unfold record?
  rw [if_neg (by simp), contents]
  cases o with
  | none => simp
  | some x =>
    have written := each x rfl
    have smaller := smaller x (by simp)
    simp [fields?_write written.writable smaller, written.reads smaller]

end

end Wire

end ChainIndex
