/-
The rows of denominations under an update. A denomination is listed as often as its lists
repeat it: the last time decides its name and symbol, and of each unit the last time that it
is listed decides the exponent. What is stored under other names stays, and at the end a
denomination that has no unit at all gets its base as one. `Relisted` says what this makes of
the rows, one lookup at a time, since the order of rows and of units means nothing.
-/
import ChainIndex.Database.Denoms
import ChainIndex.Proofs.KnownDenoms
import ChainIndex.Proofs.WriteOrder

namespace ChainIndex

namespace Table

variable {κ α : Type} [DecidableEq κ] {t u : Table κ α}

/-- Lookups do not ask for the order of the keys. -/
theorem get?_of_perm (nodup : (t.map (·.1)).Nodup) (perm : t.Perm u) (key : κ) :
    u.get? key = t.get? key := by
  have nodup' := (perm.map (·.1)).nodup_iff.mp nodup
  refine Option.ext fun a => ⟨fun found => ?_, fun found => ?_⟩
  · exact get?_of_mem nodup (perm.mem_iff.mpr (mem_of_get? found))
  · exact get?_of_mem nodup' (perm.mem_iff.mp (mem_of_get? found))

theorem eq_nil_iff : t = [] ↔ ∀ key, t.get? key = none := by
  constructor
  · rintro rfl key
    rfl
  · intro none
    cases t with
    | nil => rfl
    | cons first rest =>
      have found := none first.1
      rw [get?_cons, if_pos rfl] at found
      cases found

/-- Gives the keys of one table the values that they have there. -/
def putAll (u t : Table κ α) : Table κ α :=
  u.foldl (fun t (key, a) => Table.put key a t) t

theorem get?_putAll (nodup : (u.map (·.1)).Nodup) (t : Table κ α) (key : κ) :
    (putAll u t).get? key = (u.get? key).or (t.get? key) := by
  induction u generalizing t with
  | nil => rfl
  | cons first rest ih =>
    obtain ⟨k, a⟩ := first
    obtain ⟨fresh, nodup⟩ := List.nodup_cons.mp nodup
    have later := ih nodup (t.put k a)
    rw [get?_put] at later
    rw [get?_cons]
    refine later.trans ?_
    by_cases same : k = key
    · subst same
      rw [get?_eq_none_iff.mpr fresh]
      simp
    · simp [same, Ne.symm same]

theorem nodup_putAll (u : Table κ α) {t : Table κ α} (nodup : (t.map (·.1)).Nodup) :
    ((putAll u t).map (·.1)).Nodup := by
  induction u generalizing t with
  | nil => exact nodup
  | cons first rest ih => exact ih (Database.nodup_put nodup _ _)

end Table

namespace Database

/-! ## Units -/

/-- The exponent that a list of units gives a name: the last one, or the largest that there is. -/
def listedExponent? (units : List DenomUnit) (name : String) : Option Nat :=
  (units.reverse.find? (·.name == name)).map fun u => min u.exponent maxInt32

theorem listedExponent?_append (us vs : List DenomUnit) (name : String) :
    listedExponent? (us ++ vs) name = (listedExponent? vs name).or (listedExponent? us name) := by
  simp [listedExponent?, List.find?_append, Option.map_or]

theorem listedExponent?_cons (u : DenomUnit) (us : List DenomUnit) (name : String) :
    listedExponent? (u :: us) name =
      (listedExponent? us name).or
        (if u.name = name then some (min u.exponent maxInt32) else none) := by
  rw [← List.singleton_append, listedExponent?_append]
  by_cases same : u.name = name <;> simp [listedExponent?, same]

theorem listedExponent?_eq_none_iff {units : List DenomUnit} :
    (∀ name, listedExponent? units name = none) ↔ units = [] := by
  constructor
  · intro none
    cases units with
    | nil => rfl
    | cons u us =>
      have first := none u.name
      rw [listedExponent?_cons, if_pos rfl] at first
      cases later : listedExponent? us u.name <;> simp [later] at first
  · rintro rfl name
    rfl

/-- The names of units one after another, as they come. -/
def unitsInOrder (units : List DenomUnit) (us : Table String Nat) : Table String Nat :=
  units.foldl (fun us u => Table.put u.name (min u.exponent maxInt32) us) us

theorem get?_unitsInOrder (units : List DenomUnit) (us : Table String Nat) (name : String) :
    (unitsInOrder units us).get? name = (listedExponent? units name).or (us.get? name) := by
  induction units generalizing us with
  | nil => rfl
  | cons u units ih =>
    have later := ih (us.put u.name (min u.exponent maxInt32))
    rw [Table.get?_put] at later
    refine later.trans ?_
    rw [listedExponent?_cons, Option.or_assoc]
    by_cases same : u.name = name
    · simp [same]
    · simp [same, Ne.symm same]

theorem nodup_unitsInOrder (units : List DenomUnit) :
    ((unitsInOrder units []).map (·.1)).Nodup := by
  have each (us : Table String Nat) (nodup : (us.map (·.1)).Nodup) :
      ((unitsInOrder units us).map (·.1)).Nodup := by
    induction units generalizing us with
    | nil => exact nodup
    | cons u units ih => exact ih _ (nodup_put nodup _ _)
  exact each [] List.nodup_nil

/-- No name is twice among the units of one statement. -/
theorem nodup_unitRows (units : List DenomUnit) : ((unitRows units).map (·.1)).Nodup := by
  have sorted : (unitRows units).Perm (unitsInOrder units []) := List.mergeSort_perm ..
  exact (sorted.map (·.1)).nodup_iff.mpr (nodup_unitsInOrder units)

theorem get?_unitRows (units : List DenomUnit) (name : String) :
    (unitRows units).get? name = listedExponent? units name := by
  have sorted : (unitRows units).Perm (unitsInOrder units []) := List.mergeSort_perm ..
  rw [Table.get?_of_perm (nodup_unitsInOrder units) sorted.symm, get?_unitsInOrder]
  exact Option.or_none

/-! ## Rows -/

/-- In each row every unit has its own name. -/
abbrev DenomRow.UniqueUnits (row : DenomRow) : Prop := (row.units.map (·.1)).Nodup

/-- Every denomination has one row, and in it each unit its own name. -/
abbrev UniqueRows (rows : Table String DenomRow) : Prop := rows.Filed fun _ => DenomRow.UniqueUnits

/-- The names that rows give a denomination. -/
def names? (rows : Table String DenomRow) (base : String) : Option (String × String) :=
  (rows.get? base).map fun row => (row.name, row.symbol)

/-- The exponent that rows give a unit of a denomination. -/
def exponent? (rows : Table String DenomRow) (base name : String) : Option Nat :=
  (rows.get? base).bind (·.units.get? name)

/-- The names that some lists give a denomination: the last ones. -/
def listedNames? (listed : List DenomMetadata) (base : String) : Option (String × String) :=
  (listed.reverse.find? (·.base == base)).map fun d => (d.name, d.symbol)

/-- All units that some lists give a denomination. -/
def listedUnits (listed : List DenomMetadata) (base : String) : List DenomUnit :=
  (listed.filter (·.base == base)).flatMap (·.units)

/-- The denomination has no unit, neither listed nor stored. -/
def isBare (listed : List DenomMetadata) (rows : Table String DenomRow) (base : String) : Bool :=
  (listedUnits listed base).isEmpty && (rows.get? base).all (·.units.isEmpty)

/-- What becomes of the rows that there are when denominations are listed. -/
structure Relisted (listed : List DenomMetadata) (rows rows' : Table String DenomRow) : Prop where
  unique : UniqueRows rows'
  units : ∀ entry ∈ rows', entry.2.units ≠ []
  /-- A denomination has a row if it had one or is listed; the list decides its names. -/
  names : ∀ base, names? rows' base = (listedNames? listed base).or (names? rows base)
  /-- The list decides the exponents of the units that it has. -/
  exponents : ∀ base, isBare listed rows base = false → ∀ name,
    exponent? rows' base name =
      (listedExponent? (listedUnits listed base) name).or (exponent? rows base name)
  bare : ∀ base row, rows'.get? base = some row → isBare listed rows base = true →
    row.units = [(base, 0)]
  others : ∀ base, (∀ d ∈ listed, d.base ≠ base) → isBare listed rows base = false →
    rows'.get? base = rows.get? base

/-- The row of a denomination that is listed, with its units. -/
def DenomRow.listedAs (d : DenomMetadata) (old : Option DenomRow) : DenomRow :=
  DenomRow.addUnits (unitRows d.units) (DenomRow.named d old)

theorem DenomRow.get?_listedAs (d : DenomMetadata) (old : Option DenomRow) (name : String) :
    (DenomRow.listedAs d old).units.get? name =
      (listedExponent? d.units name).or (old.bind (·.units.get? name)) := by
  have added := Table.get?_putAll (nodup_unitRows d.units) (DenomRow.named d old).units name
  rw [get?_unitRows] at added
  refine added.trans ?_
  cases old <;> rfl

theorem DenomRow.uniqueUnits_listedAs (d : DenomMetadata) {old : Option DenomRow}
    (h : ∀ row, old = some row → row.UniqueUnits) : (DenomRow.listedAs d old).UniqueUnits := by
  refine Table.nodup_putAll (unitRows d.units) ?_
  cases old with
  | none => exact .nil
  | some row => exact h row rfl

/-- The rows after some denominations are listed one after another. -/
def relistRows (listed : List DenomMetadata) (rows : Table String DenomRow) :
    Table String DenomRow :=
  listed.foldl (fun rows d => rows.update d.base (DenomRow.listedAs d)) rows

theorem UniqueRows.relistRows {rows : Table String DenomRow} (h : UniqueRows rows)
    (listed : List DenomMetadata) : UniqueRows (relistRows listed rows) := by
  induction listed generalizing rows with
  | nil => exact h
  | cons d ds ih =>
    refine ih (h.put ?_)
    exact DenomRow.uniqueUnits_listedAs d fun row found => h.get? found

theorem names?_relistRows (listed : List DenomMetadata) (rows : Table String DenomRow)
    (base : String) :
    names? (relistRows listed rows) base = (listedNames? listed base).or (names? rows base) := by
  induction listed generalizing rows with
  | nil => rfl
  | cons d ds ih =>
    refine (ih _).trans ?_
    rw [listedNames?, listedNames?, List.reverse_cons, List.find?_append, Option.map_or,
      Option.or_assoc, names?, names?, Table.get?_update]
    by_cases same : d.base = base
    · simp [same, DenomRow.listedAs, DenomRow.addUnits, DenomRow.named]
    · simp [same, Ne.symm same]

theorem exponent?_relistRows (listed : List DenomMetadata) (rows : Table String DenomRow)
    (base name : String) :
    exponent? (relistRows listed rows) base name =
      (listedExponent? (listedUnits listed base) name).or (exponent? rows base name) := by
  induction listed generalizing rows with
  | nil => rfl
  | cons d ds ih =>
    refine (ih _).trans ?_
    rw [exponent?, exponent?, Table.get?_update]
    by_cases same : d.base = base
    · have units : listedUnits (d :: ds) base = d.units ++ listedUnits ds base := by
        simp [listedUnits, same]
      rw [units, listedExponent?_append, Option.or_assoc, if_pos same.symm, Option.bind_some,
        DenomRow.get?_listedAs, same]
    · have units : listedUnits (d :: ds) base = listedUnits ds base := by
        simp [listedUnits, same]
      rw [units, if_neg (Ne.symm same)]

theorem get?_relistRows_other {listed : List DenomMetadata} {base : String}
    (unlisted : ∀ d ∈ listed, d.base ≠ base) (rows : Table String DenomRow) :
    (relistRows listed rows).get? base = rows.get? base := by
  induction listed generalizing rows with
  | nil => rfl
  | cons d ds ih =>
    obtain ⟨here, others⟩ := List.forall_mem_cons.mp unlisted
    refine (ih others _).trans ?_
    rw [Table.get?_update, if_neg (Ne.symm here)]

/-- A row that is there after listing has no unit exactly if its denomination is bare. -/
theorem units_relistRows_eq_nil_iff {listed : List DenomMetadata} {rows : Table String DenomRow}
    {base : String} {row : DenomRow} (found : (relistRows listed rows).get? base = some row) :
    row.units = [] ↔ isBare listed rows base = true := by
  have lookups (name : String) := exponent?_relistRows listed rows base name
  simp only [exponent?, found, Option.bind_some] at lookups
  rw [Table.eq_nil_iff]
  simp only [lookups, Option.or_eq_none_iff, forall_and, listedExponent?_eq_none_iff]
  rw [isBare, Bool.and_eq_true, List.isEmpty_iff]
  refine and_congr_right fun _ => ?_
  cases rows.get? base with
  | none => simp
  | some old => simp [Table.eq_nil_iff]

/-! ## Bases as units -/

namespace Tables

variable {t : Tables}

theorem get?_onDenom (base other : String) (f : DenomRow → DenomRow) :
    (t.onDenom base f).denoms.get? other =
      if other = base then (t.denoms.get? base).map f else t.denoms.get? other := by
  unfold onDenom
  cases found : t.denoms.get? base with
  | none =>
    by_cases same : other = base
    · simp [same, found]
    · simp [same]
  | some row => exact Table.get?_put ..

theorem keys_onDenom (base : String) (f : DenomRow → DenomRow) :
    (t.onDenom base f).denoms.map (·.1) = t.denoms.map (·.1) := by
  unfold onDenom
  cases found : t.denoms.get? base with
  | none => rfl
  | some row =>
    have present : base ∈ t.denoms.map (·.1) := List.mem_map_of_mem (Table.mem_of_get? found)
    exact (Table.keys_put ..).trans (if_pos present)

theorem onDenom_rest (t : Tables) (base : String) (f : DenomRow → DenomRow) :
    ∃ denoms, t.onDenom base f = { t with denoms } := by
  unfold onDenom
  split
  · exact ⟨_, rfl⟩
  · exact ⟨t.denoms, rfl⟩

theorem keys_addBaseUnits (bases : List String) (t : Tables) :
    (t.addBaseUnits bases).denoms.map (·.1) = t.denoms.map (·.1) := by
  induction bases generalizing t with
  | nil => rfl
  | cons base bases ih => exact (ih _).trans (keys_onDenom base _)

theorem onDenom_addUnits_nil (t : Tables) (base : String) :
    t.onDenom base (DenomRow.addUnits []) = t := by
  unfold onDenom
  split
  · next row found =>
    have same : t.denoms.put base (DenomRow.addUnits [] row) = t.denoms := Table.put_of_get? found
    rw [same]
  · rfl

/-- A row that was just written is there to be changed. -/
theorem onDenom_update (t : Tables) (base : String) (make : Option DenomRow → DenomRow)
    (f : DenomRow → DenomRow) :
    onDenom base f { t with denoms := t.denoms.update base make } =
      { t with denoms := t.denoms.update base fun old => f (make old) } := by
  simp [onDenom, Table.update, Table.put_put]

theorem addBaseUnits_rest (bases : List String) (t : Tables) :
    ∃ denoms, t.addBaseUnits bases = { t with denoms } := by
  induction bases generalizing t with
  | nil => exact ⟨t.denoms, rfl⟩
  | cons base bases ih =>
    obtain ⟨given, first⟩ := t.onDenom_rest base (DenomRow.addUnits [(base, 0)])
    obtain ⟨denoms, rest⟩ := ih { t with denoms := given }
    exact ⟨denoms, (congrArg (addBaseUnits bases) first).trans rest⟩

theorem get?_addBaseUnits {bases : List String} (once : bases.Nodup) (t : Tables)
    (base : String) :
    (t.addBaseUnits bases).denoms.get? base =
      if base ∈ bases then (t.denoms.get? base).map (DenomRow.addUnits [(base, 0)])
      else t.denoms.get? base := by
  induction bases generalizing t with
  | nil => rfl
  | cons first rest ih =>
    obtain ⟨fresh, once⟩ := List.nodup_cons.mp once
    refine (ih once _).trans ?_
    rw [get?_onDenom]
    by_cases same : base = first
    · simp [same, fresh]
    · simp [same]

theorem mem_withoutUnits (unique : (t.denoms.map (·.1)).Nodup) {base : String} :
    base ∈ t.withoutUnits ↔ ∃ row, t.denoms.get? base = some row ∧ row.units = [] := by
  constructor
  · intro mem
    obtain ⟨⟨_, row⟩, listed, rfl⟩ := List.mem_map.mp mem
    obtain ⟨listed, none⟩ := List.mem_filter.mp listed
    exact ⟨row, Table.get?_of_mem unique listed, List.isEmpty_iff.mp none⟩
  · rintro ⟨row, found, none⟩
    refine List.mem_map.mpr ⟨(base, row), List.mem_filter.mpr ⟨Table.mem_of_get? found, ?_⟩, rfl⟩
    exact List.isEmpty_iff.mpr none

theorem nodup_withoutUnits (unique : (t.denoms.map (·.1)).Nodup) : t.withoutUnits.Nodup :=
  (List.filter_sublist.map _).nodup unique

/-- Gives every denomination without units its base as one. -/
def fillUnits (t : Tables) : Tables := t.addBaseUnits t.withoutUnits

theorem get?_fillUnits (unique : (t.denoms.map (·.1)).Nodup) (base : String) :
    t.fillUnits.denoms.get? base = (t.denoms.get? base).map fun row =>
      if row.units = [] then { row with units := [(base, 0)] } else row := by
  rw [fillUnits, get?_addBaseUnits (nodup_withoutUnits unique)]
  simp only [mem_withoutUnits unique]
  cases found : t.denoms.get? base with
  | none => simp
  | some row =>
    by_cases none : row.units = []
    · simp [none, DenomRow.addUnits, Table.put]
    · simp [none]

end Tables

namespace Tables

variable {t : Tables}

/-- Writes the rows of some denominations one after another. -/
def relist (listed : List DenomMetadata) (t : Tables) : Tables :=
  { t with denoms := relistRows listed t.denoms }

theorem relist_relist (ds es : List DenomMetadata) (t : Tables) :
    (t.relist ds).relist es = t.relist (ds ++ es) := by
  simp [relist, relistRows]

theorem fillUnits_rest (t : Tables) : t.fillUnits = { t with denoms := t.fillUnits.denoms } := by
  obtain ⟨denoms, filled⟩ := addBaseUnits_rest t.withoutUnits t
  rw [fillUnits, filled]

theorem keys_fillUnits (t : Tables) : t.fillUnits.denoms.map (·.1) = t.denoms.map (·.1) :=
  keys_addBaseUnits _ t

/-- A row without units has its base as its unit in the end, and any other is as it was. -/
theorem exists_of_fillUnits (unique : (t.denoms.map (·.1)).Nodup) {base : String} {row : DenomRow}
    (found : t.fillUnits.denoms.get? base = some row) :
    ∃ before, t.denoms.get? base = some before ∧
      row = if before.units = [] then { before with units := [(base, 0)] } else before := by
  rw [get?_fillUnits unique] at found
  obtain ⟨before, there, rfl⟩ := Option.map_eq_some_iff.mp found
  exact ⟨before, there, rfl⟩

theorem uniqueRows_fillUnits (unique : UniqueRows t.denoms) : UniqueRows t.fillUnits.denoms := by
  have nodup : (t.fillUnits.denoms.map (·.1)).Nodup := t.keys_fillUnits ▸ unique.1
  refine ⟨nodup, fun base row mem => ?_⟩
  obtain ⟨before, there, rfl⟩ := exists_of_fillUnits unique.1 (Table.get?_of_mem nodup mem)
  split
  · exact List.nodup_singleton base
  · exact unique.get? there

/-- What listing makes of the rows, if every row without units gets one at the end. -/
theorem relisted_fillUnits (unique : UniqueRows t.denoms) (listed : List DenomMetadata) :
    Relisted listed t.denoms (t.relist listed).fillUnits.denoms := by
  have listedRows : UniqueRows (t.relist listed).denoms := unique.relistRows listed
  have filled : UniqueRows (t.relist listed).fillUnits.denoms := uniqueRows_fillUnits listedRows
  have lookup := get?_fillUnits listedRows.1
  have bareRow {base : String} {row : DenomRow}
      (there : (t.relist listed).denoms.get? base = some row) :
      row.units = [] ↔ isBare listed t.denoms base = true := units_relistRows_eq_nil_iff there
  constructor
  case unique => exact filled
  case units =>
    rintro ⟨base, row⟩ mem
    obtain ⟨before, -, rfl⟩ := exists_of_fillUnits listedRows.1 (filled.mem_iff.mp mem)
    split
    · exact List.cons_ne_nil _ _
    · next some => exact some
  case names =>
    intro base
    rw [← names?_relistRows, names?, names?, lookup, Option.map_map]
    refine congrArg (Option.map · _) (funext fun row => ?_)
    by_cases none : row.units = [] <;> simp [none]
  case exponents =>
    intro base some name
    rw [← exponent?_relistRows, exponent?, exponent?, lookup]
    change Option.bind (Option.map _ ((t.relist listed).denoms.get? base)) _ =
      ((t.relist listed).denoms.get? base).bind _
    cases there : (t.relist listed).denoms.get? base with
    | none => rfl
    | some row =>
      have units : row.units ≠ [] := mt (bareRow there).mp (by simp [some])
      simp [units]
  case bare =>
    intro base row last none
    obtain ⟨before, there, rfl⟩ := exists_of_fillUnits listedRows.1 last
    rw [if_pos ((bareRow there).mpr none)]
  case others =>
    intro base unlisted some
    have kept : (t.relist listed).denoms.get? base = t.denoms.get? base :=
      get?_relistRows_other unlisted t.denoms
    rw [lookup, kept]
    cases there : t.denoms.get? base with
    | none => rfl
    | some row =>
      have units : row.units ≠ [] := mt (bareRow (kept.trans there)).mp (by simp [some])
      simp [units]

/-- As many denominations get their base as a unit as are bare. -/
theorem length_withoutUnits_relist (unique : UniqueRows t.denoms) (listed : List DenomMetadata) :
    (t.relist listed).withoutUnits.length =
      ((t.relist listed).fillUnits.denoms.map (·.1)).countP (isBare listed t.denoms) := by
  have listedRows : UniqueRows (t.relist listed).denoms := unique.relistRows listed
  rw [keys_fillUnits, List.countP_map, withoutUnits, List.length_map,
    ← List.countP_eq_length_filter]
  refine List.countP_congr fun ⟨base, row⟩ mem => ?_
  rw [List.isEmpty_iff]
  exact units_relistRows_eq_nil_iff (listedRows.mem_iff.mp mem)

end Tables

end Database

end ChainIndex
