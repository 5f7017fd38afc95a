/-
Names and units of denominations in the database. A list's names replace those
that are stored, and its units are added to those that are stored or change their
exponents; afterwards a denomination without any unit gets its base as a unit.
-/
import ChainIndex.Database.Store
import ChainIndex.Denom.AssetList

namespace ChainIndex.Database

namespace DenomRow

/-- The row of a denomination that is listed. -/
def named (d : DenomMetadata) (old : Option DenomRow) : DenomRow :=
  { name := d.name, symbol := d.symbol, units := (old.map (·.units)).getD [] }

def addUnits (units : Table String Nat) (row : DenomRow) : DenomRow :=
  { row with units := units.foldl (fun us (name, exponent) => us.put name exponent) row.units }

end DenomRow

/-- The units that are written for a denomination: each name once, with its last
exponent, in ascending order. -/
def unitRows (units : List DenomUnit) : Table String Nat :=
  (units.foldl (fun us u => Table.put u.name (min u.exponent maxInt32) us) []).mergeSort
    fun a b => a.1 ≤ b.1

namespace Tables

/-- Changes the row of a denomination. -/
def onDenom (base : String) (f : DenomRow → DenomRow) (t : Tables) : Tables :=
  match t.denoms.get? base with
  | some row => { t with denoms := t.denoms.put base (f row) }
  | none => t

/-- The denominations without units. -/
def withoutUnits (t : Tables) : List String :=
  (t.denoms.filter (·.2.units.isEmpty)).map (·.1)

/-- Gives each of some denominations its base as a unit. -/
def addBaseUnits (bases : List String) (t : Tables) : Tables :=
  bases.foldl (fun t base => t.onDenom base (DenomRow.addUnits [(base, 0)])) t

end Tables

namespace Server

variable {φ : Type}

def upsertDenom (s : Server φ) (d : DenomMetadata) : Session φ Unit :=
  s.insert .denoms (checkTexts [d.base, d.name, d.symbol]) fun _ t =>
    { t with denoms := t.denoms.update d.base (DenomRow.named d) }

/-- The units of a statement: no name may be among them twice. -/
def checkUnits (units : Table String Nat) : Except RowError (Table String Nat) := do
  checkTexts (units.map (·.1))
  if (units.map (·.1)).Nodup then return units else throw .repeated

/-- Writes units of a denomination. -/
def upsertUnits (s : Server φ) (base : String) (units : Table String Nat) : Session φ Unit :=
  if units.isEmpty then return ()
  else
    s.insert .denomUnits (checkUnits units) fun units =>
      Tables.onDenom base (DenomRow.addUnits units)

/-- The statements for a list of denominations. -/
def upsertAll (s : Server φ) (ds : List DenomMetadata) : Session φ Unit :=
  ds.forM fun d => do
    s.upsertDenom d
    s.upsertUnits d.base (unitRows d.units)

/-- Writes the names and units of a list, and says how many denominations it has. -/
def upsertMetadata (s : Server φ) (ds : List DenomMetadata) : Session φ Nat :=
  s.transaction do
    s.upsertAll ds
    return ds.length

/-- Whether a denomination has a unit of a name. -/
def hasUnit (t : Tables) (base name : String) : Bool :=
  (t.denoms.get? base).any fun row => (row.units.get? name).isSome

/-- Inserts the base units of some denominations, none of which may have one. -/
def insertBaseUnits (s : Server φ) (bases : List String) : Session φ Unit := do
  let stored := (← get).tables
  s.insertMany .denomUnits bases
    (fun base => do
      checkTexts [base]
      if hasUnit stored base base then throw .repeated else return base)
    Tables.addBaseUnits

/-- Gives a unit to every denomination that has none, and says how many it gave. -/
def backfillUnits (s : Server φ) : Session φ Nat := do
  let _ ← s.read .denoms (·.denoms)
  let missing ← s.read .denomUnits (·.withoutUnits)
  if missing.isEmpty then return 0
  else
    s.transaction do
      s.insertBaseUnits missing
      return missing.length

end Server

end ChainIndex.Database
