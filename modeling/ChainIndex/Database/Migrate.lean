/-
Applying migrations and taking them back. Every run is one transaction; the names
of applied migrations are kept in a table of their own, which is made when it is
first needed.
-/
import ChainIndex.Database.Basic

namespace ChainIndex.Database.Server

variable {φ : Type}

/-- The table of applied migrations. -/
def migrationTable : String := "seaql_migrations"

/-- The number of applied migrations. -/
def appliedCount (s : Server φ) : Session φ Nat := do
  s.execute (.on .create migrationTable)
  s.execute (.on .select migrationTable)
  return (← get).applied

def change (s : Server φ) (c : SchemaChange) : Session φ Unit := do
  s.execute c.statement
  modify fun db => { db with tables := db.tables.change c }

/-- Applies the next migrations. -/
def applyAll (s : Server φ) (ms : List Migration) : Session φ Unit :=
  ms.forM fun m => do
    m.up.forM s.change
    s.execute (.on .insert migrationTable)
    modify fun db => { db with applied := db.applied + 1 }

/-- Takes back the last migrations, the last one first. -/
def revertAll (s : Server φ) (ms : List Migration) : Session φ Unit :=
  ms.forM fun m => do
    m.down.forM s.change
    s.execute (.on .delete migrationTable)
    modify fun db => { db with applied := db.applied - 1 }

/-- The first items, or all of them. -/
def upTo (steps : Option Nat) (ms : List Migration) : List Migration :=
  match steps with
  | some n => ms.take n
  | none => ms

def up (s : Server φ) (steps : Option Nat) : Session φ Unit := do
  let applied ← s.appliedCount
  s.applyAll (upTo steps (Migration.all.drop applied))

def down (s : Server φ) (steps : Option Nat) : Session φ Unit := do
  let applied ← s.appliedCount
  s.revertAll (upTo steps (Migration.all.take applied).reverse)

/-- Drops all tables, whatever made them. -/
def dropAll (s : Server φ) : Session φ Unit := do
  let names := ((← get).schema.map (·.name.text)) ++ [migrationTable]
  (names.mergeSort fun a b => a ≤ b).forM fun name => s.execute (.on .drop name)
  modify fun db => { db with applied := 0, tables := .empty }

/-- A run of the migrations. -/
inductive Migrating where
  | up (steps : Option Nat)
  | down (steps : Option Nat)
  /-- Drops everything and applies all. -/
  | fresh
  /-- Takes back all and applies all again. -/
  | refresh
  /-- Takes back all. -/
  | reset
  /-- Only asks. -/
  | status

def migrate (s : Server φ) : Migrating → Session φ Unit
  | .up steps => s.transaction (s.up steps)
  | .down steps => s.transaction (s.down steps)
  | .fresh => s.transaction do
    s.execute (.on .create migrationTable)
    s.dropAll
    s.up none
  | .refresh => s.transaction do
    s.down none
    s.up none
  | .reset => s.transaction (s.down none)
  | .status => do
    let _ ← s.appliedCount
    return ()

/-- The names of the migrations that are not applied. -/
def pending (s : Server φ) : Session φ (List String) := do
  let applied ← s.appliedCount
  return (Migration.all.drop applied).map (·.name)

end ChainIndex.Database.Server
