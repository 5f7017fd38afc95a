/-
A database and its server. Statements act on the tables one after another, and
any of them may be refused: because the server fails, because a table or column
is not there, or because a value cannot be stored. A transaction whose statements
are not all accepted, the last of which makes it final, leaves the tables as they
were.
-/
import ChainIndex.Database.Migration
import ChainIndex.Database.Rows
import ChainIndex.Database.Statement
import ChainIndex.Task

namespace ChainIndex

/-- The rows, the number of applied migrations, and the state of the server's
failing. -/
structure Database (φ : Type) where
  applied : Nat
  tables : Database.Tables
  faults : φ

/-- Says which executions of statements the server fails. -/
structure Database.Server (φ : Type) where
  fails : Database.Statement → StateM φ Bool

/-- Statements, with the reason why one of them was refused. -/
abbrev Database.Session (φ : Type) := Call (Database φ) String

namespace Database

variable {φ : Type}

def new (faults : φ) : Database φ := ⟨0, .empty, faults⟩

def schema (db : Database φ) : Schema := .after db.applied

def hasTable (db : Database φ) (name : TableName) : Bool :=
  (db.schema.table? name).isSome

/-- Whether a table has the columns that this library writes. -/
def hasColumns (db : Database φ) (name : TableName) : Bool :=
  db.schema.table? name == Schema.latest.table? name

namespace Server

/-- A server that fails nothing. -/
def sound : Server Unit := ⟨fun _ => pure false⟩

/-- Executes a statement, which the server may fail. -/
def execute (s : Server φ) (statement : Statement) : Session φ Unit := do
  let db ← get
  let (failed, faults) := (s.fails statement).run db.faults
  set { db with faults }
  if failed then throw (statement.text ++ " failed")

/-- Executes a statement on a table that is there. -/
def query (s : Server φ) (command : Command) (table : TableName) : Session φ Unit := do
  if (← get).hasTable table then s.execute (.on command table.text)
  else throw ("no table " ++ table.text)

/-- The rows of a table's read. -/
def read (s : Server φ) (table : TableName) (rows : Tables → α) : Session φ α := do
  s.query .select table
  return rows (← get).tables

/-- A change of rows in a table. -/
def write (s : Server φ) (command : Command) (table : TableName) (change : Tables → Tables) :
    Session φ Unit := do
  s.query command table
  modify fun db => { db with tables := change db.tables }

/-- An insertion of rows, which must be storable. -/
def insert (s : Server φ) (table : TableName) (rows : Except RowError α)
    (change : α → Tables → Tables) : Session φ Unit := do
  if !(← get).hasColumns table then throw ("no columns in " ++ table.text)
  s.execute (.on .insert table.text)
  match rows with
  | .ok rows => modify fun db => { db with tables := change rows db.tables }
  | .error e => throw e.message

/-- An insertion of several rows; there is no statement for none. -/
def insertMany (s : Server φ) (table : TableName) (rows : List α)
    (read : α → Except RowError β) (change : List β → Tables → Tables) : Session φ Unit :=
  if rows.isEmpty then return ()
  else s.insert table (rows.mapM read) change

/-- Runs statements as one: all of them are accepted, or the tables stay as they
are. -/
def transaction (s : Server φ) (body : Session φ α) : Session φ α :=
  ExceptT.mk fun db =>
    let statements : Session φ α := do
      s.execute .start
      let result ← body
      s.execute .commit
      return result
    match statements.run db with
    | (.ok result, after) => (.ok result, after)
    | (.error e, after) => (.error e, { db with faults := after.faults })

end Server

end Database

end ChainIndex
