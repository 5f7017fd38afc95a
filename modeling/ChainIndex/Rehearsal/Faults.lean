/-
A database server for rehearsals. It can be told to fail the next executions of a
statement, it listens at one address, and it may refuse every connection.
-/
import ChainIndex.Config.DatabaseUrl
import ChainIndex.Database.Migrate
import ChainIndex.Store.Error
import ChainIndex.Text.Part

namespace ChainIndex.Database

/-- How many executions of a statement are still to fail, by its text. -/
abbrev Faults := Table String Nat

/-- The server that fails as it was told. -/
def Server.rehearsal : Server Faults where
  fails statement := do
    let faults ← get
    match faults.get? statement.text with
    | some (left + 1) => do
      set (Table.put statement.text left faults)
      return true
    | _ => return false

/-- Lets more executions of a statement fail. -/
def addFault (statement : String) (times : Nat) (db : Database Faults) : Database Faults :=
  { db with faults := db.faults.update statement fun old => old.getD 0 + times }

/-- A failure as another version of a program writes it: its kind and reason are
any texts. Gives the number of changed rows. -/
def alterFailure (key : String × Int × String) (kind reason : String) :
    StateM (Database Faults) Nat := do
  let db ← get
  let changed := (db.tables.failures.filter (·.1 == key)).length
  let failures := db.tables.failures.map fun (k, row) =>
    if k = key then ((k.1, k.2.1, kind), { row with reason }) else (k, row)
  set { db with tables := { db.tables with failures } }
  return changed

/-! Connecting -/

/-- Where the server listens. -/
def serverAddress : String := "127.0.0.1:PORT"

def defaultUrl : String :=
  "postgres://indexer:secret@" ++ serverAddress ++ "/cosmos?sslmode=disable"

/-- Whether there is a server at an address; it does not encrypt. -/
def canConnect (url : String) : Bool :=
  url.startsWith "postgres://" && Text.hasPart serverAddress url &&
    !(["sslmode=require", "sslmode=verify"].any fun part => Text.hasPart part url)

/-- Opens the database of a chain. -/
def connect (chainId url : String) (refused : Bool) : Except StoreError (Database Faults) :=
  if canConnect url && !refused then .ok (.new [])
  else .error (.connection chainId (DatabaseUrl.redact url))

end ChainIndex.Database
