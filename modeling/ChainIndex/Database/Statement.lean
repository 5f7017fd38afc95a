/-
Names of statements: the command and the first object that it names.
-/
import ChainIndex.Database.Schema

namespace ChainIndex.Database

inductive Command where
  | select
  | insert
  | update
  | delete
  | create
  | drop
  | alter
  deriving DecidableEq, Inhabited

def Command.text : Command → String
  | select => "SELECT"
  | insert => "INSERT"
  | update => "UPDATE"
  | delete => "DELETE"
  | create => "CREATE"
  | drop => "DROP"
  | alter => "ALTER"

inductive Statement where
  | start
  | commit
  | on (command : Command) (object : String)
  deriving DecidableEq, Inhabited

def Statement.text : Statement → String
  | start => "BEGIN"
  | commit => "COMMIT"
  | on command object => command.text ++ " " ++ object

/-- The statement that makes a change of the schema. -/
def SchemaChange.statement : SchemaChange → Statement
  | createTable t => .on .create t.name.text
  | createIndex _ index => .on .create index.name
  | addColumns t _ | dropColumns t _ => .on .alter t.text
  | dropTable t => .on .drop t.text

end ChainIndex.Database
