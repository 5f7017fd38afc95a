/-
The schema of the index database: tables with their columns, indexes and foreign
keys, and the changes that migrations make to it.
-/

namespace ChainIndex.Database

inductive TableName where
  | blocks
  | txes
  | messages
  | fees
  | messageData
  | denoms
  | denomUnits
  | blockEvents
  | eventData
  | failedBlocks
  deriving DecidableEq, Inhabited

def TableName.text : TableName → String
  | blocks => "blocks"
  | txes => "txes"
  | messages => "messages"
  | fees => "fees"
  | messageData => "message_relevant_data"
  | denoms => "denoms"
  | denomUnits => "denom_units"
  | blockEvents => "block_events"
  | eventData => "event_relevant_data"
  | failedBlocks => "failed_blocks"

inductive ColumnType where
  | serial
  | bigint
  | integer
  | text
  | bool
  | json
  | amount
  | time
  deriving DecidableEq, Inhabited

/-- The type in the database's words. -/
def ColumnType.sql : ColumnType → String
  | serial => "bigserial"
  | bigint => "bigint"
  | integer => "integer"
  | text => "text"
  | bool => "bool"
  | json => "jsonb"
  | amount => "decimal(78, 0)"
  | time => "timestamp with time zone"

structure Column where
  name : String
  type : ColumnType
  notNull : Bool
  /-- The default value as an expression. -/
  default : Option String
  deriving DecidableEq, Inhabited

namespace Column

/-- A column that must have a value. -/
def required (name : String) (type : ColumnType) : Column := ⟨name, type, true, none⟩

/-- A column that must have a value, with a default. -/
def defaulted (name : String) (type : ColumnType) (default : String) : Column :=
  ⟨name, type, true, some default⟩

def nullable (name : String) (type : ColumnType) : Column := ⟨name, type, false, none⟩

/-- The numbered primary key. -/
def id : Column := required "id" .serial

def isPrimaryKey (c : Column) : Bool := c.name == "id"

end Column

structure Index where
  name : String
  columns : List String
  unique : Bool
  deriving DecidableEq, Inhabited

/-- A column that holds the id of a row of another table and goes with it. -/
structure ForeignKey where
  column : String
  table : TableName
  deriving DecidableEq, Inhabited

structure TableSchema where
  name : TableName
  columns : List Column
  indexes : List Index
  foreignKeys : List ForeignKey
  deriving DecidableEq, Inhabited

abbrev Schema := List TableSchema

inductive SchemaChange where
  | createTable (table : TableSchema)
  | createIndex (table : TableName) (index : Index)
  | addColumns (table : TableName) (columns : List Column)
  | dropTable (table : TableName)
  | dropColumns (table : TableName) (names : List String)

namespace Schema

def table? (s : Schema) (name : TableName) : Option TableSchema :=
  s.find? (·.name == name)

/-- Changes one table and leaves the others as they are. -/
def alter (s : Schema) (name : TableName) (f : TableSchema → TableSchema) : Schema :=
  s.map fun t => if t.name = name then f t else t

def change (s : Schema) : SchemaChange → Schema
  | .createTable t => s ++ [t]
  | .createIndex name index => alter s name fun t => { t with indexes := t.indexes ++ [index] }
  | .addColumns name columns => alter s name fun t => { t with columns := t.columns ++ columns }
  | .dropTable name => s.filter (·.name != name)
  | .dropColumns name columns =>
    alter s name fun t => { t with columns := t.columns.filter fun c => !columns.contains c.name }

end Schema

end ChainIndex.Database
