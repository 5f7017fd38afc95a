/-
The rows of the tables, by the columns that are unique among them. The rows that
belong to a transaction or to a denomination stand in its row, and the rows of a
height's events stand together, each list in the order of insertion.
-/
import ChainIndex.Bytes.Base64
import ChainIndex.Database.Schema
import ChainIndex.Database.Value
import ChainIndex.Failure
import ChainIndex.Table

namespace ChainIndex.Database

structure BlockRow where
  hash : String
  time : Instant
  proposer : String
  txIndexed : Bool
  eventsIndexed : Bool
  deriving DecidableEq, Inhabited

structure MessageRow where
  index : Int
  typeUrl : String
  payload : Json
  events : Json
  deriving Inhabited

structure FeeRow where
  denom : String
  amount : Int
  payer : String
  deriving DecidableEq, Inhabited

structure MessageDataRow where
  index : Int
  typeUrl : String
  sender : String
  receiver : String
  amount : Int
  denom : String
  deriving DecidableEq, Inhabited

structure TxRow where
  height : Int
  time : Instant
  code : Nat
  codespace : String
  rawLog : String
  gasWanted : Int
  gasUsed : Int
  memo : String
  timeoutHeight : Nat
  signers : Json
  authInfo : Json
  droppedExtensions : Json
  decodedWithFallback : Bool
  messages : List MessageRow
  fees : List FeeRow
  data : List MessageDataRow
  deriving Inhabited

structure BlockEventRow where
  position : String
  index : Int
  eventType : String
  attributes : Json
  deriving Inhabited

structure EventDataRow where
  address : String
  amount : Int
  denom : String
  source : String
  deriving DecidableEq, Inhabited

/-- A failure; its kind and reason are texts, which other versions of a program
may have written. -/
structure FailedBlockRow where
  chainName : String
  reason : String
  attempts : Nat
  resolved : Bool
  deriving DecidableEq, Inhabited

structure DenomRow where
  name : String
  symbol : String
  /-- The exponents of the units, by their names. -/
  units : Table String Nat
  deriving DecidableEq, Inhabited

/-- The rows of all tables. -/
structure Tables where
  blocks : Table (String × Int) BlockRow
  txs : Table (String × String) TxRow
  blockEvents : Table (String × Int) (List BlockEventRow)
  eventData : Table (String × Int) (List EventDataRow)
  failures : Table (String × Int × String) FailedBlockRow
  denoms : Table String DenomRow

/-- What stands for a name that nobody has given. -/
def unknownName : String := "UNKNOWN"

/-! Rows of records -/

def MessageRow.ofMessage (m : TxMessage) : Except RowError MessageRow := do
  let payload : Json := match m.payload with
    | .json value => value
    | .raw bytes => .object [("raw", .string (Bytes.Base64.encode bytes))]
  let events : Json := .array (m.events.map Event.toMessageJson)
  checkTexts [m.typeUrl]
  checkJson [payload, events]
  return { index := low32 m.index, typeUrl := m.typeUrl, payload, events }

def FeeRow.ofFee (f : Fee) : Except RowError FeeRow := do
  checkTexts [f.denom, f.payer]
  return { denom := f.denom, amount := ← wholeAmount f.amount, payer := f.payer }

def MessageDataRow.ofData (d : MessageData) : Except RowError MessageDataRow := do
  checkTexts [d.typeUrl, d.sender, d.receiver, d.denom]
  return {
    index := low32 d.messageIndex
    typeUrl := d.typeUrl
    sender := d.sender
    receiver := d.receiver
    amount := ← wholeAmount d.amount
    denom := d.denom }

/-- The greatest number of a column of 64 bits. -/
def maxBigint : Nat := 0x7fffffffffffffff

/-- The row of a transaction, without the rows that belong to it. -/
def TxRow.ofRecord (tx : TxRecord) : Except RowError TxRow := do
  let signers : Json := .array (tx.signers.map .string)
  let authInfo := authInfoJson tx.authInfo
  let droppedExtensions : Json := .array (tx.droppedExtensions.map .string)
  checkTexts [tx.hash, tx.codespace, tx.rawLog, tx.memo]
  checkJson [signers, authInfo, droppedExtensions]
  return {
    height := tx.height
    time := storedTime tx.timestamp
    code := tx.code
    codespace := tx.codespace
    rawLog := tx.rawLog
    gasWanted := tx.gasWanted
    gasUsed := tx.gasUsed
    memo := tx.memo
    timeoutHeight := min tx.timeoutHeight maxBigint
    signers
    authInfo
    droppedExtensions
    decodedWithFallback := tx.decodedWithFallback
    messages := []
    fees := []
    data := [] }

def BlockEventRow.ofEvent (e : BlockEvent) : Except RowError BlockEventRow := do
  let attributes : Json := .array (e.attributes.map Attribute.toJson)
  checkTexts [e.eventType]
  checkJson [attributes]
  return {
    position := e.position.name
    index := low32 e.index
    eventType := e.eventType
    attributes }

def EventDataRow.ofData (d : EventData) : Except RowError EventDataRow := do
  checkTexts [d.address, d.denom]
  return {
    address := d.address
    amount := ← wholeAmount d.amount
    denom := d.denom
    source := d.source.name }

/-! Tables -/

namespace Tables

def empty : Tables := ⟨[], [], [], [], [], []⟩

/-- Changes the row of every transaction. -/
def mapTxs (f : TxRow → TxRow) (t : Tables) : Tables :=
  { t with txs := t.txs.map fun (key, row) => (key, f row) }

def mapDenoms (f : DenomRow → DenomRow) (t : Tables) : Tables :=
  { t with denoms := t.denoms.map fun (key, row) => (key, f row) }

/-- The rows once a table is dropped. -/
def clear (t : Tables) : TableName → Tables
  | .blocks => { t with blocks := [] }
  | .txes => { t with txs := [] }
  | .messages => t.mapTxs fun row => { row with messages := [] }
  | .fees => t.mapTxs fun row => { row with fees := [] }
  | .messageData => t.mapTxs fun row => { row with data := [] }
  | .denoms => { t with denoms := [] }
  | .denomUnits => t.mapDenoms fun row => { row with units := [] }
  | .blockEvents => { t with blockEvents := [] }
  | .eventData => { t with eventData := [] }
  | .failedBlocks => { t with failures := [] }

/-- The rows after a change of the schema; the only columns that are ever added
or dropped are the names of denominations, and added ones hold their default. -/
def change (t : Tables) : SchemaChange → Tables
  | .dropTable name => t.clear name
  | .addColumns .. | .dropColumns .. =>
    t.mapDenoms fun row => { row with name := unknownName, symbol := unknownName }
  | .createTable _ | .createIndex .. => t

end Tables

end ChainIndex.Database
