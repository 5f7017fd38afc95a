/-
Amounts of one denomination, and the comma-separated lists in which chains
write them, such as `100uatom,5ibc/ABCD`. A list gives one coin for each part
between commas, in order, and a blank text is the empty list.
-/
import ChainIndex.Decimal
import ChainIndex.Text.Blank
import ChainIndex.Text.Quoted

namespace ChainIndex

structure Coin where
  amount : Decimal
  denom : String
  deriving DecidableEq, Inhabited

/-- Why a text is no coin. -/
inductive CoinError where
  | badAmount (amount denom : String) (cause : DecimalError)
  | badDenom (denom : String)
  | missingDenom (part : String)
  | missingAmount (part : String)
  deriving DecidableEq

def CoinError.message : CoinError → String
  | badAmount amount denom cause => amount ++ denom ++ ": " ++ cause.message
  | badDenom denom => "invalid denom " ++ Text.quoted denom
  | missingDenom part => "missing denom in " ++ Text.quoted part
  | missingAmount part => "missing amount in " ++ Text.quoted part

namespace Coin

def isLetter (c : Char) : Bool :=
  ('a' ≤ c && c ≤ 'z') || ('A' ≤ c && c ≤ 'Z')

def isDenomChar (c : Char) : Bool :=
  isLetter c || Text.isDigit c || c == '/' || c == ':' || c == '.' || c == '_' || c == '-'

/-- A denomination has 2 to 128 characters: a letter, then letters, digits and
the signs `/ : . _ -`. -/
def isDenom (denom : String) : Bool :=
  match denom.toList with
  | [] => false
  | c :: rest =>
    isLetter c && rest.all isDenomChar && 1 ≤ rest.length && rest.length ≤ 127

/-- A coin from its two texts; blanks around the amount do not count. -/
def ofParts (amount denom : String) : Except CoinError Coin := do
  let value ← (Decimal.parse? (Text.trim amount)).mapError (.badAmount amount denom)
  if isDenom denom then .ok ⟨value, denom⟩ else .error (.badDenom denom)

def isAmountChar (c : Char) : Bool :=
  Text.isDigit c || c == '.'

/-- One part of a coin list: the amount reaches to the first character that is
neither a digit nor a point. -/
def ofPart (part : List Char) : Except CoinError Coin :=
  let part := Text.trimChars part
  let amount := part.takeWhile isAmountChar
  let denom := part.dropWhile isAmountChar
  if denom.isEmpty then .error (.missingDenom (String.ofList part))
  else if amount.isEmpty then .error (.missingAmount (String.ofList part))
  else ofParts (String.ofList amount) (String.ofList (Text.trimChars denom))

/-- The parts of a list between its commas. -/
def splitCommas : List Char → List (List Char)
  | [] => [[]]
  | c :: rest =>
    if c = ',' then [] :: splitCommas rest
    else
      match splitCommas rest with
      | part :: parts => (c :: part) :: parts
      | [] => [[c]]

def listOfChars (cs : List Char) : Except CoinError (List Coin) :=
  let cs := Text.trimChars cs
  if cs.isEmpty then .ok [] else (splitCommas cs).mapM ofPart

/-- The coins of a comma-separated list. -/
def parseList (s : String) : Except CoinError (List Coin) :=
  listOfChars s.toList

end Coin

end ChainIndex
