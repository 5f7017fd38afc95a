/-
Writing JSON text. `render` writes a plain value on one line without spaces;
members stand in the order of the value, and only the quote, the backslash and
the control characters are escaped. A fraction is written with a point or an
exponent, so that reading it gives a fraction again.
-/
import ChainIndex.Json.Basic

namespace ChainIndex.Json

def hexDigit (n : Nat) : Char :=
  if n < 10 then Char.ofNat ('0'.toNat + n) else Char.ofNat ('a'.toNat + (n - 10))

/-- One character as it stands between quotes. -/
def escapeChar (c : Char) : List Char :=
  if c = '"' then ['\\', '"']
  else if c = '\\' then ['\\', '\\']
  else if c = '\n' then ['\\', 'n']
  else if c = '\r' then ['\\', 'r']
  else if c = '\t' then ['\\', 't']
  else if c = '\x08' then ['\\', 'b']
  else if c = '\x0c' then ['\\', 'f']
  else if c.toNat < 0x20 then
    ['\\', 'u', '0', '0', hexDigit (c.toNat / 16), hexDigit (c.toNat % 16)]
  else [c]

def quoteChars (cs : List Char) : List Char :=
  '"' :: cs.flatMap escapeChar ++ ['"']

def quote (s : String) : String :=
  String.ofList (quoteChars s.toList)

/-- A fraction: its digits with one decimal place if that is their scale, else
behind an exponent. -/
def Number.render : Number → String
  | .integer n => toString n
  | .fraction negative digits exponent =>
    let sign := if negative then "-" else ""
    if exponent = 0 then sign ++ toString digits ++ ".0"
    else if exponent = -1 then sign ++ toString (digits / 10) ++ "." ++ toString (digits % 10)
    else sign ++ toString digits ++ "e" ++ toString exponent

mutual
def render : Json → String
  | .null => "null"
  | .bool b => if b then "true" else "false"
  | .number n => n.render
  | .string s => quote s
  | .array items => "[" ++ ",".intercalate (renderItems items) ++ "]"
  | .object members => "\x7b" ++ ",".intercalate (renderMembers members) ++ "\x7d"
  | .unreadable => "null"

def renderItems : List Json → List String
  | [] => []
  | j :: rest => render j :: renderItems rest

def renderMembers : List (String × Json) → List String
  | [] => []
  | (k, j) :: rest => (quote k ++ ":" ++ render j) :: renderMembers rest
end

end ChainIndex.Json
