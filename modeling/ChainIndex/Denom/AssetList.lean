/-
Names of denominations and of their units, as published asset lists give them.
An asset without a base denomination is left out.
-/
import ChainIndex.Config.Error
import ChainIndex.Json.Reader
import ChainIndex.Json.Record
import ChainIndex.Text.Numeral

namespace ChainIndex

/-- A unit of a denomination: `10 ^ exponent` of the base. -/
structure DenomUnit where
  name : String
  exponent : Nat
  deriving DecidableEq, Inhabited

structure DenomMetadata where
  base : String
  name : String
  symbol : String
  units : List DenomUnit
  deriving DecidableEq, Inhabited

/-- A chain's list; every denomination in it has a base. -/
structure AssetList where
  chainName : String
  denoms : List DenomMetadata
  deriving DecidableEq, Inhabited

namespace DenomUnit

def ofJson? (j : Json) : Option DenomUnit := do
  let f ← j.fields ["denom", "exponent", "aliases"]
  let name ← f.get "denom" Json.text
  let exponent ← f.getD "exponent" 0 (Json.natUpTo Text.maxWord32)
  let _ ← f.getD "aliases" [] (Json.list Json.text)
  return { name, exponent }

end DenomUnit

namespace AssetList

def assetOfJson? (j : Json) : Option DenomMetadata := do
  let f ← j.fields ["base", "name", "symbol", "denom_units"]
  let base ← f.getD "base" "" Json.text
  let name ← f.getD "name" "" Json.text
  let symbol ← f.getD "symbol" "" Json.text
  let units ← f.getD "denom_units" [] (Json.list DenomUnit.ofJson?)
  return { base, name, symbol, units }

def ofJson? (j : Json) : Option AssetList := do
  let f ← j.fields ["chain_name", "assets"]
  let chainName ← f.getD "chain_name" "" Json.text
  let assets ← f.getD "assets" [] (Json.list assetOfJson?)
  return { chainName, denoms := assets.filter (!·.base.isEmpty) }

/-- The list in a JSON text. -/
def parse? (s : String) : Option AssetList :=
  (Json.ofText? s).bind ofJson?

/-! Where lists are published -/

/-- The chains that have a list, each with its address. -/
def published : List (String × String) := [
  ("osmosis-1",
    "https://raw.githubusercontent.com/osmosis-labs/assetlists/main/osmosis-1/osmosis-1.assetlist.json"),
  ("juno-1", "https://raw.githubusercontent.com/cosmos/chain-registry/master/juno/assetlist.json")]

def address? (chainId : String) : Option String :=
  published.lookup chainId

/-- The lists to update: all of them, or that of one chain. -/
def select (all : Bool) (chainId : String) : Except ConfigError (List (String × String)) :=
  if all then .ok published
  else if chainId.isEmpty then .error (.missingValue "CHAIN_ID (or pass --update-all)")
  else
    match published.filter (·.1 == chainId) with
    | [] => .error (.invalidValue ("no denom asset list for chain " ++ chainId))
    | selected => .ok selected

end AssetList

end ChainIndex
