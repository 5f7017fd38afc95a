/-
Bech32 strings: a human-readable part, the separator `1`, the data in groups of
five bits, and six checksum groups. Writing uses lower case and the checksum of
bech32; reading accepts either case (but no mixture) and the checksums of
bech32 and bech32m. Bits behind the last whole byte are dropped when reading.
-/
import ChainIndex.Bytes.Basic
import ChainIndex.Text.Case

namespace ChainIndex.Bech32

def alphabet : List Char :=
  ['q', 'p', 'z', 'r', 'y', '9', 'x', '8', 'g', 'f', '2', 't', 'v', 'd', 'w', '0',
    's', '3', 'j', 'n', '5', '4', 'k', 'h', 'c', 'e', '6', 'm', 'u', 'a', '7', 'l']

def symbol (group : Nat) : Char :=
  alphabet.getD group 'q'

/-- The five bits of a data character of either case. -/
def group? (c : Char) : Option Nat :=
  alphabet.findIdx? (· == c.toLower)

/-- A human-readable part has 1 to 83 visible ASCII characters of one case. -/
def isHrp (s : String) : Bool :=
  let cs := s.toList
  1 ≤ cs.length && cs.length ≤ 83 && cs.all (fun c => 33 ≤ c.toNat && c.toNat ≤ 126) &&
    !(cs.any Char.isUpper && cs.any Char.isLower)

def generators : List Nat := [0x3b6a57b2, 0x26508e6d, 0x1ea119fa, 0x3d4233dd, 0x2a1462b3]

/-- One step of the checksum over a group. -/
def checksumStep (residue group : Nat) : Nat :=
  let top := residue >>> 25
  (generators.zipIdx).foldl (fun r (g, i) => if (top >>> i) % 2 = 1 then r ^^^ g else r)
    (((residue &&& 0x1ffffff) <<< 5) ^^^ group)

def residue (groups : List Nat) : Nat :=
  groups.foldl checksumStep 1

/-- The groups that a human-readable part adds to the checksum, whatever its
case. -/
def hrpGroups (hrp : List Char) : List Nat :=
  let codes := hrp.map fun c => c.toLower.toNat
  codes.map (· / 32) ++ 0 :: codes.map (· % 32)

def bech32Residue : Nat := 1
def bech32mResidue : Nat := 0x2bc830a3

/-- The six groups that make the residue of bech32. -/
def checksum (hrp : List Char) (groups : List Nat) : List Nat :=
  let r := residue (hrpGroups hrp ++ groups ++ List.replicate 6 0) ^^^ bech32Residue
  [25, 20, 15, 10, 5, 0].map fun shift => (r >>> shift) % 32

/-- Groups of five bits from a number of `bits` pending bits and further bytes;
the last group is filled up with zeros. -/
def toGroups (pending bits : Nat) : Bytes → List Nat
  | [] => if bits = 0 then [] else [pending * Nat.pow 2 (5 - bits)]
  | b :: rest =>
    let value := pending * 256 + b.toNat
    let bits := bits + 8
    if 10 ≤ bits then
      value / Nat.pow 2 (bits - 5) :: value / Nat.pow 2 (bits - 10) % 32 ::
        toGroups (value % Nat.pow 2 (bits - 10)) (bits - 10) rest
    else
      value / Nat.pow 2 (bits - 5) :: toGroups (value % Nat.pow 2 (bits - 5)) (bits - 5) rest

/-- Whole bytes from a number of `bits` pending bits and further groups. -/
def ofGroups (pending bits : Nat) : List Nat → Bytes
  | [] => []
  | g :: rest =>
    let value := pending * 32 + g
    let bits := bits + 5
    if 8 ≤ bits then
      UInt8.ofNat (value / Nat.pow 2 (bits - 8)) ::
        ofGroups (value % Nat.pow 2 (bits - 8)) (bits - 8) rest
    else ofGroups value bits rest

def encode (hrp : String) (data : Bytes) : String :=
  let hrp := hrp.toList.map Char.toLower
  let groups := toGroups 0 0 data
  String.ofList (hrp ++ '1' :: (groups ++ checksum hrp groups).map symbol)

/-- The human-readable part, as it is written, and the data of a bech32 or
bech32m string. The last `1` is the separator. -/
def decode? (s : String) : Option (String × Bytes) := do
  let reversed := s.toList.reverse
  let data := (reversed.takeWhile (· != '1')).reverse
  match reversed.dropWhile (· != '1') with
  | [] => none
  | _ :: hrp =>
    let hrp := hrp.reverse
    guard (!(s.toList.any Char.isUpper && s.toList.any Char.isLower))
    guard (isHrp (String.ofList hrp))
    let groups ← data.mapM group?
    guard (6 ≤ groups.length)
    let r := residue (hrpGroups hrp ++ groups)
    guard (r = bech32Residue ∨ r = bech32mResidue)
    return (String.ofList hrp, ofGroups 0 0 (groups.take (groups.length - 6)))

end ChainIndex.Bech32
