/-
Account addresses of public keys. A key has 33 bytes (secp256k1) or, where the
hint says so, 32 bytes (ed25519); its address is a 20-byte digest, written in
bech32 under the account's human-readable part. A key in text is read as hex,
as base64 and as a bech32 string of its amino encoding, in that order, and the
first reading that gives a supported key counts.
-/
import ChainIndex.Bech32
import ChainIndex.Bytes.Base64
import ChainIndex.Digest.Ripemd160
import ChainIndex.Digest.Sha256
import ChainIndex.Text.Blank
import ChainIndex.Text.Quoted

namespace ChainIndex

/-- Why a key or address has no account address. -/
inductive AddressError where
  | invalidHrp (hrp : String)
  | keyLength (bytes : Nat)
  | addressLength (bytes : Nat)
  | bech32 (reason : String)
  | unrecognized (key : String)
  deriving DecidableEq

def AddressError.message : AddressError → String
  | invalidHrp hrp => "Invalid bech32 prefix: " ++ Text.quoted hrp
  | keyLength bytes => s!"Unsupported public key length: {bytes} bytes"
  | addressLength bytes => s!"Invalid address length: {bytes} bytes"
  | bech32 reason => "Bech32 error: " ++ reason
  | unrecognized key => "Public key " ++ key ++ " is not valid hex, base64 or bech32"

/-- A public key of a supported algorithm. -/
inductive PublicKey where
  | secp256k1 (key : Bytes)
  | ed25519 (key : Bytes)
  deriving DecidableEq

namespace PublicKey

def ed25519Length : Nat := 32
def secp256k1Length : Nat := 33

/-- The key of these bytes: only the hint `ed25519` makes 32 bytes a key, and
33 bytes are one under any hint. -/
def ofBytes? (key : Bytes) (hint : String) : Option PublicKey :=
  if hint = "ed25519" ∧ key.length = ed25519Length then some (.ed25519 key)
  else if key.length = secp256k1Length then some (.secp256k1 key)
  else none

def aminoSecp256k1 : Bytes := [0xeb, 0x5a, 0xe9, 0x87, 0x21]
def aminoEd25519 : Bytes := [0x16, 0x24, 0xde, 0x64, 0x20]

/-- The key of an amino encoding: five bytes that name the algorithm, then the
key. -/
def ofAmino? (bs : Bytes) : Option PublicKey :=
  if aminoSecp256k1.isPrefixOf bs then
    let key := bs.drop 5
    if key.length = secp256k1Length then some (.secp256k1 key) else none
  else if aminoEd25519.isPrefixOf bs then
    let key := bs.drop 5
    if key.length = ed25519Length then some (.ed25519 key) else none
  else none

/-- The 20 bytes of the key's address. -/
def address : PublicKey → Bytes
  | secp256k1 key => Digest.Ripemd160.digest (Digest.Sha256.digest key)
  | ed25519 key => (Digest.Sha256.digest key).take 20

@[simp] theorem address_length (k : PublicKey) : k.address.length = 20 := by
  cases k <;> simp [address]

end PublicKey

/-- Writes and finds addresses under one human-readable part. -/
structure AddressBook where
  hrp : String
  valid : Bech32.isHrp hrp = true

namespace AddressBook

def ofHrp (hrp : String) : Except AddressError AddressBook :=
  if h : Bech32.isHrp hrp = true then .ok ⟨hrp, h⟩ else .error (.invalidHrp hrp)

def maxAddressLength : Nat := 255

/-- The text of an address of 1 to 255 bytes. -/
def encode (book : AddressBook) (address : Bytes) : Except AddressError String :=
  if address.isEmpty ∨ maxAddressLength < address.length then
    .error (.addressLength address.length)
  else .ok (Bech32.encode book.hrp address)

/-- The address of key bytes. -/
def ofKeyBytes (book : AddressBook) (key : Bytes) (hint : String) : Except AddressError String :=
  match PublicKey.ofBytes? key hint with
  | some k => book.encode k.address
  | none => .error (.keyLength key.length)

/-- The endings of the human-readable parts under which keys are written: of
accounts, validator operators and consensus keys. -/
def keyEndings : List String := ["pub", "valoperpub", "valconspub"]

/-- The key of a bech32 string under the account part with one ending. -/
def ofBech32? (book : AddressBook) (key ending : String) : Option PublicKey := do
  let (hrp, data) ← Bech32.decode? key
  guard (Text.lowerAscii hrp == Text.lowerAscii (book.hrp ++ ending))
  PublicKey.ofAmino? data

/-- The supported key that a text without blanks around it spells. -/
def readKey? (book : AddressBook) (key hint : String) : Option PublicKey :=
  ((Bytes.ofHex? key).bind (PublicKey.ofBytes? · hint)).or <|
    ((Bytes.Base64.decode? key).bind (PublicKey.ofBytes? · hint)).or <|
      keyEndings.findSome? (book.ofBech32? key)

/-- The address of a key in text. -/
def ofKeyText (book : AddressBook) (key hint : String) : Except AddressError String :=
  let key := Text.trim key
  match book.readKey? key hint with
  | some k => book.encode k.address
  | none => .error (.unrecognized key)

/-- The address of a supported key can always be written. -/
theorem encode_address (book : AddressBook) (k : PublicKey) :
    book.encode k.address = .ok (Bech32.encode book.hrp k.address) := by
  have h : k.address.isEmpty = false := by
    cases e : k.address with
    | nil => have := k.address_length; simp [e] at this
    | cons => rfl
  simp [encode, maxAddressLength, h]

end AddressBook

end ChainIndex
