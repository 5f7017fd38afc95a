/-
Lists of handlers in the order in which they are tried: those made for one
chain first, then the generic ones, each part in the order of registration. A
handler enters a list only if it handles the list's key and no handler of the
same id is there.
-/
import ChainIndex.Table

namespace ChainIndex

/-- Why a handler cannot be registered. -/
inductive RegistrationError where
  | duplicate (id : String)
  | typeMismatch (id registered handles : String)
  deriving DecidableEq

structure Registered (α : Type) where
  id : String
  isGeneric : Bool
  handler : α

namespace Registered

/-- Puts a generic handler at the end and any other before the generic ones. -/
def place (h : Registered α) (hs : List (Registered α)) : List (Registered α) :=
  if h.isGeneric then hs ++ [h]
  else hs.takeWhile (!·.isGeneric) ++ h :: hs.dropWhile (!·.isGeneric)

/-- The list with a new handler, which handles `handles`, under the key
`key`. -/
def insert (handles : α → String) (key : String) (h : Registered α) (hs : List (Registered α)) :
    Except RegistrationError (List (Registered α)) :=
  if handles h.handler ≠ key then .error (.typeMismatch h.id key (handles h.handler))
  else if hs.any (·.id == h.id) then .error (.duplicate h.id)
  else .ok (h.place hs)

/-- The answer of the first handler that accepts. -/
def firstOk? (run : α → Except ε β) (hs : List (Registered α)) : Option β :=
  hs.findSome? fun h => (run h.handler).toOption

end Registered

/-- Handler lists by key. -/
abbrev HandlerTable (κ α : Type) := Table κ (List (Registered α))

namespace HandlerTable

variable {κ α : Type} [DecidableEq κ]

/-- The handlers of a key, none where it has no list. -/
def get (t : HandlerTable κ α) (key : κ) : List (Registered α) :=
  (Table.get? t key).getD []

/-- Gives a key its list. -/
def set (key : κ) (hs : List (Registered α)) (t : HandlerTable κ α) : HandlerTable κ α :=
  Table.put key hs t

def ids (t : HandlerTable κ α) (key : κ) : List String :=
  (t.get key).map (·.id)

@[simp] theorem get_set_self (t : HandlerTable κ α) (key : κ) (hs : List (Registered α)) :
    get (set key hs t) key = hs := by
  simp [get, set]

theorem set_set (t : HandlerTable κ α) (key : κ) (hs hs' : List (Registered α)) :
    set key hs' (set key hs t) = set key hs' t :=
  Table.put_put key hs hs' t

theorem get_set_other (t : HandlerTable κ α) {key other : κ} (hs : List (Registered α))
    (ne : other ≠ key) : get (set key hs t) other = get t other := by
  simp [get, set, Table.get?_put_other ne]

end HandlerTable

end ChainIndex
