/-
Database addresses without their user and password. Everything between the
scheme and the last at sign is hidden, so that what is shown does not depend on
it; an address without a scheme or without an at sign behind it shows nothing
secret and stays as it is.
-/
import ChainIndex.Text.Part

namespace ChainIndex.DatabaseUrl

/-- What stands behind the last at sign, if there is one. -/
def afterLastAt? : List Char → Option (List Char)
  | [] => none
  | c :: rest =>
    match afterLastAt? rest with
    | some behind => some behind
    | none => if c = '@' then some rest else none

def redactChars (url : List Char) : List Char :=
  match Text.splitAtFirst? "://".toList url with
  | some (scheme, rest) =>
    match afterLastAt? rest with
    | some host => scheme ++ "://***@".toList ++ host
    | none => url
  | none => url

def redact (url : String) : String :=
  String.ofList (redactChars url.toList)

variable {rest : List Char}

theorem afterLastAt?_eq_none_iff : afterLastAt? rest = none ↔ '@' ∉ rest := by
  induction rest with
  | nil => simp [afterLastAt?]
  | cons c rest ih =>
    rw [afterLastAt?, List.mem_cons, not_or, ← ih]
    cases afterLastAt? rest with
    | some behind => simp
    | none => simp [eq_comm]

/-- What stands before an at sign makes no difference to what stands behind the last one. -/
theorem afterLastAt?_hidden (user rest : List Char) :
    afterLastAt? (user ++ '@' :: rest) = some ((afterLastAt? rest).getD rest) := by
  induction user with
  | nil =>
    rw [List.nil_append, afterLastAt?]
    cases afterLastAt? rest <;> rfl
  | cons c user ih => rw [List.cons_append, afterLastAt?, ih]

end ChainIndex.DatabaseUrl
