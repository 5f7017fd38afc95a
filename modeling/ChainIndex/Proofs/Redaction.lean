/-
What is shown of a database address does not depend on the user and the password in it. They
stand between the first `://` and the last at sign, and may hold at signs, colons and further
separators themselves: the first separator is still the one behind the scheme, since none can
begin in the scheme and end behind it, and the last at sign is the one at their end or one
behind it. An address without credentials is shown as it is.
-/
import ChainIndex.Config.DatabaseUrl

namespace ChainIndex.DatabaseUrl

/-- What stands between a scheme and the rest of an address. -/
def separator : List Char := "://".toList

variable {scheme rest url : List Char}

/-- No separator begins in a scheme that holds none. -/
theorem not_prefix_scheme {c : Char} (single : ¬ separator <:+: c :: scheme) (rest : List Char) :
    ¬ separator <+: c :: (scheme ++ separator ++ rest) := by
  intro here
  match scheme with
  | [] => simp [separator] at here
  | [d] => simp [separator] at here
  | d :: e :: scheme =>
    have inside : separator <+: c :: d :: e :: scheme := by simpa [separator] using here
    exact single inside.isInfix

/-- The scheme ends at the first separator. -/
theorem splitAtFirst?_scheme (single : ¬ separator <:+: scheme) (rest : List Char) :
    Text.splitAtFirst? separator (scheme ++ separator ++ rest) = some (scheme, rest) := by
  induction scheme with
  | nil => rfl
  | cons c scheme ih =>
    have notHere := mt List.isPrefixOf_iff_prefix.mp (not_prefix_scheme single rest)
    have later : ¬ separator <:+: scheme := fun inside => single (List.infix_cons inside)
    rw [List.cons_append, List.cons_append, Text.splitAtFirst?, if_neg notHere, ih later]
    rfl

/-- All is cut out from the scheme to the last at sign. -/
theorem redactChars_credentials (single : ¬ separator <:+: scheme) (user rest : List Char) :
    redactChars (scheme ++ separator ++ (user ++ '@' :: rest)) =
      scheme ++ "://***@".toList ++ (afterLastAt? rest).getD rest := by
  have split := splitAtFirst?_scheme single (user ++ '@' :: rest)
  rw [separator] at split ⊢
  simp only [redactChars, split, afterLastAt?_hidden]

theorem redactChars_bare (single : ¬ separator <:+: scheme) (noAt : '@' ∉ rest) :
    redactChars (scheme ++ separator ++ rest) = scheme ++ separator ++ rest := by
  have split := splitAtFirst?_scheme single rest
  rw [separator] at split ⊢
  simp only [redactChars, split, afterLastAt?_eq_none_iff.mpr noAt]

theorem redactChars_schemeless (none : ¬ separator <:+: url) : redactChars url = url := by
  have split := Text.splitAtFirst?_eq_none_iff.mpr none
  rw [separator] at split
  simp only [redactChars, split]

theorem redact_credentials {scheme : String} (single : ¬ separator <:+: scheme.toList)
    (user rest : String) :
    redact (scheme ++ "://" ++ user ++ "@" ++ rest) =
      scheme ++ "://***@" ++ String.ofList ((afterLastAt? rest.toList).getD rest.toList) := by
  have shown := redactChars_credentials single user.toList rest.toList
  have address : (scheme ++ "://" ++ user ++ "@" ++ rest).toList =
      scheme.toList ++ separator ++ (user.toList ++ '@' :: rest.toList) := by
    simp [separator]
  rw [redact, address, shown, String.ofList_append, String.ofList_append, String.ofList_toList,
    String.ofList_toList]

/-- **Credentials never reach what is shown of a database address.** Behind a scheme that holds
no separator, whatever stands before an at sign is not seen. It is replaced alone if there is no
other at sign behind it. An address without an at sign behind its first separator, or without a
separator, is shown as it is. -/
theorem redaction_hides_credentials (scheme : String)
    (single : ¬ "://".toList <:+: scheme.toList) :
    (∀ user user' rest : String, redact (scheme ++ "://" ++ user ++ "@" ++ rest) =
      redact (scheme ++ "://" ++ user' ++ "@" ++ rest)) ∧
    (∀ user rest : String, '@' ∉ rest.toList →
      redact (scheme ++ "://" ++ user ++ "@" ++ rest) = scheme ++ "://***@" ++ rest) ∧
    (∀ rest : String, '@' ∉ rest.toList → redact (scheme ++ "://" ++ rest) = scheme ++ "://" ++ rest) ∧
    ∀ url : String, ¬ "://".toList <:+: url.toList → redact url = url := by
  refine ⟨fun user user' rest => ?_, fun user rest noAt => ?_, fun rest noAt => ?_,
    fun url none => ?_⟩
  · rw [redact_credentials single, redact_credentials single]
  · rw [redact_credentials single, afterLastAt?_eq_none_iff.mpr noAt, Option.getD_none,
      String.ofList_toList]
  · have address : (scheme ++ "://" ++ rest).toList = scheme.toList ++ separator ++ rest.toList := by
      simp [separator]
    rw [redact, address, redactChars_bare single noAt, ← address, String.ofList_toList]
  · rw [redact, redactChars_schemeless none, String.ofList_toList]

/-- A password with an at sign and a separator in it. -/
theorem redaction_hides_credentials_oddPassword :
    ¬ "://".toList <:+: "postgres".toList ∧ '@' ∉ "db/cosmos".toList ∧
      ¬ "://".toList <:+: "sqlite::memory:".toList ∧
      (∀ password, redact ("postgres" ++ "://" ++ "indexer:p@ss://word" ++ "@" ++ "db@/cosmos") =
        redact ("postgres" ++ "://" ++ password ++ "@" ++ "db@/cosmos")) ∧
      redact ("postgres" ++ "://" ++ "indexer:p@ss://word" ++ "@" ++ "db/cosmos") =
        "postgres" ++ "://***@" ++ "db/cosmos" ∧
      redact ("postgres" ++ "://" ++ "db/cosmos") = "postgres" ++ "://" ++ "db/cosmos" ∧
      redact "sqlite::memory:" = "sqlite::memory:" := by
  have single : ¬ "://".toList <:+: "postgres".toList :=
    Text.splitAtFirst?_eq_none_iff.mp rfl
  have noAt : '@' ∉ "db/cosmos".toList := by decide
  have schemeless : ¬ "://".toList <:+: "sqlite::memory:".toList :=
    Text.splitAtFirst?_eq_none_iff.mp rfl
  obtain ⟨blind, hidden, bare, plain⟩ := redaction_hides_credentials "postgres" single
  exact ⟨single, noAt, schemeless, fun password => blind _ password _, hidden _ _ noAt,
    bare _ noAt, plain _ schemeless⟩

/-- The last at sign of all stands before the first separator. -/
example : redact "user@host://db" = "user@host://db" := by
  rfl

end ChainIndex.DatabaseUrl
