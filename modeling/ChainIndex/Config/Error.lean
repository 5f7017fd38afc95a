/-
Why a configuration cannot be used.
-/

namespace ChainIndex

inductive ConfigError where
  | missingValue (key : String)
  | invalidValue (reason : String)
  | unreadableFilters
  | missingFilterFile (path : String)
  deriving DecidableEq

def ConfigError.message : ConfigError → String
  | missingValue key => "Missing configuration value: " ++ key
  | invalidValue reason => "Invalid configuration: " ++ reason
  | unreadableFilters => "Invalid configuration: filter file"
  | missingFilterFile path => "Invalid configuration: filter file " ++ path

end ChainIndex
