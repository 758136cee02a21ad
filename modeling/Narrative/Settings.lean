import Narrative.Text.Uppercase

/-!
# Settings

The settings that the service takes from its environment, each with a default.
-/

namespace Narrative

/-- The variables of an environment. -/
abbrev Environment := List (String × String)

namespace Environment

/-- The address of the store. -/
def storeAddress (environment : Environment) : String :=
  (environment.lookup "REDIS_URL").getD "redis://localhost:6379/0"

/-- The level of the log, in capital letters. -/
def logLevel (environment : Environment) : String :=
  Text.uppercase ((environment.lookup "BRANCHTALE_LOG_LEVEL").getD "INFO")

/-- The directory of the assets, unless they are the bundled ones. -/
def assetDirectory (environment : Environment) : Option String :=
  (environment.lookup "BRANCHTALE_ASSETS_DIR").filter (!·.isEmpty)

/-- The store is read and written as text. -/
def decodesText : Bool := true

end Environment

end Narrative
