import DocFilter.Failure
import DocFilter.Number.Reading
import DocFilter.Text.Letter
import DocFilter.Text.Quoted

/-!
Settings read from environment variables.
-/

namespace DocFilter

abbrev Environment := List (String × String)

structure ServiceSettings where
  defaultLimit : Int
  publicKey : String
  deriving DecidableEq

namespace Environment

/-- The page size of a service that is told none. -/
def standardLimit : Int := 10

def limitName : String := "DOCSTORE_QUERY_DEFAULT_LIMIT"

def publicKeyName : String := "DOCSTORE_QUERY_PK_NAME"

def databaseName : String := "DOCSTORE_QUERY_DB_PATH"

def debugName : String := "DOCSTORE_QUERY_DEBUG"

def readLimit (env : Environment) : Except Failure Int :=
  match env.lookup limitName with
  | none | some "" => .ok standardLimit
  | some raw =>
    match readInteger? raw with
    | none => .error (.limitSettingNotInteger (Text.quoted raw))
    | some n => if n ≤ 0 then .error .limitSettingNotPositive else .ok n

def serviceSettings (env : Environment) : Except Failure ServiceSettings :=
  (readLimit env).map fun defaultLimit =>
    { defaultLimit, publicKey := (env.lookup publicKeyName).getD "id" }

/-- The database file: the one asked for, or the one that the environment names. -/
def databasePath (env : Environment) (asked : Option String) : String :=
  match asked with
  | none | some "" => (env.lookup databaseName).getD "docstore.db"
  | some path => path

def isDebug (env : Environment) : Bool :=
  ["1", "true", "yes"].contains (Text.lower ((env.lookup debugName).getD ""))

end Environment

end DocFilter
