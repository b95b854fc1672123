import BoundSql.Dialect.Registry
import BoundSql.Session.Basic

/-!
# Clients

A client is the configuration that sessions are opened with.
-/

namespace BoundSql

/-- The settings of a client. -/
structure Config where
  /-- What connections are opened with. -/
  target : String
  dialect : String
  generated : Bool
  batchSize : Nat
  deriving DecidableEq, Repr

namespace Config

/-- The settings of a dialect, where nothing else is said. -/
def new (dialect target : String) : Config := ⟨target, dialect, false, 500⟩

/-- The settings of a url, whose scheme names the dialect. -/
def ofUrl (url : String) : Except Fault Config :=
  match Text.splitFirst? "://".toList url.toList with
  | some (c :: cs, _) => .ok (new (String.ofList (c :: cs)) url)
  | _ => .error (.schemeMissing url)

end Config

/-- A configuration whose dialect is known. -/
structure Client where
  config : Config
  dialect : Dialect
  key : PoolKey
  /-- Whether an observer sees the statements of its sessions. -/
  observed : Bool

namespace Client

/-- The client of a configuration. -/
def new (config : Config) (registry : Registry) : Except Fault Client :=
  match registry.get config.dialect with
  | .error e => .error e
  | .ok dialect =>
    if config.batchSize = 0 then .error .emptyBatches
    else .ok ⟨config, dialect, ⟨dialect.name, config.target⟩, false⟩

/-- A session of the client. -/
def session (c : Client) : Session :=
  ⟨c.dialect, c.key, c.config.batchSize, c.config.generated, c.observed, none, []⟩

end Client

end BoundSql
