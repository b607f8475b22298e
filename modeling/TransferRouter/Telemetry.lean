/-!
Settings of the log, read from variables. Every setting has a default, so reading cannot fail.
-/

namespace TransferRouter

/-- How the router reports on itself. -/
structure Telemetry where
  serviceName : String
  logLevel : String
  consoleOutput : Bool
  jsonLogs : Bool
  deriving DecidableEq

namespace Telemetry

/-- True when a text is the given lower-case ASCII word in letters of either case. No character
outside ASCII has one of the letters of "true" and "false" as its lower case. -/
def isWord (word : String) (s : String) : Bool := s.toList.map Char.toLower == word.toList

/-- The settings that variables describe. -/
def ofVariables (lookup : String → Option String) : Telemetry where
  serviceName := (lookup "ORBITER_SERVICE_NAME").getD "orbiter"
  logLevel := ((lookup "ORBITER_LOG_LEVEL").or (lookup "RUST_LOG")).getD "info"
  consoleOutput :=
    match lookup "ORBITER_CONSOLE_OUTPUT" with
    | some s => !isWord "false" s && s != "0"
    | none => true
  jsonLogs :=
    match lookup "ORBITER_JSON_LOGS" with
    | some s => isWord "true" s || s == "1"
    | none => false

end Telemetry

end TransferRouter
