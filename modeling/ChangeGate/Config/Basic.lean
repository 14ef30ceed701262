import ChangeGate.Action.Output
import ChangeGate.Shape.Misfit

/-! # Configurations

The settings of the program, which all have default values, and the reasons to refuse a configuration
file. -/

namespace ChangeGate

/-- How the server is asked for the files of a pull request. -/
structure ServerSettings where
  /-- The address of the server. -/
  address : Option Text
  /-- The number of files on a page. -/
  pageSize : Nat
  /-- The name under which the client asks. -/
  userAgent : Text
  /-- How many seconds a request may take. -/
  timeout : Nat
deriving DecidableEq, Repr

/-- All the settings. -/
structure Config where
  /-- The version of the file format. -/
  version : Int
  /-- How the server is asked. -/
  server : ServerSettings
  /-- The key of the output. -/
  key : Text
deriving DecidableEq, Repr

/-- The largest number of files on a page. -/
def maxPageSize : Nat := 100

/-- The settings for the server when none are given. -/
def ServerSettings.default : ServerSettings := ⟨none, maxPageSize, "pathgate".toList, 30⟩

namespace Config

/-- The version that is understood. -/
def supportedVersion : Int := 1

/-- The settings when none are given. -/
def default : Config := ⟨supportedVersion, .default, Action.defaultKey⟩

/-- Why the text of a configuration is refused. -/
inductive Fault where
  /-- It is no document. -/
  | malformed
  /-- A setting has the wrong shape. -/
  | misfit (m : Misfit)
  /-- There is no version. -/
  | missingVersion
  /-- The version is not understood. -/
  | unsupportedVersion (version : Int)
  /-- No page has so many files. -/
  | pageSize (size : Nat)
  /-- A request may not take any time. -/
  | timeout
  /-- The name of the client is blank. -/
  | userAgent
  /-- The output key is none. -/
  | key (cause : Action.KeyFault)
deriving DecidableEq, Repr

/-- The wording of a fault. -/
def Fault.message : Fault → Text
  | .malformed => "TOML parse error".toList
  | .misfit m => "TOML parse error: ".toList ++ m.message
  | .missingVersion => "missing required field: version".toList
  | .unsupportedVersion v =>
    "unsupported config version ".toList ++ Text.ofInt v ++ " (supported: ".toList ++
      Text.ofInt supportedVersion ++ ")\n  Upgrade pathgate to use this config.".toList
  | .pageSize n =>
    "github.per_page must be between 1 and ".toList ++ Text.ofNat maxPageSize ++ ", got ".toList ++
      Text.ofNat n
  | .timeout => "github.timeout_secs must be greater than 0".toList
  | .userAgent => "github.user_agent must not be empty".toList
  | .key cause => "output.key: ".toList ++ cause.message

/-- The first setting that is out of range. -/
def rangeFault? (c : Config) : Option Fault :=
  if c.server.pageSize < 1 ∨ maxPageSize < c.server.pageSize then some (.pageSize c.server.pageSize)
  else if c.server.timeout = 0 then some .timeout
  else if Text.blank c.server.userAgent then some .userAgent
  else (Action.keyFault? c.key).map .key

/-- The default settings are in range. -/
@[simp] theorem rangeFault?_default : rangeFault? default = none := by decide

end Config

end ChangeGate
