import PlotLisp.Host.Files
import PlotLisp.Toml.Document

/-!
# Settings

What a configuration file can set: the startup script, how often an idle kernel looks up, and
which messages are logged. A key that is missing leaves its setting as it was, and a key that is
no setting is passed over; a setting with a value of the wrong sort makes the whole file
invalid.
-/

namespace PlotLisp

structure Settings where
  /-- The script that is run first, unless it is the bundled one. -/
  startupScript : Option String := none
  /-- How many milliseconds an idle kernel waits before it looks whether to stop. -/
  pollMilliseconds : Nat := 10
  logFilter : String := "plotscript=warn"
deriving DecidableEq

namespace Settings

/-- The waiting time of an idle kernel, which is never none at all. -/
def pollInterval (settings : Settings) : Nat := max settings.pollMilliseconds 1

/-! ## Reading settings -/

/-- The value of a setting: the given one where the key is missing, and nothing where the value
is of the wrong sort. -/
def setting {α : Type} (entries : Toml.Entries) (key : String) (given : α)
    (ofValue : Toml.Value → Option α) : Option α :=
  match entries.lookup key with
  | none => some given
  | some value => ofValue value

def stringOf : Toml.Value → Option String
  | .string text => some text
  | _ => none

def naturalOf : Toml.Value → Option Nat
  | .integer value => if value < 0 then none else some value.toNat
  | _ => none

/-- The settings that a configuration text makes. -/
def ofToml? (text : String) : Option Settings := do
  let entries ← Toml.document? text
  let given : Settings := {}
  let startupScript ← setting entries "startup-script" given.startupScript
    fun value => some <$> stringOf value
  let pollMilliseconds ← setting entries "poll-interval-ms" given.pollMilliseconds naturalOf
  let logFilter ← setting entries "log-filter" given.logFilter stringOf
  return { startupScript, pollMilliseconds, logFilter }

/-! ## Configuration files -/

/-- Why there are no settings to be had from a file. -/
inductive Fault where
  | unreadable (path : String) (error : FileError)
  | invalid
deriving DecidableEq

def Fault.message : Fault → String
  | .unreadable path error => "failed to read config file '" ++ path ++ "': " ++ error.message
  | .invalid => "invalid config"

/-- The settings that a configuration text makes, or the fault in it. -/
def ofText (text : String) : Except Fault Settings :=
  match ofToml? text with
  | some settings => .ok settings
  | none => .error .invalid

/-- The settings that a configuration file makes. -/
def load (files : Files) (path : String) : Except Fault Settings :=
  match files.read path with
  | .error error => .error (.unreadable path error)
  | .ok text => ofText text

end Settings

end PlotLisp
