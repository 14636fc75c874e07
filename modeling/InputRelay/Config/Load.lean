/-
Loading the settings from a file. A file that is not there gives the defaults; anything else that keeps the file from
being read, and any fault in what it says, is an error, for a broken setup must not pass for an empty one. Which documents
are TOML and what table they are is left to a parser.
-/
import InputRelay.Config.Location
import InputRelay.Config.Settings
import InputRelay.Text.Quoted

namespace InputRelay.Config

/-- why a file that is there cannot be read as text -/
inductive ReadFault where
  | isDirectory
  | notUtf8
deriving DecidableEq, Repr

def ReadFault.message : ReadFault → String
  | isDirectory => "Is a directory (os error 21)"
  | notUtf8 => "stream did not contain valid UTF-8"

/-- why there are no settings -/
inductive ConfigError where
  | noDirectory
  | unreadable (path : String) (fault : ReadFault)
  | malformed
  | invalidHost (host : String)
deriving DecidableEq, Repr

def ConfigError.message : ConfigError → String
  | noDirectory => "could not determine platform config directory"
  | unreadable path fault => "I/O error accessing config at " ++ path ++ ": " ++ fault.message
  | malformed => "failed to parse config TOML"
  | invalidHost host => "invalid host address " ++ Text.quoted host

/-- what stands at a path -/
inductive File where
  | missing
  | directory
  | content (bytes : ByteArray)

/-- the settings in a text -/
def ofText (parse : Toml.Parser) (text : String) : Except ConfigError Settings :=
  match (parse text).bind Settings.ofTable? with
  | some settings => .ok settings
  | none => .error .malformed

/-- the settings in a file -/
def load (parse : Toml.Parser) (path : String) : File → Except ConfigError Settings
  | .missing => .ok .default
  | .directory => .error (.unreadable path .isDirectory)
  | .content bytes =>
    match String.fromUTF8? bytes with
    | some text => ofText parse text
    | none => .error (.unreadable path .notUtf8)

/-- the settings in the file where the environment has it -/
def loadFrom (parse : Toml.Parser) (env : Environment) (files : String → File) : Except ConfigError Settings :=
  match env.file? with
  | some path => load parse path (files path)
  | none => .error .noDirectory

/-- where to connect to -/
def Network.endpoint (n : Network) : Except ConfigError Net.Endpoint :=
  match n.endpoint? with
  | some e => .ok e
  | none => .error (.invalidHost n.host)

end InputRelay.Config
