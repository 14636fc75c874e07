/-
Where the configuration lives: in a directory of its own below the user's configuration directory, which the environment
names or which stands in the user's home. A variable that is set to nothing is set.
-/
namespace InputRelay.Config

/-- the environment variables that count -/
structure Environment where
  xdgConfigHome : Option String
  home : Option String
deriving DecidableEq, Repr

/-- a name below a directory; one slash stands between them, and the empty directory is the current one -/
def below (directory name : String) : String :=
  if directory = "" ∨ directory.toList.getLast? = some '/' then directory ++ name else directory ++ "/" ++ name

namespace Environment

/-- the user's configuration directory -/
def base? (env : Environment) : Option String :=
  match env.xdgConfigHome with
  | some directory => some directory
  | none => env.home.map fun home => below home ".config"

def directory? (env : Environment) : Option String := env.base?.map fun base => below base "vdminput"

def file? (env : Environment) : Option String := env.directory?.map fun directory => below directory "config.toml"

end Environment

end InputRelay.Config
