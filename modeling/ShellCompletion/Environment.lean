import ShellCompletion.FileTree.Path
import ShellCompletion.Table

/-!
# The environment

The values of the variables that the program was started with.
-/

namespace ShellCompletion

abbrev Environment := Table OsText

namespace Environment

def home? (environment : Environment) : Option OsText :=
  (environment.lookup "HOME").filter (!·.octets.isEmpty)

/-- The directory for configuration files of all programs. -/
def configDirectory? (environment : Environment) : Option OsText :=
  match (environment.lookup "XDG_CONFIG_HOME").filter OsText.isAbsolute with
  | some directory => some directory
  | none => environment.home?.map (·.join ".config")

/-- Where programs are looked up if the search path is not set. -/
def standardSearchPath : String := "/usr/local/bin:/usr/bin:/bin:/usr/local/sbin:/sbin"

/-- The directories in which programs are looked up. A search path that is no UTF-8 counts as not set. -/
def searchDirectories (environment : Environment) : List String :=
  Path.searchList (((environment.lookup "PATH").bind OsText.text?).getD standardSearchPath)

end Environment

end ShellCompletion
