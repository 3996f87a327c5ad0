/-
# ConfigDrive.Config — the settings of a run.

Everything a run depends on is written here: where the drive is mounted, where programs are looked up,
and which tool is started afterwards with which flags.  `Config.default` is what holds when nothing is
configured.
-/
import ConfigDrive.SearchPath

namespace ConfigDrive

/-- The settings for the tool to which a run hands off. -/
structure Downstream where
  program : String := "glean"
  useNm : Bool := false
  noDhcpFallback : Bool := false
  debug : Bool := false
  extraArgs : List String := []
  deriving DecidableEq, Repr

/-- The settings of a run. -/
structure Config where
  mountPoint : String := "/mnt/config"
  searchPath : List String := SearchPath.standard.dirs
  blkid : String := "blkid"
  mount : String := "mount"
  downstream : Downstream := {}
  deriving DecidableEq, Repr

namespace Downstream

/-- The flags that a truth value asks for. -/
def flag (given : Bool) (name : String) : List String :=
  if given then [name] else []

/-- The arguments that every started tool is given: a flag for each switch, then the further ones. -/
def installFlags (d : Downstream) : List String :=
  flag d.useNm "--use-nm" ++ flag d.noDhcpFallback "--no-dhcp-fallback" ++ flag d.debug "--debug" ++
    d.extraArgs

end Downstream

namespace Config

/-- The settings when nothing is configured. -/
def default : Config := {}

/-- The directories in which programs are looked up. -/
def allowList (c : Config) : SearchPath :=
  ⟨c.searchPath⟩

end Config

end ConfigDrive
