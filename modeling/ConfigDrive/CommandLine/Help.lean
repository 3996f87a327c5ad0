/-
# ConfigDrive.CommandLine.Help — the texts of help and version.
-/
import ConfigDrive.CommandLine

namespace ConfigDrive.CommandLine

/-- What the program is for. -/
def programAbout : String :=
  "Mount the config drive and hand off to the metadata tool"

/-- What a run at early boot does. -/
def earlyAbout : String :=
  "Early boot: mount the drive and exec the tool without networking"

/-- What a run at any other time does. -/
def runAbout : String :=
  "Mount the drive and run the tool for this invocation"

/-- What looking for the drive does. -/
def detectAbout : String :=
  "Probe for the drive and print a JSON report, without mounting"

/-- What asking for help does. -/
def helpAbout : String :=
  "Print this message or the help of the given subcommand(s)"

/-- Lines of text, each with its end. -/
def rows (lines : List String) : String :=
  String.join (lines.map (· ++ "\n"))

/-- The page of a command that forwards its arguments. -/
def forwardingPage (about name : String) : String :=
  rows [about, "", "Usage: configdrive-rs " ++ name ++ " [ARGS]...", "", "Arguments:",
    "  [ARGS]...  Arguments forwarded to the downstream tool"]

/-- The text of a page of help. -/
def Page.text : Page → String
  | .program =>
    rows [programAbout, "", "Usage: configdrive-rs [OPTIONS] <COMMAND>", "", "Commands:",
      "  early   " ++ earlyAbout, "  run     " ++ runAbout, "  detect  " ++ detectAbout,
      "  help    " ++ helpAbout, "", "Options:",
      "  -v, --verbose...       Enable verbose output",
      "  -q, --quiet            Only log errors",
      "      --config <CONFIG>  Main configuration file; drop-ins are read from config.d next to it " ++
        "[default: /etc/configdrive/config.yaml]",
      "  -h, --help             Print help",
      "  -V, --version          Print version"]
  | .early => forwardingPage earlyAbout "early"
  | .run => forwardingPage runAbout "run"
  | .detect =>
    rows [detectAbout, "", "Usage: configdrive-rs detect", "", "Options:", "  -h, --help  Print help"]
  | .help =>
    rows [helpAbout, "", "Usage: configdrive-rs help [COMMAND]...", "", "Arguments:",
      "  [COMMAND]...  Print help for the subcommand(s)"]

/-- The text of the version. -/
def versionText : String :=
  rows ["configdrive-rs 0.1.0"]

end ConfigDrive.CommandLine
