/-! The texts that explain the command line. -/

namespace Recenter.CommandLine

def programName : String := "bannerctl"

def versionText : String := programName ++ " 0.1.0\n"

def usageLines : List String := [
  "usage: bannerctl [-h] [--version] [--config CONFIG] [--ext SUFFIX]",
  "                 [--exclude NAME] [--json] [--format \x7btext,json\x7d]",
  "                 [--run-id RUN_ID] [--log-json] [--verbose | --quiet]",
  "                 [root]"]

def helpLines : List String := usageLines ++ [
  "",
  "Re-center region and section banner comments in source files.",
  "",
  "positional arguments:",
  "  root                  directory to process (default: current working",
  "                        directory)",
  "",
  "options:",
  "  -h, --help            show this help message and exit",
  "  --version             show program's version number and exit",
  "  --config CONFIG       YAML or JSON config file (env: BANNERCTL_CONFIG)",
  "  --ext SUFFIX          file-name suffix to process; repeatable",
  "  --exclude NAME        extra directory name to skip; repeatable",
  "  --json                emit JSON output",
  "  --format \x7btext,json\x7d  output format",
  "  --run-id RUN_ID       run identifier for log lines (env: RUN_ID)",
  "  --log-json            emit log events as JSON lines on stderr",
  "  --verbose             enable verbose diagnostics",
  "  --quiet               only emit errors"]

/-- Lines, each with its line feed. -/
def linesText (lines : List String) : String :=
  String.join (lines.map fun line => line ++ "\n")

def usageText : String := linesText usageLines

def helpText : String := linesText helpLines

end Recenter.CommandLine
