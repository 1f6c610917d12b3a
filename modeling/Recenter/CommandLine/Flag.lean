/-! The options of the command line, with their names and what they take. -/

namespace Recenter.CommandLine

inductive Flag
  | help
  | version
  | config
  | ext
  | exclude
  | json
  | format
  | runId
  | logJson
  | verbose
  | quiet
deriving DecidableEq, Repr

namespace Flag

/-- All options, in the order in which they are explained. -/
def all : List Flag :=
  [help, version, config, ext, exclude, json, format, runId, logJson, verbose, quiet]

def names : Flag → List String
  | help => ["-h", "--help"]
  | version => ["--version"]
  | config => ["--config"]
  | ext => ["--ext"]
  | exclude => ["--exclude"]
  | json => ["--json"]
  | format => ["--format"]
  | runId => ["--run-id"]
  | logJson => ["--log-json"]
  | verbose => ["--verbose"]
  | quiet => ["--quiet"]

def takesValue : Flag → Bool
  | config | ext | exclude | format | runId => true
  | _ => false

def byName : List (String × Flag) :=
  all.flatMap fun flag => flag.names.map fun name => (name, flag)

def ofName? (name : String) : Option Flag :=
  byName.lookup name

def shown (flag : Flag) : String :=
  "/".intercalate flag.names

end Flag

def formats : List String := ["text", "json"]

end Recenter.CommandLine
