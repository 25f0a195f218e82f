import StandIn.CommandLine.Arguments

/-!
What the program prints.
-/

namespace StandIn.CommandLine

namespace Json

-- Characters in a string of JSON: quotes, backslashes and control characters are escaped.
def escape (c : Char) : List Char :=
  match c with
  | '\x22' => ['\\', '\x22']
  | '\\'   => ['\\', '\\']
  | '\n'   => ['\\', 'n']
  | '\r'   => ['\\', 'r']
  | '\t'   => ['\\', 't']
  | '\x08' => ['\\', 'b']
  | '\x0c' => ['\\', 'f']
  | c      =>
    if c.toNat < 0x20 then
      ['\\', 'u', '0', '0', Nat.digitChar (c.toNat / 16), Nat.digitChar (c.toNat % 16)]
    else [c]

def string (s : String) : String :=
  .ofList (['\x22'] ++ s.toList.flatMap escape ++ ['\x22'])

def indented (depth : Nat) (line : String) : String :=
  .ofList (.replicate (2 * depth) ' ') ++ line

-- Lines with commas between them.
def commas : List String → List String
  | []      => []
  | [l]     => [l]
  | l :: ls => (l ++ ",") :: commas ls

end Json

-- The outcome of a run as JSON. Times are in milliseconds.
def summaryLines (o : Operation) (s : Traversal.Summary) (reading whole : Nat) : List String :=
  let written :=
    if s.written.isEmpty then [Json.indented 2 "\"files_written\": [],"]
    else
      [Json.indented 2 "\"files_written\": ["] ++
      (Json.commas (s.written.map Json.string)).map (Json.indented 3) ++ [Json.indented 2 "],"]
  ["\x7b",
   Json.indented 1 ("\"operation\": " ++ Json.string o.text ++ ","),
   Json.indented 1 "\"summary\": \x7b",
   Json.indented 2 ("\"module\": " ++ Json.string s.module ++ ","),
   Json.indented 2 ("\"packages\": " ++ toString s.packages ++ ","),
   Json.indented 2 ("\"files\": " ++ toString s.files ++ ",")] ++ written ++
  [Json.indented 2 ("\"parse_time\": " ++ toString reading),
   Json.indented 1 "\x7d,",
   Json.indented 1 ("\"duration_ms\": " ++ toString whole),
   "\x7d"]

def about : Operation → String
  | .decorate => "Synthesize layer proxies and rewire entry packages"
  | .generate => "Synthesize builders and mocks"

def aboutHelp : String :=
  "Print this message or the help of the given subcommand(s)"

def aboutVerbose : String :=
  "Log at debug level (RUST_LOG takes precedence)"

def helpLines : Topic → List String
  | .program =>
    ["Go source synthesis - layer proxies, builders and mocks", "",
     "Usage: gosynth [OPTIONS] <COMMAND>", "",
     "Commands:",
     "  decorate  " ++ about .decorate,
     "  generate  " ++ about .generate,
     "  help      " ++ aboutHelp, "",
     "Options:",
     "  -v, --verbose  " ++ aboutVerbose,
     "  -h, --help     Print help"]
  | .help =>
    [aboutHelp, "",
     "Usage: gosynth help [COMMAND]...", "",
     "Arguments:",
     "  [COMMAND]...  Print help for the subcommand(s)"]
  | .operation o =>
    [about o, "",
     "Usage: gosynth " ++ o.text ++ " [OPTIONS] [PATH]", "",
     "Arguments:",
     "  [PATH]  Module root [default: .]", "",
     "Options:",
     "  -c, --config <CONFIG>        Configuration file " ++
       "(defaults to <path>/gosynth.yaml when present)",
     "  -v, --verbose                " ++ aboutVerbose,
     "      --formatter <FORMATTER>  Formatter for synthesized files: goimports, gofmt or none",
     "      --include-tests          Rewire the entry package's _test.go files too",
     "      --json                   Print the run summary as JSON",
     "  -h, --help                   Print help"]

end StandIn.CommandLine
