import WikiPress.CommandLine.Arguments

/-!
# Help texts

What the command line prints about itself.
-/

namespace WikiPress.CommandLine

/-- The name of the program. -/
def programName : String :=
  "wikismith"

/-- The name and the version of the program. -/
def versionText : String :=
  programName ++ " 0.1.0\n"

/-- The options that stand anywhere. -/
def commonOptions : String :=
  "  -v, --verbose          Enable verbose logging\n" ++
  "  -h, --help             Print help\n"

/-- The option for a configuration file. -/
def configOption : String :=
  "      --config <CONFIG>  Path to configuration file " ++
  "(defaults to wikismith.yml in the input directory)\n"

/-- The operands of a command. -/
def operands : String :=
  "Arguments:\n" ++
  "  <INPUT>   Source directory\n" ++
  "  <OUTPUT>  Output directory (removed and recreated)\n"

/-- How the program is called. -/
def programUsage : String :=
  s!"Usage: {programName} [OPTIONS] <COMMAND>\n"

/-- What is printed when help is asked for. -/
def helpText : Topic → String
  | .program =>
    "CLI for the wikismith static wiki compiler\n\n" ++ programUsage ++ "\n" ++
    "Commands:\n" ++
    "  build  Compile the wiki once\n" ++
    "  watch  Compile, then recompile whenever the source directory changes\n" ++
    "  help   Print this message or the help of the given subcommand(s)\n\n" ++
    "Options:\n" ++ configOption ++ commonOptions ++
    "  -V, --version          Print version\n"
  | .command .build =>
    "Compile the wiki once\n\n" ++
    s!"Usage: {programName} build [OPTIONS] <INPUT> <OUTPUT>\n\n" ++ operands ++ "\n" ++
    "Options:\n" ++ configOption ++
    "      --json             Print the compile report as JSON\n" ++ commonOptions
  | .command .watch =>
    "Compile, then recompile whenever the source directory changes\n\n" ++
    s!"Usage: {programName} watch [OPTIONS] <INPUT> <OUTPUT>\n\n" ++ operands ++ "\n" ++
    "Options:\n" ++ configOption ++ commonOptions
  | .help =>
    "Print this message or the help of the given subcommand(s)\n\n" ++
    s!"Usage: {programName} help [COMMAND]...\n\n" ++
    "Arguments:\n" ++
    "  [COMMAND]...  Print help for the subcommand(s)\n"

/-- What is said of arguments that are not in order. -/
def refusalText : String :=
  "error: the arguments are not in order\n\n" ++ programUsage ++
  "\nFor more information, try '--help'.\n"

end WikiPress.CommandLine
