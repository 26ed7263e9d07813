import TypeAssertions.CommandLine.Basic

/-!
# Usage

The texts with which the program answers a command line that it does not carry out.
-/

namespace TypeAssertions.CommandLine

/-- The name and the version of the program. -/
def versionText : String := "type-assertions 0.1.0\n"

/-- How the program is used. -/
def usageText : String :=
  String.intercalate "\n"
    ["Verify type assertions in test files against checker diagnostics", "",
      "Usage: type-assertions [OPTIONS] [PATH]...", "",
      "  [PATH]...             Test files, or directories to search for test files",
      "      --checker <CMD>   Checker command, given a file and the compiler options",
      "  -p, --project <FILE>  Configuration to use for every test file",
      "      --pattern <GLOB>  Glob used when searching directories (repeatable)",
      "      --format <FORMAT> Output format: text or json",
      "      --no-color        Disable colored output",
      "  -j, --jobs <JOBS>     Number of files checked in parallel",
      "  -h, --help            Print help",
      "  -V, --version         Print version", ""]

/-- The answer to a command line that is not carried out. -/
def Refusal.message : Refusal → String
  | .helpAsked => usageText
  | .versionAsked => versionText
  | .unknownArgument => "error: unexpected argument\n"
  | .missingValue => "error: a value is required\n"
  | .unfitValue => "error: invalid value\n"
  | .malformedNumber => "error: invalid number\n"
  | .repeated => "error: the argument cannot be used multiple times\n"
  | .unexpectedValue => "error: unexpected value for a flag\n"

end TypeAssertions.CommandLine
