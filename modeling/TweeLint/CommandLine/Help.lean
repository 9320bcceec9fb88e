import TweeLint.Version

/-!
# Texts of the command line
-/

namespace TweeLint.CommandLine

/-- The name of the program. -/
def programName : String := "harlowe-lint"

/-- Lines as a text, each with its line feed. -/
def ofLines (lines : List String) : String :=
  String.join (lines.map fun line => line ++ "\n")

/-- How the program is called. -/
def usageLines : List String :=
  ["usage: harlowe-lint [-h] [-v] [--vocabulary VOCABULARY] [--format \x7btext,json\x7d]",
    "                    [--jobs JOBS]",
    "                    [path]"]

/-- What the program does, what its arguments mean, and examples. -/
def detailLines : List String :=
  ["",
    "Harlowe Linter - Validate Harlowe code in Twee files",
    "",
    "positional arguments:",
    "  path                  Twee file (.twee/.tw) or directory to lint",
    "",
    "options:",
    "  -h, --help            show this help message and exit",
    "  -v, --version         show program's version number and exit",
    "  --vocabulary VOCABULARY",
    "                        Harlowe reference docs (markdown) to read macro names",
    "                        from",
    "  --format \x7btext,json\x7d  Report output format (json: one report object per",
    "                        line)",
    "  --jobs JOBS           Number of documents linted in parallel",
    "",
    "examples:",
    "  harlowe-lint story.twee",
    "  harlowe-lint ./stories"]

/-- How the program is called. -/
def usage : String := ofLines usageLines

/-- The help. -/
def help : String := ofLines (usageLines ++ detailLines)

/-- The version. -/
def versionLine : String := s!"Harlowe Linter v{version}\n"

end TweeLint.CommandLine
