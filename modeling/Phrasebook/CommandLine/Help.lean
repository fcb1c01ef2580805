/-!
# The help of the program
-/

namespace Phrasebook.CommandLine

/-- What the program prints when it is asked for help. -/
def helpText : String :=
  "\x1b[1mskript\x1b[0m - Pattern-driven parser for Skript scripts

\x1b[1mUSAGE:\x1b[0m
    skript [OPTIONS] [FILES...]

\x1b[1mARGUMENTS:\x1b[0m
    [FILES...]    Scripts to parse before starting the REPL ('-' reads stdin)

\x1b[1mOPTIONS:\x1b[0m
    -h, --help             Print help information
    -V, --version          Print version information
    -b, --batch            Parse files and exit (no REPL)
        --json             Print diagnostics as JSON
        --tree             Print parsed trees
        --no-color         Disable colored diagnostics
    -c, --config FILE      Load parser settings from a 'key: value' file
        --max-depth N      Limit nested sub-expression parsing
        --deny-ambiguity   Fail on indistinguishable syntax registrations
        --strict           Deny ambiguity and statements outside triggers
    -v, --verbose          More logging (repeat for more; RUST_LOG overrides)

\x1b[1mEXIT STATUS:\x1b[0m
    0  every file parsed without errors
    1  at least one file had parse errors
    2  the command itself failed

\x1b[1mEXAMPLES:\x1b[0m
    skript                            Start the REPL
    skript -b scripts/*.sk            Check scripts and exit
    skript -b --json --tree test.sk   Machine-readable trees and diagnostics
    cat test.sk | skript -b -         Check a script from stdin

\x1b[1mREPL COMMANDS:\x1b[0m
    :expr <types> <text>   Parse an expression of the given types
    :tree                  Toggle tree output
    :types, :syntax        List registered types and syntax
    :help, :quit           Help and exit
    Ctrl+D                 Exit REPL
    Ctrl+C                 Cancel current input
"

/-- What the program prints when it is asked for its version. -/
def versionText : String :=
  "skript 0.1.0\n"

end Phrasebook.CommandLine
