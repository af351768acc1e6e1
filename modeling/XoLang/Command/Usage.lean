import XoLang.Text.Lines

/-!
# Usage texts

The pages of help: one for the program and one for each command. A page is its usage and what
follows it.
-/

namespace XoLang.Command

/-- The pages of help. -/
inductive Page where
  | main
  | build
  | emit
  | tokens
  | ast
  deriving DecidableEq, Repr

namespace Page

/-- The name of the program on a page. -/
def program : Page → String
  | .main => "xo"
  | .build => "xo build"
  | .emit => "xo emit"
  | .tokens => "xo tokens"
  | .ast => "xo ast"

/-- Lines, each with its line end. -/
def lines (texts : List String) : String := String.join (texts.map (· ++ "\n"))

/-- The usage on a page. -/
def usage : Page → String
  | .main => lines
    ["usage: xo [-h] [--version] [-v] \x7bbuild,emit,tokens,ast\x7d ..."]
  | .build => lines
    ["usage: xo build [-h] [--config CONFIG] [--quote QUOTE]",
     "                [--output-format \x7bpretty,json\x7d] [-o OUT_DIR] [--no-format]",
     "                file"]
  | .emit => lines
    ["usage: xo emit [-h] [--config CONFIG] [--quote QUOTE]",
     "               [--output-format \x7bpretty,json\x7d] [--format]",
     "               file"]
  | .tokens => lines
    ["usage: xo tokens [-h] [--config CONFIG] [--quote QUOTE]",
     "                 [--output-format \x7bpretty,json\x7d] [--json]",
     "                 [--max-items MAX_ITEMS]",
     "                 file"]
  | .ast => lines
    ["usage: xo ast [-h] [--config CONFIG] [--quote QUOTE]",
     "              [--output-format \x7bpretty,json\x7d] [--json] [--max-items MAX_ITEMS]",
     "              file"]

/-- The description that all commands share. -/
def commonText : List String :=
  ["positional arguments:",
   "  file                  XO source file (.xo)",
   "",
   "options:",
   "  -h, --help            show this help message and exit",
   "  --config CONFIG       Path to a config file (default: nearest .xorc.yml)",
   "  --quote QUOTE         String delimiter character (default from config, else",
   "                        ')",
   "  --output-format \x7bpretty,json\x7d",
   "                        Diagnostics format"]

/-- What follows the usage on a page. -/
def description : Page → String
  | .main => lines
    ["XO — compile .xo sources to JavaScript",
     "",
     "positional arguments:",
     "  \x7bbuild,emit,tokens,ast\x7d",
     "                        Available commands",
     "    build               Compile to JavaScript in the build directory",
     "    emit                Print generated JavaScript",
     "    tokens              Show the token stream",
     "    ast                 Show the syntax tree",
     "",
     "options:",
     "  -h, --help            show this help message and exit",
     "  --version             show program's version number and exit",
     "  -v, --verbose         More logging (-v info, -vv debug)"]
  | .build => lines (commonText ++
    ["  -o OUT_DIR, --out-dir OUT_DIR",
     "                        Build directory (cleared first)",
     "  --no-format           Skip the external formatter"])
  | .emit => lines (commonText ++
    ["  --format              Run the external formatter"])
  | .tokens => lines (commonText ++
    ["  --json                Machine-readable output",
     "  --max-items MAX_ITEMS",
     "                        Truncate long lists (0 = no limit)"])
  | .ast => lines (commonText ++
    ["  --json                Machine-readable output",
     "  --max-items MAX_ITEMS",
     "                        Truncate long child lists (0 = no limit)"])

/-- A whole page. -/
def text (page : Page) : String := page.usage ++ "\n" ++ page.description

end Page

end XoLang.Command
