/-
The words of the command line about itself, laid out for 80 columns.
-/
import MarkupCatalog.CommandLine.Arguments
import MarkupCatalog.Text.Lines

namespace MarkupCatalog.CommandLine

def program : Text := "inventory-extract".toText

/-- The short form: how the program is called. -/
def usage : Text := Text.unlines <| List.map String.toText
  ["usage: inventory-extract [-h] [--indent INDENT] [--wrap WRAP]",
   "                         [--template-before TEMPLATE_BEFORE]",
   "                         [--template-after TEMPLATE_AFTER] [--output OUTPUT]",
   "                         [--verbose]",
   "                         inputs [inputs ...]",
   ""]

/-- The long form: what all arguments mean, and examples. -/
def help : Text := usage ++ (Text.unlines <| List.map String.toText
  ["",
   "Extract annotated markup blocks into inventory entries",
   "",
   "positional arguments:",
   "  inputs                Markup files to process",
   "",
   "options:",
   "  -h, --help            show this help message and exit",
   "  --indent INDENT       Replacement for the first tab of each line (default:",
   "                        four spaces)",
   "  --wrap WRAP           Default wrap as BEFORE:AFTER (or a single value used",
   "                        on both sides)",
   "  --template-before TEMPLATE_BEFORE",
   "                        Markup placed before each template (\x7b\x7bwrapData\x7d\x7d is",
   "                        replaced by the options)",
   "  --template-after TEMPLATE_AFTER",
   "                        Markup placed after each template (default: same as",
   "                        --template-before)",
   "  --output OUTPUT       Write entries to this JSON file instead of stdout",
   "  --verbose, -v         Show detailed output",
   "",
   "Examples:",
   "    # Print entries of one file",
   "    inventory-extract styleguide/index.html",
   "",
   "    # Wrap every view that has no wrap option of its own",
   "    inventory-extract index.html --wrap '<div class=\"demo\">:</div>'",
   "",
   "    # Template wrap carrying the block options as data attributes",
   "    inventory-extract index.html --template-before '<section \x7b\x7bwrapData\x7d\x7d>' --template-after '</section>'",
   "        ",
   ""])

/-- What is said where arguments are not understood. -/
def Misuse.report (m : Misuse) : Text :=
  usage ++ program ++ ": error: ".toText ++ m.message ++ [.char '\n']

end MarkupCatalog.CommandLine
