import TokiPona.Render
import TokiPona.Text.Quoted

namespace TokiPona.Command

/-- The flags, in the order of the help text. -/
inductive Flag where
  | help
  | string
  | target
  | out
  | pretty
  | repl
  | aliases
  | debug
  | logFile
  deriving DecidableEq, Repr

namespace Flag

def all : List Flag :=
  [.help, .string, .target, .out, .pretty, .repl, .aliases, .debug, .logFile]

/-- The letter of a flag that can be given by one letter. -/
def letter? : Flag → Option Char
  | .help => some 'h'
  | .string => some 's'
  | .target => some 't'
  | .out => some 'o'
  | .pretty => some 'p'
  | _ => none

/-- The long name of a flag. -/
def longName : Flag → String
  | .help => "--help"
  | .string => "--string"
  | .target => "--target"
  | .out => "--out"
  | .pretty => "--pretty"
  | .repl => "--repl"
  | .aliases => "--aliases"
  | .debug => "--debug"
  | .logFile => "--log-file"

/-- Whether a flag comes with a value. -/
def takesValue : Flag → Bool
  | .target | .out | .aliases | .logFile => true
  | _ => false

/-- The flag of a letter. -/
def ofLetter? (c : Char) : Option Flag :=
  all.find? (fun f => f.letter? == some c)

/-- The flag of exactly this long name. -/
def ofLongName? (name : String) : Option Flag :=
  all.find? (fun f => f.longName == name)

/-- A flag as messages name it. -/
def title (f : Flag) : String :=
  match f.letter? with
  | some c => String.ofList ['-', c, '/'] ++ f.longName
  | none => f.longName

end Flag

/-- What is wrong with a command line. -/
inductive UsageError where
  | ambiguous (argument : String) (candidates : List Flag)
  | missingValue (flag : Flag)
  | unwantedValue (flag : Flag) (value : String)
  | badTarget (value : String)
  | unrecognized (arguments : List String)
  deriving DecidableEq, Repr

def UsageError.message : UsageError → String
  | .ambiguous argument candidates =>
    "ambiguous option: " ++ argument ++ " could match " ++
      ", ".intercalate (candidates.map Flag.longName)
  | .missingValue flag => "argument " ++ flag.title ++ ": expected one argument"
  | .unwantedValue flag value =>
    "argument " ++ flag.title ++ ": ignored explicit argument " ++ Text.quoted value
  | .badTarget value =>
    "argument " ++ Flag.target.title ++ ": invalid choice: " ++ Text.quoted value ++
      " (choose from " ++
      ", ".intercalate (Target.all.map (fun t => Text.quoted t.name)) ++ ")"
  | .unrecognized arguments => "unrecognized arguments: " ++ " ".intercalate arguments

/-- How the command is called. -/
def usage : String :=
  "usage: tokiparse [-h] [-s] [-t \x7bcanonical,tree,json\x7d] [-o OUTFILE] [-p]\n" ++
  "                 [--repl] [--aliases JSON] [--debug] [--log-file PATH]\n" ++
  "                 [source]\n"

/-- The whole help text. -/
def help : String :=
  usage ++
  "\n" ++
  "positional arguments:\n" ++
  "  source                Filename or raw text (with -s)\n" ++
  "\n" ++
  "options:\n" ++
  "  -h, --help            show this help message and exit\n" ++
  "  -s, --string          Interpret source as literal text\n" ++
  "  -t \x7bcanonical,tree,json\x7d, --target \x7bcanonical,tree,json\x7d\n" ++
  "                        Render target (default: canonical)\n" ++
  "  -o OUTFILE, --out OUTFILE\n" ++
  "                        Output to file\n" ++
  "  -p, --pretty          Show output with banners\n" ++
  "  --repl                Launch interactive REPL instead of batch parsing\n" ++
  "  --aliases JSON        Spelling alias file (default: $TOKIPARSE_ALIASES)\n" ++
  "  --debug               Enable debug logging\n" ++
  "  --log-file PATH       Append logs to this file\n"

end TokiPona.Command
