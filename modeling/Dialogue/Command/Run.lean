import Dialogue.Command.Line
import Dialogue.Config.Load
import Dialogue.Files.Host
import Dialogue.Listing.Yaml
import Dialogue.Repl.Session

/-!
# Running commands

The commands on any host. What goes wrong is the result; what goes well is written.
-/

namespace Dialogue.Command

inductive CommandError where
  | usage (e : UsageError)
  | noScript
  | unreadableScript (path : Bytes) (e : FileError)
  | unreadableModule (path : Bytes) (e : FileError)
  | unreadableConfig (e : FileError)
  | badConfig (path : Bytes) (e : Config.LoadError)
  | byteOrder (e : UnknownByteOrder)
  | badScript (source : Bytes) (e : CompileError)
  | badModule (e : DecodeError)
  | unknownFormat (name : Bytes)
  | unwritable (path : Bytes) (e : FileError)
  deriving DecidableEq

def CommandError.message : CommandError → Bytes
  | usage e => e.message
  | noScript => Text.utf8 "no script given"
  | unreadableScript path e =>
    Text.utf8 ("failed to read script " ++ Quoted.text path ++ ": ") ++ e.message
  | unreadableModule path e =>
    Text.utf8 ("failed to read module " ++ Quoted.text path ++ ": ") ++ e.message
  | unreadableConfig e => e.message
  | badConfig path e => e.message path
  | byteOrder e => Text.utf8 e.message
  | badScript source e => e.display source
  | badModule e => Text.utf8 e.message
  | unknownFormat name => Text.utf8 ("unknown format " ++ Quoted.text name)
  | unwritable path e =>
    Text.utf8 ("failed to write module " ++ Quoted.text path ++ ": ") ++ e.message

def CommandError.exitCode : CommandError → UInt32
  | usage (.unknownCommand _) => 3
  | _ => 1

def dump (is : List Instruction) : Bytes :=
  let line (i : Instruction) := Text.utf8 " (dvm.Instruction) " ++ i.display
  Text.utf8 ("([]dvm.Instruction) (len=" ++ Numeral.decimal is.length ++ " cap="
      ++ Numeral.decimal is.length.nextPowerOfTwo ++ ") \x7b\n")
    ++ (Text.utf8 ",\n").intercalate (is.map line) ++ Text.utf8 "\n\x7d\n"

variable {m : Type → Type} [Monad m] [Host m]

/-- Turns an error of one kind into a failure of the command. -/
def orFail {ε α : Type} (f : ε → CommandError) (r : Except ε α) : ExceptT CommandError m α :=
  ExceptT.mk (pure (r.mapError f))

def say (channel : Channel) (text : Bytes) : ExceptT CommandError m Unit :=
  ExceptT.lift (Host.write channel text)

def loadConfig (s : Settings) : ExceptT CommandError m Config := do
  if s.config.isEmpty then return s.applyTo {}
  else
    let contents ← orFail .unreadableConfig (← ExceptT.lift (Host.readFile (m := m) s.config))
    let c ← orFail (.badConfig s.config) (Config.load contents)
    return s.applyTo c

def compileOptions (s : Settings) : ExceptT CommandError m CompileOptions := do
  orFail .byteOrder (← loadConfig s).compileOptions

def decodeOptions (s : Settings) : ExceptT CommandError m DecodeOptions := do
  orFail .byteOrder (← loadConfig s).decodeOptions

def logStages (isVerbose : Bool) (source : Bytes) (opts : CompileOptions) :
    ExceptT CommandError m Unit := do
  if isVerbose then
    (stages source opts).forM fun stage => say .err (Text.utf8 (stage.message ++ "\n"))

/-- Compiles a script into a module file, whose path defaults to that of the script with another
extension. -/
def runCompile (isVerbose : Bool) (s : Settings) (arguments : List Bytes) :
    ExceptT CommandError m Unit := do
  let script := arguments[0]?.getD []
  if script.isEmpty then throw .noScript
  let asked := arguments[1]?.getD []
  let target := if asked.isEmpty then Path.withExtension script (Text.utf8 ".dvm") else asked
  let source ← orFail (.unreadableScript script) (← ExceptT.lift (Host.readFile (m := m) script))
  let opts ← compileOptions s
  logStages isVerbose source opts
  let r ← orFail (.badScript source) (compile source opts)
  if s.isDump then say .out (dump r.instructions)
  let full ← ExceptT.lift (absolutePath (m := m) target)
  orFail (.unwritable target) (← ExceptT.lift (writeFileAtomic (m := m) full r.binary))
  say .out (Text.utf8 ("compiled " ++ Numeral.decimal r.instructions.length ++ " instructions, "
    ++ Numeral.decimal r.binary.length ++ " bytes -> ") ++ target ++ Text.utf8 "\n")

def runDisassemble (s : Settings) (arguments : List Bytes) : ExceptT CommandError m Unit := do
  let path := arguments[0]?.getD []
  let blob ← orFail (.unreadableModule path) (← ExceptT.lift (Host.readFile (m := m) path))
  let opts ← decodeOptions s
  let contents ← orFail .badModule (Module.decode blob opts)
  let l ← orFail .badModule (Listing.ofModule contents)
  if s.format = Text.utf8 "table" then say .out (Text.utf8 l.table)
  else if s.format = Text.utf8 "yaml" then say .out (Text.utf8 l.yaml)
  else throw (.unknownFormat s.format)

def runDumpConfig (s : Settings) : ExceptT CommandError m Unit := do
  say .out (Text.utf8 (← loadConfig s).toToml)

/-- The path of the history file. Without a home directory there is none, which is told. -/
def historyPath : ExceptT CommandError m (Option Bytes) := do
  match ← ExceptT.lift (Host.home (m := m)) with
  | some home => return some (Path.join home Repl.historyFile)
  | none =>
    say .err (Text.utf8 "history disabled: $HOME is not defined\n")
    return none

def startSession (isVerbose : Bool) (opts : CompileOptions) (history? : Option Bytes) :
    ExceptT CommandError m Repl.Session := do
  let contents ← match history? with
    | some path => ExceptT.lift (Host.readFile (m := m) path)
    | none => pure (.ok [])
  return { options := opts, isVerbose := isVerbose,
           history := Repl.loadHistory (contents.toOption.getD []) }

def endSession (history? : Option Bytes) (session : Repl.Session) :
    ExceptT CommandError m Unit := do
  if let some path := history? then
    let _ ← ExceptT.lift (Host.writeFile (m := m) path (Repl.historyContents session.history))

/-- Holds a session on an input that is there as a whole. -/
def replay (input : Bytes) (session : Repl.Session) : m Repl.Session := do
  let lines := (Repl.inputLines Repl.bufferSize input).map Repl.InputLine.text
  let (session, output) := session.run lines
  output.forM fun (channel, text) => Host.write channel text
  return session

/-- Runs a REPL, where `converse` holds the session. -/
def runRepl (converse : Repl.Session → m Repl.Session) (isVerbose : Bool) (s : Settings) :
    ExceptT CommandError m Unit := do
  let opts ← compileOptions s
  let history? ← historyPath
  let session ← startSession isVerbose opts history?
  endSession history? (← ExceptT.lift (converse session))

def helpText : String :=
  "Commands:\n"
    ++ "  compile [flags] <script> [<output>]  compile a dialog script\n"
    ++ "  disasm [flags] <module>              disassemble a module\n"
    ++ "  repl [flags]                         compile snippets interactively\n"
    ++ "  dumpconfig [flags]                   show configuration values\n"

/-- Runs a command line, where `converse` holds the session of a REPL. -/
def run (converse : Repl.Session → m Repl.Session) (arguments : List Bytes) :
    ExceptT CommandError m Unit := do
  match ← orFail .usage (parse arguments) with
  | .help => say .out (Text.utf8 helpText)
  | .run isVerbose .compile s rest => runCompile isVerbose s rest
  | .run _ .disassemble s rest => runDisassemble s rest
  | .run isVerbose .repl s _ => runRepl converse isVerbose s
  | .run _ .dumpConfig s _ => runDumpConfig s

end Dialogue.Command
