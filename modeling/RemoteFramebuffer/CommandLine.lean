/-
# `RemoteFramebuffer.CommandLine` — what the program is asked to do

The program proxies, records, or plays a recording.  Two options may stand before or
behind the name of the command; one given behind it wins over the same one before it.
-/
import RemoteFramebuffer.CommandLine.Scan
import RemoteFramebuffer.Config.Settings

namespace RemoteFramebuffer

inductive Command
  | proxy (listen proxyPassword : Option String) (target : TargetChoice)
  | record (output : Option String) (target : TargetChoice)
  | play (file : String) (listen : Option String)
deriving DecidableEq, Repr

structure CommandLine where
  config : Option String
  verbose : Nat
  command : Command
deriving DecidableEq, Repr

namespace CommandLine

/-! ## Grammar -/

def configFlag : Flag := ⟨"config", some 'c', .path⟩
def verboseFlag : Flag := ⟨"verbose", some 'v', .count⟩
def helpFlag : Flag := ⟨"help", some 'h', .help⟩
def listenFlag : Flag := ⟨"listen", some 'l', .text⟩

def commonFlags : List Flag := [configFlag, verboseFlag, helpFlag]

def targetFlags : List Flag := [⟨"target", some 't', .text⟩, ⟨"password", some 'P', .text⟩]

def helpCommand : String := "help"

def root : Grammar :=
  { flags := commonFlags ++ [⟨"version", some 'V', .version⟩]
    operand := none
    subcommands := ["proxy", "record", "play", helpCommand] }

def proxyGrammar : Grammar :=
  ⟨commonFlags ++ [listenFlag, ⟨"proxy-password", none, .text⟩] ++ targetFlags, none, []⟩

def recordGrammar : Grammar :=
  ⟨commonFlags ++ [⟨"output", some 'o', .path⟩] ++ targetFlags, none, []⟩

def playGrammar : Grammar :=
  ⟨commonFlags ++ [listenFlag], some ⟨"file", none, .path⟩, []⟩

/-! ## Reading -/

/-- All words of a command, each of which was checked. -/
def complete (g : Grammar) (words : List String) : Except Refusal Draft := do
  let (d, _) ← Draft.scan g Draft.empty words
  d.settle

def targetChoice (d : Draft) : TargetChoice := ⟨d.values.lookup "target", d.values.lookup "password"⟩

def readCommand (name : String) (words : List String) : Except Refusal (Command × Draft) :=
  if name = "proxy" then do
    let d ← complete proxyGrammar words
    let listen := d.values.lookup "listen"
    return (.proxy listen (d.values.lookup "proxy-password") (targetChoice d), d)
  else if name = "record" then do
    let d ← complete recordGrammar words
    return (.record (d.values.lookup "output") (targetChoice d), d)
  else if name = "play" then do
    let d ← complete playGrammar words
    match d.values.lookup "file" with
    | none => throw .missingRequiredArgument
    | some file => return (.play file (d.values.lookup "listen"), d)
  else
    throw (match words with
      | [] => .displayHelp
      | [name] => if root.subcommands.contains name then .displayHelp else .invalidSubcommand
      | _ => .invalidSubcommand)

def withoutCommand (d : Draft) : Refusal :=
  if d.values.isEmpty && d.count = 0 then .displayHelpOnMissingArgumentOrSubcommand
  else .missingSubcommand

/-- Reads the words behind the program's name. -/
def parse (words : List String) : Except Refusal CommandLine := do
  let (d, found) ← Draft.scan root Draft.empty words
  match found with
  | none => throw (withoutCommand (← d.settle))
  | some (name, words) =>
    let (command, inner) ← readCommand name words
    let outer ← d.settle
    let config := (inner.values.lookup "config").orElse fun _ => outer.values.lookup "config"
    return { config, command, verbose := if inner.count = 0 then outer.count else inner.count }

end CommandLine

end RemoteFramebuffer
