/-
# `RemoteFramebuffer.CommandLine.Scan` — words of a command line

A command takes options, each with a short or long name or both, and perhaps one word
that is no option.  An option that takes a value has it attached or in the next word.
Its value is checked only when the next option comes or the line ends, so of two faults
the later one may be found first.  After two dashes nothing is an option.
-/

namespace RemoteFramebuffer
namespace CommandLine

/-- What is wrong with a command line, or what was asked for instead of a command. -/
inductive Refusal
  | missingRequiredArgument
  | missingSubcommand
  | invalidSubcommand
  | unknownArgument
  | argumentConflict
  | invalidValue
  | tooManyValues
  | displayHelp
  | displayHelpOnMissingArgumentOrSubcommand
  | displayVersion
deriving DecidableEq, Repr

inductive Effect
  /-- Takes a value. -/
  | text
  /-- Takes the name of a file, which is not empty. -/
  | path
  | count
  | help
  | version
deriving DecidableEq, Repr

structure Flag where
  name : String
  short : Option Char
  effect : Effect
deriving DecidableEq, Repr

structure Grammar where
  flags : List Flag
  /-- The word that is no option. -/
  operand : Option Flag
  subcommands : List String

structure Draft where
  /-- Values by name. -/
  values : List (String × String)
  /-- How often the counted option was given. -/
  count : Nat
  /-- An option whose value is not checked yet, and the value if it was seen. -/
  pending : Option (Flag × Option String)
  /-- Whether the next word is a value whatever it is. -/
  isExpecting : Bool
  /-- Whether two dashes were seen. -/
  isTrailing : Bool
  hasOperand : Bool

namespace Draft

def empty : Draft := ⟨[], 0, none, false, false, false⟩

def maxCount : Nat := 255

def store (d : Draft) (flag : Flag) (value : String) : Except Refusal Draft :=
  if (d.values.lookup flag.name).isSome then .error .argumentConflict
  else if flag.effect = .path ∧ value.isEmpty then .error .invalidValue
  else .ok { d with values := d.values ++ [(flag.name, value)] }

/-- Checks the value that is pending, if there is one. -/
def settle (d : Draft) : Except Refusal Draft :=
  match d.pending with
  | none => .ok d
  | some (_, none) => .error .invalidValue
  | some (flag, some value) => { d with pending := none }.store flag value

def flag (d : Draft) (f : Flag) (attached : Option String) : Except Refusal Draft := do
  let d ← d.settle
  match f.effect, attached with
  | .count, _ => return { d with count := min (d.count + 1) maxCount, isExpecting := false }
  | .help, _ => throw .displayHelp
  | .version, _ => throw .displayVersion
  | _, some value => return { (← d.store f value) with isExpecting := false }
  | _, none => return { d with pending := some (f, none), isExpecting := true }

def takesValue (f : Flag) : Bool := f.effect = .text || f.effect = .path

def long (d : Draft) (g : Grammar) (word : List Char) : Except Refusal Draft :=
  let name := String.ofList (word.takeWhile (· != '='))
  let attached := match word.dropWhile (· != '=') with
    | [] => none
    | _ :: value => some (String.ofList value)
  match g.flags.find? (·.name == name) with
  | none => .error .unknownArgument
  | some f => if !takesValue f && attached.isSome then .error .tooManyValues else d.flag f attached

/-- Short options without their dash; what follows one that takes a value is its value. -/
def shorts (d : Draft) (g : Grammar) : List Char → Except Refusal Draft
  | [] => .ok d
  | c :: rest =>
    match g.flags.find? (·.short == some c) with
    | none => .error .unknownArgument
    | some f =>
      if takesValue f then
        d.flag f (match rest with
          | [] => none
          | '=' :: value => some (String.ofList value)
          | value => some (String.ofList value))
      else (d.flag f none).bind fun d => d.shorts g rest

def word (d : Draft) (g : Grammar) (s : String) : Except Refusal Draft :=
  match g.operand with
  | some f =>
    if d.hasOperand then .error .unknownArgument
    else d.settle.map fun d => { d with pending := some (f, some s), hasOperand := true }
  | none =>
    if g.subcommands.isEmpty || (d.isTrailing && g.subcommands.contains s) then .error .unknownArgument
    else .error .invalidSubcommand

def next (d : Draft) (g : Grammar) (s : String) : Except Refusal Draft :=
  if d.isTrailing then d.word g s
  else match s.toList with
    | ['-', '-'] => .ok { d with isTrailing := true, isExpecting := false }
    | '-' :: '-' :: name => d.long g name
    | '-' :: c :: names => d.shorts g (c :: names)
    | _ =>
      if d.isExpecting then
        .ok { d with pending := d.pending.map fun (f, _) => (f, some s), isExpecting := false }
      else d.word g s

/-- The words up to a subcommand, that subcommand, and the words behind it. -/
def scan (g : Grammar) : Draft → List String → Except Refusal (Draft × Option (String × List String))
  | d, [] => .ok (d, none)
  | d, s :: words =>
    if !d.isTrailing && !d.isExpecting && g.subcommands.contains s then .ok (d, some (s, words))
    else (d.next g s).bind fun d => scan g d words

end Draft
end CommandLine
end RemoteFramebuffer
