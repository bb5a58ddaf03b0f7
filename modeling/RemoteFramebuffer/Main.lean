/-
# `RemoteFramebuffer.Main` — the program on the command line

Reads the command line and the settings file and says what they come to.
-/
import RemoteFramebuffer.CommandLine

namespace RemoteFramebuffer

def usage : String :=
  "Usage: vncproxy [OPTIONS] <COMMAND>\n\nCommands:\n"
    ++ "  proxy   Accept viewers and bridge each one to the target server\n"
    ++ "  record  Record the target server's framebuffer to an RBS file\n"
    ++ "  play    Serve an RBS recording to every viewer that connects\n"
    ++ "  help    Print this message or the help of the given subcommand(s)\n"

def version : String := "vncproxy 0.1.0"

/-- What a refused command line is answered with, and the status that goes with it. -/
def explain : CommandLine.Refusal → String × UInt32
  | .displayHelp => (usage, 0)
  | .displayVersion => (version, 0)
  | .displayHelpOnMissingArgumentOrSubcommand => (usage, 2)
  | .missingRequiredArgument => ("error: a required argument was not provided", 2)
  | .missingSubcommand => ("error: a subcommand is required", 2)
  | .invalidSubcommand => ("error: unrecognized subcommand", 2)
  | .unknownArgument => ("error: unexpected argument", 2)
  | .argumentConflict => ("error: an argument cannot be used multiple times", 2)
  | .invalidValue => ("error: a value is required", 2)
  | .tooManyValues => ("error: unexpected value", 2)

def describe (s : Settings) : Command → Except String String
  | .proxy listen proxyPassword target => do
    let s ← (s.choose target).mapError Address.Error.message
    let s := { s with
      listen := listen.getD s.listen
      proxyPassword := proxyPassword.orElse fun _ => s.proxyPassword }
    let options ← s.proxy.mapError Settings.Error.message
    return s!"Proxying {s.listen} to {options.target.address}"
  | .record output target => do
    let s ← (s.choose target).mapError Address.Error.message
    let s := { s with recordingDirectory := output.getD s.recordingDirectory }
    s.target.validate.mapError SessionError.message
    return s!"Recording {s.target.address} to {s.recordingPath}"
  | .play file listen => return s!"Serving {file} on {listen.getD s.listen}"

end RemoteFramebuffer

open RemoteFramebuffer in
def main (words : List String) : IO UInt32 := do
  match CommandLine.parse words with
  | .error refusal =>
    let (text, status) := explain refusal
    if status = 0 then IO.println text else IO.eprintln text
    return status
  | .ok line =>
    let settings ← match line.config with
      | none => pure (some {})
      | some path => return ← report line.command (Settings.parse (← IO.FS.readFile path))
    report line.command settings
where
  report (command : Command) : Option Settings → IO UInt32
    | none => do
      IO.eprintln "Error: Failed to parse config file"
      return 1
    | some settings =>
      match describe settings command with
      | .ok text => do
        IO.println text
        return 0
      | .error text => do
        IO.eprintln ("Error: " ++ text)
        return 1
