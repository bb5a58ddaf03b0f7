/-
# `RemoteFramebuffer.Config.Settings` — everything that a proxy can be told

Settings say where viewers connect, which server is meant, how viewers prove themselves,
and what passes.  Each has a standard value, so an empty file is complete; a server that
is named at all must have a host.
-/
import RemoteFramebuffer.Config.Address
import RemoteFramebuffer.Config.Toml
import RemoteFramebuffer.Session.Router

namespace RemoteFramebuffer

open Config

namespace Target

def settingNames : List String := ["network", "host", "port", "password", "timeout_ms"]

/-- A target by its settings; only the host has to be there. -/
def ofValue? (v : Value) : Option Target := do
  let g ← Group.ofValue? settingNames v
  let standard : Target := {}
  return {
    network := ← g.orElse "network" Value.text? standard.network
    host := ← g.required "host" Value.text?
    port := ← g.orElse "port" Value.u16? standard.port
    password := ← g.optional "password" Value.text?
    timeoutMs := ← g.orElse "timeout_ms" Value.u64? standard.timeoutMs }

/-- A target by a message that holds no more than its settings. -/
def ofMessage? (v : Value) : Option Target :=
  if settingNames.length < v.size then none else ofValue? v

/-- The settings of a target; a password that it does not have is left out. -/
def toGroup (t : Target) : Group :=
  [("network", .text t.network), ("host", .text t.host), ("port", .number t.port.toNat)]
    ++ (t.password.map fun p => ("password", .text p)).toList
    ++ [("timeout_ms", .number t.timeoutMs.toNat)]

end Target

structure Credentials where
  username : String
  password : String
deriving DecidableEq, Repr

namespace Credentials

def ofValue? (v : Value) : Option Credentials := do
  let g ← Group.ofValue? ["username", "password"] v
  return ⟨← g.required "username" Value.text?, ← g.required "password" Value.text?⟩

end Credentials

namespace Desktop

/-- A desktop by its settings; its pixels are always plain 32-bit ones. -/
def ofValue? (v : Value) : Option Desktop := do
  let g ← Group.ofValue? ["name", "width", "height"] v
  return {
    standard with
    name := ← g.orElse "name" Value.text? standard.name
    width := ← g.orElse "width" Value.u16? standard.width
    height := ← g.orElse "height" Value.u16? standard.height }

end Desktop

structure TargetChoice where
  address : Option String
  password : Option String
deriving DecidableEq, Repr

structure Settings where
  /-- Where viewers connect. -/
  listen : String := "0.0.0.0:5900"
  target : Target := { host := "localhost", port := 5901 }
  /-- The password that viewers may prove themselves with. -/
  proxyPassword : Option String := none
  /-- The credentials that viewers may prove themselves with. -/
  vencrypt : Option Credentials := none
  /-- The desktop that viewers see while there is no server. -/
  desktop : Desktop := Desktop.standard
  filter : Filter := ⟨[], []⟩
  recordingDirectory : String := "recordings"
  /-- Encodings on top of the standard ones, by their numbers. -/
  extraEncodings : List Int32 := []
deriving DecidableEq

namespace Settings

inductive Error
  | unknownEncoding (value : Int32)
  | session (cause : SessionError)
deriving DecidableEq, Repr

def Error.message : Error → String
  | .unknownEncoding value => s!"Unknown encoding {value} in extra_encodings"
  | .session cause => cause.message

def ofValue? (v : Value) : Option Settings := do
  let g ← Group.ofValue? [] v
  let standard : Settings := {}
  return {
    listen := ← g.orElse "listen" Value.text? standard.listen
    target := ← g.orElse "target" Target.ofValue? standard.target
    proxyPassword := ← g.optional "proxy_password" Value.text?
    vencrypt := ← g.optional "vencrypt" Credentials.ofValue?
    desktop := ← g.orElse "desktop" Desktop.ofValue? standard.desktop
    filter := {
      blockedClient := ← g.orElse "blocked_client_messages" (Value.list? Value.u8?) []
      blockedServer := ← g.orElse "blocked_server_messages" (Value.list? Value.u8?) [] }
    recordingDirectory := ← g.orElse "recording_dir" Value.text? standard.recordingDirectory
    extraEncodings := ← g.orElse "extra_encodings" (Value.list? Value.i32?) [] }

def parse (text : String) : Option Settings := (Toml.parse text).bind ofValue?

def choose (s : Settings) (choice : TargetChoice) : Except Address.Error Settings := do
  let s ← match choice.address with
    | none => pure s
    | some text =>
      let a ← Address.parse text
      pure { s with target.host := a.host, target.port := a.port }
  match choice.password with
  | none => return s
  | some password => return { s with target.password := some password }

/-- How viewers may prove themselves: not at all, or by whatever is set. -/
def viewerSecurity (s : Settings) : List SecurityHandler :=
  [.none]
    ++ (s.proxyPassword.map fun p => .vncAuth (Bytes.ofString p)).toList
    ++ (s.vencrypt.map fun c =>
      .vencryptPlain (Bytes.ofString c.username) (Bytes.ofString c.password)).toList

/-- The standard encodings and the extra ones. -/
def encodings (s : Settings) : Except Error EncodingSet :=
  s.extraEncodings.foldlM (fun set value =>
    match Encoding.ofWire? value with
    | some encoding => .ok (set.insert encoding)
    | none => .error (.unknownEncoding value)) EncodingSet.standard

def front (s : Settings) : Except Error SessionOptions := do
  let options :=
    { SessionOptions.standard with
      security := s.viewerSecurity
      encodings := ← s.encodings
      desktop := s.desktop }
  options.validate.mapError .session
  return options

def proxy (s : Settings) : Except Error ProxyOptions := do
  let options := ProxyOptions.standard s.target
  let options :=
    { options with
      front := ← s.front
      back := { options.back with encodings := ← s.encodings }
      filter := s.filter }
  options.validate.mapError .session
  return options

/-- A character of a host as it stands in the name of a file. -/
def fileCharacter (c : Char) : Char :=
  if c.isAlphanum || c == '.' || c == '-' then c else '_'

def recordingName (s : Settings) : String :=
  s.target.host.map fileCharacter ++ s!"_{s.target.port}.rbs"

/-- A recording of the target in its directory. -/
def recordingPath (s : Settings) : String :=
  let directory := s.recordingDirectory
  if directory.isEmpty || directory.endsWith "/" then directory ++ s.recordingName
  else directory ++ "/" ++ s.recordingName

end Settings

end RemoteFramebuffer
