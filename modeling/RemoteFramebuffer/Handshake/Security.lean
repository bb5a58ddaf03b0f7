/-
# `RemoteFramebuffer.Handshake.Security` — agreeing on a security type and proving it

From 3.7 on the acceptor lists its types and the initiator takes the first of its own
that is listed; under 3.3 the acceptor dictates its highest type.  Authentication
follows, and then, unless there was none to do before 3.8, a result word.
-/
import RemoteFramebuffer.Handshake.Exchange
import RemoteFramebuffer.Handshake.Version
import RemoteFramebuffer.Message.Field

namespace RemoteFramebuffer
namespace Handshake

variable [BlockCipher]

/-! ## Authentication -/

def answerChallenge (password : Bytes) : Exchange Unit :=
  if password.isEmpty then Exchange.fail (.security .noPassword)
  else do
    let challenge ← Exchange.read (Reader.bytes Challenge.size)
    Exchange.write (Challenge.response password challenge)

def poseChallenge (password : Bytes) : Exchange Bool := do
  let challenge ← Exchange.challenge
  Exchange.write challenge
  let response ← Exchange.read (Reader.bytes Challenge.size)
  return response = Challenge.response password challenge

/-- The version of VeNCrypt, major and minor. -/
def vencryptVersion : Bytes := [0, 2]

/-- What the initiator says once it may: the sub-type and the credentials. -/
def plainCredentials (username password : Bytes) : Bytes :=
  Bytes.ofUInt32 SecurityHandler.plainSubType ++ Bytes.ofNat 4 username.length
    ++ Bytes.ofNat 4 password.length ++ username ++ password

/-- The initiator's half of the sub-type with a plain user name and password. -/
def presentPlain (username password : Bytes) : Exchange Unit := do
  let verdict ← Exchange.read Reader.u8
  if verdict ≠ 0 then Exchange.fail (.security .versionRejected)
  else
    let count ← Exchange.read Reader.u8
    let offered ← Exchange.read (Reader.values Reader.u32 count.toNat)
    if SecurityHandler.plainSubType ∉ offered then
      Exchange.fail (.security (.noPlain offered))
    else
      Exchange.write (plainCredentials username password)

/-- The initiator's half of VeNCrypt. -/
def presentCredentials (username password : Bytes) : Exchange Unit := do
  let major ← Exchange.read Reader.u8
  let minor ← Exchange.read Reader.u8
  if [major, minor] ≠ vencryptVersion then
    Exchange.fail (.security (.serverVersion major minor))
  else
    Exchange.write vencryptVersion
    presentPlain username password

/-- The acceptor's half of the sub-type with a plain user name and password. -/
def checkPlain (username password : Bytes) : Exchange Bool := do
  let subType ← Exchange.read Reader.u32
  if subType ≠ SecurityHandler.plainSubType then
    Exchange.fail (.security (.clientSubType subType))
  else
    let usernameLength ← Exchange.read Reader.u32
    let passwordLength ← Exchange.read Reader.u32
    let givenUsername ← Exchange.read (Reader.vecLimited usernameLength.toNat maxStringLength)
    let givenPassword ← Exchange.read (Reader.vecLimited passwordLength.toNat maxStringLength)
    return givenUsername = username && givenPassword = password

/-- The acceptor's half of VeNCrypt. -/
def checkCredentials (username password : Bytes) : Exchange Bool := do
  Exchange.write vencryptVersion
  let major ← Exchange.read Reader.u8
  let minor ← Exchange.read Reader.u8
  if [major, minor] ≠ vencryptVersion then
    Exchange.write [1]
    Exchange.fail (.security (.clientVersion major minor))
  else
    Exchange.write ([0, 1] ++ Bytes.ofUInt32 SecurityHandler.plainSubType)
    checkPlain username password

def authenticateClient : SecurityHandler → Exchange Unit
  | .none => pure ()
  | .vncAuth password => answerChallenge password
  | .vencryptPlain username password => presentCredentials username password

/-- The acceptor's half of authentication: whether the peer's credentials are right. -/
def authenticateServer : SecurityHandler → Exchange Bool
  | .none => pure true
  | .vncAuth password => poseChallenge password
  | .vencryptPlain username password => checkCredentials username password

/-! ## Initiator -/

/-- Takes the first handler whose type the acceptor lists. -/
def chooseListed (handlers : List SecurityHandler) : Exchange SecurityHandler := do
  let count ← Exchange.read Reader.u8
  if count = 0 then
    let reason ← Exchange.read Name.read
    Exchange.fail (.refused reason)
  else
    let offered ← Exchange.read (Reader.vec count.toNat)
    match handlers.find? (·.code ∈ offered) with
    | none => Exchange.fail (.noCommonSecurityType offered)
    | some handler =>
      Exchange.write [handler.code]
      return handler

/-- Takes the first handler of the type that the acceptor dictates. -/
def acceptDictated (handlers : List SecurityHandler) : Exchange SecurityHandler := do
  let code ← Exchange.read Reader.u32
  if code = 0 then
    let reason ← Exchange.read Name.read
    Exchange.fail (.refused reason)
  else if 256 ≤ code then Exchange.fail (.security (.chosenType code))
  else
    let code := code.toUInt8
    match handlers.find? (·.code = code) with
    | none => Exchange.fail (.unsupportedSecurityType code)
    | some handler => return handler

/-- Reads the result word; any but 0 is a failure, which 3.8 explains. -/
def readSecurityResult (version : Version) : Exchange Unit := do
  let code ← Exchange.read Reader.u32
  if code = 0 then return ()
  else if version.sendsFailureReason then
    let reason ← Exchange.read Name.read
    Exchange.fail (.authFailed (.byServer reason))
  else Exchange.fail (.authFailed (.byResult code))

def clientSecurity (version : Version) (handlers : List SecurityHandler) :
    Exchange SecurityHandler := do
  let handler ←
    if version.usesSecurityList then chooseListed handlers else acceptDictated handlers
  authenticateClient handler
  if version.expectsSecurityResult handler then readSecurityResult version
  return handler

/-! ## Acceptor -/

/-- The last of the handlers with the highest type. -/
def highest : (first : SecurityHandler) → List SecurityHandler → SecurityHandler
  | best, [] => best
  | best, handler :: handlers => highest (if best.code ≤ handler.code then handler else best) handlers

/-- Lists the types and takes the first handler of the one that the initiator names. -/
def offerList (handlers : List SecurityHandler) : Exchange SecurityHandler := do
  Exchange.write (Bytes.ofNat 1 handlers.length ++ handlers.map (·.code))
  let code ← Exchange.read Reader.u8
  match handlers.find? (·.code = code) with
  | none => Exchange.fail (.unsupportedSecurityType code)
  | some handler => return handler

/-- Names the type that the initiator has to use. -/
def dictate (handler : SecurityHandler) : Exchange SecurityHandler := do
  Exchange.write (Bytes.ofNat 4 handler.code.toNat)
  return handler

/-- The result word, and under 3.8 the reason of a failure. -/
def encodeSecurityResult (version : Version) (accepted : Bool) : Bytes :=
  if accepted then Bytes.ofUInt32 0
  else if version.sendsFailureReason then
    Bytes.ofUInt32 1 ++ Name.encode "authentication failed"
  else Bytes.ofUInt32 1

def serverSecurity (version : Version) : List SecurityHandler → Exchange SecurityHandler
  | [] => Exchange.fail (.security .noHandlers)
  | first :: others => do
    let handler ←
      if version.usesSecurityList then offerList (first :: others) else dictate (highest first others)
    let accepted ← authenticateServer handler
    if version.expectsSecurityResult handler then
      Exchange.write (encodeSecurityResult version accepted)
    if accepted then return handler
    else Exchange.fail (.authFailed (.ofClient handler))

/-- Turns the initiator away, with a reason, in place of the acceptor's security step. -/
def serverRefuse (version : Version) (reason : String) : Exchange Unit :=
  Exchange.write (Bytes.ofNat (if version.usesSecurityList then 1 else 4) 0 ++ Name.encode reason)

end Handshake
end RemoteFramebuffer
