/-
# `RemoteFramebuffer.Recording.Header` — what a recording says before its first frame

A recording opens with its own mark, the protocol version, a security type, and the
desktop as a server would describe it.
-/
import RemoteFramebuffer.Session.State

namespace RemoteFramebuffer

structure RecordingHeader where
  version : Version
  securityType : Int32
  desktop : Desktop
deriving DecidableEq, Repr

namespace RecordingHeader

def magic : Bytes := Bytes.ofString "RBS 001.001\n"

/-- The header of a recording of a desktop; its security type is always that of none. -/
def make (version : Version) (desktop : Desktop) : RecordingHeader := ⟨version, 1, desktop⟩

/-- The header of a recording of a live session. -/
def ofState (s : SessionState) : RecordingHeader := make s.version s.desktop

def encode (h : RecordingHeader) : Bytes :=
  magic ++ h.version.bytes ++ Bytes.ofInt32 h.securityType ++ h.desktop.encode

def read : Reader SessionError RecordingHeader := do
  let found ← (Reader.bytes magic.length).mapError .transport
  if found ≠ magic then Reader.fail (.recording (.magic found))
  else
    let raw ← (Reader.bytes Version.size).mapError .transport
    match Version.parse raw with
    | .error cause => Reader.fail (.protocol cause)
    | .ok version =>
      let securityType ← Reader.i32.mapError .transport
      let desktop ← Desktop.read.mapError .transport
      return { version, securityType, desktop }

end RecordingHeader

end RemoteFramebuffer
