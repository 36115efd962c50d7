import StatusList.Command.Report
import StatusList.Lookup.Wire
import Std.Async.DNS
import Std.Async.TCP
import Std.Async.Timer

/-!
# The program

The outermost layer: arguments, the environment, files and the network come in,
a report goes out.
-/

namespace StatusList.Main

open Std.Async Std.Net

/-! ## The network -/

/-- The addresses of a host. -/
def addressesOf : Url.Host → Async (Array IPAddr)
  | .ipv4 n =>
    let byte := fun i => (n >>> (8 * i)).toUInt8
    return #[.v4 (.ofParts (byte 3) (byte 2) (byte 1) (byte 0))]
  | .domain name => DNS.getAddrInfo (.ofList name) "http" (some .ipv4)
  | host =>
    match IPv6Addr.ofString (host.text.drop 1 |>.dropEnd 1).toString with
    | some address => return #[.v6 address]
    | none => return #[]

/-- An address with a port. -/
def socketAt (address : IPAddr) (port : UInt16) : SocketAddress :=
  match address with
  | .v4 address => .v4 ⟨address, port⟩
  | .v6 address => .v6 ⟨address, port⟩

/-- Everything that comes until the other side is done. The wait for more ends
    after some milliseconds. -/
partial def receiveAll (limit : Nat) (socket : TCP.Socket.Client) (received : ByteArray) :
    Async ByteArray := do
  let more ← Selectable.one #[
    .case (socket.recvSelector 65536) pure,
    .case (← Selector.sleep (.ofNat limit)) fun _ => throw (.userError "timeout")]
  match more with
  | some bytes => receiveAll limit socket (received ++ bytes)
  | none => return received

/-- Send a request for a URL, and wait for the reply. -/
def exchange (limit : Nat) (url : Url) : Async ByteArray := do
  let some address := (← addressesOf (Wire.hostOf url))[0]?
    | throw (.userError "the host has no address")
  let socket ← TCP.Socket.Client.mk
  socket.connect (socketAt address (Wire.portOf url).toUInt16)
  socket.send (Wire.requestTo url).toUTF8
  receiveAll limit socket .empty

/-- Fetch a URL, and give up when nothing comes for some seconds. -/
def fetch (timeout : Nat) (url : Url) : IO (Except FetchError ByteArray) := do
  if url.scheme ≠ "http" then return .error (.unreachable url "only plain HTTP is spoken")
  match ← (exchange (timeout * 1000) url).block.toBaseIO with
  | .ok reply => return Wire.readReply url reply
  | .error cause => return .error (.unreachable url (toString cause))

/-! ## Everything else -/

/-- The texts of the environment that settings are made from. -/
def readEnvironment : IO Environment := do
  let texts ← Settings.names.mapM fun name => return (name, ← IO.getEnv name)
  return fun name => (texts.lookup name).join

/-- The fault of a code of the operating system. -/
def faultOfCode (code : UInt32) (cause : IO.Error) : FileFault :=
  match code with
  | 2 => .missing
  | 13 => .denied
  | 20 => .notDirectory
  | 21 => .isDirectory
  | 36 => .nameTooLong
  | _ => .other (toString cause)

/-- Why a file cannot be read. -/
def fileFault (cause : IO.Error) : FileFault :=
  match cause with
  | .noFileOrDirectory _ code _ => faultOfCode code cause
  | .permissionDenied _ code _ => faultOfCode code cause
  | .inappropriateType _ code _ => faultOfCode code cause
  | .invalidArgument _ code _ => faultOfCode code cause
  | _ => .other (toString cause)

/-- The file that is needed, if one is. -/
def readFiles (path : Option String) : IO Files := do
  match path with
  | none => return fun _ => .error .missing
  | some path =>
    let content ← (IO.FS.readBinFile path).toBaseIO
    return fun _ => content.mapError fileFault

/-- The file that arguments name. -/
def fileOf? (arguments : List String) : Option String :=
  match Invocation.ofArguments arguments with
  | .ok (.command command) => command.file?
  | _ => none

end StatusList.Main

open StatusList in
/-- Report on the arguments. -/
def main (arguments : List String) : IO UInt32 := do
  let env ← Main.readEnvironment
  let files ← Main.readFiles (Main.fileOf? arguments)
  let timeout := ((Settings.ofEnvironment env).toOption.map Settings.timeout).getD 30
  let report ← (runArguments env files arguments).runWith (Main.fetch timeout)
  IO.print report.output
  if let some complaint := report.complaint then IO.eprintln complaint
  return report.exit.toUInt32
