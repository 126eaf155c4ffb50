import CredentialGate.Http.Exchange
import CredentialGate.Http.Wire
import Std.Async.DNS
import Std.Async.TCP

/-! Requests and replies over connections of the system. There is no encryption: a request to an
encrypted server is lost. -/
namespace CredentialGate.Program

open Std.Async Std.Net

def socketAddress (ip : IPAddr) (port : UInt16) : SocketAddress :=
  match ip with
  | .v4 addr => .v4 ⟨addr, port⟩
  | .v6 addr => .v6 ⟨addr, port⟩

/-- The address of a host by its numbers or by its name. Numbers may stand in brackets. -/
def resolve (host : String) : IO (Option IPAddr) := do
  let bare := String.ofList (host.toList.filter fun c => c ≠ '[' ∧ c ≠ ']')
  match IPv4Addr.ofString bare, IPv6Addr.ofString bare with
  | some addr, _ => return some (.v4 addr)
  | none, some addr => return some (.v6 addr)
  | none, none => return (← (DNS.getAddrInfo bare "").block)[0]?

/-- What comes over a connection until it ends or enough has come. -/
partial def receive (client : TCP.Socket.Client) (isEnough : List UInt8 → Bool)
    (done : ByteArray) : IO (List UInt8) := do
  let bytes := done.data.toList
  if isEnough bytes then return bytes
  match ← (client.recv? 65536).block with
  | some more => receive client isEnough (done ++ more)
  | none => return bytes

/-- The response to a request, or none if the request is lost. -/
def fetch (r : Http.Request) : IO (Option Http.Response) := do
  try
    let some host := r.url.host? | return none
    let some port := r.url.port? | return none
    if r.url.scheme ≠ "http" then return none
    let some ip ← resolve host | return none
    let client ← TCP.Socket.Client.mk
    (client.connect (socketAddress ip port.toUInt16)).block
    (client.send ⟨r.write.toArray⟩).block
    let bytes ← receive client (fun _ => false) .empty
    return Http.Response.read? bytes
  catch _ => return none

/-- A network of which the first answers are known. The first request beyond them is noted and
gets no answer. -/
structure Replay where
  known : List (Option Http.Response)
  asked? : Option Http.Request

def replay : Http.Network Replay where
  send r s :=
    match s.known with
    | answer :: more => (answer, { s with known := more })
    | [] => (none, { s with asked? := s.asked?.or (some r) })

/-- The result of a computation over the network of the system: it is repeated with one more
answer until it asks for nothing that is not known. -/
partial def overNetwork (compute : Replay → α × Replay) (known : List (Option Http.Response)) :
    IO α := do
  match compute ⟨known, none⟩ with
  | (_, ⟨_, some request⟩) => overNetwork compute (known ++ [← fetch request])
  | (result, ⟨_, none⟩) => return result

/-- A socket that takes connections; none if the address cannot be had. -/
def listenAt (bind : String) (port : UInt16) : IO (Option TCP.Socket.Server) := do
  try
    let some ip ← resolve bind | return none
    let server ← TCP.Socket.Server.mk
    server.bind (socketAddress ip port)
    server.listen 128
    return some server
  catch _ => return none

/-- Answers one connection after the other. One that breaks off gets no answer. -/
partial def answerAll (server : TCP.Socket.Server)
    (answer : Webhook.Request → IO Webhook.Reply) : IO Unit := do
  let client ← server.accept.block
  try
    let bytes ← receive client (fun bytes => (Webhook.Request.read? bytes).isSome) .empty
    if let some request := Webhook.Request.read? bytes then
      (client.send ⟨(← answer request).write.toArray⟩).block
      client.shutdown.block
  catch _ => pure ()
  answerAll server answer

end CredentialGate.Program
