import Dusty.AcceptKey
import Dusty.Client

/-! # The client's WebSocket connections

`Client.connectWebSocket`: the connection may come out of the pool, and never goes back to it. -/

namespace Dusty

open Act

/-- `WebSocketUpgradeOptions`. -/
structure WebSocketUpgradeOptions where
  headers : Option Headers := none
  unixSocketPath : Option Bytes := none

/-- The headers of the upgrade request that the user cannot set. -/
def upgradeHeaders : List Bytes :=
  [ascii "Host", ascii "Upgrade", ascii "Connection", ascii "Sec-WebSocket-Key",
    ascii "Sec-WebSocket-Version"]

namespace WriteRequestOptions

/-- The loop over the user's headers. -/
def writeUserHeaders : List HeaderEntry → Act Conn Unit
  | [] => pure ()
  | entry :: rest =>
      if isNamed upgradeHeaders entry.key then writeUserHeaders rest
      else do
        validateHeaderName entry.key
        validateHeaderValue entry.value
        writeField entry.key entry.value
        writeUserHeaders rest

/-- The upgrade request. -/
def writeUpgrade (opts : WriteRequestOptions) (key : Bytes) : Act Conn Unit := do
  Conn.writeAll .head opts.requestLine
  writeField (ascii "Host") opts.hostValue
  Conn.writeAll .head (ascii "Upgrade: websocket" ++ crlf)
  Conn.writeAll .head (ascii "Connection: Upgrade" ++ crlf)
  writeField (ascii "Sec-WebSocket-Key") key
  Conn.writeAll .head (ascii "Sec-WebSocket-Version: 13" ++ crlf)
  writeUserHeaders (opts.headers.elim [] (·.entries))
  Conn.writeAll .head crlf

end WriteRequestOptions

namespace Client

variable {L : Llhttp}

open ClientConnection

/-- The server has agreed to the upgrade. -/
def agrees (conn : ClientConnection L) (key : Bytes) : Bool :=
  conn.parsedResponse.status == .switchingProtocols &&
    conn.parsedResponse.headers.get (ascii "Sec-WebSocket-Accept") == some (computeAcceptKey key)

/-- The exchange of `connectWebSocket` on its connection. -/
def upgrade (opts : WriteRequestOptions) (key : Bytes) : Act (ClientConnection L) Unit := do
  onWriter (opts.writeUpgrade key)
  onWriter Conn.flush
  match ← Act.attempt (onInbound Inbound.parseResponseHeaders) with
  | .ok () => do
      let self ← get
      if agrees self key then pure () else Act.fail .webSocketUpgradeFailed
  | .error e => do
      let self ← get
      Act.fail (if e = .readFailed then self.readError else e)

/-- `validateHeaderValue` of the host. -/
def validateHost (host : Bytes) : Act (Client L) Unit :=
  if validHeaderValue host then pure () else Act.fail .invalidHeaderValue

/-- What becomes of the connection after the exchange: on an error it is closed. -/
def afterUpgrade : Except Error Unit × ClientConnection L → Act (Client L) (ClientConnection L)
  | (.error e, conn) => do
      modify fun self => self.setPool (self.pool.destroy conn)
      Act.fail e
  | (.ok (), conn) => pure conn

/-- `connectWebSocket`, where `random` are the bytes of the key. -/
def connectWebSocket (url : Bytes) (options : WebSocketUpgradeOptions) (random : Bytes) :
    Act (Client L) (ClientConnection L) := do
  match Uri.parse url with
  | none => Act.fail .invalidUrl
  | some uri => do
      let (port, protocol) ← orFail (uriPortAndProtocol uri)
      let host ← orFail (uriHost uri)
      prepareTls protocol
      validateHost host
      let conn ← acquireConnection host port protocol options.unixSocketPath
      let opts := { method := .get, uri := uri, host := host, port := port, protocol := protocol,
                    headers := options.headers }
      let result ← onConn (upgrade opts (Base64.encode random)) conn
      afterUpgrade result

end Client
end Dusty
