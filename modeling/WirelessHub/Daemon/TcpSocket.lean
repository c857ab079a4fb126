import WirelessHub.Framework.Transfer
import WirelessHub.Protocol.Wire

/-!
# Connected TCP sockets

`TcpSocket::sendExactly` and `TcpSocket::recvExactly` over the results that successive
`send` and `recv` calls return. A receive script lists what the calls on one connection
return from now on; when it is used up the next call has not returned yet. A send script says so
by a result of its own, and calls behind its end take all they are given.
-/

namespace WirelessHub

open Framework

/-- File descriptors; the `-1` of a failed call is an absent value. -/
abbrev Fd := Nat

/-- The result of one `send` or `write`. A call that is `stalled` gets no further: a `write` that
does not return, or a `send` that is answered by `EAGAIN` however often it is tried. -/
inductive IoResult
  | count (n : Nat)
  | eintr | eagain | error | stalled
  deriving DecidableEq, Repr

/-- `sendExactly` retries on `EINTR` and `EAGAIN` and gives up on a count of zero. -/
def sendVerdict : IoResult → Verdict
  | .count 0 => .stop
  | .count (n + 1) => .advance (n + 1)
  | .eintr => .again
  | .eagain => .again
  | .error => .stop
  | .stalled => .wait

def sendExactly (sends : List IoResult) (data : List UInt8) : Transfer UInt8 IoResult :=
  transferAll sendVerdict sends data

/-- The result of one `recv`: some bytes, end of stream, or an error number. A segment longer
than the call asked for stays in the socket with its remaining bytes. -/
inductive Recv
  | data (first : UInt8) (more : List UInt8)
  | eof | eintr | eagain | error
  deriving DecidableEq, Repr

/-- What `recvExactly` returns: the whole buffer, `0`, or `-1`; or it is still in its loop. -/
inductive RecvExactly
  | full (bytes : List UInt8)
  | closed | failed | waiting
  deriving DecidableEq, Repr

def leftover : List UInt8 → List Recv → List Recv
  | [], rest => rest
  | b :: bs, rest => .data b bs :: rest

/-- The receive loop: `need` bytes are still missing, `got` are in the buffer already. An
`EAGAIN` ends the loop only while the buffer is empty; later ones are waited out. -/
def recvExactly : Nat → List UInt8 → List Recv → RecvExactly × List Recv
  | _, _, [] => (.waiting, [])
  | need, got, .data b bs :: rest =>
      if bs.length + 1 < need then recvExactly (need - (bs.length + 1)) (got ++ b :: bs) rest
      else (.full (got ++ (b :: bs).take need), leftover ((b :: bs).drop need) rest)
  | need, got, .eintr :: rest => recvExactly need got rest
  | need, got, .eagain :: rest =>
      if got.isEmpty then (.failed, rest) else recvExactly need got rest
  | _, _, .error :: rest => (.failed, rest)
  | _, _, .eof :: rest => (.closed, .eof :: rest)

/-- What `readTcpPacket` makes of a connection: a packet, a failure, or no end yet. -/
inductive TcpRead
  | packet (hdr : Header) (payload : List UInt8)
  | failed | waiting
  deriving DecidableEq, Repr

def readPayload (hdr : Header) (rx : List Recv) : TcpRead × List Recv :=
  if hdr.payloadLen = 0 then (.packet hdr [], rx)
  else match recvExactly hdr.payloadLen.toNat [] rx with
    | (.waiting, rest) => (.waiting, rest)
    | (.closed, rest) => (.failed, rest)
    | (.failed, rest) => (.failed, rest)
    | (.full payload, rest) => (.packet hdr payload, rest)

/-- The socket part of `HubServer::readTcpPacket`: the header, then the payload. -/
def readPacket (rx : List Recv) : TcpRead × List Recv :=
  match recvExactly Header.size [] rx with
  | (.waiting, rest) => (.waiting, rest)
  | (.closed, rest) => (.failed, rest)
  | (.failed, rest) => (.failed, rest)
  | (.full bytes, rest) => readPayload (Header.decode bytes) rest

end WirelessHub
