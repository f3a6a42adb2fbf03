import Open365Vpn.Lib.Runs
import Open365Vpn.Tunnel.Socks5
import Open365Vpn.Tunnel.TcpSession

/-!
# Datagrams of a session

`hev_socks5_udp_sendmmsg_tcp` and `hev_socks5_udp_recvmmsg_tcp` of `hev-socks5-udp.c`, which put datagrams into a stream and take
them out of it; and of `hev-socks5-session-udp.c` the calls of `hev_socks5_session_udp_fwd_b`, which gives what has come to lwIP,
and the queue in front of `hev_socks5_session_udp_fwd_f`, which sends what lwIP has given.
-/

namespace Open365Vpn

open Duplex Duplex.Proc

namespace Socks5

/-- `HevSocks5UDPMsg` of a sender. -/
structure HevSocks5UdpMsg where
  addr : HevSocks5Addr
  buf : List Octet

/-- `HevSocks5UDPMsg` behind a receive: the bytes of the address and the data, in the buffer of the receiver. -/
structure ReceivedMsg where
  addr : List Octet
  buf : List Octet
  deriving DecidableEq, Repr

/-- A datagram in the stream: `HevSocks5UDPHdr` with the lengths, the address and the data. The length of the data is stored in
sixteen bits and that of the header in eight. -/
def HevSocks5UdpMsg.frame (msg : HevSocks5UdpMsg) : List Octet :=
  u16Bytes msg.buf.length ++ [octet (3 + msg.addr.len)] ++ msg.addr.bytes ++ msg.buf

/-- `hev_socks5_udp_sendmmsg_tcp`: whether the result is the number of the datagrams, and not -1. It is when any byte has gone. -/
def udpSendmmsgTcp (msgv : List HevSocks5UdpMsg) : Proc Octet Bool := do
  let res ← socketSend (msgv.flatMap HevSocks5UdpMsg.frame)
  return 0 < res

/-- `UDP_BUF_SIZE`. -/
def udpBufSize : Nat := 1500

/-! ## Receiving -/

/-- `hev_task_io_socket_recv` with `MSG_DONTWAIT`, and for the bytes that it has not brought another one with `MSG_WAITALL`. -/
def socketRecvHead : Nat → Proc Octet (List Octet)
  | 0 => done []
  | n + 1 => .get false (fun b => getAll n [b]) (done [])

/-- What a turn of the loop of `hev_socks5_udp_recvmmsg_tcp` comes to: it has got only so many bytes of the head, an error, only so
many bytes behind the head, or a datagram. -/
inductive Turn where
  | head (size : Nat)
  | rejected
  | body (size : Nat)
  | msg (m : ReceivedMsg)
  deriving DecidableEq, Repr

/-- A turn of the loop of `hev_socks5_udp_recvmmsg_tcp`. The five bytes of the head come in one or two receives, of which the first
does not wait. -/
def recvFrame : Proc Octet Turn := do
  match ← socketRecvHead 5 with
  | [datlenHigh, datlenLow, hdrlen, atype, first] =>
    if hdrlen.val < 5 then return .rejected
    else
      let addrlen := hdrlen.val - 3
      let datlen := datlenHigh.val * 256 + datlenLow.val
      if datlen > udpBufSize - addrlen then return .rejected
      else
        let body ← socketRecv (addrlen - 2 + datlen)
        if body.length ≠ addrlen - 2 + datlen then return .body body.length
        else return .msg ⟨atype :: first :: body.take (addrlen - 2), body.drop (addrlen - 2)⟩
  | head => return .head head.length

/-- How a receive fails that has got nothing: at the end of the stream, with an error, or because the yielder has said so. -/
inductive RecvFailure where
  | ended
  | error
  | timeout
  deriving DecidableEq, Repr

def RecvFailure.res : RecvFailure → Int
  | .ended => 0
  | .error => -1
  | .timeout => -2

/-- What the system decides about a call of `hev_socks5_udp_recvmmsg_tcp`, in which at most one receive fails: how it does; whether
`errno` is `EAGAIN` when the call returns; and whether the first receive of a head that is not complete has brought all the bytes
of it that have come. -/
structure RecvFault where
  how : RecvFailure
  again : Bool
  split : Bool
  deriving DecidableEq, Repr

/-- `res` of a head that is not complete: the two results are added. -/
def RecvFault.headRes (fault : RecvFault) (size : Nat) : Int :=
  if size = 0 ∨ fault.split then size + fault.how.res else size

/-- `hev_socks5_udp_recvmmsg_tcp`: the result, and the messages that are set in `msgv`, with those that were set before. -/
def udpRecvmmsgTcp (fault : RecvFault) : Nat → List ReceivedMsg → Proc Octet (Int × List ReceivedMsg)
  | 0, msgs => return (msgs.length, msgs)
  | num + 1, msgs => do
    match ← recvFrame with
    | .head size =>
      if 0 < msgs.length then return (msgs.length, msgs) else return (fault.headRes size, msgs)
    | .rejected => return (-1, msgs)
    | .body size => return (if size = 0 then fault.how.res else size, msgs)
    | .msg m => udpRecvmmsgTcp fault num (msgs ++ [m])

/-- Calls of `hev_socks5_udp_sendmmsg_tcp` until one of them fails. -/
def sendBatches : List (List HevSocks5UdpMsg) → Proc Octet Bool
  | [] => return true
  | msgv :: batches => do
    let ok ← udpSendmmsgTcp msgv
    if !ok then return false else sendBatches batches

/-- The loop of `hev_socks5_session_udp_fwd_b` over the first `res` messages: those that lwIP takes, and what is returned; `none` is
the use of a message that is not set. `accepts` says whether lwIP takes a message, with its address. -/
def handUp : List Bool → Nat → List ReceivedMsg → List ReceivedMsg × Option SpliceResult
  | _, 0, _ => ([], some .more)
  | _, _ + 1, [] => ([], none)
  | accepts, res + 1, m :: msgs =>
    if m.buf = [] then handUp accepts res msgs
    else if accepts.headD true then
      let (ms, r) := handUp accepts.tail res msgs
      (m :: ms, r)
    else ([], some .over)

/-- `hev_socks5_session_udp_fwd_b` behind its call of `hev_socks5_udp_recvmmsg`. -/
def sessionUdpFwdB (accepts : List Bool) (again : Bool) (res : Int) (msgs : List ReceivedMsg) :
    List ReceivedMsg × Option SpliceResult :=
  if res ≤ 0 then ([], some (if res = -1 ∧ again then .idle else .over)) else handUp accepts res.toNat msgs

end Socks5

open Socks5

/-- A sender of datagrams, the connection and the receiving half of the splicer: the right program of the connection is the last
call of `hev_socks5_udp_recvmmsg_tcp`, and `calling` is `errno` of it until `hev_socks5_session_udp_fwd_b` goes on. `handed` are the
messages that lwIP has taken, and `resB` is `res_b`, or `none` behind the use of a message that is not set. -/
structure UdpLink where
  net : Net Octet Bool (Int × List ReceivedMsg)
  calling : Option Bool
  handed : List ReceivedMsg
  resB : Option SpliceResult

/-- A move or a failure of the connection; the splicer calls `hev_socks5_session_udp_fwd_b`; the receive in it has returned, and
lwIP gets the messages. -/
inductive UdpLinkEvent where
  | conn (e : Event)
  | fwdB (num : Nat) (fault : RecvFault)
  | handUp (accepts : List Bool)
  deriving DecidableEq, Repr

namespace UdpLink

def step (self : UdpLink) : UdpLinkEvent → Option UdpLink
  | .conn e => (Duplex.step self.net e).map fun net => { self with net }
  | .fwdB num fault =>
    if self.calling.isSome ∨ self.resB = none ∨ self.resB = some .over then none
    else some { self with net := { self.net with right := udpRecvmmsgTcp fault num [] }, calling := some fault.again }
  | .handUp accepts =>
    match self.calling, self.net.right with
    | some again, .done (res, msgs) =>
      let (ms, r) := sessionUdpFwdB accepts again res msgs
      some { self with calling := none, handed := self.handed ++ ms, resB := r }
    | _, _ => none

/-- A sender that is going to send the batches, and a splicer before its loop. -/
def init (batches : List (List HevSocks5UdpMsg)) : UdpLink :=
  { net := ⟨sendBatches batches, .done (0, []), [], []⟩, calling := none, handed := [], resB := some .more }

end UdpLink

/-! ## The queue of a session -/

/-- `UDP_POOL_SIZE`. -/
def udpPoolSize : Nat := 512

/-- `HevSocks5UDPFrame`: the address, and the payloads of the chain of `pbuf`s, the first one apart. lwIP gives a datagram that it
has put together from fragments as a chain. -/
structure HevSocks5UdpFrame where
  addr : HevSocks5Addr
  payload : List Octet
  next : List (List Octet)

/-- What `hev_socks5_session_udp_fwd_f` sends of a frame: the first `pbuf` alone. -/
def HevSocks5UdpFrame.msg (frame : HevSocks5UdpFrame) : HevSocks5UdpMsg := ⟨frame.addr, frame.payload⟩

/-- The data of the datagram. -/
def HevSocks5UdpFrame.bytes (frame : HevSocks5UdpFrame) : List Octet := frame.payload ++ frame.next.flatten

/-- What a call of `hev_socks5_udp_sendmmsg` does: the bytes that have gone into the stream, or for a session with datagrams of its
own the result of `hev_task_io_socket_sendmmsg`. -/
inductive SendResult where
  | stream (size : Nat)
  | datagrams (res : Int)
  deriving DecidableEq, Repr

/-- The result of `hev_socks5_udp_sendmmsg` for messages; `none` is what cannot be. -/
def udpSendmmsg (type : HevSocks5Type) (msgv : List HevSocks5UdpMsg) (r : SendResult) : Option Int :=
  match type, r with
  | .udpInTcp, .stream size =>
    if size > (msgv.flatMap HevSocks5UdpMsg.frame).length then none else some (if size = 0 then -1 else msgv.length)
  | .udpInUdp, .datagrams res => if res > msgv.length then none else some res
  | _, _ => none

/-- The fields of `HevSocks5SessionUDP` between lwIP and the peer. `sending` are the messages with which
`hev_socks5_session_udp_fwd_f` is inside of `hev_socks5_udp_sendmmsg`, where the task yields; `resF` is `res_f`. -/
structure UdpSession where
  type : HevSocks5Type
  frames : Nat
  frameList : List HevSocks5UdpFrame
  sending : Option (List HevSocks5UdpMsg)
  resF : Int

/-- What happens to the queue: lwIP calls `udp_recv_handler` with a datagram; the splicer calls `hev_socks5_session_udp_fwd_f`; the
send it is in returns. -/
inductive UdpEvent where
  | recvHandler (frame : HevSocks5UdpFrame)
  | fwdF
  | sent (r : SendResult)

namespace UdpSession

/-- `num` is `hev_config_get_misc_udp_copy_buffer_nums`. -/
def step (num : Nat) (self : UdpSession) : UdpEvent → Option UdpSession
  | .recvHandler frame =>
    if self.frames > udpPoolSize then some self
    else some { self with frames := self.frames + 1, frameList := self.frameList ++ [frame] }
  | .fwdF =>
    if self.sending.isSome ∨ self.resF < 0 then none
    else if self.frames = 0 then some { self with resF := 0 }
    else some { self with sending := some ((self.frameList.take (min self.frames num)).map HevSocks5UdpFrame.msg) }
  | .sent r =>
    self.sending.bind fun msgv =>
      (udpSendmmsg self.type msgv r).map fun res =>
        if res ≤ 0 then { self with sending := none, resF := -1 }
        else
          { self with
            frames := self.frames - res.toNat
            frameList := self.frameList.drop res.toNat
            sending := none
            resF := 1 }

def init (type : HevSocks5Type) : UdpSession := { type, frames := 0, frameList := [], sending := none, resF := 1 }

end UdpSession

end Open365Vpn
