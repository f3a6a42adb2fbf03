import Open365Vpn.Lib.Runs
import Open365Vpn.Tunnel.RingBuffer

/-!
# A TCP session of the tunnel

`hev_socks5_session_tcp_splice` of `hev-socks5-session-tcp.c`, the loop that copies between the connection of an app, which lwIP
terminates, and the socket of the SOCKS5 server. The task of the session and the handlers that lwIP calls from other tasks share
the queue of received `pbuf`s, the ring buffer and the `pcb`. The task is cut where it can be preempted: at the locks of the
mutex inside `tcp_splice_f` and `tcp_splice_b` and in the yielder; the handlers may run between any two of these pieces.

Of lwIP: it delivers no more bytes than the window it has left and none behind the end of the stream; `tcp_write` without
`TCP_WRITE_FLAG_COPY` keeps a pointer to the bytes, or changes nothing and returns an error, when the memory or the place in its
queue is missing (`accepts`) or the bytes do not fit into `snd_buf`; and it drops the pointers, oldest bytes first, when it
calls the sent handler. Its parameters for lengths have 16 bits.
-/

namespace Open365Vpn

open Ring

/-- `TCP_WND` of `lwipopts.h`, `8 * TCP_MSS`. -/
def tcpWnd : Nat := 8 * 8191

/-- `TCP_SND_BUF` of `lwipopts.h`, `8 * TCP_MSS`. -/
def tcpSndBuf : Nat := 8 * 8191

/-- A length passed to a parameter of type `u16_t`. -/
def u16 (n : Nat) : Nat := n % 65536

/-- What an `int` keeps of a value of `strtoul`. -/
def storeInt (value : Nat) : Int := (BitVec.ofNat 32 value).toInt

/-- An `int` as a `size_t`. -/
def sizeT (n : Int) : Nat := (BitVec.ofInt 64 n).toNat

/-- The part of `hev_config_parse_doc` that bounds `tcp-buffer-size`. The comparison is one of signed integers. -/
def boundTcpBufferSize (tcpBufferSize : Int) : Int :=
  if tcpBufferSize > tcpSndBuf then tcpSndBuf else tcpBufferSize

/-- The fields of a `struct tcp_pcb` that count here. `unacked` are the pointers of the bytes that are written and not
acknowledged, sent or not, and `txShut` is set by `tcp_shutdown` for the sending side. -/
structure TcpPcb where
  rcvWnd : Nat
  sndBuf : Nat
  unacked : List Segment
  txShut : Bool

namespace TcpPcb

/-- A connection that has just been accepted. -/
def accepted : TcpPcb where
  rcvWnd := tcpWnd
  sndBuf := tcpSndBuf
  unacked := []
  txShut := false

/-- `tcp_recved`. `tcpwnd_size_t` has 16 bits, as `LWIP_WND_SCALE` is off. -/
def tcpRecved (pcb : TcpPcb) (len : Nat) : TcpPcb :=
  let rcvWnd := u16 (pcb.rcvWnd + u16 len)
  if rcvWnd > tcpWnd ∨ rcvWnd < pcb.rcvWnd then { pcb with rcvWnd := tcpWnd } else { pcb with rcvWnd }

/-- `tcp_write` with `apiflags` 0, and whether it returns `ERR_OK`. -/
def tcpWrite (pcb : TcpPcb) (accepts : Bool) (s : Segment) : TcpPcb × Bool :=
  if !accepts then (pcb, false)
  else if u16 s.len = 0 then (pcb, true)
  else if u16 s.len > pcb.sndBuf then (pcb, false)
  else ({ pcb with sndBuf := pcb.sndBuf - u16 s.len, unacked := pcb.unacked ++ [⟨s.base, u16 s.len⟩] }, true)

/-- The loop of `tcp_splice_b` over the vector; `err` collects the errors. -/
def tcpWriteAll (pcb : TcpPcb) : List Bool → List Segment → TcpPcb × Bool
  | accepts, s :: segs =>
    let (pcb, ok) := pcb.tcpWrite (accepts.headD true) s
    let (pcb, oks) := pcb.tcpWriteAll accepts.tail segs
    (pcb, ok && oks)
  | _, [] => (pcb, true)

/-- The application has acknowledged `len` more bytes. -/
def ack (pcb : TcpPcb) (len : Nat) : TcpPcb :=
  { pcb with sndBuf := pcb.sndBuf + len, unacked := advance pcb.unacked len }

end TcpPcb

/-- `pbuf_free_header` on the payloads of a chain. -/
def pbufFreeHeader : List (List UInt8) → Nat → List (List UInt8)
  | q, 0 => q
  | [], _ + 1 => []
  | p :: ps, n + 1 => if n + 1 ≥ p.length then pbufFreeHeader ps (n + 1 - p.length) else p.drop (n + 1) :: ps

/-- What `tcp_splice_f` and `tcp_splice_b` return: 1, 0 or -1. -/
inductive SpliceResult where
  | more
  | idle
  | over
  deriving DecidableEq, Repr

/-- `HevTaskYieldType`. -/
inductive TaskYieldType where
  | yield
  | waitio
  deriving DecidableEq, Repr

/-- Where the task of the session stands: before a call of `tcp_splice_f` or `tcp_splice_b`; at the lock in the first, behind a
`writev` of `s` bytes; at the lock in the second, with the local `res`; in the yielder of the first or of the second loop; or
it has returned, `failed` when the yielder has said so. -/
inductive SplicePoint where
  | spliceF
  | lockF (s : Nat)
  | spliceB
  | lockB (res : SpliceResult)
  | yielder (type : TaskYieldType)
  | drain
  | returned (failed : Bool)
  deriving DecidableEq, Repr

/-- What `writev` does: it takes `s` bytes, it would block, or it returns 0 or another error. -/
inductive WritevResult where
  | wrote (s : Nat)
  | again
  | failed
  deriving DecidableEq, Repr

/-- What `readv` does: it stores bytes, it would block, or it returns 0, at the end of the stream, or another error. -/
inductive ReadvResult where
  | read (xs : List UInt8)
  | again
  | failed
  deriving DecidableEq, Repr

/-- `HevSocks5SessionTCP` inside its splicer, with the locals `res_f` and `res_b`, and the bytes that have passed: received from
the app and acknowledged by it, written to the socket of the server and read from it. -/
structure TcpSession where
  queue : List (List UInt8)
  pcbEof : Bool
  pcb : Option TcpPcb
  buffer : HevRingBuffer UInt8
  resF : SpliceResult
  resB : SpliceResult
  point : SplicePoint
  shutWr : Bool
  fromApp : List UInt8
  toServer : List UInt8
  fromServer : List UInt8
  toApp : List UInt8

/-- A piece of the task with what the system answers, or a call of a handler. -/
inductive TcpEvent where
  | spliceF (r : WritevResult)
  | lockF
  | spliceB (r : ReadvResult)
  | lockB (accepts : List Bool) (output : Bool)
  | yielder (ok : Bool)
  | recv (p : List (List UInt8))
  | recvEof
  | sent (len : Nat)
  | err
  deriving DecidableEq, Repr

namespace TcpSession

/-- The test of the second loop. -/
def leave (self : TcpSession) : TcpSession :=
  if self.pcb.isSome ∧ self.buffer.useSize ≠ 0 then { self with point := .drain } else { self with point := .returned false }

/-- The end of an iteration of the first loop: `(res_f & res_b) == 0` says that one of two results below 1 is 0. -/
def chooseYield (self : TcpSession) : TcpSession :=
  if self.resF = .more ∨ self.resB = .more then { self with point := .yielder .yield }
  else if self.resF = .idle ∨ self.resB = .idle then { self with point := .yielder .waitio }
  else self.leave

/-- Behind `tcp_splice_f`: `tcp_splice_b` is called unless it is over. -/
def afterF (self : TcpSession) : TcpSession :=
  if self.resB ≠ .over then { self with point := .spliceB } else self.chooseYield

/-- The start of an iteration. -/
def iterate (self : TcpSession) : TcpSession :=
  if self.resF ≠ .over then { self with point := .spliceF } else self.afterF

/-- `tcp_splice_f` up to its lock. The vector has 64 places. -/
def tcpSpliceF (self : TcpSession) (r : WritevResult) : Option TcpSession :=
  if self.queue = [] then
    if self.pcbEof then some { self with shutWr := true, resF := .over }.afterF
    else some { self with resF := .idle }.afterF
  else
    match r with
    | .wrote s =>
      if 0 < s ∧ s ≤ (self.queue.take 64).flatten.length then
        some { self with point := .lockF s, toServer := self.toServer ++ self.queue.flatten.take s }
      else none
    | .again => some { self with resF := .idle }.afterF
    | .failed => some { self with resF := .over }.afterF

/-- `tcp_splice_f` behind its lock. -/
def tcpSpliceFLocked (self : TcpSession) (s : Nat) : TcpSession :=
  { self with
    queue := pbufFreeHeader self.queue (u16 s)
    pcb := self.pcb.map (TcpPcb.tcpRecved · s)
    resF := .more }.afterF

/-- `tcp_splice_b` up to its lock. -/
def tcpSpliceB (self : TcpSession) (r : ReadvResult) : Option TcpSession :=
  if self.buffer.writing = [] then some { self with point := .lockB .idle }
  else
    match r with
    | .read xs =>
      if xs ≠ [] ∧ xs.length ≤ size self.buffer.writing then
        some { self with
          point := .lockB .more
          buffer := self.buffer.write xs
          fromServer := self.fromServer ++ xs }
      else none
    | .again => some { self with point := .lockB .idle }
    | .failed => some { self with point := .lockB .over }

/-- `tcp_splice_b` behind its lock. -/
def tcpSpliceBLocked (self : TcpSession) (res : SpliceResult) (accepts : List Bool) (output : Bool) : TcpSession :=
  match self.pcb with
  | none => { self with resB := .over }.chooseYield
  | some pcb =>
    if self.buffer.reading ≠ [] then
      let (pcb, ok) := pcb.tcpWriteAll accepts self.buffer.reading
      { self with
        pcb := some pcb
        buffer := self.buffer.readFinish (size self.buffer.reading)
        resB := if ok && output then .more else .over }.chooseYield
    else if res = .over then { self with pcb := some { pcb with txShut := true }, resB := .over }.chooseYield
    else { self with resB := res }.chooseYield

/-- The yielder has returned. It fails only when it has waited, for the time is up then or the session is terminated. -/
def yielded (self : TcpSession) (ok : Bool) : Option TcpSession :=
  match self.point with
  | .yielder .yield => if ok then some self.iterate else none
  | .yielder .waitio => some (if ok then self.iterate else self.leave)
  | .drain => some (if ok then self.leave else { self with point := .returned true })
  | _ => none

/-- `tcp_recv_handler` with a chain. -/
def tcpRecvHandler (self : TcpSession) (p : List (List UInt8)) : Option TcpSession :=
  self.pcb.bind fun pcb =>
    if self.pcbEof = false ∧ p ≠ [] ∧ p.flatten.length ≤ pcb.rcvWnd then
      some { self with
        queue := self.queue ++ p
        pcb := some { pcb with rcvWnd := pcb.rcvWnd - p.flatten.length }
        fromApp := self.fromApp ++ p.flatten }
    else none

/-- `tcp_sent_handler`, called by lwIP when it has dropped the pointers. -/
def tcpSentHandler (self : TcpSession) (len : Nat) : Option TcpSession :=
  self.pcb.bind fun pcb =>
    if 0 < len ∧ len ≤ size pcb.unacked then
      some { self with
        pcb := some (pcb.ack len)
        toApp := self.toApp ++ (gather self.buffer.data pcb.unacked).take len
        buffer := self.buffer.readRelease len }
    else none

/-- One step of the session. The handlers count while the splicer has not returned. -/
def step (self : TcpSession) (e : TcpEvent) : Option TcpSession :=
  match self.point, e with
  | .returned _, _ => none
  | .spliceF, .spliceF r => self.tcpSpliceF r
  | .lockF s, .lockF => some (self.tcpSpliceFLocked s)
  | .spliceB, .spliceB r => self.tcpSpliceB r
  | .lockB res, .lockB accepts output => some (self.tcpSpliceBLocked res accepts output)
  | _, .yielder ok => self.yielded ok
  | _, .recv p => self.tcpRecvHandler p
  | _, .recvEof => if self.pcb.isSome then some { self with pcbEof := true } else none
  | _, .sent len => self.tcpSentHandler len
  | _, .err => some { self with pcb := none }
  | _, _ => none

/-- The start of the first loop with an empty queue. What arrives before it arrives in the first step. The stack has room for the
buffer. -/
def init (tcpBufferSize : Int) (garbage : Nat → UInt8) : TcpSession where
  queue := []
  pcbEof := false
  pcb := some .accepted
  buffer := .alloca garbage (sizeT (boundTcpBufferSize tcpBufferSize))
  resF := .more
  resB := .more
  point := .spliceF
  shutWr := false
  fromApp := []
  toServer := []
  fromServer := []
  toApp := []

end TcpSession

end Open365Vpn
