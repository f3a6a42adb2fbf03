import Open365Vpn.Lib.Duplex
import Open365Vpn.Tunnel.Octets
import Open365Vpn.Tunnel.RbTree
import Mathlib.Data.List.Lex
import Mathlib.Data.Prod.Lex
import Mathlib.Data.Vector.Basic

/-!
# The SOCKS5 handshake

`hev-socks5-client.c` and `hev-socks5-server.c`, as programs over the connection between them. A send or a receive of the task
system stops early when the connection fails or the session times out; it then returns the bytes that have gone or come so far,
and a result that is not positive when there are none. What a system call outside of the connection gives (the resolver, a
connection to the destination, a socket for datagrams) is a field of the server or of the client.
-/

namespace Open365Vpn

open Duplex Duplex.Proc RedBlack

namespace Socks5

/-- `hev_task_io_socket_send` and `hev_task_io_socket_sendmsg` with `MSG_WAITALL`: the number of bytes that have gone, where zero
stands for a result that is not positive. -/
def socketSend (bs : List Octet) : Proc Octet Nat := putAll bs 0

/-- `hev_task_io_socket_recv` with `MSG_WAITALL`: the bytes that have come. -/
def socketRecv (n : Nat) : Proc Octet (List Octet) := getAll n []

/-- `HevSocks5Type`. -/
inductive HevSocks5Type where
  | tcp
  | udpInTcp
  | udpInUdp
  deriving DecidableEq, Repr

/-- `HevSocks5ReqCmd` of a type. -/
def HevSocks5Type.cmd : HevSocks5Type → Octet
  | .tcp => 1
  | .udpInTcp => 5
  | .udpInUdp => 3

/-! ## Addresses -/

/-- `HevSocks5Addr`, as `hev_socks5_addr_from_name`, `hev_socks5_addr_from_ipv4` and `hev_socks5_addr_from_ipv6` fill it. A name
is a C string that fits its length byte; the port has the order of the network. -/
inductive HevSocks5Addr where
  | ipv4 (addr : List.Vector Octet 4) (port : List.Vector Octet 2)
  | ipv6 (addr : List.Vector Octet 16) (port : List.Vector Octet 2)
  | name (addr : List Octet) (port : List.Vector Octet 2) (fits : addr.length < 256) (string : 0 ∉ addr)

/-- `hev_socks5_addr_len`. -/
def HevSocks5Addr.len : HevSocks5Addr → Nat
  | .ipv4 _ _ => 7
  | .ipv6 _ _ => 19
  | .name addr _ _ _ => 4 + addr.length

/-- The bytes of an address in memory, as far as they are sent. -/
def HevSocks5Addr.bytes : HevSocks5Addr → List Octet
  | .ipv4 addr port => 1 :: (addr.toList ++ port.toList)
  | .ipv6 addr port => 4 :: (addr.toList ++ port.toList)
  | .name addr port _ _ => 3 :: octet addr.length :: (addr ++ port.toList)

/-- `struct sockaddr_in6`. -/
structure SockAddr6 where
  addr : List.Vector Octet 16
  port : List.Vector Octet 2
  deriving DecidableEq

/-- Bytes of a buffer at an offset. -/
def slice (mem : List Octet) (off n : Nat) : List.Vector Octet n := List.Vector.ofFn fun i => mem.getD (off + i) 0

def zeroAddr : SockAddr6 := ⟨List.Vector.replicate 16 0, List.Vector.replicate 2 0⟩

/-- The first bytes of an IPv4 address that is mapped to an IPv6 one. -/
def mappedBytes : List Octet := [0, 0, 0, 0, 0, 0, 0, 0, 0, 0, 255, 255]

/-- `hev_socks5_ipv4_into_sockaddr6`. -/
def ipv4IntoSockaddr6 (addr : List.Vector Octet 4) (port : List.Vector Octet 2) : SockAddr6 :=
  ⟨⟨mappedBytes ++ addr.toList, by simp [mappedBytes]⟩, port⟩

/-- `hev_socks5_name_into_sockaddr6` of a name and a port: whether there is an address, and what it leaves in memory. -/
abbrev Resolver : Type := List Octet → List.Vector Octet 2 → Bool × SockAddr6

/-- `hev_socks5_addr_into_sockaddr6`, with the type of the address and the bytes behind it. -/
def addrIntoSockaddr6 (resolve : Resolver) (atype : Octet) (mem : List Octet) : Bool × SockAddr6 :=
  if atype = 1 then (true, ipv4IntoSockaddr6 (slice mem 0 4) (slice mem 4 2))
  else if atype = 4 then (true, ⟨slice mem 0 16, slice mem 16 2⟩)
  else if atype = 3 then
    let len := (mem.headD 0).val
    resolve ((mem.tail.take len).takeWhile (· ≠ 0)) (slice mem (1 + len) 2)
  else (false, zeroAddr)

/-- `hev_socks5_addr_from_sockaddr6`. -/
def addrFromSockaddr6 (addr : SockAddr6) : HevSocks5Addr :=
  if addr.addr.toList.take 12 = mappedBytes then .ipv4 (slice addr.addr.toList 12 4) addr.port else .ipv6 addr.addr addr.port

/-! ## The client -/

/-- `HevSocks5Client`. The credentials are there when the user and the password are; `associate` is the socket that
`hev_socks5_client_udp_set_upstream_addr` makes. -/
structure HevSocks5Client where
  type : HevSocks5Type
  auth : Option (List Octet × List Octet)
  addr : HevSocks5Addr
  associate : SockAddr6 → Bool

namespace HevSocks5Client

def writeAuthMethods (self : HevSocks5Client) : Proc Octet Bool := do
  let res ← socketSend [5, 1, if self.auth.isNone then 0 else 2]
  return 0 < res

/-- What `hev_socks5_client_write_auth_creds` sends: the lengths are cut to a byte, and the strings to their lengths. -/
def creds (user pass : List Octet) : List Octet :=
  [1, octet user.length] ++ user.take (octet user.length).val ++ [octet pass.length] ++ pass.take (octet pass.length).val

def writeAuthCreds (self : HevSocks5Client) : Proc Octet Bool :=
  match self.auth with
  | none => return true
  | some (user, pass) => do
    let res ← socketSend (creds user pass)
    return 0 < res

def writeRequest (self : HevSocks5Client) : Proc Octet Bool := do
  let res ← socketSend ([5, self.type.cmd, 0] ++ self.addr.bytes)
  return 0 < res

def readAuthMethod : Proc Octet (Option Octet) := do
  match ← socketRecv 2 with
  | [ver, method] => return if ver = 5 then some method else none
  | _ => return none

def readAuthCreds : Proc Octet Bool := do
  match ← socketRecv 2 with
  | [ver, rep] => return ver = 1 ∧ rep = 0
  | _ => return false

/-- `set_upstream_addr` of the class, which does nothing but for datagrams of their own. The address is not a name here. -/
def setUpstreamAddr (self : HevSocks5Client) (atype : Octet) (mem : List Octet) : Bool :=
  if self.type = .udpInUdp then self.associate (addrIntoSockaddr6 (fun _ _ => (false, zeroAddr)) atype mem).2 else true

/-- The rest of `hev_socks5_client_read_response` behind the type of the address. -/
def readAddr (self : HevSocks5Client) (atype : Octet) (addrlen : Nat) : Proc Octet Bool := do
  let mem ← socketRecv addrlen
  if mem.length ≠ addrlen then return false
  else return self.setUpstreamAddr atype mem

def readResponse (self : HevSocks5Client) : Proc Octet Bool := do
  match ← socketRecv 4 with
  | [ver, rep, _, atype] =>
    if ver ≠ 5 then return false
    else if rep ≠ 0 then return false
    else if atype = 1 then self.readAddr atype 6
    else if atype = 4 then self.readAddr atype 18
    else return false
  | _ => return false

def handshakeStandard (self : HevSocks5Client) : Proc Octet Bool := do
  let ok ← self.writeAuthMethods
  if !ok then return false
  else
    match ← readAuthMethod with
    | none => return false
    | some method =>
      if method = 2 then
        let ok ← self.writeAuthCreds
        if !ok then return false
        else
          let ok ← readAuthCreds
          if !ok then return false
          else
            let ok ← self.writeRequest
            if !ok then return false else self.readResponse
      else if method ≠ 0 then return false
      else
        let ok ← self.writeRequest
        if !ok then return false else self.readResponse

def handshakePipeline (self : HevSocks5Client) : Proc Octet Bool := do
  let ok ← self.writeAuthMethods
  if !ok then return false
  else
    let ok ← self.writeAuthCreds
    if !ok then return false
    else
      let ok ← self.writeRequest
      if !ok then return false
      else
        match ← readAuthMethod with
        | none => return false
        | some method =>
          if method = 2 then
            let ok ← readAuthCreds
            if !ok then return false else self.readResponse
          else if method ≠ 0 then return false
          else self.readResponse

/-- `hev_socks5_client_handshake`. -/
def handshake (self : HevSocks5Client) (pipeline : Bool) : Proc Octet Bool :=
  if pipeline then self.handshakePipeline else self.handshakeStandard

end HevSocks5Client

/-! ## The server -/

/-- `HevSocks5User`. -/
structure HevSocks5User where
  name : List Octet
  pass : List Octet
  deriving DecidableEq, Repr

/-- The order of the users in the tree: by the length of the name, and then by its bytes. -/
def nameKey (name : List Octet) : ℕ ×ₗ List Octet := toLex (name.length, name)

def HevSocks5User.key (user : HevSocks5User) : ℕ ×ₗ List Octet := nameKey user.name

/-- `hev_socks5_authenticator_get`. -/
def authenticatorGet (tree : ColoredTree HevSocks5User) (name : List Octet) : Option HevSocks5User :=
  HevRbTree.find (HevRbTree.against HevSocks5User.key (nameKey name)) tree

/-- `HevSocks5Server`. `connect` is `hev_socks5_server_connect`, `bind` is `hev_socks5_server_bind` without an address, and
`bindAddr` the same with an address, which it replaces by the one it has bound. -/
structure HevSocks5Server where
  auth : Option (ColoredTree HevSocks5User)
  resolve : Resolver
  connect : SockAddr6 → Bool
  bind : Bool
  bindAddr : SockAddr6 → Bool × SockAddr6

namespace HevSocks5Server

/-- The method of `hev_socks5_server_read_auth_method`; `none` stands for -1. -/
def readAuthMethod (self : HevSocks5Server) : Proc Octet (Option Octet) := do
  match ← socketRecv 2 with
  | [ver, methodLen] =>
    if ver ≠ 5 then return none
    else
      let methods ← socketRecv methodLen.val
      if methods.length ≠ methodLen.val then return none
      else
        let method : Octet := if self.auth.isSome then 2 else 0
        return if methods.any (· = method) then some method else none
  | _ => return none

def writeAuthMethod (authMethod : Option Octet) : Proc Octet Bool := do
  let res ← socketSend [5, authMethod.getD 255]
  return 0 < res

/-- `hev_socks5_user_check` of the user with the name. -/
def checkUser (tree : ColoredTree HevSocks5User) (name pass : List Octet) : Bool :=
  match authenticatorGet tree name with
  | none => false
  | some user => user.pass = pass

def readAuthUser (tree : ColoredTree HevSocks5User) : Proc Octet Bool := do
  match ← socketRecv 2 with
  | [ver, nlen] =>
    if ver ≠ 1 then return false
    else if nlen = 0 then return false
    else
      let name ← socketRecv (nlen.val + 1)
      if name.length ≠ nlen.val + 1 then return false
      else
        let plen := name.getD nlen.val 0
        if plen = 0 then return false
        else
          let pass ← socketRecv plen.val
          if pass.length ≠ plen.val then return false
          else return checkUser tree (name.take nlen.val) pass
  | _ => return false

def writeAuthUser (authRes : Bool) : Proc Octet Bool := do
  let res ← socketSend [1, if authRes then 0 else 255]
  return 0 < res

/-- `hev_socks5_server_auth`. -/
def authenticate (self : HevSocks5Server) : Proc Octet Bool := do
  let method ← self.readAuthMethod
  let ok ← writeAuthMethod method
  if !ok then return false
  else
    match method, self.auth with
    | none, _ => return false
    | some _, none => return true
    | some _, some tree =>
      let res ← readAuthUser tree
      let ok ← writeAuthUser res
      return res && ok

/-- What `hev_socks5_server_read_request` leaves in its arguments; `cmd` is set only when `rep` is a success. -/
structure Request where
  rep : Octet
  cmd : Octet
  addr : SockAddr6

/-- The rest of `hev_socks5_server_read_request` behind the fifth byte. -/
def readAddr (self : HevSocks5Server) (cmd atype first : Octet) (addrlen : Nat) : Proc Octet (Option Request) := do
  let mem ← socketRecv addrlen
  if mem.length ≠ addrlen then return some ⟨8, 0, zeroAddr⟩
  else
    let (ok, addr) := addrIntoSockaddr6 self.resolve atype (first :: mem)
    if ok then return some ⟨0, cmd, addr⟩ else return some ⟨8, 0, addr⟩

def readRequest (self : HevSocks5Server) : Proc Octet (Option Request) := do
  match ← socketRecv 5 with
  | [ver, cmd, _, atype, first] =>
    if ver ≠ 5 then return some ⟨1, 0, zeroAddr⟩
    else if atype = 1 then self.readAddr cmd atype first 5
    else if atype = 4 then self.readAddr cmd atype first 17
    else if atype = 3 then self.readAddr cmd atype first (2 + first.val)
    else return some ⟨8, 0, zeroAddr⟩
  | _ => return none

def writeResponse (rep : Octet) (addr : SockAddr6) : Proc Octet Bool := do
  let res ← socketSend ([5, rep, 0] ++ (addrFromSockaddr6 addr).bytes)
  return 0 < res

/-- The switch of `hev_socks5_server_handshake`: the reply, the address in it, and the type of the session. -/
def serve (self : HevSocks5Server) (req : Request) : Octet × SockAddr6 × Option HevSocks5Type :=
  if req.rep ≠ 0 then (req.rep, req.addr, none)
  else if req.cmd = 1 then (if self.connect req.addr then 0 else 4, req.addr, some .tcp)
  else if req.cmd = 3 then
    let (ok, addr) := self.bindAddr req.addr
    (if ok then 0 else 1, addr, some .udpInUdp)
  else if req.cmd = 5 then (if self.bind then 0 else 1, req.addr, some .udpInTcp)
  else (7, req.addr, none)

/-- `hev_socks5_server_handshake`: the type of the session and the address that the client has asked for, or `none` for -1. -/
def handshake (self : HevSocks5Server) : Proc Octet (Option (HevSocks5Type × SockAddr6)) := do
  let ok ← self.authenticate
  if !ok then return none
  else
    match ← self.readRequest with
    | none => return none
    | some req =>
      let (rep, addr, type) := self.serve req
      let ok ← writeResponse rep addr
      if !ok then return none
      else if rep ≠ 0 then return none
      else return type.map fun type => (type, req.addr)

end HevSocks5Server

/-- The client and the server at the two ends of a new connection. -/
def connection (client : HevSocks5Client) (pipeline : Bool) (server : HevSocks5Server) :
    Net Octet Bool (Option (HevSocks5Type × SockAddr6)) :=
  ⟨client.handshake pipeline, server.handshake, [], []⟩

end Socks5

end Open365Vpn
