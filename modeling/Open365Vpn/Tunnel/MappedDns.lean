import Open365Vpn.Lib.Runs
import Open365Vpn.Tunnel.Octets
import Open365Vpn.Tunnel.RbTree
import Mathlib.Data.List.Lex

/-!
# The mapped DNS of the tunnel

`hev-mapped-dns.c`: every name that an app asks for gets an address of a private network, and the name is found again when the
app connects to the address. A name is in a red-black tree, in a list with the least recently used one first, and in the array
`records` under its index; the index is the host part of the address. A full cache gives the index of the first name of the list
to the new one. Memory is taken to be there.

A request is a list of bytes and the response another one, as long as the buffer; a `fault` is an access outside of them, of
`records`, `ips` or `ipo`, or through a null pointer.
-/

namespace Open365Vpn

open RedBlack

/-- `HevMappedDNSNode`. -/
structure MappedDnsNode where
  name : List Octet
  idx : Nat
  deriving DecidableEq, Repr

/-- `HevMappedDNS`. The first node of the list comes first; `records` has `max` places. -/
structure HevMappedDns where
  use : Nat
  max : Nat
  net : BitVec 32
  mask : BitVec 32
  list : List MappedDnsNode
  tree : ColoredTree MappedDnsNode
  records : Nat → Option MappedDnsNode

namespace HevMappedDns

/-- `hev_mapped_dns_construct`. The comparison is one of signed integers. -/
def construct (net mask : BitVec 32) (max : Nat) : Option HevMappedDns :=
  if (max : Int) > (~~~mask).toInt then none
  else some { use := 0, max, net, mask, list := [], tree := .leaf, records := fun _ => none }

/-- `strcmp` with the name of a node. -/
def compareName (name : List Octet) : MappedDnsNode → Ordering :=
  HevRbTree.against MappedDnsNode.name name

/-- `hev_list_del` and `hev_list_add_tail`. -/
def moveToTail (self : HevMappedDns) (node : MappedDnsNode) : HevMappedDns :=
  { self with list := self.list.filter (· ≠ node) ++ [node] }

/-- The node is written to its place of `records`, and its index is returned. -/
def setRecord (self : HevMappedDns) (node : MappedDnsNode) : Option (HevMappedDns × Nat) :=
  if node.idx < self.max then some ({ self with records := Function.update self.records node.idx (some node) }, node.idx) else none

/-- `hev_mapped_dns_find`. The index of a new node is written last in the source, through the pointer that the tree and the list
have of it by then; `none` is an access through a null pointer or outside of `records`. -/
def find (self : HevMappedDns) (name : List Octet) : Option (HevMappedDns × Nat) :=
  match HevRbTree.find (compareName name) self.tree with
  | some node => some (self.moveToTail node, node.idx)
  | none =>
    if self.use < self.max then
      let node := ⟨name, self.use⟩
      (HevRbTree.insert (compareName name) node self.tree).bind fun tree =>
        { self with use := self.use + 1, tree, list := self.list ++ [node] }.setRecord node
    else
      self.list.head?.bind fun nf =>
        let node := ⟨name, nf.idx⟩
        (HevRbTree.insert (compareName name) node self.tree).bind fun tree =>
          (HevRbTree.eraseKey (compareName nf.name) tree).bind fun tree =>
            { self with tree, list := (self.list ++ [node]).tail }.setRecord node

/-- `hev_mapped_dns_lookup`; `none` is an access outside of `records`. -/
def lookup (self : HevMappedDns) (ip : BitVec 32) : Option (HevMappedDns × Option (List Octet)) :=
  let idx := (ip &&& ~~~self.mask).toInt
  if idx ≥ self.max then some (self, none)
  else if idx < 0 then none
  else
    match self.records idx.toNat with
    | none => some (self, none)
    | some node => some (self.moveToTail node, some node.name)

/-! ## Messages -/

/-- How a piece of `hev_mapped_dns_handle` ends. -/
inductive Exit (α : Type) where
  | fault
  | rejected
  | done (a : α)

/-- Store bytes at an offset. -/
def store (p : List Octet) (off : Nat) (bs : List Octet) : Option (List Octet) :=
  if off + bs.length ≤ p.length then some (p.take off ++ bs ++ p.drop (off + bs.length)) else none

/-- The C string at an offset. -/
def cString (p : List Octet) (off : Nat) : Option (List Octet) :=
  if 0 ∈ p.drop off then some ((p.drop off).takeWhile (· ≠ 0)) else none

/-- The loop over the labels of a name: every length is replaced by a dot, and the offset is that of the zero behind them. -/
def readName : Nat → List Octet → Nat → Exit (List Octet × Nat)
  | 0, _, _ => .fault
  | fuel + 1, rb, off =>
    match rb[off]? with
    | none => .fault
    | some n =>
      if n = 0 then .done (rb, off)
      else if off + (1 + n.val) ≥ rb.length then .rejected
      else readName fuel (rb.set off 46) (off + (1 + n.val))

/-- An address for a name: the offset of the name and the index. -/
structure Answer where
  off : Nat
  idx : Nat
  deriving DecidableEq, Repr

/-- The places of `ips` and of `ipo`. -/
def ipPlaces : Nat := 32

/-- The loop over the questions. The offset of a name is written to the next place of `ipo` at once, and its address to the same
place of `ips` when it is found; `answers` are the first `ipn` places of both. -/
def readQuestions (self : HevMappedDns) : Nat → List Octet → Nat → List Answer → HevMappedDns × Exit (Nat × List Answer)
  | 0, _, off, answers => (self, .done (off, answers))
  | qd + 1, rb, off, answers =>
    if answers.length ≥ ipPlaces then (self, .fault)
    else if off ≥ rb.length then (self, .rejected)
    else
      match readName rb.length rb off with
      | .fault => (self, .fault)
      | .rejected => (self, .rejected)
      | .done (rb, stop) =>
        if stop + 1 + 3 ≥ rb.length then (self, .rejected)
        else if readU16 rb (stop + 1) = some 1 ∧ readU16 rb (stop + 3) = some 1 then
          match (cString rb (off + 1)).bind self.find with
          | none => (self, .fault)
          | some (self, idx) => readQuestions self qd rb (stop + 5) (answers ++ [⟨off, idx⟩])
        else readQuestions self qd rb (stop + 5) answers

/-- The bytes of an answer. -/
def answerBytes (net : BitVec 32) (a : Answer) : List Octet :=
  u16Bytes (0xc000 ||| a.off) ++ u16Bytes 1 ++ u16Bytes 1 ++ u32Bytes 1 ++ u16Bytes 4 ++
    u32Bytes (net ||| BitVec.ofNat 32 a.idx).toNat

/-- The loop over the answers. -/
def writeAnswers (net : BitVec 32) : List Answer → List Octet → Nat → Exit (List Octet × Nat)
  | [], sb, off => .done (sb, off)
  | a :: as, sb, off =>
    if off + 15 ≥ sb.length then .rejected
    else
      match store sb off (answerBytes net a) with
      | none => .fault
      | some sb => writeAnswers net as sb (off + 16)

/-- The flags of the response: it is one, and recursion is available when it is desired. -/
def responseFlags (fl : Nat) : Nat := fl ||| 0x8000 ||| ((fl &&& 0x100) >>> 1)

/-- `hev_mapped_dns_handle`: the cache behind it, and the bytes of the response buffer that are sent. The counts of the header are
cleared in the copy of the request, and that of the answers is written with the flags at the end. -/
def handle (self : HevMappedDns) (req res : List Octet) : HevMappedDns × Exit (List Octet) :=
  if res.length < req.length then (self, .rejected)
  else if req.length < 12 then (self, .rejected)
  else
    match readU16 req 2, readU16 req 4, (store res 0 req).bind (store · 6 [0, 0, 0, 0, 0, 0]) with
    | some fl, some qd, some sb =>
      if qd > 32 then (self, .rejected)
      else
        match self.readQuestions qd req 12 [] with
        | (self, .fault) => (self, .fault)
        | (self, .rejected) => (self, .rejected)
        | (self, .done (off, answers)) =>
          match writeAnswers self.net answers sb off with
          | .fault => (self, .fault)
          | .rejected => (self, .rejected)
          | .done (sb, off) =>
            match (store sb 2 (u16Bytes (responseFlags fl))).bind (store · 6 (u16Bytes answers.length)) with
            | some sb => (self, .done (sb.take off))
            | none => (self, .fault)
    | _, _, _ => (self, .fault)

end HevMappedDns

end Open365Vpn
