import Open365Vpn.Theorems.RbTree
import Open365Vpn.Tunnel.Socks5
import Mathlib.Data.List.TakeWhile

/-!
# What the client and the server of a handshake do alone

The traces of the programs: what the client has read and written when its handshake succeeds (`client_trace`), and what the server
has read when it has written what such a client reads (`server_trace`).
-/

namespace Open365Vpn

namespace Socks5

open Duplex Duplex.Proc

variable {weak : Faults} {ins outs : List Octet}

/-! ## Sending and receiving -/

/-- A send that counts as a success has sent something, and everything when writes do not fail. -/
theorem trace_send_done {bs : List Octet} {ok : Bool}
    (h : Trace weak (socketSend bs >>= fun res => .done (decide (0 < res))) ins outs (.done ok)) :
    ins = [] ∧ outs <+: bs ∧ (ok = true ↔ outs ≠ []) ∧ (weak.put = false → outs = bs) := by
  obtain ⟨n, ins₁, ins₂, outs₁, outs₂, rfl, rfl, h, h'⟩ := trace_bind_done h
  obtain ⟨rfl, hp, rfl, hall⟩ := trace_putAll_done h
  obtain ⟨rfl, rfl, hok⟩ := h'
  cases hok
  refine ⟨rfl, by simpa using hp, ?_, by simpa using hall⟩
  simp [List.length_pos_iff]

/-- A send that has not ended has bytes left, and is at the next one. -/
theorem trace_send {bs : List Octet} {q : Proc Octet Bool}
    (h : Trace weak (socketSend bs >>= fun res => .done (decide (0 < res))) ins outs q) (hq : ∀ ok, q ≠ .done ok) :
    ins = [] ∧ outs <+: bs ∧ outs.length < bs.length ∧ ∃ b next failed, q = .put b next failed := by
  rcases trace_bind h with ⟨r, hp, hr, rfl⟩ | ⟨n, ins₁, ins₂, outs₁, outs₂, rfl, rfl, hp, hd⟩
  · obtain ⟨hin, hpre, hlt, b, next, failed, rfl⟩ := trace_putAll hp hr
    exact ⟨hin, hpre, hlt, b, _, _, rfl⟩
  · exact absurd hd.2.2 (hq _)

theorem atMost_send (bs : List Octet) : AtMost bs.length (socketSend bs >>= fun res => .done (decide (0 < res))) :=
  (atMost_putAll bs 0).bind (n := 0) fun _ => trivial

theorem atMost_recv {α : Type} {n : Nat} {f : List Octet → Proc Octet α} (hf : ∀ bs, AtMost 0 (f bs)) :
    AtMost 0 (socketRecv n >>= f) :=
  (atMost_getAll n []).bind hf

/-- A receive reads what it returns, and everything when it cannot fail. -/
theorem trace_recv_done {n : Nat} {bs : List Octet} (h : Trace weak (socketRecv n) ins outs (.done bs)) :
    outs = [] ∧ bs = ins ∧ bs.length ≤ n ∧ (weak.wait = false → bs.length = n) := by
  obtain ⟨rfl, rfl, hn, hall⟩ := trace_getAll_done h
  exact ⟨rfl, rfl, hn, hall⟩

theorem eval_send {bs : List Octet} (h : bs ≠ []) : Eval (socketSend bs >>= fun res => .done (decide (0 < res))) [] bs true := by
  have hpos : decide (0 < 0 + bs.length) = true := by
    rw [decide_eq_true_eq, Nat.zero_add]
    exact List.length_pos_iff.2 h
  have hend : Eval (.done (decide (0 < 0 + bs.length)) : Proc Octet Bool) [] [] true := ⟨rfl, rfl, hpos⟩
  have := (eval_putAll bs 0).bind (f := fun res => .done (decide (0 < res))) hend
  rwa [List.append_nil, List.append_nil] at this

theorem eval_recv {α : Type} (bs ins : List Octet) {outs : List Octet} {n : Nat} {f : List Octet → Proc Octet α} {a : α}
    (hn : bs.length = n) (h : Eval (f bs) ins outs a) : Eval (socketRecv n >>= f) (bs ++ ins) outs a := by
  subst hn
  exact (eval_getAll bs []).bind h

/-! ## The client -/

namespace HevSocks5Client

variable {c : HevSocks5Client}

/-- The method that the client offers. -/
def offer (c : HevSocks5Client) : Octet := if c.auth.isNone then 0 else 2

/-- The credentials as the client sends them. -/
def credBytes (c : HevSocks5Client) : List Octet := c.auth.elim [] fun (user, pass) => creds user pass

def request (c : HevSocks5Client) : List Octet := [5, c.type.cmd, 0] ++ c.addr.bytes

theorem writeAuthMethods_done {ok : Bool} (h : Trace false c.writeAuthMethods ins outs (.done ok)) :
    ins = [] ∧ outs = [5, 1, c.offer] := by
  obtain ⟨hi, _, _, hall⟩ := trace_send_done h
  exact ⟨hi, hall rfl⟩

theorem writeAuthCreds_done {ok : Bool} (h : Trace false c.writeAuthCreds ins outs (.done ok)) :
    ins = [] ∧ outs = c.credBytes := by
  unfold writeAuthCreds at h
  unfold credBytes
  split at h
  · rename_i ha
    obtain ⟨hi, ho, _⟩ := h
    rw [ha]
    exact ⟨hi, ho⟩
  · rename_i user pass ha
    obtain ⟨hi, _, _, hall⟩ := trace_send_done h
    rw [ha]
    exact ⟨hi, hall rfl⟩

theorem writeRequest_done {ok : Bool} (h : Trace false c.writeRequest ins outs (.done ok)) : ins = [] ∧ outs = c.request := by
  obtain ⟨hi, _, _, hall⟩ := trace_send_done h
  exact ⟨hi, hall rfl⟩

theorem readAuthMethod_done {method : Octet} (h : Trace weak readAuthMethod ins outs (.done (some method))) :
    outs = [] ∧ ins = [5, method] := by
  obtain ⟨bs, ins₁, ins₂, outs₁, outs₂, rfl, rfl, hr, hq⟩ := trace_bind_done h
  obtain ⟨rfl, rfl, _⟩ := trace_recv_done hr
  split at hq
  · rename_i ver m
    obtain ⟨rfl, rfl, hq⟩ := hq
    rw [Proc.done.injEq] at hq
    split at hq
    · rename_i hv
      cases hq
      exact ⟨rfl, by rw [hv]; rfl⟩
    · nomatch hq
  · obtain ⟨_, _, hq⟩ := hq
    nomatch hq

theorem readAuthCreds_done (h : Trace weak readAuthCreds ins outs (.done true)) : outs = [] ∧ ins = [1, 0] := by
  obtain ⟨bs, ins₁, ins₂, outs₁, outs₂, rfl, rfl, hr, hq⟩ := trace_bind_done h
  obtain ⟨rfl, rfl, _⟩ := trace_recv_done hr
  split at hq
  · rename_i ver rep
    obtain ⟨rfl, rfl, hq⟩ := hq
    rw [Proc.done.injEq, eq_comm, decide_eq_true_eq] at hq
    rw [hq.1, hq.2]
    exact ⟨rfl, rfl⟩
  · obtain ⟨_, _, hq⟩ := hq
    nomatch hq

/-- The response that a client takes as a success. -/
def IsResponse (bs : List Octet) : Prop :=
  ∃ rsv atype mem, bs = [5, 0, rsv, atype] ++ mem ∧ (atype = 1 ∧ mem.length = 6 ∨ atype = 4 ∧ mem.length = 18)

theorem readAddr_done {atype : Octet} {n : Nat} (h : Trace weak (c.readAddr atype n) ins outs (.done true)) :
    outs = [] ∧ ins.length = n := by
  obtain ⟨bs, ins₁, ins₂, outs₁, outs₂, rfl, rfl, hr, hq⟩ := trace_bind_done h
  obtain ⟨rfl, rfl, _⟩ := trace_recv_done hr
  split at hq
  · obtain ⟨_, _, hq⟩ := hq
    nomatch hq
  · rename_i hn
    obtain ⟨rfl, rfl, _⟩ := hq
    exact ⟨rfl, by simpa using hn⟩

theorem readResponse_done (h : Trace weak c.readResponse ins outs (.done true)) : outs = [] ∧ IsResponse ins := by
  obtain ⟨bs, ins₁, ins₂, outs₁, outs₂, rfl, rfl, hr, hq⟩ := trace_bind_done h
  obtain ⟨rfl, rfl, _⟩ := trace_recv_done hr
  split at hq
  · rename_i ver rep rsv atype _
    split at hq
    · nomatch hq.2.2
    rename_i hv
    split at hq
    · nomatch hq.2.2
    rename_i hrep
    rw [not_not] at hv hrep
    subst hv hrep
    split at hq
    · rename_i hat
      obtain ⟨rfl, hl⟩ := readAddr_done hq
      exact ⟨rfl, rsv, atype, ins₂, rfl, Or.inl ⟨hat, hl⟩⟩
    split at hq
    · rename_i hat
      obtain ⟨rfl, hl⟩ := readAddr_done hq
      exact ⟨rfl, rsv, atype, ins₂, rfl, Or.inr ⟨hat, hl⟩⟩
    · nomatch hq.2.2
  · nomatch hq.2.2

/-- What the client has read and written when its handshake succeeds. The credentials are written before the method is known in a
pipeline, and when the server has chosen them otherwise. -/
theorem client_trace {pipeline : Bool} (h : Trace false (c.handshake pipeline) ins outs (.done true)) :
    ∃ method resp, (method = 0 ∨ method = 2) ∧ IsResponse resp ∧
      ins = [5, method] ++ (if method = 2 then [1, 0] else []) ++ resp ∧
      outs = [5, 1, c.offer] ++ (if pipeline = true ∨ method = 2 then c.credBytes else []) ++ c.request := by
  cases pipeline with
  | true =>
    obtain ⟨ok, _, _, _, _, rfl, rfl, h₁, k₁⟩ := trace_bind_done h
    obtain ⟨rfl, rfl⟩ := writeAuthMethods_done h₁
    split at k₁
    · nomatch k₁.2.2
    obtain ⟨ok, _, _, _, _, rfl, rfl, h₂, k₂⟩ := trace_bind_done k₁
    obtain ⟨rfl, rfl⟩ := writeAuthCreds_done h₂
    split at k₂
    · nomatch k₂.2.2
    obtain ⟨ok, _, _, _, _, rfl, rfl, h₃, k₃⟩ := trace_bind_done k₂
    obtain ⟨rfl, rfl⟩ := writeRequest_done h₃
    split at k₃
    · nomatch k₃.2.2
    obtain ⟨method, _, _, _, _, rfl, rfl, h₄, k₄⟩ := trace_bind_done k₃
    split at k₄
    · nomatch k₄.2.2
    rename_i method
    obtain ⟨rfl, rfl⟩ := readAuthMethod_done h₄
    split at k₄
    · rename_i hm
      obtain ⟨ok, _, _, _, _, rfl, rfl, h₅, k₅⟩ := trace_bind_done k₄
      split at k₅
      · nomatch k₅.2.2
      rename_i hok
      simp only [Bool.not_eq_true', Bool.not_eq_false] at hok
      subst hok
      obtain ⟨rfl, rfl⟩ := readAuthCreds_done h₅
      obtain ⟨rfl, hresp⟩ := readResponse_done k₅
      exact ⟨method, _, Or.inr hm, hresp, by simp [hm], by simp⟩
    · rename_i hm
      split at k₄
      · nomatch k₄.2.2
      rename_i hz
      rw [not_not] at hz
      obtain ⟨rfl, hresp⟩ := readResponse_done k₄
      exact ⟨method, _, Or.inl hz, hresp, by simp [hm], by simp⟩
  | false =>
    obtain ⟨ok, _, _, _, _, rfl, rfl, h₁, k₁⟩ := trace_bind_done h
    obtain ⟨rfl, rfl⟩ := writeAuthMethods_done h₁
    split at k₁
    · nomatch k₁.2.2
    obtain ⟨method, _, _, _, _, rfl, rfl, h₂, k₂⟩ := trace_bind_done k₁
    split at k₂
    · nomatch k₂.2.2
    rename_i method
    obtain ⟨rfl, rfl⟩ := readAuthMethod_done h₂
    split at k₂
    · rename_i hm
      obtain ⟨ok, _, _, _, _, rfl, rfl, h₃, k₃⟩ := trace_bind_done k₂
      obtain ⟨rfl, rfl⟩ := writeAuthCreds_done h₃
      split at k₃
      · nomatch k₃.2.2
      obtain ⟨ok, _, _, _, _, rfl, rfl, h₄, k₄⟩ := trace_bind_done k₃
      split at k₄
      · nomatch k₄.2.2
      rename_i hok
      simp only [Bool.not_eq_true', Bool.not_eq_false] at hok
      subst hok
      obtain ⟨rfl, rfl⟩ := readAuthCreds_done h₄
      obtain ⟨ok, _, _, _, _, rfl, rfl, h₅, k₅⟩ := trace_bind_done k₄
      obtain ⟨rfl, rfl⟩ := writeRequest_done h₅
      split at k₅
      · nomatch k₅.2.2
      obtain ⟨rfl, hresp⟩ := readResponse_done k₅
      exact ⟨method, _, Or.inr hm, hresp, by simp [hm], by simp [hm]⟩
    · rename_i hm
      split at k₂
      · nomatch k₂.2.2
      rename_i hz
      rw [not_not] at hz
      obtain ⟨ok, _, _, _, _, rfl, rfl, h₃, k₃⟩ := trace_bind_done k₂
      obtain ⟨rfl, rfl⟩ := writeRequest_done h₃
      split at k₃
      · nomatch k₃.2.2
      obtain ⟨rfl, hresp⟩ := readResponse_done k₃
      exact ⟨method, _, Or.inl hz, hresp, by simp [hm], by simp [hm]⟩

end HevSocks5Client

/-! ## The server -/

namespace HevSocks5Server

variable {self : HevSocks5Server}

theorem atMost_readAuthMethod (self : HevSocks5Server) : AtMost 0 self.readAuthMethod := by
  refine atMost_recv fun bs => ?_
  split
  · split
    · trivial
    · refine atMost_recv fun methods => ?_
      split <;> trivial
  · trivial

theorem atMost_readAuthUser (tree : RedBlack.ColoredTree HevSocks5User) : AtMost 0 (readAuthUser tree) := by
  refine atMost_recv fun bs => ?_
  split
  · split
    · trivial
    split
    · trivial
    · refine atMost_recv fun name => ?_
      split
      · trivial
      dsimp only
      split
      · trivial
      · refine atMost_recv fun pass => ?_
        split <;> trivial
  · trivial

theorem atMost_readAddr (cmd atype first : Octet) (n : Nat) : AtMost 0 (self.readAddr cmd atype first n) := by
  refine atMost_recv fun mem => ?_
  split
  · trivial
  · dsimp only
    split <;> trivial

theorem atMost_readRequest : AtMost 0 self.readRequest := by
  refine atMost_recv fun bs => ?_
  split
  · split
    · trivial
    split
    · exact atMost_readAddr _ _ _ _
    split
    · exact atMost_readAddr _ _ _ _
    split
    · exact atMost_readAddr _ _ _ _
    · trivial
  · trivial

theorem atMost_writeAuthMethod (method : Option Octet) : AtMost 2 (writeAuthMethod method) := atMost_send [5, method.getD 255]

theorem atMost_writeAuthUser (res : Bool) : AtMost 2 (writeAuthUser res) := atMost_send [1, if res then 0 else 255]

/-- The server writes at most four bytes before the response. -/
theorem atMost_authenticate : AtMost 4 self.authenticate := by
  refine (atMost_readAuthMethod self).bind (n := 4) fun method => ?_
  refine (atMost_writeAuthMethod method).bind (n := 2) fun ok => ?_
  split
  · trivial
  split
  · trivial
  · trivial
  · refine (atMost_readAuthUser _).bind (n := 2) fun res => ?_
    exact (atMost_writeAuthUser res).bind (n := 0) fun ok => trivial

/-- What a server reads when it lets a client in, with the method it has chosen. -/
inductive LetsIn (self : HevSocks5Server) : Octet → List Octet → Prop where
  | free (h : self.auth = none) (methodLen : Octet) (methods : List Octet) (hlen : methods.length = methodLen.val)
      (hmem : 0 ∈ methods) : LetsIn self 0 (5 :: methodLen :: methods)
  | user (tree : RedBlack.ColoredTree HevSocks5User) (h : self.auth = some tree) (methodLen : Octet) (methods : List Octet)
      (hlen : methods.length = methodLen.val) (hmem : 2 ∈ methods) (nlen plen : Octet) (name pass : List Octet)
      (hname : name.length = nlen.val) (hpass : pass.length = plen.val) (hnlen : nlen ≠ 0) (hplen : plen ≠ 0)
      (hcheck : checkUser tree name pass = true) :
      LetsIn self 2 (5 :: methodLen :: (methods ++ 1 :: nlen :: (name ++ plen :: pass)))

theorem readAuthMethod_done {method : Octet} (h : Trace weak self.readAuthMethod ins outs (.done (some method))) :
    outs = [] ∧ method = (if self.auth.isSome then 2 else 0) ∧
      ∃ methodLen methods, ins = 5 :: methodLen :: methods ∧ methods.length = methodLen.val ∧ method ∈ methods := by
  obtain ⟨bs, ins₁, ins₂, outs₁, outs₂, rfl, rfl, hr, hq⟩ := trace_bind_done h
  obtain ⟨rfl, rfl, _⟩ := trace_recv_done hr
  split at hq
  · rename_i ver methodLen _
    split at hq
    · nomatch hq.2.2
    rename_i hv
    rw [not_not] at hv
    obtain ⟨methods, ins₃, ins₄, outs₃, outs₄, rfl, rfl, hr', hq'⟩ := trace_bind_done hq
    obtain ⟨rfl, rfl, _⟩ := trace_recv_done hr'
    split at hq'
    · nomatch hq'.2.2
    rename_i hlen
    rw [not_not] at hlen
    dsimp only at hq'
    obtain ⟨rfl, rfl, hm⟩ := hq'
    rw [Proc.done.injEq] at hm
    generalize (if self.auth.isSome then (2 : Octet) else 0) = chosen at hm ⊢
    split at hm
    · rename_i hany
      cases hm
      rw [List.any_eq_true] at hany
      obtain ⟨m, hmem, heq⟩ := hany
      rw [decide_eq_true_eq] at heq
      rw [heq] at hmem
      refine ⟨rfl, rfl, methodLen, methods, ?_, hlen, hmem⟩
      rw [hv, List.append_nil]
      rfl
    · nomatch hm
  · nomatch hq.2.2

theorem readAuthUser_done {tree : RedBlack.ColoredTree HevSocks5User}
    (h : Trace weak (readAuthUser tree) ins outs (.done true)) :
    outs = [] ∧ ∃ nlen plen name pass, ins = 1 :: nlen :: (name ++ plen :: pass) ∧ name.length = nlen.val ∧
      pass.length = plen.val ∧ nlen ≠ 0 ∧ plen ≠ 0 ∧ checkUser tree name pass = true := by
  obtain ⟨bs, ins₁, ins₂, outs₁, outs₂, rfl, rfl, hr, hq⟩ := trace_bind_done h
  obtain ⟨rfl, rfl, _⟩ := trace_recv_done hr
  split at hq
  · rename_i ver nlen _
    split at hq
    · nomatch hq.2.2
    rename_i hv
    rw [not_not] at hv
    split at hq
    · nomatch hq.2.2
    rename_i hnlen
    obtain ⟨name, ins₃, ins₄, outs₃, outs₄, rfl, rfl, hr', hq'⟩ := trace_bind_done hq
    obtain ⟨rfl, rfl, _⟩ := trace_recv_done hr'
    split at hq'
    · nomatch hq'.2.2
    rename_i hlen
    rw [not_not] at hlen
    dsimp only at hq'
    split at hq'
    · nomatch hq'.2.2
    rename_i hplen
    obtain ⟨pass, ins₅, ins₆, outs₅, outs₆, rfl, rfl, hr'', hq''⟩ := trace_bind_done hq'
    obtain ⟨rfl, rfl, _⟩ := trace_recv_done hr''
    split at hq''
    · nomatch hq''.2.2
    rename_i hpass
    rw [not_not] at hpass
    obtain ⟨rfl, rfl, hc⟩ := hq''
    rw [Proc.done.injEq] at hc
    have hsplit : name = name.take nlen.val ++ [name.getD nlen.val 0] := by
      rw [List.getD_eq_getElem?_getD, List.getElem?_eq_getElem (by omega), Option.getD_some, ← List.take_succ_eq_append_getElem (by omega),
        List.take_of_length_le (by omega)]
    refine ⟨rfl, nlen, name.getD nlen.val 0, name.take nlen.val, pass, ?_, ?_, hpass, hnlen, hplen, hc.symm⟩
    · have : name ++ (pass ++ []) = name.take nlen.val ++ name.getD nlen.val 0 :: pass := by
        conv_lhs => rw [hsplit]
        simp
      rw [hv, ← this]
      rfl
    · rw [List.length_take]
      omega
  · nomatch hq.2.2

/-- What a server has read and written when it lets a client in. A write of it that has been cut has written something. -/
theorem authenticate_done (h : Trace weak self.authenticate ins outs (.done true)) :
    ∃ method outs₁ outs₂, LetsIn self method ins ∧ outs = outs₁ ++ outs₂ ∧ outs₁ <+: [5, method] ∧ outs₁ ≠ [] ∧
      (method = 0 ∧ outs₂ = [] ∨ method = 2 ∧ outs₂ <+: [1, 0] ∧ outs₂ ≠ []) := by
  obtain ⟨method, ins₁, ins₂, outs₁, outs₂, rfl, rfl, hr, hq⟩ := trace_bind_done h
  obtain ⟨ok, ins₃, ins₄, outs₃, outs₄, rfl, rfl, hs, hq'⟩ := trace_bind_done hq
  obtain ⟨rfl, hpre, hok, -⟩ := trace_send_done hs
  split at hq'
  · nomatch hq'.2.2
  rename_i hne
  simp only [Bool.not_eq_true', Bool.not_eq_false] at hne
  split at hq'
  · nomatch hq'.2.2
  · rename_i m ha
    obtain ⟨rfl, rfl, _⟩ := hq'
    obtain ⟨rfl, hm, methodLen, methods, rfl, hlen, hmem⟩ := readAuthMethod_done hr
    rw [ha] at hm
    obtain rfl : m = 0 := hm
    refine ⟨0, outs₃, [], ?_, rfl, hpre, hok.1 hne, Or.inl ⟨rfl, rfl⟩⟩
    have := LetsIn.free ha methodLen methods hlen hmem
    simpa using this
  · rename_i m tree ha
    obtain ⟨rfl, hm, methodLen, methods, rfl, hlen, hmem⟩ := readAuthMethod_done hr
    rw [ha] at hm
    obtain rfl : m = 2 := hm
    obtain ⟨res, ins₅, ins₆, outs₅, outs₆, rfl, rfl, hu, hq''⟩ := trace_bind_done hq'
    obtain ⟨ok', ins₇, ins₈, outs₇, outs₈, rfl, rfl, hs', hd⟩ := trace_bind_done hq''
    obtain ⟨rfl, rfl, hres⟩ := hd
    rw [Proc.done.injEq, eq_comm, Bool.and_eq_true] at hres
    obtain ⟨rfl, hok'⟩ := hres
    obtain ⟨rfl, hpre', hne', _⟩ := trace_send_done hs'
    obtain ⟨rfl, nlen, plen, name, pass, rfl, hname, hpass, hnlen, hplen, hcheck⟩ := readAuthUser_done hu
    refine ⟨2, outs₃, outs₇, ?_, by simp, hpre, hok.1 hne, Or.inr ⟨rfl, hpre', hne'.1 hok'⟩⟩
    have := LetsIn.user tree ha methodLen methods hlen hmem nlen plen name pass hname hpass hnlen hplen hcheck
    simpa using this

/-- The bytes of an address behind its first one have the length that its type asks for. -/
def AddrFits (atype first : Octet) (mem : List Octet) : Prop :=
  atype = 1 ∧ mem.length = 5 ∨ atype = 4 ∧ mem.length = 17 ∨ atype = 3 ∧ mem.length = 2 + first.val

theorem readAddr_done {cmd atype first : Octet} {n : Nat} {req : Request}
    (h : Trace weak (self.readAddr cmd atype first n) ins outs (.done (some req))) (hrep : req.rep = 0) :
    outs = [] ∧ ins.length = n ∧ req.cmd = cmd ∧ addrIntoSockaddr6 self.resolve atype (first :: ins) = (true, req.addr) := by
  obtain ⟨mem, ins₁, ins₂, outs₁, outs₂, rfl, rfl, hr, hq⟩ := trace_bind_done h
  obtain ⟨rfl, rfl, _⟩ := trace_recv_done hr
  split at hq
  · obtain ⟨_, _, hq⟩ := hq
    cases hq
    nomatch hrep
  rename_i hlen
  rw [not_not] at hlen
  generalize haddr : addrIntoSockaddr6 self.resolve atype (first :: mem) = r at hq
  obtain ⟨ok, addr⟩ := r
  dsimp only at hq
  split at hq
  · rename_i hok
    obtain ⟨rfl, rfl, hq⟩ := hq
    cases hq
    rw [List.append_nil mem, haddr, hok]
    exact ⟨rfl, hlen, rfl, rfl⟩
  · obtain ⟨_, _, hq⟩ := hq
    cases hq
    nomatch hrep

theorem readRequest_done {req : Request} (h : Trace weak self.readRequest ins outs (.done (some req))) (hrep : req.rep = 0) :
    outs = [] ∧ ∃ rsv atype first mem, ins = 5 :: req.cmd :: rsv :: atype :: first :: mem ∧ AddrFits atype first mem ∧
      addrIntoSockaddr6 self.resolve atype (first :: mem) = (true, req.addr) := by
  obtain ⟨bs, ins₁, ins₂, outs₁, outs₂, rfl, rfl, hr, hq⟩ := trace_bind_done h
  obtain ⟨rfl, rfl, _⟩ := trace_recv_done hr
  split at hq
  · rename_i ver cmd rsv atype first _
    split at hq
    · obtain ⟨_, _, hq⟩ := hq
      cases hq
      nomatch hrep
    rename_i hv
    rw [not_not] at hv
    subst hv
    split at hq
    · rename_i hat
      obtain ⟨rfl, hlen, rfl, haddr⟩ := readAddr_done hq hrep
      exact ⟨rfl, rsv, atype, first, ins₂, rfl, Or.inl ⟨hat, hlen⟩, haddr⟩
    split at hq
    · rename_i hat
      obtain ⟨rfl, hlen, rfl, haddr⟩ := readAddr_done hq hrep
      exact ⟨rfl, rsv, atype, first, ins₂, rfl, Or.inr (Or.inl ⟨hat, hlen⟩), haddr⟩
    split at hq
    · rename_i hat
      obtain ⟨rfl, hlen, rfl, haddr⟩ := readAddr_done hq hrep
      exact ⟨rfl, rsv, atype, first, ins₂, rfl, Or.inr (Or.inr ⟨hat, hlen⟩), haddr⟩
    · obtain ⟨_, _, hq⟩ := hq
      cases hq
      nomatch hrep
  · nomatch hq.2.2

/-- A reply of success is given to a request that has been read, and the session has the type of its command. -/
theorem serve_success {req : Request} (h : (self.serve req).1 = 0) :
    req.rep = 0 ∧ ∃ type : HevSocks5Type, (self.serve req).2.2 = some type ∧ req.cmd = type.cmd := by
  unfold serve at h ⊢
  split at h
  · rename_i hrep
    exact absurd h hrep
  rename_i hrep
  rw [not_not] at hrep
  refine ⟨hrep, ?_⟩
  rw [if_neg (not_not.2 hrep)]
  split at h
  · rename_i hcmd
    rw [if_pos hcmd]
    exact ⟨.tcp, rfl, hcmd⟩
  rename_i h1
  rw [if_neg h1]
  split at h
  · rename_i hcmd
    rw [if_pos hcmd]
    exact ⟨.udpInUdp, rfl, hcmd⟩
  rename_i h3
  rw [if_neg h3]
  split at h
  · rename_i hcmd
    rw [if_pos hcmd]
    exact ⟨.udpInTcp, rfl, hcmd⟩
  · nomatch h

end HevSocks5Server

@[simp] theorem length_bytes (addr : HevSocks5Addr) : addr.bytes.length = addr.len := by
  cases addr <;> simp [HevSocks5Addr.bytes, HevSocks5Addr.len]
  omega

/-- The response of a server has the length that a client reads for the type in it. -/
theorem isResponse_length {resp rest : List Octet} {rep : Octet} {addr : SockAddr6} (h : HevSocks5Client.IsResponse resp)
    (hp : resp ++ rest <+: [5, rep, 0] ++ (addrFromSockaddr6 addr).bytes) :
    rep = 0 ∧ rest = [] ∧ resp.length = 3 + (addrFromSockaddr6 addr).len := by
  obtain ⟨rsv, atype, mem, rfl, hmem⟩ := h
  have hlen := hp.length_le
  obtain ⟨t, ht⟩ := hp
  unfold addrFromSockaddr6 at *
  split at ht
  · rename_i hmap
    rw [if_pos hmap] at hlen ⊢
    simp only [HevSocks5Addr.bytes, List.cons_append, List.nil_append, List.cons.injEq] at ht
    obtain ⟨_, hrep, _, hat, _⟩ := ht
    rcases hmem with ⟨_, hmem⟩ | ⟨hne, _⟩
    · simp only [List.length_append, List.length_cons, List.length_nil, hmem, length_bytes, HevSocks5Addr.len] at hlen
      exact ⟨hrep.symm, List.length_eq_zero_iff.1 (by omega), by simp [hmem, HevSocks5Addr.len]⟩
    · rw [hat] at hne
      nomatch hne
  · rename_i hmap
    rw [if_neg hmap] at hlen ⊢
    simp only [HevSocks5Addr.bytes, List.cons_append, List.nil_append, List.cons.injEq] at ht
    obtain ⟨_, hrep, _, hat, _⟩ := ht
    rcases hmem with ⟨hne, _⟩ | ⟨_, hmem⟩
    · rw [hat] at hne
      nomatch hne
    · simp only [List.length_append, List.length_cons, List.length_nil, hmem, length_bytes, HevSocks5Addr.len] at hlen
      exact ⟨hrep.symm, List.length_eq_zero_iff.1 (by omega), by simp [hmem, HevSocks5Addr.len]⟩

theorem pair_of_prefix {a b : Octet} {l : List Octet} (hp : l <+: [a, b]) (hn : l ≠ []) : l = [a] ∨ l = [a, b] := by
  obtain ⟨t, ht⟩ := hp
  rcases l with _ | ⟨x, _ | ⟨y, _ | ⟨z, l⟩⟩⟩
  · exact absurd rfl hn
  · rw [List.singleton_append, List.cons.injEq] at ht
    exact Or.inl (by rw [ht.1])
  · rw [List.cons_append, List.cons_append, List.cons.injEq, List.cons.injEq] at ht
    exact Or.inr (by rw [ht.1, ht.2.1])
  · simp at ht

/-- Where the response begins in what the server has written: a write that has been cut would put a byte in the place of the
method or of the result that no client takes. -/
theorem response_aligned {m method : Octet} {outs₁ outs₂ tail bytes x : List Octet} (hp₁ : outs₁ <+: [5, m]) (hn₁ : outs₁ ≠ [])
    (hrest : m = 0 ∧ outs₂ = [] ∨ m = 2 ∧ outs₂ <+: [1, 0] ∧ outs₂ ≠ []) (hm : method = 0 ∨ method = 2)
    (htail : tail <+: 5 :: bytes)
    (h : outs₁ ++ outs₂ ++ tail = [5, method] ++ (if method = 2 then [1, 0] else []) ++ 5 :: x) :
    m = method ∧ tail = 5 :: x := by
  have hfirst := pair_of_prefix hp₁ hn₁
  have hthird : tail = [] ∨ ∃ t, tail = 5 :: t := by
    rcases List.prefix_cons_iff.1 htail with rfl | ⟨t, rfl, _⟩
    · exact Or.inl rfl
    · exact Or.inr ⟨t, rfl⟩
  rcases hfirst with rfl | rfl
  · -- the method has been cut off
    exfalso
    rcases hrest with ⟨rfl, rfl⟩ | ⟨rfl, hp, hn⟩
    · rcases hthird with rfl | ⟨t, rfl⟩
      · simp at h
      · rcases hm with rfl | rfl <;> simp at h
    · rcases pair_of_prefix hp hn with rfl | rfl <;> rcases hm with rfl | rfl <;> simp at h
  · rcases hrest with ⟨rfl, rfl⟩ | ⟨rfl, hp, hn⟩
    · rcases hm with rfl | rfl
      · exact ⟨rfl, by simpa using h⟩
      · simp at h
    · rcases hm with rfl | rfl
      · simp at h
      · rcases pair_of_prefix hp hn with rfl | rfl
        · rcases hthird with rfl | ⟨t, rfl⟩ <;> simp at h
        · exact ⟨rfl, by simpa using h⟩

/-- A server that has written what a client reads has let it in, has read a request and has ended its handshake with it. -/
theorem server_trace {self : HevSocks5Server} {q : Proc Octet (Option (HevSocks5Type × SockAddr6))} {method : Octet}
    {resp rest : List Octet} (h : Trace weak self.handshake ins outs q) (hm : method = 0 ∨ method = 2)
    (hresp : HevSocks5Client.IsResponse resp)
    (houts : outs = [5, method] ++ (if method = 2 then [1, 0] else []) ++ (resp ++ rest)) :
    rest = [] ∧ ∃ (front : List Octet) (type : HevSocks5Type) (addr : SockAddr6) (rsv atype first : Octet) (mem : List Octet),
      HevSocks5Server.LetsIn self method front ∧ ins = front ++ 5 :: type.cmd :: rsv :: atype :: first :: mem ∧
      HevSocks5Server.AddrFits atype first mem ∧ addrIntoSockaddr6 self.resolve atype (first :: mem) = (true, addr) ∧
      q = .done (some (type, addr)) := by
  have hlong : 4 < outs.length := by
    obtain ⟨rsv, atype, mem, rfl, hmem⟩ := hresp
    rw [houts]
    simp only [List.length_append, List.length_cons, List.length_nil]
    omega
  rcases trace_bind h with ⟨r, ht, _, _⟩ | ⟨ok, ins₁, ins₂, outs₁, outs₂, rfl, rfl, ht, hq⟩
  · have := HevSocks5Server.atMost_authenticate.length_le ht
    omega
  have hshort := HevSocks5Server.atMost_authenticate.length_le ht
  rw [List.length_append] at hlong
  cases ok with
  | false =>
    rw [hq.2.1, List.length_nil] at hlong
    omega
  | true =>
    rw [if_neg (by decide)] at hq
    obtain ⟨m, a₁, a₂, hin, rfl, hp₁, hn₁, hrest⟩ := HevSocks5Server.authenticate_done ht
    rcases trace_bind hq with ⟨r, ht', _, _⟩ | ⟨req, ins₃, ins₄, outs₃, outs₄, rfl, rfl, ht', hq'⟩
    · have := HevSocks5Server.atMost_readRequest.length_le ht'
      omega
    obtain rfl : outs₃ = [] := List.length_eq_zero_iff.1 (Nat.le_zero.1 (HevSocks5Server.atMost_readRequest.length_le ht'))
    cases req with
    | none =>
      rw [hq'.2.1, List.nil_append, List.length_nil] at hlong
      omega
    | some req =>
      dsimp only at hq'
      generalize hserve : self.serve req = reply at hq'
      obtain ⟨rep, addr, type⟩ := reply
      dsimp only at hq'
      -- what is written behind the four bytes is the beginning of a response
      have hwritten : outs₄ <+: [5, rep, 0] ++ (addrFromSockaddr6 addr).bytes ∧
          (outs₄.length < ([5, rep, 0] ++ (addrFromSockaddr6 addr).bytes).length ∨
            ∃ ok, ins₄ = [] ∧ (ok = true ↔ outs₄ ≠ []) ∧ q = if !ok then .done none else if rep ≠ 0 then .done none
              else .done (type.map fun type => (type, req.addr))) := by
        rcases trace_bind hq' with ⟨r, hs, hr, _⟩ | ⟨ok, ins₅, ins₆, outs₅, outs₆, rfl, rfl, hs, hd⟩
        · obtain ⟨_, hp, hlt, _⟩ := trace_send hs hr
          exact ⟨hp, Or.inl hlt⟩
        · obtain ⟨rfl, hp, hok, -⟩ := trace_send_done hs
          have hend : ins₆ = [] ∧ outs₆ = [] ∧ q = if !ok then .done none else if rep ≠ 0 then .done none
              else .done (type.map fun type => (type, req.addr)) := by
            split at hd
            · rename_i hno
              rw [if_pos hno]
              exact hd
            rename_i hno
            rw [if_neg hno]
            split at hd
            · rename_i hrep
              rw [if_pos hrep]
              exact hd
            · rename_i hrep
              rw [if_neg hrep]
              exact hd
          obtain ⟨rfl, rfl, rfl⟩ := hend
          rw [List.append_nil]
          exact ⟨hp, Or.inr ⟨ok, rfl, hok, rfl⟩⟩
      obtain ⟨hp, hend⟩ := hwritten
      have hresp' : resp ++ rest = 5 :: (resp ++ rest).tail := by
        obtain ⟨rsv, atype, mem, rfl, _⟩ := hresp
        rfl
      rw [hresp', List.nil_append] at houts
      obtain ⟨rfl, htail⟩ := response_aligned hp₁ hn₁ hrest hm hp houts
      rw [← hresp'] at htail
      subst htail
      obtain ⟨rfl, rfl, hlen⟩ := isResponse_length hresp hp
      rw [List.append_nil] at hend
      rcases hend with hlt | ⟨ok, rfl, hok, rfl⟩
      · simp only [List.length_append, List.length_cons, List.length_nil, length_bytes] at hlt
        omega
      · have hone : ok = true := by
          rw [hok]
          rintro rfl
          simp at hlen
          omega
        have hzero : (self.serve req).1 = 0 := by rw [hserve]
        obtain ⟨hrep, type', htype, hcmd⟩ := HevSocks5Server.serve_success hzero
        rw [hserve] at htype
        obtain rfl : type = some type' := htype
        obtain ⟨_, rsv, atype, first, mem, rfl, hfits, haddr⟩ := HevSocks5Server.readRequest_done ht' hrep
        refine ⟨rfl, ins₁, type', req.addr, rsv, atype, first, mem, hin, ?_, hfits, haddr, ?_⟩
        · rw [hcmd, List.append_nil]
        · rw [hone]
          rfl

/-! ## The address in a request -/

/-- The address that a client means, and whether the server finds it. -/
def HevSocks5Addr.target (resolve : Resolver) : HevSocks5Addr → Bool × SockAddr6
  | .ipv4 addr port => (true, ipv4IntoSockaddr6 addr port)
  | .ipv6 addr port => (true, ⟨addr, port⟩)
  | .name addr port _ _ => resolve addr port

theorem slice_append {n : Nat} (pre : List Octet) (v : List.Vector Octet n) (post : List Octet) :
    slice (pre ++ (v.toList ++ post)) pre.length n = v := by
  apply List.Vector.ext
  intro i
  have hi : i.val < v.toList.length := by
    rw [List.Vector.toList_length]
    exact i.isLt
  unfold slice
  rw [List.Vector.get_ofFn, List.getD_eq_getElem?_getD, List.getElem?_append_right (by omega), Nat.add_sub_cancel_left,
    List.getElem?_append_left hi, List.getElem?_eq_getElem hi, Option.getD_some]
  rfl

/-- What the server makes of the bytes of an address. -/
theorem addrIntoSockaddr6_bytes (resolve : Resolver) (addr : HevSocks5Addr) {atype : Octet} {mem : List Octet}
    (h : addr.bytes = atype :: mem) : addrIntoSockaddr6 resolve atype mem = addr.target resolve := by
  cases addr with
  | ipv4 a p =>
    rw [HevSocks5Addr.bytes, List.cons.injEq] at h
    obtain ⟨rfl, rfl⟩ := h
    have ha : slice (a.toList ++ p.toList) 0 4 = a := slice_append [] a p.toList
    have hp : slice (a.toList ++ p.toList) 4 2 = p := by
      have := slice_append a.toList p []
      rwa [List.append_nil, List.Vector.toList_length] at this
    unfold addrIntoSockaddr6 HevSocks5Addr.target
    rw [if_pos rfl, ha, hp]
  | ipv6 a p =>
    rw [HevSocks5Addr.bytes, List.cons.injEq] at h
    obtain ⟨rfl, rfl⟩ := h
    have ha : slice (a.toList ++ p.toList) 0 16 = a := slice_append [] a p.toList
    have hp : slice (a.toList ++ p.toList) 16 2 = p := by
      have := slice_append a.toList p []
      rwa [List.append_nil, List.Vector.toList_length] at this
    unfold addrIntoSockaddr6 HevSocks5Addr.target
    rw [if_neg (by decide), if_pos rfl, ha, hp]
  | name a p fits string =>
    rw [HevSocks5Addr.bytes, List.cons.injEq] at h
    obtain ⟨rfl, rfl⟩ := h
    have hp : slice (octet a.length :: (a ++ p.toList)) (1 + a.length) 2 = p := by
      have := slice_append (octet a.length :: a) p []
      rwa [List.append_nil, List.length_cons, Nat.add_comm, List.cons_append] at this
    have hw : a.takeWhile (· ≠ 0) = a := by
      rw [List.takeWhile_eq_self_iff]
      intro b hb
      rw [decide_eq_true_eq]
      rintro rfl
      exact string hb
    unfold addrIntoSockaddr6 HevSocks5Addr.target
    rw [if_neg (by decide), if_neg (by decide), if_pos rfl]
    dsimp only [List.headD_cons, List.tail_cons]
    rw [octet_val fits, List.take_left, hw, hp]

/-- A server that has read an address of the type and length it asks for has read the whole address and no more. -/
theorem addr_aligned (resolve : Resolver) (addr : HevSocks5Addr) {atype first : Octet} {mem forth : List Octet}
    (hfits : HevSocks5Server.AddrFits atype first mem) (h : atype :: first :: mem ++ forth = addr.bytes) :
    forth = [] ∧ addrIntoSockaddr6 resolve atype (first :: mem) = addr.target resolve := by
  have hlen : mem.length + 2 = addr.len := by
    cases addr with
    | ipv4 a p =>
      rw [HevSocks5Addr.bytes, List.cons_append, List.cons.injEq] at h
      rcases hfits with ⟨_, hm⟩ | ⟨hat, _⟩ | ⟨hat, _⟩
      · rw [hm]
        rfl
      · exact absurd (hat.symm.trans h.1) (by decide)
      · exact absurd (hat.symm.trans h.1) (by decide)
    | ipv6 a p =>
      rw [HevSocks5Addr.bytes, List.cons_append, List.cons.injEq] at h
      rcases hfits with ⟨hat, _⟩ | ⟨_, hm⟩ | ⟨hat, _⟩
      · exact absurd (hat.symm.trans h.1) (by decide)
      · rw [hm]
        rfl
      · exact absurd (hat.symm.trans h.1) (by decide)
    | name a p fits string =>
      rw [HevSocks5Addr.bytes, List.cons_append, List.cons.injEq, List.cons_append, List.cons.injEq] at h
      rcases hfits with ⟨hat, _⟩ | ⟨hat, _⟩ | ⟨_, hm⟩
      · exact absurd (hat.symm.trans h.1) (by decide)
      · exact absurd (hat.symm.trans h.1) (by decide)
      · rw [hm, h.2.1, octet_val fits, HevSocks5Addr.len]
        omega
  have htotal := congrArg List.length h
  rw [length_bytes, List.length_append, List.length_cons, List.length_cons] at htotal
  obtain rfl : forth = [] := List.length_eq_zero_iff.1 (by omega)
  rw [List.append_nil] at h
  exact ⟨rfl, addrIntoSockaddr6_bytes resolve addr h.symm⟩

theorem cmd_injective {t t' : HevSocks5Type} (h : t.cmd = t'.cmd) : t = t' := by
  cases t <;> cases t' <;> first | rfl | exact absurd h (by decide)

/-- The credentials that a server reads of a client. -/
def HevSocks5Server.Admits (self : HevSocks5Server) (auth : Option (List Octet × List Octet)) : Prop :=
  match auth, self.auth with
  | none, none => True
  | some (user, pass), some tree =>
    let user := user.take (octet user.length).val
    let pass := pass.take (octet pass.length).val
    user ≠ [] ∧ pass ≠ [] ∧ checkUser tree user pass = true
  | _, _ => False

theorem length_take_octet (l : List Octet) : (l.take (octet l.length).val).length = (octet l.length).val := by
  rw [List.length_take]
  exact Nat.min_eq_left (Nat.mod_le _ _)

/-- A server that has let a client in has read its credentials, and the request is what comes next. -/
theorem letsIn_aligned {c : HevSocks5Client} {self : HevSocks5Server} {pipeline : Bool} {method : Octet}
    {front tail : List Octet} (hin : HevSocks5Server.LetsIn self method front)
    (h : front ++ tail = [5, 1, c.offer] ++ (if pipeline = true ∨ method = 2 then c.credBytes else []) ++ c.request) :
    self.Admits c.auth ∧ tail = c.request := by
  have hone : ∀ (n : Octet) (methods : List Octet) (x y : List Octet), methods.length = n.val →
      5 :: n :: (methods ++ x) = [5, 1, c.offer] ++ y → methods = [c.offer] ∧ x = y := by
    intro n methods x y hlen he
    rw [List.cons_append, List.cons_append, List.cons.injEq, List.cons.injEq] at he
    rw [he.2.1] at hlen
    obtain ⟨m, rfl⟩ := List.length_eq_one_iff.1 hlen
    rw [List.singleton_append, List.singleton_append, List.cons.injEq] at he
    exact ⟨by rw [he.2.2.1], he.2.2.2⟩
  cases hin with
  | free ha n methods hlen hmem =>
    rw [List.cons_append, List.cons_append, List.append_assoc [5, 1, c.offer]] at h
    obtain ⟨rfl, htail⟩ := hone n methods _ _ hlen h
    have hoffer : c.offer = 0 := (List.mem_singleton.1 hmem).symm
    cases hauth : c.auth with
    | some up =>
      rw [HevSocks5Client.offer, hauth] at hoffer
      nomatch hoffer
    | none =>
      have hcred : c.credBytes = [] := by
        rw [HevSocks5Client.credBytes, hauth]
        rfl
      rw [hcred, ite_self, List.nil_append] at htail
      refine ⟨?_, htail⟩
      unfold HevSocks5Server.Admits
      rw [ha]
      trivial
  | user tree ha n methods hlen hmem nlen plen name pass hname hpass hnlen hplen hcheck =>
    rw [List.cons_append, List.cons_append, List.append_assoc, List.append_assoc [5, 1, c.offer]] at h
    obtain ⟨rfl, htail⟩ := hone n methods _ _ hlen h
    have hoffer : c.offer = 2 := (List.mem_singleton.1 hmem).symm
    cases hauth : c.auth with
    | none =>
      rw [HevSocks5Client.offer, hauth] at hoffer
      exact absurd hoffer (by decide)
    | some up =>
      obtain ⟨u, p⟩ := up
      have hcred : c.credBytes = 1 :: octet u.length :: (u.take (octet u.length).val ++
          octet p.length :: p.take (octet p.length).val) := by
        rw [HevSocks5Client.credBytes, hauth]
        simp [HevSocks5Client.creds]
      rw [if_pos (Or.inr rfl), hcred] at htail
      simp only [List.cons_append, List.append_assoc, List.cons.injEq, true_and] at htail
      obtain ⟨rfl, hrest⟩ := htail
      obtain ⟨rfl, hrest'⟩ := List.append_inj hrest (by rw [hname, length_take_octet])
      rw [List.cons.injEq] at hrest'
      obtain ⟨rfl, hrest''⟩ := hrest'
      obtain ⟨rfl, hreq⟩ := List.append_inj hrest'' (by rw [hpass, length_take_octet])
      refine ⟨?_, hreq⟩
      unfold HevSocks5Server.Admits
      rw [ha]
      refine ⟨?_, ?_, hcheck⟩
      · intro he
        rw [he] at hname
        exact hnlen (Fin.ext hname.symm)
      · intro he
        rw [he] at hpass
        exact hplen (Fin.ext hpass.symm)

end Socks5

end Open365Vpn
