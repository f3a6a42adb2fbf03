import Open365Vpn.Lemmas.Socks5

/-!
# The handshake of the client and the server

What holds of the two together, in any order of their moves and in any fragmentation of what they send: whatever fails, a client
that has succeeded is connected to what it has asked for, and no byte of the handshake is left for the stream behind it
(`socks5_handshake_agrees`); and without a failure the handshake comes to its end, with a result that does not depend on the
order, nor on whether the client waits for the replies or sends everything at once (`socks5_handshake_completes`).
-/

namespace Open365Vpn

open Runs Duplex Duplex.Proc RedBlack

namespace Socks5

namespace Socks5Aux

/-! ## Runs without a failure -/

variable {c : HevSocks5Client} {self : HevSocks5Server}

/-- The server reads the method of the client. -/
theorem eval_readAuthMethod (o : Octet) :
    Eval self.readAuthMethod [5, 1, o] [] (if o = (if self.auth.isSome then 2 else 0) then some o else none) := by
  refine eval_recv [5, 1] [o] rfl ?_
  dsimp only
  rw [if_neg (show ¬((5 : Octet) ≠ 5) by decide)]
  refine eval_recv [o] [] rfl ?_
  rw [if_neg (show ¬([o].length ≠ (1 : Octet).val) by simp)]
  refine ⟨rfl, rfl, ?_⟩
  generalize (if self.auth.isSome then (2 : Octet) else 0) = chosen
  by_cases h : o = chosen
  · rw [if_pos h, if_pos (by simp [h]), h]
  · rw [if_neg h, if_neg (by simp [h])]

/-- The server reads credentials: all of them when they are right. -/
theorem eval_readAuthUser (tree : ColoredTree HevSocks5User) (user pass : List Octet) :
    ∃ ins rest res, HevSocks5Client.creds user pass = ins ++ rest ∧ Eval (HevSocks5Server.readAuthUser tree) ins [] res ∧
      (res = true ↔ user.take (octet user.length).val ≠ [] ∧ pass.take (octet pass.length).val ≠ [] ∧
        HevSocks5Server.checkUser tree (user.take (octet user.length).val) (pass.take (octet pass.length).val) = true) ∧
      (res = true → rest = []) := by
  have hcreds : HevSocks5Client.creds user pass = [1, octet user.length] ++
      (user.take (octet user.length).val ++ [octet pass.length] ++ pass.take (octet pass.length).val) := by
    simp [HevSocks5Client.creds]
  have hu := length_take_octet user
  have hp := length_take_octet pass
  generalize octet user.length = nlen at *
  generalize octet pass.length = plen at *
  generalize user.take nlen.val = u at *
  generalize pass.take plen.val = p at *
  have hempty : ∀ (n : Octet) (l : List Octet), l.length = n.val → (l = [] ↔ n = 0) := by
    intro n l hl
    rw [← List.length_eq_zero_iff, hl, Fin.ext_iff]
    rfl
  by_cases hn : nlen = 0
  · refine ⟨[1, nlen], u ++ [plen] ++ p, false, hcreds, ?_, ?_, fun h => absurd h Bool.false_ne_true⟩
    · refine eval_recv [1, nlen] [] rfl ?_
      dsimp only
      rw [if_neg (show ¬((1 : Octet) ≠ 1) by decide), if_pos hn]
      exact eval_done _
    · have := (hempty nlen u hu).2 hn
      simp [this]
  have hlen : (u ++ [plen]).length = nlen.val + 1 := by
    rw [List.length_append, hu]
    rfl
  have hplen : (u ++ [plen]).getD nlen.val 0 = plen := by
    rw [← hu, List.getD_eq_getElem?_getD]
    simp
  by_cases hz : plen = 0
  · refine ⟨[1, nlen] ++ (u ++ [plen] ++ []), p, false, ?_, ?_, ?_, fun h => absurd h Bool.false_ne_true⟩
    · rw [hcreds]
      simp
    · refine eval_recv [1, nlen] _ rfl ?_
      dsimp only
      rw [if_neg (show ¬((1 : Octet) ≠ 1) by decide), if_neg hn]
      refine eval_recv (u ++ [plen]) [] hlen ?_
      rw [if_neg (not_not.2 hlen), hplen, if_pos hz]
      exact eval_done _
    · have := (hempty plen p hp).2 hz
      simp [this]
  · refine ⟨[1, nlen] ++ (u ++ [plen] ++ (p ++ [])), [], HevSocks5Server.checkUser tree u p, ?_, ?_, ?_, fun _ => rfl⟩
    · rw [hcreds]
      simp
    · refine eval_recv [1, nlen] _ rfl ?_
      dsimp only
      rw [if_neg (show ¬((1 : Octet) ≠ 1) by decide), if_neg hn]
      refine eval_recv (u ++ [plen]) _ hlen ?_
      rw [if_neg (not_not.2 hlen), hplen, if_neg hz]
      refine eval_recv p [] hp ?_
      rw [if_neg (not_not.2 hp), ← hu, List.take_left]
      exact eval_done _
    · have hune : u ≠ [] := fun he => hn ((hempty nlen u hu).1 he)
      have hpne : p ≠ [] := fun he => hz ((hempty plen p hp).1 he)
      simp [hune, hpne]

/-- The server reads the request of a client. -/
theorem eval_readRequest (c : HevSocks5Client) (self : HevSocks5Server) :
    ∃ req, Eval self.readRequest c.request [] (some req) ∧ req.addr = (c.addr.target self.resolve).2 ∧
      if (c.addr.target self.resolve).1 then req.rep = 0 ∧ req.cmd = c.type.cmd else req.rep = 8 := by
  obtain ⟨atype, first, mem, hbytes, hfits⟩ : ∃ atype first mem, c.addr.bytes = atype :: first :: mem ∧
      HevSocks5Server.AddrFits atype first mem := by
    cases c.addr with
    | ipv4 a p =>
      obtain ⟨x, xs, hx⟩ := List.exists_cons_of_length_eq_add_one a.toList_length
      refine ⟨1, x, xs ++ p.toList, by rw [HevSocks5Addr.bytes, hx]; rfl, Or.inl ⟨rfl, ?_⟩⟩
      have := a.toList_length
      rw [hx] at this
      simp at this ⊢
      omega
    | ipv6 a p =>
      obtain ⟨x, xs, hx⟩ := List.exists_cons_of_length_eq_add_one a.toList_length
      refine ⟨4, x, xs ++ p.toList, by rw [HevSocks5Addr.bytes, hx]; rfl, Or.inr (Or.inl ⟨rfl, ?_⟩)⟩
      have := a.toList_length
      rw [hx] at this
      simp at this ⊢
      omega
    | name a p fits string =>
      refine ⟨3, octet a.length, a ++ p.toList, rfl, Or.inr (Or.inr ⟨rfl, ?_⟩)⟩
      rw [octet_val fits]
      simp
      omega
  have htarget := addrIntoSockaddr6_bytes self.resolve c.addr hbytes
  generalize hT : c.addr.target self.resolve = target at htarget ⊢
  obtain ⟨ok, addr⟩ := target
  have hreq : c.request = [5, c.type.cmd, 0, atype, first] ++ (mem ++ []) := by
    rw [HevSocks5Client.request, hbytes]
    simp
  have haddr : ∀ n, mem.length = n → Eval (self.readAddr c.type.cmd atype first n) (mem ++ []) []
      (some (if ok then ⟨0, c.type.cmd, addr⟩ else ⟨8, 0, addr⟩)) := by
    intro n hn
    refine eval_recv mem [] hn ?_
    rw [if_neg (not_not.2 hn), htarget]
    cases ok <;> exact eval_done _
  refine ⟨if ok then ⟨0, c.type.cmd, addr⟩ else ⟨8, 0, addr⟩, ?_, ?_, ?_⟩
  · rw [hreq]
    refine eval_recv [5, c.type.cmd, 0, atype, first] _ rfl ?_
    dsimp only
    rw [if_neg (show ¬((5 : Octet) ≠ 5) by decide)]
    rcases hfits with ⟨rfl, hm⟩ | ⟨rfl, hm⟩ | ⟨rfl, hm⟩
    · rw [if_pos rfl]
      exact haddr 5 hm
    · rw [if_neg (by decide), if_pos rfl]
      exact haddr 17 hm
    · rw [if_neg (by decide), if_neg (by decide), if_pos rfl]
      exact haddr _ hm
  · cases ok <;> rfl
  · cases ok <;> simp

/-- An address of the server comes back to the client as it is. -/
theorem target_addrFromSockaddr6 (resolve : Resolver) (addr : SockAddr6) :
    (addrFromSockaddr6 addr).target resolve = (true, addr) := by
  unfold addrFromSockaddr6
  split
  · rename_i hmap
    obtain ⟨⟨l, hl⟩, port⟩ := addr
    change l.take 12 = mappedBytes at hmap
    have hdrop : (l.drop 12).length = 4 := by
      rw [List.length_drop, hl]
    have hslice : slice l 12 4 = ⟨l.drop 12, hdrop⟩ := by
      have := slice_append (l.take 12) ⟨l.drop 12, hdrop⟩ []
      rw [List.append_nil] at this
      change slice (l.take 12 ++ l.drop 12) _ _ = _ at this
      rwa [List.take_append_drop, List.length_take, hl] at this
    have hlist : mappedBytes ++ (slice l 12 4).toList = l := by
      rw [hslice, ← hmap]
      exact List.take_append_drop 12 l
    have haddr : (ipv4IntoSockaddr6 (slice l 12 4) port).addr = ⟨l, hl⟩ := Subtype.ext hlist
    simp only [HevSocks5Addr.target, Prod.mk.injEq, true_and]
    exact congrArg (fun a => SockAddr6.mk a port) haddr
  · rfl

/-- The bytes of a response behind the reply. -/
theorem exists_response (addr : SockAddr6) : ∃ atype mem, (addrFromSockaddr6 addr).bytes = atype :: mem ∧
    (atype = 1 ∧ mem.length = 6 ∨ atype = 4 ∧ mem.length = 18) := by
  unfold addrFromSockaddr6
  split
  · exact ⟨1, _, rfl, Or.inl ⟨rfl, by simp⟩⟩
  · exact ⟨4, _, rfl, Or.inr ⟨rfl, by simp⟩⟩

/-- The client reads a reply of success to its end. -/
theorem eval_readResponse (c : HevSocks5Client) (addr : SockAddr6) :
    Eval c.readResponse ([5, 0, 0] ++ (addrFromSockaddr6 addr).bytes) []
      (decide (c.type = .udpInUdp → c.associate addr = true)) := by
  obtain ⟨atype, mem, hbytes, hfits⟩ := exists_response addr
  have hset : c.setUpstreamAddr atype mem = decide (c.type = .udpInUdp → c.associate addr = true) := by
    unfold HevSocks5Client.setUpstreamAddr
    rw [addrIntoSockaddr6_bytes _ _ hbytes, target_addrFromSockaddr6]
    split
    · rename_i ht
      simp [ht]
    · rename_i ht
      simp [ht]
  have haddr : ∀ n, mem.length = n → Eval (c.readAddr atype n) (mem ++ []) []
      (decide (c.type = .udpInUdp → c.associate addr = true)) := by
    intro n hn
    refine eval_recv mem [] hn ?_
    rw [if_neg (not_not.2 hn), hset]
    exact eval_done _
  have hresp : [5, 0, 0] ++ (addrFromSockaddr6 addr).bytes = [5, 0, 0, atype] ++ (mem ++ []) := by
    rw [hbytes]
    simp
  rw [hresp]
  refine eval_recv [5, 0, 0, atype] _ rfl ?_
  dsimp only
  rw [if_neg (show ¬((5 : Octet) ≠ 5) by decide), if_neg (show ¬((0 : Octet) ≠ 0) by decide)]
  rcases hfits with ⟨rfl, hm⟩ | ⟨rfl, hm⟩
  · rw [if_pos rfl]
    exact haddr 6 hm
  · rw [if_neg (by decide), if_pos rfl]
    exact haddr 18 hm

/-- The client reads four bytes of any other reply. -/
theorem eval_readResponse_failure (c : HevSocks5Client) (addr : SockAddr6) {rep : Octet} (hrep : rep ≠ 0) :
    ∃ ins rest, [5, rep, 0] ++ (addrFromSockaddr6 addr).bytes = ins ++ rest ∧ Eval c.readResponse ins [] false := by
  obtain ⟨atype, mem, hbytes, _⟩ := exists_response addr
  refine ⟨[5, rep, 0, atype] ++ [], mem, by rw [hbytes]; rfl, ?_⟩
  refine eval_recv [5, rep, 0, atype] [] rfl ?_
  dsimp only
  rw [if_neg (show ¬((5 : Octet) ≠ 5) by decide), if_pos hrep]
  exact eval_done _

theorem eval_readAuthMethod_client (m : Octet) : Eval HevSocks5Client.readAuthMethod [5, m] [] (some m) :=
  eval_recv [5, m] [] rfl (eval_done _)

theorem eval_readAuthCreds_client (ok : Bool) :
    Eval HevSocks5Client.readAuthCreds [1, if ok then 0 else 255] [] ok := by
  cases ok
  · exact eval_recv [1, 255] [] rfl (eval_done _)
  · exact eval_recv [1, 0] [] rfl (eval_done _)

theorem eval_writeAuthCreds (c : HevSocks5Client) : Eval c.writeAuthCreds [] c.credBytes true := by
  unfold HevSocks5Client.writeAuthCreds HevSocks5Client.credBytes
  cases c.auth with
  | none => exact eval_done _
  | some up => exact eval_send (by simp [HevSocks5Client.creds])

theorem eval_writeAuthMethods (c : HevSocks5Client) : Eval c.writeAuthMethods [] [5, 1, c.offer] true := eval_send (by simp)

theorem eval_writeRequest (c : HevSocks5Client) : Eval c.writeRequest [] c.request true := eval_send (by simp)

/-! ## The stages of the server -/

/-- The handshake behind the authentication. -/
def afterAuth (self : HevSocks5Server) (ok : Bool) : Proc Octet (Option (HevSocks5Type × SockAddr6)) :=
  if !ok then .done none
  else do
    match ← self.readRequest with
    | none => return none
    | some req =>
      let (rep, addr, type) := self.serve req
      let ok ← HevSocks5Server.writeResponse rep addr
      if !ok then return none
      else if rep ≠ 0 then return none
      else return type.map fun type => (type, req.addr)

/-- The authentication behind the method. -/
def afterMethod (self : HevSocks5Server) (method : Option Octet) : Proc Octet Bool :=
  match method, self.auth with
  | none, _ => .done false
  | some _, none => .done true
  | some _, some tree => do
    let res ← HevSocks5Server.readAuthUser tree
    let ok ← HevSocks5Server.writeAuthUser res
    return res && ok

theorem eval_method (self : HevSocks5Server) (o : Octet) :
    ∃ method, Eval self.readAuthMethod [5, 1, o] [] method ∧ Eval (HevSocks5Server.writeAuthMethod method) [] [5, method.getD 255] true ∧
      method = if o = (if self.auth.isSome then 2 else 0) then some o else none :=
  ⟨_, eval_readAuthMethod o, eval_send (by simp), rfl⟩

/-- The server answers the method of the client. -/
theorem reaches_method (self : HevSocks5Server) (o : Octet) (l : Proc Octet Bool) (forth back : List Octet) :
    ∃ method, method = (if o = (if self.auth.isSome then 2 else 0) then some o else none) ∧
      Reaches advance (⟨l, self.handshake, [5, 1, o] ++ forth, back⟩ : Net Octet Bool (Option (HevSocks5Type × SockAddr6)))
        ⟨l, afterMethod self method >>= afterAuth self, forth, back ++ [5, method.getD 255]⟩ := by
  obtain ⟨method, hread, hwrite, hmethod⟩ := eval_method self o
  refine ⟨method, hmethod, ?_⟩
  have h₁ := reaches_right hread
    (fun method => HevSocks5Server.writeAuthMethod method >>= fun ok =>
      (if !ok then .done false else afterMethod self method) >>= afterAuth self) l forth back
  have h₂ := reaches_right hwrite (fun ok => (if !ok then .done false else afterMethod self method) >>= afterAuth self) l forth
    (back ++ [])
  have heq : self.handshake = self.readAuthMethod >>= fun method => HevSocks5Server.writeAuthMethod method >>= fun ok =>
      (if !ok then .done false else afterMethod self method) >>= afterAuth self := by
    change self.authenticate >>= afterAuth self = _
    unfold HevSocks5Server.authenticate
    simp only [Proc.bind_assoc]
    rfl
  rw [heq]
  rw [List.append_nil] at h₂
  exact h₁.trans (by rw [List.append_nil]; exact h₂)

/-- The server reads credentials and answers them. -/
theorem reaches_user (self : HevSocks5Server) {tree : ColoredTree HevSocks5User} (ha : self.auth = some tree) (m : Octet)
    (user pass : List Octet) (l : Proc Octet Bool) (forth back : List Octet) :
    ∃ rest res, (res = true ↔ self.Admits (some (user, pass))) ∧ (res = true → rest = []) ∧
      Reaches advance (⟨l, afterMethod self (some m) >>= afterAuth self, HevSocks5Client.creds user pass ++ forth, back⟩ :
        Net Octet Bool (Option (HevSocks5Type × SockAddr6)))
        ⟨l, afterAuth self res, rest ++ forth, back ++ [1, if res then 0 else 255]⟩ := by
  obtain ⟨ins, rest, res, hcreds, heval, hres, hrest⟩ := eval_readAuthUser tree user pass
  refine ⟨rest, res, ?_, hrest, ?_⟩
  · rw [hres]
    unfold HevSocks5Server.Admits
    rw [ha]
  · have hend : Eval (.done (res && true) : Proc Octet Bool) [] [] res := ⟨rfl, rfl, Bool.and_true res⟩
    have hwrite : Eval (HevSocks5Server.writeAuthUser res) [] [1, if res then 0 else 255] true := eval_send (by simp)
    have hboth := heval.bind (f := fun res => HevSocks5Server.writeAuthUser res >>= fun ok => .done (res && ok))
      (hwrite.bind (f := fun ok => .done (res && ok)) hend)
    have hmethod : afterMethod self (some m) = HevSocks5Server.readAuthUser tree >>= fun res =>
        HevSocks5Server.writeAuthUser res >>= fun ok => .done (res && ok) := by
      unfold afterMethod
      rw [ha]
      rfl
    rw [hmethod, hcreds, List.append_assoc]
    have := reaches_right hboth (afterAuth self) l (rest ++ forth) back
    simpa using this

/-- The reply of the server to the request of a client, the address in it and the result of the handshake. -/
def answer (self : HevSocks5Server) (c : HevSocks5Client) : Octet × SockAddr6 :=
  let target := c.addr.target self.resolve
  if target.1 then ((self.serve ⟨0, c.type.cmd, target.2⟩).1, (self.serve ⟨0, c.type.cmd, target.2⟩).2.1) else (8, target.2)

theorem serve_type (self : HevSocks5Server) (type : HevSocks5Type) (addr : SockAddr6) :
    (self.serve ⟨0, type.cmd, addr⟩).2.2 = some type := by
  cases type <;> rfl

/-- The server reads the request and answers it. -/
theorem reaches_request (self : HevSocks5Server) (c : HevSocks5Client) (l : Proc Octet Bool) (forth back : List Octet) :
    Reaches advance (⟨l, afterAuth self true, c.request ++ forth, back⟩ : Net Octet Bool (Option (HevSocks5Type × SockAddr6)))
      ⟨l, .done (if (answer self c).1 = 0 then some (c.type, (c.addr.target self.resolve).2) else none), forth,
        back ++ ([5, (answer self c).1, 0] ++ (addrFromSockaddr6 (answer self c).2).bytes)⟩ := by
  obtain ⟨req, hread, haddr, hreq⟩ := eval_readRequest c self
  have hserve : (self.serve req).1 = (answer self c).1 ∧ (self.serve req).2.1 = (answer self c).2 ∧
      ((answer self c).1 = 0 → (self.serve req).2.2 = some c.type) := by
    unfold answer
    dsimp only
    split at hreq
    · rename_i ht
      rw [if_pos ht]
      obtain ⟨rep, cmd, addr⟩ := req
      obtain ⟨rfl, rfl⟩ := hreq
      obtain rfl : addr = (c.addr.target self.resolve).2 := haddr
      exact ⟨rfl, rfl, fun _ => serve_type self c.type _⟩
    · rename_i ht
      rw [if_neg ht]
      have hs : self.serve req = (8, req.addr, none) := by
        unfold HevSocks5Server.serve
        rw [hreq, if_pos (by decide)]
      rw [hs, haddr]
      exact ⟨rfl, rfl, fun h => absurd (show (8 : Octet) = 0 from h) (by decide)⟩
  obtain ⟨h₁, h₂, h₃⟩ := hserve
  have hwrite : Eval (HevSocks5Server.writeResponse (self.serve req).1 (self.serve req).2.1) []
      ([5, (answer self c).1, 0] ++ (addrFromSockaddr6 (answer self c).2).bytes) true := by
    rw [h₁, h₂]
    exact eval_send (by simp)
  have hend : Eval (if (self.serve req).1 ≠ 0 then .done none
      else .done ((self.serve req).2.2.map fun type => (type, req.addr)) : Proc Octet (Option (HevSocks5Type × SockAddr6))) [] []
      (if (answer self c).1 = 0 then some (c.type, (c.addr.target self.resolve).2) else none) := by
    rw [h₁]
    by_cases hz : (answer self c).1 = 0
    · rw [if_neg (not_not.2 hz), if_pos hz, h₃ hz, haddr]
      exact eval_done _
    · rw [if_pos hz, if_neg hz]
      exact eval_done _
  have hboth := hwrite.bind (f := fun ok => if !ok then .done none else if (self.serve req).1 ≠ 0 then .done none
      else .done ((self.serve req).2.2.map fun type => (type, req.addr))) hend
  have := hread.bind (f := fun r => match r with
    | none => .done none
    | some req => HevSocks5Server.writeResponse (self.serve req).1 (self.serve req).2.1 >>= fun ok =>
      if !ok then .done none else if (self.serve req).1 ≠ 0 then .done none
      else .done ((self.serve req).2.2.map fun type => (type, req.addr))) hboth
  have hall : Eval (afterAuth self true) c.request
      ([5, (answer self c).1, 0] ++ (addrFromSockaddr6 (answer self c).2).bytes)
      (if (answer self c).1 = 0 then some (c.type, (c.addr.target self.resolve).2) else none) := by
    simpa [afterAuth] using this
  exact reaches_right_done hall l forth back

/-! ## The stages of the client -/

variable {r : Proc Octet (Option (HevSocks5Type × SockAddr6))} {forth back : List Octet}

/-- The client reads the response of the server. -/
theorem reaches_response (self : HevSocks5Server) (c : HevSocks5Client) :
    ∃ ok rest, Reaches advance (⟨c.readResponse, r, forth, [5, (answer self c).1, 0] ++ (addrFromSockaddr6 (answer self c).2).bytes⟩ :
        Net Octet Bool (Option (HevSocks5Type × SockAddr6))) ⟨.done ok, r, forth, rest⟩ ∧
      ((answer self c).1 = 0 → rest = [] ∧ (ok = true ↔ (c.type = .udpInUdp → c.associate (answer self c).2 = true))) ∧
      ((answer self c).1 ≠ 0 → ok = false) := by
  by_cases hz : (answer self c).1 = 0
  · refine ⟨_, [], ?_, fun _ => ⟨rfl, decide_eq_true_iff⟩, fun h => absurd hz h⟩
    have := reaches_left_done (eval_readResponse c (answer self c).2) r forth []
    rw [List.append_nil, List.append_nil] at this
    rw [hz]
    exact this
  · obtain ⟨ins, rest, hsplit, heval⟩ := eval_readResponse_failure c (answer self c).2 hz
    refine ⟨false, rest, ?_, fun h => absurd h hz, fun _ => rfl⟩
    have := reaches_left_done heval r forth rest
    rwa [List.append_nil, ← hsplit] at this

/-- What the client that waits for the replies does with the method. -/
def standardRest (c : HevSocks5Client) : Option Octet → Proc Octet Bool
  | none => .done false
  | some method =>
    if method = 2 then c.writeAuthCreds >>= fun ok =>
      if !ok then .done false else HevSocks5Client.readAuthCreds >>= fun ok =>
        if !ok then .done false else c.writeRequest >>= fun ok => if !ok then .done false else c.readResponse
    else if method ≠ 0 then .done false
    else c.writeRequest >>= fun ok => if !ok then .done false else c.readResponse

/-- What the client that sends everything at once does with the method. -/
def pipelineRest (c : HevSocks5Client) : Option Octet → Proc Octet Bool
  | none => .done false
  | some method =>
    if method = 2 then HevSocks5Client.readAuthCreds >>= fun ok => if !ok then .done false else c.readResponse
    else if method ≠ 0 then .done false
    else c.readResponse

theorem reaches_standard_methods (c : HevSocks5Client) :
    Reaches advance (⟨c.handshakeStandard, r, [], []⟩ : Net Octet Bool (Option (HevSocks5Type × SockAddr6)))
      ⟨HevSocks5Client.readAuthMethod >>= standardRest c, r, [5, 1, c.offer], []⟩ :=
  reaches_left (eval_writeAuthMethods c) _ r [] []

theorem reaches_pipeline_writes (c : HevSocks5Client) :
    Reaches advance (⟨c.handshakePipeline, r, [], []⟩ : Net Octet Bool (Option (HevSocks5Type × SockAddr6)))
      ⟨HevSocks5Client.readAuthMethod >>= pipelineRest c, r, [5, 1, c.offer] ++ (c.credBytes ++ (c.request ++ [])), []⟩ := by
  rw [show [5, 1, c.offer] ++ (c.credBytes ++ (c.request ++ [])) = [] ++ [5, 1, c.offer] ++ c.credBytes ++ c.request by simp]
  refine (reaches_left (eval_writeAuthMethods c) _ r [] []).trans ?_
  refine (reaches_left (eval_writeAuthCreds c) _ r _ []).trans ?_
  exact reaches_left (eval_writeRequest c) _ r _ []

/-- What the end of a handshake looks like, by whether the server grants what the client asks for. -/
def Ends (self : HevSocks5Server) (c : HevSocks5Client) (t : Net Octet Bool (Option (HevSocks5Type × SockAddr6))) : Prop :=
  ∃ ok result, t.left = .done ok ∧ t.right = .done result ∧
    (self.Admits c.auth ∧ (answer self c).1 = 0 → result = some (c.type, (c.addr.target self.resolve).2) ∧
      (ok = true ↔ (c.type = .udpInUdp → c.associate (answer self c).2 = true)) ∧ t.forth = [] ∧ t.back = []) ∧
    (¬(self.Admits c.auth ∧ (answer self c).1 = 0) → result = none ∧ ok = false)

/-- The end behind the response. -/
theorem reaches_ends (self : HevSocks5Server) (c : HevSocks5Client) (ha : self.Admits c.auth) :
    ∃ t, Reaches advance (⟨c.readResponse,
        .done (if (answer self c).1 = 0 then some (c.type, (c.addr.target self.resolve).2) else none), [],
        [5, (answer self c).1, 0] ++ (addrFromSockaddr6 (answer self c).2).bytes⟩ :
        Net Octet Bool (Option (HevSocks5Type × SockAddr6))) t ∧ Ends self c t := by
  obtain ⟨ok, rest, hr, hyes, hno⟩ := reaches_response self c
  refine ⟨_, hr, ok, _, rfl, rfl, ?_, ?_⟩
  · rintro ⟨_, hz⟩
    obtain ⟨hrest, hok⟩ := hyes hz
    exact ⟨if_pos hz, hok, rfl, hrest⟩
  · intro h
    have hz : (answer self c).1 ≠ 0 := fun hz => h ⟨ha, hz⟩
    exact ⟨if_neg hz, hno hz⟩

/-- Which method the server answers: none that the client takes, no authentication, or credentials. -/
theorem method_cases (self : HevSocks5Server) (c : HevSocks5Client) :
    ((if c.offer = (if self.auth.isSome then 2 else 0) then some c.offer else none) = none ∧ ¬self.Admits c.auth) ∨
    (self.auth = none ∧ c.auth = none ∧
      (if c.offer = (if self.auth.isSome then 2 else 0) then some c.offer else none) = some 0) ∨
    (∃ tree user pass, self.auth = some tree ∧ c.auth = some (user, pass) ∧
      (if c.offer = (if self.auth.isSome then 2 else 0) then some c.offer else none) = some 2) := by
  unfold HevSocks5Client.offer HevSocks5Server.Admits
  cases ha : self.auth <;> cases hc : c.auth
  · exact Or.inr (Or.inl ⟨rfl, rfl, rfl⟩)
  · exact Or.inl ⟨rfl, fun h => h⟩
  · exact Or.inl ⟨rfl, fun h => h⟩
  · exact Or.inr (Or.inr ⟨_, _, _, rfl, rfl, rfl⟩)

theorem ends_refused {t : Net Octet Bool (Option (HevSocks5Type × SockAddr6))} (hn : ¬self.Admits c.auth)
    (hl : t.left = .done false) (hr : t.right = .done none) : Ends self c t :=
  ⟨false, none, hl, hr, fun h => absurd h.1 hn, fun _ => ⟨rfl, rfl⟩⟩

/-- The handshake of a client that waits for the replies comes to its end. -/
theorem standard_ends (self : HevSocks5Server) (c : HevSocks5Client) :
    ∃ t, Reaches advance (⟨c.handshakeStandard, self.handshake, [], []⟩ : Net Octet Bool (Option (HevSocks5Type × SockAddr6))) t ∧
      Ends self c t := by
  obtain ⟨method, hmethod, hserver⟩ := reaches_method self c.offer (HevSocks5Client.readAuthMethod >>= standardRest c) [] []
  have hread := reaches_left (eval_readAuthMethod_client (method.getD 255)) (standardRest c)
    (afterMethod self method >>= afterAuth self) [] []
  have hstart := (reaches_standard_methods c).trans (hserver.trans hread)
  rcases method_cases self c with ⟨hm, hn⟩ | ⟨ha, hc, hm⟩ | ⟨tree, user, pass, ha, hc, hm⟩
  · rw [hm] at hmethod
    subst hmethod
    exact ⟨_, hstart, ends_refused hn rfl rfl⟩
  · rw [hm] at hmethod
    subst hmethod
    have hadmits : self.Admits c.auth := by
      unfold HevSocks5Server.Admits
      rw [ha, hc]
      trivial
    have hafter : afterMethod self (some 0) >>= afterAuth self = afterAuth self true := by
      unfold afterMethod
      rw [ha]
      rfl
    rw [hafter] at hstart
    obtain ⟨t, ht, hends⟩ := reaches_ends self c hadmits
    refine ⟨t, hstart.trans ?_, hends⟩
    refine (reaches_left (eval_writeRequest c) _ _ _ []).trans ?_
    have := reaches_request self c c.readResponse [] []
    rw [List.append_nil] at this
    exact this.trans ht
  · rw [hm] at hmethod
    subst hmethod
    have hcred : c.credBytes = HevSocks5Client.creds user pass := by
      rw [HevSocks5Client.credBytes, hc]
      rfl
    obtain ⟨rest, res, hres, hrest, hu⟩ := reaches_user self ha 2 user pass (HevSocks5Client.readAuthCreds >>= fun ok =>
      if !ok then .done false else c.writeRequest >>= fun ok => if !ok then .done false else c.readResponse) [] []
    rw [← hcred, List.append_nil, List.append_nil] at hu
    have hreply := reaches_left (eval_readAuthCreds_client res) (fun ok => if !ok then .done false else c.writeRequest >>= fun ok =>
      if !ok then .done false else c.readResponse) (afterAuth self res) rest []
    have hwrite := reaches_left (eval_writeAuthCreds c) (fun ok => if !ok then .done false else
      HevSocks5Client.readAuthCreds >>= fun ok => if !ok then .done false else c.writeRequest >>= fun ok =>
        if !ok then .done false else c.readResponse) (afterMethod self (some 2) >>= afterAuth self) [] []
    have hmid := hstart.trans (hwrite.trans (hu.trans hreply))
    cases res with
    | false =>
      refine ⟨_, hmid, ends_refused ?_ rfl rfl⟩
      intro h
      rw [hc] at h
      exact absurd (hres.2 h) (by decide)
    | true =>
      obtain rfl := hrest rfl
      have hadmits : self.Admits c.auth := by
        rw [hc]
        exact hres.1 rfl
      obtain ⟨t, ht, hends⟩ := reaches_ends self c hadmits
      refine ⟨t, hmid.trans ?_, hends⟩
      refine (reaches_left (eval_writeRequest c) _ _ _ []).trans ?_
      have := reaches_request self c c.readResponse [] []
      rw [List.append_nil] at this
      exact this.trans ht

/-- The handshake of a client that sends everything at once comes to its end. -/
theorem pipeline_ends (self : HevSocks5Server) (c : HevSocks5Client) :
    ∃ t, Reaches advance (⟨c.handshakePipeline, self.handshake, [], []⟩ : Net Octet Bool (Option (HevSocks5Type × SockAddr6))) t ∧
      Ends self c t := by
  obtain ⟨method, hmethod, hserver⟩ := reaches_method self c.offer (HevSocks5Client.readAuthMethod >>= pipelineRest c)
    (c.credBytes ++ (c.request ++ [])) []
  have hstart := (reaches_pipeline_writes c).trans hserver
  rcases method_cases self c with ⟨hm, hn⟩ | ⟨ha, hc, hm⟩ | ⟨tree, user, pass, ha, hc, hm⟩
  · rw [hm] at hmethod
    subst hmethod
    have hread := reaches_left (eval_readAuthMethod_client 255) (pipelineRest c) (afterAuth self false)
      (c.credBytes ++ (c.request ++ [])) []
    exact ⟨_, hstart.trans hread, ends_refused hn rfl rfl⟩
  · rw [hm] at hmethod
    subst hmethod
    have hadmits : self.Admits c.auth := by
      unfold HevSocks5Server.Admits
      rw [ha, hc]
      trivial
    have hafter : afterMethod self (some 0) >>= afterAuth self = afterAuth self true := by
      unfold afterMethod
      rw [ha]
      rfl
    have hcred : c.credBytes = [] := by
      rw [HevSocks5Client.credBytes, hc]
      rfl
    rw [hafter, hcred] at hstart
    have hreq := reaches_request self c (HevSocks5Client.readAuthMethod >>= pipelineRest c) [] ([] ++ [5, 0])
    have hread := reaches_left (eval_readAuthMethod_client 0) (pipelineRest c)
      (.done (if (answer self c).1 = 0 then some (c.type, (c.addr.target self.resolve).2) else none)) []
      ([5, (answer self c).1, 0] ++ (addrFromSockaddr6 (answer self c).2).bytes)
    obtain ⟨t, ht, hends⟩ := reaches_ends self c hadmits
    exact ⟨t, hstart.trans (hreq.trans (hread.trans ht)), hends⟩
  · rw [hm] at hmethod
    subst hmethod
    have hcred : c.credBytes = HevSocks5Client.creds user pass := by
      rw [HevSocks5Client.credBytes, hc]
      rfl
    obtain ⟨rest, res, hres, hrest, hu⟩ := reaches_user self ha 2 user pass (HevSocks5Client.readAuthMethod >>= pipelineRest c)
      (c.request ++ []) ([] ++ [5, 2])
    rw [hcred] at hstart
    have hmid := hstart.trans hu
    cases res with
    | false =>
      have hread := reaches_left (eval_readAuthMethod_client 2) (pipelineRest c) (afterAuth self false) (rest ++ (c.request ++ []))
        [1, 255]
      have hreply := reaches_left (eval_readAuthCreds_client false) (fun ok => if !ok then .done false else c.readResponse)
        (afterAuth self false) (rest ++ (c.request ++ []) ++ []) []
      refine ⟨_, hmid.trans (hread.trans hreply), ends_refused ?_ rfl rfl⟩
      intro h
      rw [hc] at h
      exact absurd (hres.2 h) (by decide)
    | true =>
      obtain rfl := hrest rfl
      have hadmits : self.Admits c.auth := by
        rw [hc]
        exact hres.1 rfl
      have hreq := reaches_request self c (HevSocks5Client.readAuthMethod >>= pipelineRest c) [] ([] ++ [5, 2] ++ [1, 0])
      have hread := reaches_left (eval_readAuthMethod_client 2) (pipelineRest c)
        (.done (if (answer self c).1 = 0 then some (c.type, (c.addr.target self.resolve).2) else none)) []
        ([1, 0] ++ ([5, (answer self c).1, 0] ++ (addrFromSockaddr6 (answer self c).2).bytes))
      have hreply := reaches_left (eval_readAuthCreds_client true) (fun ok => if !ok then .done false else c.readResponse)
        (.done (if (answer self c).1 = 0 then some (c.type, (c.addr.target self.resolve).2) else none)) []
        ([5, (answer self c).1, 0] ++ (addrFromSockaddr6 (answer self c).2).bytes)
      obtain ⟨t, ht, hends⟩ := reaches_ends self c hadmits
      exact ⟨t, hmid.trans (hreq.trans (hread.trans (hreply.trans ht))), hends⟩

end Socks5Aux

end Socks5

open Socks5 Socks5Aux

/-- In every run of a client and a server, with every read of both and every write of the server failing where it likes and the
writes of the client going through: when the client has succeeded, the server has let it in with the credentials it has, has found
the address it means and has ended its handshake with the type of session and the address; and both streams are empty, so what
comes next is the data of the session. -/
theorem socks5_handshake_agrees (client : HevSocks5Client) (pipeline : Bool) (server : HevSocks5Server) (es : List Event)
    (s : Net Octet Bool (Option (HevSocks5Type × SockAddr6)))
    (hm : Meets step (Allowed false true) (connection client pipeline server) es)
    (hx : exec step (connection client pipeline server) es = some s) (hdone : s.left = .done true) :
    server.Admits client.auth ∧ (client.addr.target server.resolve).1 = true ∧
      s.right = .done (some (client.type, (client.addr.target server.resolve).2)) ∧ s.forth = [] ∧ s.back = [] := by
  obtain ⟨insL, outsL, insR, outsR, hl, hr, hforth, hback⟩ := exec_traces hm hx
  rw [hdone] at hl
  obtain ⟨method, resp, hmethod, hresp, rfl, rfl⟩ := HevSocks5Client.client_trace hl
  rw [List.append_assoc _ resp] at hback
  obtain ⟨hb, front, type, addr, rsv, atype, first, mem, hin, rfl, hfits, haddr, hq⟩ := server_trace hr hmethod hresp hback
  rw [List.append_assoc front] at hforth
  obtain ⟨hadmits, hreq⟩ := letsIn_aligned hin hforth.symm
  rw [HevSocks5Client.request] at hreq
  simp only [List.cons_append, List.nil_append, List.cons.injEq] at hreq
  obtain ⟨_, htype, _, hreq⟩ := hreq
  obtain ⟨hf, htarget⟩ := addr_aligned server.resolve client.addr hfits hreq
  rw [haddr] at htarget
  rw [← htarget, hq, cmd_injective htype]
  exact ⟨hadmits, rfl, rfl, hf, hb⟩

/-- A client with credentials that sends everything at once, and a server that has its user. -/
theorem socks5_handshake_agrees_credentials :
    ∃ s, exec step (connection ⟨.tcp, some ([117], [112]), .ipv4 ⟨[10, 0, 0, 1], rfl⟩ ⟨[1, 187], rfl⟩, fun _ => false⟩ true
        ⟨some (.node .black .leaf ⟨[117], [112]⟩ .leaf), fun _ _ => (false, zeroAddr), fun _ => true, false,
          fun a => (false, a)⟩)
        (List.replicate 18 (.go .left) ++ List.replicate 32 (.go .right) ++ List.replicate 14 (.go .left)) = some s ∧
      s.right = .done (some (.tcp, ipv4IntoSockaddr6 ⟨[10, 0, 0, 1], rfl⟩ ⟨[1, 187], rfl⟩)) ∧ s.forth = [] ∧ s.back = [] := by
  have hrun : (exec step (connection ⟨.tcp, some ([117], [112]), .ipv4 ⟨[10, 0, 0, 1], rfl⟩ ⟨[1, 187], rfl⟩, fun _ => false⟩ true
      ⟨some (.node .black .leaf ⟨[117], [112]⟩ .leaf), fun _ _ => (false, zeroAddr), fun _ => true, false, fun a => (false, a)⟩)
      (List.replicate 18 (.go .left) ++ List.replicate 32 (.go .right) ++ List.replicate 14 (.go .left))).any
      (fun s => s.left.isDone id) = true := by
    decide +kernel
  rw [Option.any_eq_true] at hrun
  obtain ⟨s, hs, hd⟩ := hrun
  have hdone : s.left = .done true := by
    cases hl : s.left with
    | done b =>
      rw [hl] at hd
      rw [show b = true from hd]
    | put b next failed =>
      rw [hl] at hd
      nomatch hd
    | get waits next failed =>
      rw [hl] at hd
      nomatch hd
  obtain ⟨_, _, hright, hforth, hback⟩ := socks5_handshake_agrees _ _ _ _ s (by decide +kernel) hs hdone
  exact ⟨s, hs, hright, hforth, hback⟩

/-- The server lets the client in, finds the address it means, and connects or binds what it asks for. -/
def Socks5.HevSocks5Server.Grants (server : HevSocks5Server) (client : HevSocks5Client) : Prop :=
  server.Admits client.auth ∧ (client.addr.target server.resolve).1 = true ∧
    (server.serve ⟨0, client.type.cmd, (client.addr.target server.resolve).2⟩).1 = 0

/-- Without a failure, every order of the moves of a client and a server leads in one number of moves to one end, in which both
have ended, so they never wait for each other. The server succeeds exactly when it grants what the client asks for, with the type
of session and the address that the client means, and the client succeeds with it, but for a socket of its own that it cannot
make; the streams are empty then. This does not depend on whether the client waits for the replies or sends everything at
once. -/
theorem socks5_handshake_completes (client : HevSocks5Client) (pipeline : Bool) (server : HevSocks5Server) :
    ∃ (n : Nat) (t : Net Octet Bool (Option (HevSocks5Type × SockAddr6))),
      (∀ es u, exec advance (connection client pipeline server) es = some u →
        ∃ fs, exec advance u fs = some t ∧ es.length + fs.length = n) ∧
      ∃ ok result, t.left = .done ok ∧ t.right = .done result ∧
        (server.Grants client → result = some (client.type, (client.addr.target server.resolve).2) ∧
          (ok = true ↔ (client.type = .udpInUdp →
            client.associate (server.serve ⟨0, client.type.cmd, (client.addr.target server.resolve).2⟩).2.1 = true)) ∧
          t.forth = [] ∧ t.back = []) ∧
        (¬server.Grants client → result = none ∧ ok = false) := by
  obtain ⟨t, ⟨es₀, hes₀⟩, ok, result, hl, hr, hyes, hno⟩ :
      ∃ t, Reaches advance (connection client pipeline server) t ∧ Ends server client t := by
    cases pipeline with
    | true => exact pipeline_ends server client
    | false => exact standard_ends server client
  have hgrants : server.Grants client ↔ server.Admits client.auth ∧ (answer server client).1 = 0 := by
    unfold HevSocks5Server.Grants answer
    dsimp only
    split
    · rename_i ht
      simp [ht]
    · rename_i ht
      simp [ht]
  refine ⟨es₀.length, t, ?_, ok, result, hl, hr, ?_, ?_⟩
  · intro es u hu
    refine advance_converges hes₀ ?_ hu
    obtain ⟨tl, tr, tf, tb⟩ := t
    obtain rfl : tl = .done ok := hl
    obtain rfl : tr = .done result := hr
    exact stuck_done ok result tf tb
  · intro hg
    have htarget := hg.2.1
    have := hyes (hgrants.1 hg)
    unfold answer at this
    rwa [if_pos htarget] at this
  · intro hg
    exact hno fun h => hg (hgrants.2 h)

/-- After any sequence of `hev_socks5_authenticator_add` and `hev_socks5_authenticator_del`, of users and names of any length, a
server with the authenticator lets exactly those clients in whose user name is there with their password: the name is there when
it has been added and not been deleted since, with the password of the first of the additions behind the last deletion. Names and
passwords of a client that do not fit the byte of their length are read as what is sent of them. -/
theorem socks5_authenticator (os : List (HevRbTree.Use (ℕ ×ₗ List Octet) HevSocks5User)) :
    ∃ tree, exec (HevRbTree.use HevSocks5User.key) .leaf os = some tree ∧
      ∀ server : HevSocks5Server, server.auth = some tree → ∀ user pass : List Octet,
        (server.Admits (some (user, pass)) ↔ user.take (octet user.length).val ≠ [] ∧ pass.take (octet pass.length).val ≠ [] ∧
          (os.foldl (HevRbTree.RbTreeAux.mapUse HevSocks5User.key) (fun _ => none)
            (nameKey (user.take (octet user.length).val))).map HevSocks5User.pass = some (pass.take (octet pass.length).val)) := by
  have hleaf : HevRbTree.RbTreeAux.WellFormed HevSocks5User.key .leaf := HevRbTree.RbTreeAux.wellFormed_leaf
  obtain ⟨tree, hx, _, hl⟩ := HevRbTree.RbTreeAux.exec_use hleaf os
  refine ⟨tree, hx, ?_⟩
  intro server ha user pass
  have hget := congrFun hl (nameKey (user.take (octet user.length).val))
  change authenticatorGet tree _ = _ at hget
  have hnone : HevRbTree.RbTreeAux.lookup HevSocks5User.key .leaf = fun _ => none := rfl
  rw [hnone] at hget
  unfold HevSocks5Server.Admits
  rw [ha]
  dsimp only
  rw [← hget]
  unfold HevSocks5Server.checkUser
  cases authenticatorGet tree (user.take (octet user.length).val) with
  | none => simp
  | some u => simp

end Open365Vpn
