import Open365Vpn.Lemmas.Socks5
import Open365Vpn.Tunnel.UdpSession

/-!
# Datagrams arrive as they are sent

The stream gives the datagrams back whatever the fragmentation is and however often the receiver finds nothing to read, when they
fit and the connection does not fail inside of one (`udp_frames_in_order`, `udp_frames_complete`); a datagram comes back exactly
when it fits (`udp_frame_iff`); and when the connection fails behind the head of one, the number of bytes that have come is taken
for one of datagrams (`udp_cut_datagram`).
-/

namespace Open365Vpn

open Runs Duplex Duplex.Proc Socks5

namespace Socks5

/-- The length of the header fits its byte, and the datagram with its address the buffer of the receiver. -/
def HevSocks5UdpMsg.Fits (m : HevSocks5UdpMsg) : Prop := m.addr.len ≤ 252 ∧ m.addr.len + m.buf.length ≤ udpBufSize

instance (m : HevSocks5UdpMsg) : Decidable m.Fits := inferInstanceAs (Decidable (_ ∧ _))

/-- The datagram in the buffer of the receiver. -/
def HevSocks5UdpMsg.received (m : HevSocks5UdpMsg) : ReceivedMsg := ⟨m.addr.bytes, m.buf⟩

/-- The datagrams that the receiver gives to lwIP: those that are not empty. -/
def arriving (ms : List HevSocks5UdpMsg) : List ReceivedMsg := (ms.map HevSocks5UdpMsg.received).filter (·.buf ≠ [])

namespace UdpAux

variable {weak : Faults} {ins outs : List Octet}

/-- The first two bytes of an address. -/
theorem exists_bytes (addr : HevSocks5Addr) : ∃ atype first rest, addr.bytes = atype :: first :: rest ∧ rest.length + 2 = addr.len := by
  have hlen := length_bytes addr
  rcases hb : addr.bytes with _ | ⟨atype, _ | ⟨first, rest⟩⟩
  · rw [hb] at hlen
    cases addr <;> simp [HevSocks5Addr.len] at hlen
    omega
  · rw [hb] at hlen
    cases addr <;> simp [HevSocks5Addr.len] at hlen
    omega
  · rw [hb] at hlen
    exact ⟨atype, first, rest, rfl, hlen⟩

theorem frame_eq (m : HevSocks5UdpMsg) {atype first : Octet} {rest : List Octet} (hb : m.addr.bytes = atype :: first :: rest) :
    m.frame = [octet (m.buf.length / 256), octet m.buf.length, octet (3 + m.addr.len), atype, first] ++ (rest ++ m.buf) := by
  unfold HevSocks5UdpMsg.frame u16Bytes
  rw [hb]
  simp

/-- The receiver reads the length of the data that the sender has stored. -/
theorem datlen_eq {n : Nat} (hn : n < 65536) : (octet (n / 256)).val * 256 + (octet n).val = n := by
  rw [octet_val (by omega)]
  change n / 256 * 256 + n % 256 = n
  omega

/-! ## A datagram -/

/-- The receive of a head that may fail only in front of it: nothing, all of it, or it waits in it. -/
theorem trace_recvHead (hw : weak.wait = false) {n : Nat} {q : Proc Octet (List Octet)}
    (h : Trace weak (socketRecvHead (n + 1)) ins outs q) :
    outs = [] ∧ ((ins = [] ∧ (q = done [] ∨ ∃ next, q = .get false next (.done []))) ∨
      (ins ≠ [] ∧ ((q = done ins ∧ ins.length = n + 1) ∨ ((∀ bs, q ≠ done bs) ∧ ins.length < n + 1)))) := by
  rcases h with ⟨rfl, rfl, rfl⟩ | ⟨b, ins', rfl, h⟩ | ⟨_, rfl, rfl, rfl⟩
  · exact ⟨rfl, Or.inl ⟨rfl, Or.inr ⟨_, rfl⟩⟩⟩
  · by_cases hd : ∃ bs, q = done bs
    · obtain ⟨bs, rfl⟩ := hd
      obtain ⟨rfl, rfl, _, hall⟩ := trace_getAll_done h
      exact ⟨rfl, Or.inr ⟨nofun, Or.inl ⟨rfl, congrArg Nat.succ (hall hw)⟩⟩⟩
    · obtain ⟨rfl, hlt⟩ := trace_getAll h (not_exists.1 hd)
      exact ⟨rfl, Or.inr ⟨nofun, Or.inr ⟨not_exists.1 hd, Nat.succ_lt_succ hlt⟩⟩⟩
  · exact ⟨rfl, Or.inl ⟨rfl, Or.inl rfl⟩⟩

/-- The rest of a turn behind the head of a datagram that fits: it reads the rest of the datagram. -/
theorem recvFrame_eq (m : HevSocks5UdpMsg) (hfit : m.Fits) (atype first : Octet) {rest : List Octet}
    (hlen : rest.length + 2 = m.addr.len) :
    ∃ K : List Octet → Proc Octet Turn, recvFrame = (socketRecvHead 5 >>= K) ∧ K [] = .done (.head 0) ∧
      K [octet (m.buf.length / 256), octet m.buf.length, octet (3 + m.addr.len), atype, first] =
        (socketRecv (rest.length + m.buf.length) >>= fun body =>
          if body.length ≠ rest.length + m.buf.length then .done (.body body.length)
          else .done (.msg ⟨atype :: first :: body.take rest.length, body.drop rest.length⟩)) := by
  obtain ⟨hfit₁, hfit₂⟩ := hfit
  unfold udpBufSize at hfit₂
  have hhdr : (octet (3 + m.addr.len)).val = 3 + m.addr.len := octet_val (by omega)
  have hdat := datlen_eq (n := m.buf.length) (by omega)
  refine ⟨_, rfl, rfl, ?_⟩
  dsimp only
  unfold udpBufSize
  rw [hhdr, hdat, if_neg (by omega), if_neg (by omega), show 3 + m.addr.len - 3 - 2 = rest.length by omega]
  rfl

/-- Where a turn of the receiver stands in a stream of datagrams that fit, when it cannot fail inside of one: in front of the first
one, inside of it, or behind it. -/
theorem recvFrame_trace (hw : weak.wait = false) {q : Proc Octet Turn} {tail : List Octet} {ms : List HevSocks5UdpMsg}
    (hfit : ∀ m ∈ ms, m.Fits) (h : Trace weak recvFrame ins outs q) (hs : ins ++ tail = ms.flatMap HevSocks5UdpMsg.frame) :
    outs = [] ∧ ((ins = [] ∧ (q = .done (.head 0) ∨ ∃ next, q = .get false next (.done (.head 0)))) ∨
      ∃ m ms', ms = m :: ms' ∧ ((q = .done (.msg m.received) ∧ ins = m.frame) ∨
        ((∀ r, q ≠ .done r) ∧ ins ≠ [] ∧ ins.length < m.frame.length))) := by
  cases ms with
  | nil =>
    obtain ⟨rfl, rfl⟩ := List.append_eq_nil_iff.1 hs
    rcases trace_bind h with ⟨r, hr, hne, rfl⟩ | ⟨head, ins₁, ins₂, outs₁, outs₂, hins, rfl, hr, hq⟩
    · obtain ⟨rfl, ⟨_, rfl | ⟨next, rfl⟩⟩ | ⟨hne', _⟩⟩ := trace_recvHead hw hr
      · exact absurd rfl (hne [])
      · exact ⟨rfl, Or.inl ⟨rfl, Or.inr ⟨_, rfl⟩⟩⟩
      · exact absurd rfl hne'
    · obtain ⟨rfl, rfl⟩ := List.append_eq_nil_iff.1 hins.symm
      obtain ⟨rfl, ⟨_, hd | ⟨next, hd⟩⟩ | ⟨hne', _⟩⟩ := trace_recvHead hw hr
      · cases hd
        exact ⟨hq.2.1, Or.inl ⟨rfl, Or.inl hq.2.2⟩⟩
      · cases hd
      · exact absurd rfl hne'
  | cons m ms =>
    obtain ⟨atype, first, rest, hb, hlen⟩ := exists_bytes m.addr
    obtain ⟨K, hK, hnil, hhead⟩ := recvFrame_eq m (hfit m List.mem_cons_self) atype first hlen
    rw [List.flatMap_cons, frame_eq m hb, List.append_assoc] at hs
    have hfive : m.frame.length = 5 + (rest.length + m.buf.length) := by
      rw [frame_eq m hb, List.length_append, List.length_append]
      rfl
    rw [hK] at h
    rcases trace_bind h with ⟨r, hr, hne, rfl⟩ | ⟨head, ins₁, ins₂, outs₁, outs₂, rfl, rfl, hr, hq⟩
    · obtain ⟨rfl, ⟨rfl, rfl | ⟨next, rfl⟩⟩ | ⟨hin, ⟨rfl, _⟩ | ⟨_, hlt⟩⟩⟩ := trace_recvHead hw hr
      · exact absurd rfl (hne [])
      · refine ⟨rfl, Or.inl ⟨rfl, Or.inr ⟨fun b => next b >>= K, ?_⟩⟩⟩
        rw [get_bind, done_bind, hnil]
      · exact absurd rfl (hne _)
      · exact ⟨rfl, Or.inr ⟨m, ms, rfl, Or.inr ⟨bind_ne_done hne, hin, by omega⟩⟩⟩
    · obtain ⟨rfl, ⟨rfl, hd | ⟨next, hd⟩⟩ | ⟨hin, ⟨hd, hlen₁⟩ | ⟨hne', _⟩⟩⟩ := trace_recvHead hw hr
      · cases hd
        rw [hnil] at hq
        obtain ⟨rfl, rfl, rfl⟩ := hq
        exact ⟨rfl, Or.inl ⟨rfl, Or.inl rfl⟩⟩
      · cases hd
      · cases hd
        rw [List.append_assoc] at hs
        obtain ⟨rfl, hs'⟩ := List.append_inj hs hlen₁
        rw [hhead] at hq
        rcases trace_bind hq with ⟨r, hr', hne', rfl⟩ | ⟨body, ins₃, ins₄, outs₃, outs₄, rfl, rfl, hr', hq'⟩
        · obtain ⟨rfl, hlt⟩ := trace_getAll hr' hne'
          refine ⟨rfl, Or.inr ⟨m, ms, rfl, Or.inr ⟨bind_ne_done hne', nofun, ?_⟩⟩⟩
          rw [List.length_append, hlen₁]
          omega
        · obtain ⟨rfl, rfl, _, hall⟩ := trace_recv_done hr'
          rw [if_neg (not_not.2 (hall hw))] at hq'
          obtain ⟨rfl, rfl, rfl⟩ := hq'
          rw [List.append_nil] at hs'
          obtain ⟨rfl, _⟩ := List.append_inj hs' (by rw [hall hw, List.length_append])
          refine ⟨rfl, Or.inr ⟨m, ms, rfl, Or.inl ⟨?_, ?_⟩⟩⟩
          · rw [List.take_left, List.drop_left, HevSocks5UdpMsg.received, hb]
          · rw [frame_eq m hb, List.append_nil]
      · exact absurd rfl (hne' _)

/-- A datagram that fits is received. -/
theorem eval_recvFrame {m : HevSocks5UdpMsg} (hfit : m.Fits) : Eval recvFrame m.frame [] (.msg m.received) := by
  obtain ⟨atype, first, rest, hb, hlen⟩ := exists_bytes m.addr
  obtain ⟨K, hK, _, hhead⟩ := recvFrame_eq m hfit atype first hlen
  have hbody : (rest ++ m.buf).length = rest.length + m.buf.length := List.length_append
  have hrecv : Eval (K [octet (m.buf.length / 256), octet m.buf.length, octet (3 + m.addr.len), atype, first]) (rest ++ m.buf ++ []) []
      (.msg m.received) := by
    rw [hhead]
    refine eval_recv (rest ++ m.buf) [] hbody ?_
    rw [if_neg (not_not.2 hbody), List.take_left, List.drop_left, HevSocks5UdpMsg.received, hb]
    exact eval_done _
  rw [List.append_nil] at hrecv
  rw [frame_eq m hb, hK]
  exact ⟨_, _, rfl, _, _, rfl, _, _, rfl, _, _, rfl, _, _, rfl, hrecv⟩

/-! ## A call -/

/-- The rest of a call behind a turn that has found nothing, a datagram, or the beginning of one. -/
theorem udpRecvmmsgTcp_eq (fault : RecvFault) (num : Nat) (got : List ReceivedMsg) :
    ∃ (K : Turn → Proc Octet (Int × List ReceivedMsg)) (res : Int),
      udpRecvmmsgTcp fault (num + 1) got = (recvFrame >>= K) ∧ K (.head 0) = .done (res, got) ∧
      (∀ m, K (.msg m) = udpRecvmmsgTcp fault num (got ++ [m])) ∧
      (∀ size, K (.body (size + 1)) = .done (((size + 1 : Nat) : Int), got)) ∧
      ((res = got.length ∧ 0 < got.length) ∨ (got = [] ∧ res = fault.how.res)) := by
  by_cases hpos : 0 < got.length
  · exact ⟨_, got.length, rfl, if_pos hpos, fun _ => rfl, fun _ => rfl, Or.inl ⟨rfl, hpos⟩⟩
  · refine ⟨_, fault.headRes 0, rfl, if_neg hpos, fun _ => rfl, fun _ => rfl, Or.inr ⟨List.length_eq_zero_iff.1 (by omega), ?_⟩⟩
    simp [RecvFault.headRes]

/-- Where a call of the receiver stands in a stream of datagrams that fit, when it cannot fail inside of one. The messages that are
set are the first datagrams, and nothing has been read behind them when it ends; the result is their number, unless there is none
and the receive has failed. -/
theorem udpRecvmmsgTcp_trace (hw : weak.wait = false) {fault : RecvFault} {num : Nat} {got : List ReceivedMsg}
    {q : Proc Octet (Int × List ReceivedMsg)} {tail : List Octet} {ms : List HevSocks5UdpMsg} (hfit : ∀ m ∈ ms, m.Fits)
    (h : Trace weak (udpRecvmmsgTcp fault num got) ins outs q) (hs : ins ++ tail = ms.flatMap HevSocks5UdpMsg.frame) :
    outs = [] ∧ ∃ ms₁ ms₂ ins', ms = ms₁ ++ ms₂ ∧ ins = ms₁.flatMap HevSocks5UdpMsg.frame ++ ins' ∧
      ((ins' = [] ∧ ∃ res, (q = .done (res, got ++ ms₁.map HevSocks5UdpMsg.received) ∨
            ∃ next, q = .get false next (.done (res, got ++ ms₁.map HevSocks5UdpMsg.received))) ∧
          ((res = (got ++ ms₁.map HevSocks5UdpMsg.received).length ∧
              (0 < num → 0 < (got ++ ms₁.map HevSocks5UdpMsg.received).length)) ∨
            (got ++ ms₁.map HevSocks5UdpMsg.received = [] ∧ res = fault.how.res))) ∨
        ((∀ r, q ≠ .done r) ∧ ∃ m ms', ms₂ = m :: ms' ∧ ins' ≠ [] ∧ ins'.length < m.frame.length)) := by
  induction num generalizing got ms ins outs with
  | zero =>
    obtain ⟨rfl, rfl, rfl⟩ := h
    refine ⟨rfl, [], ms, [], rfl, rfl, Or.inl ⟨rfl, got.length, Or.inl ?_, Or.inl ⟨?_, fun h => absurd h (Nat.lt_irrefl 0)⟩⟩⟩
    · rw [List.map_nil, List.append_nil]
    · rw [List.map_nil, List.append_nil]
  | succ num ih =>
    obtain ⟨K, res, hK, hhead, hmsg, _, hres⟩ := udpRecvmmsgTcp_eq fault num got
    have hres' : (res = got.length ∧ (0 < num + 1 → 0 < got.length)) ∨ (got = [] ∧ res = fault.how.res) :=
      hres.imp (fun h => ⟨h.1, fun _ => h.2⟩) id
    rw [hK] at h
    rcases trace_bind h with ⟨r, hr, hne, hq⟩ | ⟨r, ins₁, ins₂, outs₁, outs₂, rfl, rfl, hr, hq⟩
    · obtain ⟨rfl, ⟨rfl, rfl | ⟨next, rfl⟩⟩ | ⟨m, ms', rfl, ⟨rfl, _⟩ | ⟨_, hin, hlt⟩⟩⟩ := recvFrame_trace hw hfit hr hs
      · exact absurd rfl (hne _)
      · rw [get_bind, done_bind, hhead] at hq
        refine ⟨rfl, [], ms, [], rfl, rfl, Or.inl ⟨rfl, res, Or.inr ⟨fun b => next b >>= K, ?_⟩, ?_⟩⟩
        · rw [hq, List.map_nil, List.append_nil]
        · rw [List.map_nil, List.append_nil]
          exact hres'
      · exact absurd rfl (hne _)
      · refine ⟨rfl, [], _, ins, rfl, rfl, Or.inr ⟨?_, m, ms', rfl, hin, hlt⟩⟩
        rw [hq]
        exact bind_ne_done hne
    · rw [List.append_assoc] at hs
      obtain ⟨rfl, ⟨rfl, hd | ⟨next, hd⟩⟩ | ⟨m, ms', rfl, ⟨hd, rfl⟩ | ⟨hne, _⟩⟩⟩ := recvFrame_trace hw hfit hr hs
      · cases hd
        rw [hhead] at hq
        obtain ⟨rfl, rfl, hq⟩ := hq
        refine ⟨rfl, [], ms, [], rfl, rfl, Or.inl ⟨rfl, res, Or.inl ?_, ?_⟩⟩
        · rw [hq, List.map_nil, List.append_nil]
        · rw [List.map_nil, List.append_nil]
          exact hres'
      · cases hd
      · cases hd
        rw [hmsg] at hq
        rw [List.flatMap_cons, List.append_cancel_left_eq] at hs
        obtain ⟨rfl, ms₁, ms₂, ins', rfl, rfl, hcase⟩ := ih (fun m' hm' => hfit m' (List.mem_cons_of_mem _ hm')) hq hs
        refine ⟨rfl, m :: ms₁, ms₂, ins', rfl, by rw [List.flatMap_cons, List.append_assoc], ?_⟩
        rw [List.append_assoc, List.singleton_append] at hcase
        rcases hcase with ⟨rfl, res', hq', ⟨hres, _⟩ | ⟨hnil, _⟩⟩ | hcase
        · refine Or.inl ⟨rfl, res', hq', Or.inl ⟨hres, fun _ => ?_⟩⟩
          rw [List.map_cons, List.length_append, List.length_cons]
          omega
        · exact absurd hnil (by simp)
        · exact Or.inr hcase
      · exact absurd rfl (hne _)

/-! ## The sender and lwIP -/

theorem frames_ne_nil {msgv : List HevSocks5UdpMsg} (h : msgv ≠ []) : msgv.flatMap HevSocks5UdpMsg.frame ≠ [] := by
  obtain ⟨m, ms, rfl⟩ := List.exists_cons_of_ne_nil h
  simp [HevSocks5UdpMsg.frame, u16Bytes]

/-- A sender whose writes go through has written the beginning of the datagrams. It is at a write or it has ended, and when no batch
is empty it ends behind the last datagram. -/
theorem sendBatches_trace (hp : weak.put = false) {batches : List (List HevSocks5UdpMsg)} {q : Proc Octet Bool}
    (h : Trace weak (sendBatches batches) ins outs q) :
    ins = [] ∧ outs <+: batches.flatten.flatMap HevSocks5UdpMsg.frame ∧
      ((∃ b next failed, q = .put b next failed) ∨
        ∃ ok, q = .done ok ∧
          ((∀ b ∈ batches, b ≠ []) → ok = true ∧ outs = batches.flatten.flatMap HevSocks5UdpMsg.frame)) := by
  induction batches generalizing ins outs with
  | nil =>
    obtain ⟨rfl, rfl, rfl⟩ := h
    exact ⟨rfl, List.nil_prefix, Or.inr ⟨true, rfl, fun _ => ⟨rfl, rfl⟩⟩⟩
  | cons msgv batches ih =>
    rw [List.flatten_cons, List.flatMap_append]
    rcases trace_bind h with ⟨r, hs, hr, rfl⟩ | ⟨ok, ins₁, ins₂, outs₁, outs₂, rfl, rfl, hs, hq⟩
    · obtain ⟨rfl, hpre, _, b, next, failed, rfl⟩ := trace_send hs hr
      exact ⟨rfl, hpre.trans (List.prefix_append _ _), Or.inl ⟨b, _, _, rfl⟩⟩
    · obtain ⟨rfl, _, hok, hall⟩ := trace_send_done hs
      obtain rfl := hall hp
      split at hq
      · rename_i hfalse
        obtain ⟨rfl, rfl, rfl⟩ := hq
        refine ⟨rfl, ?_, Or.inr ⟨false, rfl, ?_⟩⟩
        · rw [List.append_nil]
          exact List.prefix_append _ _
        · intro hne
          rw [hok.2 (frames_ne_nil (hne msgv List.mem_cons_self))] at hfalse
          cases hfalse
      · obtain ⟨rfl, hpre, hcase⟩ := ih hq
        refine ⟨rfl, (List.prefix_append_right_inj _).2 hpre, ?_⟩
        rcases hcase with hput | ⟨ok', rfl, hdone⟩
        · exact Or.inl hput
        · refine Or.inr ⟨ok', rfl, ?_⟩
          intro hne
          obtain ⟨htrue, hout⟩ := hdone fun b hb => hne b (List.mem_cons_of_mem _ hb)
          exact ⟨htrue, by rw [hout]⟩

/-- When the messages that are used are set, lwIP gets those that are not empty, up to one that it refuses. -/
theorem handUp_spec (accepts : List Bool) (msgs : List ReceivedMsg) :
    (handUp accepts msgs.length msgs).1 <+: msgs.filter (·.buf ≠ []) ∧
      (((handUp accepts msgs.length msgs).2 = some .more ∧ (handUp accepts msgs.length msgs).1 = msgs.filter (·.buf ≠ [])) ∨
        ((handUp accepts msgs.length msgs).2 = some .over ∧ false ∈ accepts)) := by
  induction msgs generalizing accepts with
  | nil => exact ⟨List.prefix_refl _, Or.inl ⟨rfl, rfl⟩⟩
  | cons m msgs ih =>
    rw [List.length_cons, handUp]
    split
    · rename_i hnil
      rw [List.filter_cons_of_neg (by simp [hnil])]
      exact ih accepts
    rename_i hbuf
    rw [List.filter_cons_of_pos (by simp [hbuf])]
    split
    · obtain ⟨hpre, hcase⟩ := ih accepts.tail
      refine ⟨List.cons_prefix_cons.2 ⟨rfl, hpre⟩, hcase.imp ?_ ?_⟩
      · rintro ⟨hr, hall⟩
        exact ⟨hr, congrArg (m :: ·) hall⟩
      · rintro ⟨hr, hmem⟩
        exact ⟨hr, List.mem_of_mem_tail hmem⟩
    · rename_i hno
      refine ⟨List.nil_prefix, Or.inr ⟨rfl, ?_⟩⟩
      cases accepts with
      | nil => exact absurd rfl hno
      | cons b accepts =>
        obtain rfl : b = false := by simpa using hno
        exact List.mem_cons_self

/-- The rest of `hev_socks5_session_udp_fwd_b` behind a call that has not failed inside of a datagram. -/
theorem sessionUdpFwdB_spec (accepts : List Bool) (again : Bool) {res : Int} {msgs : List ReceivedMsg} {how : RecvFailure}
    {num : Nat} (h : (res = msgs.length ∧ (0 < num → 0 < msgs.length)) ∨ (msgs = [] ∧ res = how.res)) :
    (sessionUdpFwdB accepts again res msgs).1 <+: msgs.filter (·.buf ≠ []) ∧
      (sessionUdpFwdB accepts again res msgs).2 ≠ none ∧
      ((sessionUdpFwdB accepts again res msgs).2 ≠ some .over →
        (sessionUdpFwdB accepts again res msgs).1 = msgs.filter (·.buf ≠ [])) ∧
      (0 < num ∧ how = .error ∧ again = true → (∀ b ∈ accepts, b = true) →
        (sessionUdpFwdB accepts again res msgs).2 ≠ some .over) := by
  unfold sessionUdpFwdB
  split
  · rename_i hle
    have hnil : msgs = [] := by
      rcases h with ⟨rfl, _⟩ | ⟨hnil, _⟩
      · exact List.length_eq_zero_iff.1 (by omega)
      · exact hnil
    subst hnil
    refine ⟨List.prefix_refl _, nofun, fun _ => rfl, ?_⟩
    rintro ⟨hnum, rfl, rfl⟩ _
    rcases h with ⟨_, hpos⟩ | ⟨_, rfl⟩
    · exact absurd (hpos hnum) (Nat.lt_irrefl 0)
    · simp [RecvFailure.res]
  · rename_i hpos
    have hres : res.toNat = msgs.length := by
      rcases h with ⟨rfl, _⟩ | ⟨_, rfl⟩
      · exact Int.toNat_natCast _
      · cases how <;> exact absurd (by decide) hpos
    rw [hres]
    obtain ⟨hpre, ⟨hr, hall⟩ | ⟨hr, hmem⟩⟩ := handUp_spec accepts msgs
    · rw [hr]
      exact ⟨hpre, nofun, fun _ => hall, fun _ _ => by decide⟩
    · rw [hr]
      refine ⟨hpre, nofun, fun hne => absurd rfl hne, ?_⟩
      intro _ htrue
      cases htrue false hmem

end UdpAux

end Socks5

namespace UdpLinkEvent

/-- A receive that finds nothing says `EAGAIN`, and lwIP takes what it is given. -/
def Quiet : UdpLinkEvent → Prop
  | .conn _ => True
  | .fwdB num fault => 0 < num ∧ fault.how = .error ∧ fault.again = true
  | .handUp accepts => ∀ b ∈ accepts, b = true

instance decidableQuiet : ∀ e, Decidable (Quiet e)
  | .conn _ => inferInstanceAs (Decidable True)
  | .fwdB _ _ => inferInstanceAs (Decidable (_ ∧ _))
  | .handUp _ => inferInstanceAs (Decidable (∀ _ ∈ _, _))

/-- A byte goes or comes. -/
def isMove : UdpLinkEvent → Bool
  | .conn (.go _) => true
  | _ => false

end UdpLinkEvent

namespace UdpLink

open Socks5.UdpAux

/-- The writes go through, and a read fails only in front of a datagram, where it does not wait. -/
def Between (s : UdpLink) : UdpLinkEvent → Prop
  | .conn e => Allowed ⟨false, false⟩ ⟨false, false⟩ s.net e
  | _ => True

instance decidableBetween (s : UdpLink) : ∀ e, Decidable (Between s e)
  | .conn _ => inferInstanceAs (Decidable (Allowed _ _ _ _))
  | .fwdB _ _ => inferInstanceAs (Decidable True)
  | .handUp _ => inferInstanceAs (Decidable True)

/-- The connection does not fail: a read finds nothing only when the stream is empty. -/
def Calm (s : UdpLink) (e : UdpLinkEvent) : Prop :=
  Between s e ∧ e.Quiet ∧ (e = .conn (.fail .right) → s.net.forth = [])

instance decidableCalm (s : UdpLink) (e : UdpLinkEvent) : Decidable (Calm s e) := inferInstanceAs (Decidable (_ ∧ _))

/-- What holds while no read fails inside of a datagram: `ms` are the datagrams of the calls that are over, and `ins` the bytes that
the last one has read behind them. -/
structure Sound (quiet : Prop) (batches : List (List HevSocks5UdpMsg)) (s : UdpLink) (ms : List HevSocks5UdpMsg)
    (ins : List Octet) : Prop where
  sender : Trace ⟨false, false⟩ (sendBatches batches) [] (ms.flatMap HevSocks5UdpMsg.frame ++ ins ++ s.net.forth) s.net.left
  back : s.net.back = []
  first : ms <+: batches.flatten
  idle : s.calling = none → ins = [] ∧ ∃ r, s.net.right = .done r
  call : ∀ again, s.calling = some again → ∃ fault num, fault.again = again ∧
    (quiet → 0 < num ∧ fault.how = .error ∧ fault.again = true) ∧
    Trace ⟨false, false⟩ (udpRecvmmsgTcp fault num []) ins [] s.net.right
  live : s.calling ≠ none → s.resB ≠ some .over
  handed : s.handed <+: arriving ms
  all : s.resB ≠ some .over → s.handed = arriving ms
  resB : s.resB ≠ none ∧ (quiet → s.resB ≠ some .over)

/-- The moves of the connection so far: every byte in the stream has gone, and every byte that has been read has gone and come. -/
def moved (s : UdpLink) (ms : List HevSocks5UdpMsg) (ins : List Octet) : Nat :=
  2 * (ms.flatMap HevSocks5UdpMsg.frame).length + 2 * ins.length + s.net.forth.length

variable {quiet : Prop} {batches : List (List HevSocks5UdpMsg)} {s t : UdpLink} {ms : List HevSocks5UdpMsg} {ins : List Octet}

theorem sound_init (quiet : Prop) (batches : List (List HevSocks5UdpMsg)) : Sound quiet batches (init batches) [] [] where
  sender := trace_self _
  back := rfl
  first := List.nil_prefix
  idle _ := ⟨rfl, _, rfl⟩
  call again h := by cases h
  live h := absurd rfl h
  handed := List.prefix_refl _
  all _ := rfl
  resB := ⟨nofun, fun _ h => by cases h⟩

/-- What the last call has read and what is in the stream is the beginning of the other datagrams. -/
theorem Sound.stream (h : Sound quiet batches s ms ins) (hfit : ∀ m ∈ batches.flatten, m.Fits) :
    ∃ rest tail, batches.flatten = ms ++ rest ∧ (∀ m ∈ rest, m.Fits) ∧
      ins ++ (s.net.forth ++ tail) = rest.flatMap HevSocks5UdpMsg.frame := by
  obtain ⟨rest, hrest⟩ := h.first
  obtain ⟨_, ⟨tail, htail⟩, _⟩ := sendBatches_trace rfl h.sender
  refine ⟨rest, tail, hrest.symm, fun m hm => hfit m (by rw [← hrest]; exact List.mem_append_right _ hm), ?_⟩
  rw [← hrest, List.flatMap_append, List.append_assoc, List.append_assoc, List.append_cancel_left_eq] at htail
  exact htail

/-- A step of the connection. -/
theorem Sound.conn (h : Sound quiet batches s ms ins) (hfit : ∀ m ∈ batches.flatten, m.Fits) {e : Event}
    {net : Net Octet Bool (Int × List ReceivedMsg)} (hok : Allowed ⟨false, false⟩ ⟨false, false⟩ s.net e)
    (hs : Duplex.step s.net e = some net) :
    ∃ ins', Sound quiet batches { s with net } ms ins' ∧
      moved { s with net } ms ins' = moved s ms ins + e.bytes := by
  rcases step_moves hok hs with ⟨hright, i, o, htr, hback, hforth, hn⟩ | ⟨hleft, i, o, htr, hforth, hback, hn⟩
  · rw [h.back] at hback
    obtain ⟨rfl, hnil⟩ : i = [] ∧ net.back = [] := List.append_eq_nil_iff.1 hback.symm
    refine ⟨ins, ⟨?_, hnil, h.first, ?_, ?_, h.live, h.handed, h.all, h.resB⟩, ?_⟩
    · have := h.sender.append htr
      rw [List.append_nil, List.append_assoc, ← hforth] at this
      exact this
    · intro hc
      obtain ⟨hin, r, hr⟩ := h.idle hc
      exact ⟨hin, r, hright.trans hr⟩
    · intro again hc
      obtain ⟨fault, num, ha, hq, ht⟩ := h.call again hc
      exact ⟨fault, num, ha, hq, hright ▸ ht⟩
    · simp only [moved, hforth, List.length_append, ← hn, List.length_nil]
      omega
  · change net.left = s.net.left at hleft
    change Trace _ s.net.right i o net.right at htr
    change s.net.forth = i ++ net.forth at hforth
    change net.back = s.net.back ++ o at hback
    -- the receiver writes nothing
    have ho : o = [] ∧ (∀ again, s.calling = some again → ∃ fault num, fault.again = again ∧
        (quiet → 0 < num ∧ fault.how = .error ∧ fault.again = true) ∧
        Trace ⟨false, false⟩ (udpRecvmmsgTcp fault num []) (ins ++ i) [] net.right) ∧
        (s.calling = none → i = [] ∧ net.right = s.net.right) := by
      cases hc : s.calling with
      | none =>
        obtain ⟨_, r, hr⟩ := h.idle hc
        rw [hr] at htr ⊢
        obtain ⟨rfl, rfl, hr'⟩ := htr
        exact ⟨rfl, (fun again h => by cases h), fun _ => ⟨rfl, hr'⟩⟩
      | some again =>
        obtain ⟨fault, num, ha, hq, ht⟩ := h.call again hc
        obtain ⟨rest, tail, _, hrest, hstream⟩ := h.stream hfit
        have ht' := ht.append htr
        rw [hforth, List.append_assoc, ← List.append_assoc ins] at hstream
        obtain ⟨rfl, _⟩ := udpRecvmmsgTcp_trace rfl hrest ht' hstream
        refine ⟨rfl, ?_, (fun h => by cases h)⟩
        intro again' hc'
        cases hc'
        exact ⟨fault, num, ha, hq, ht'⟩
    obtain ⟨rfl, hcall, hidle⟩ := ho
    refine ⟨ins ++ i, ⟨?_, ?_, h.first, ?_, hcall, h.live, h.handed, h.all, h.resB⟩, ?_⟩
    · have := h.sender
      rw [hforth, ← List.append_assoc, List.append_assoc _ ins] at this
      exact hleft ▸ this
    · rw [hback, h.back]
      rfl
    · intro hc
      obtain ⟨hin, r, hr⟩ := h.idle hc
      obtain ⟨hi, hr'⟩ := hidle hc
      rw [hin, hi]
      exact ⟨rfl, r, hr'.trans hr⟩
    · simp only [moved, hforth, List.length_append, ← hn, List.length_nil]
      omega

/-- The splicer calls `hev_socks5_session_udp_fwd_b`. -/
theorem Sound.fwdB (h : Sound quiet batches s ms ins) {num : Nat} {fault : RecvFault} (hq : quiet → UdpLinkEvent.Quiet (.fwdB num fault))
    (hs : step s (.fwdB num fault) = some t) : Sound quiet batches t ms ins ∧ moved t ms ins = moved s ms ins := by
  unfold step at hs
  dsimp only at hs
  split at hs
  · cases hs
  rename_i hcan
  obtain ⟨hcalling, hset, hover⟩ := by simpa only [not_or, Bool.not_eq_true, Option.isSome_eq_false_iff] using hcan
  obtain ⟨rfl, _⟩ := h.idle (Option.isNone_iff_eq_none.1 hcalling)
  cases hs
  refine ⟨⟨h.sender, h.back, h.first, nofun, ?_, fun _ => hover, h.handed, h.all, h.resB⟩, rfl⟩
  intro again ha
  cases ha
  exact ⟨fault, num, rfl, hq, trace_self _⟩

/-- The call of the receiver that is over has set the next datagrams, and its result is their number when it is positive. -/
theorem Sound.returned (h : Sound quiet batches s ms ins) (hfit : ∀ m ∈ batches.flatten, m.Fits) {again : Bool} {res : Int}
    {msgs : List ReceivedMsg} (hc : s.calling = some again) (hr : s.net.right = .done (res, msgs)) :
    ∃ ms₁ ms₂, ∃ how : RecvFailure, ∃ num : Nat, batches.flatten = ms ++ (ms₁ ++ ms₂) ∧ ins = ms₁.flatMap HevSocks5UdpMsg.frame ∧
      msgs = ms₁.map HevSocks5UdpMsg.received ∧ (quiet → 0 < num ∧ how = .error ∧ again = true) ∧
      ((res = msgs.length ∧ (0 < num → 0 < msgs.length)) ∨ (msgs = [] ∧ res = how.res)) := by
  obtain ⟨fault, num, rfl, hq, htr⟩ := h.call again hc
  obtain ⟨rest, tail, hall, hrest, hstream⟩ := h.stream hfit
  rw [hr] at htr
  obtain ⟨_, ms₁, ms₂, ins', rfl, rfl, ⟨rfl, res', hd | ⟨next, hd⟩, hres⟩ | ⟨hne, _⟩⟩ := udpRecvmmsgTcp_trace rfl hrest htr hstream
  · cases hd
    exact ⟨ms₁, ms₂, fault.how, num, hall, List.append_nil _, rfl, hq, hres⟩
  · cases hd
  · exact absurd rfl (hne _)

/-- The receive of a call has returned. -/
theorem Sound.handUp (h : Sound quiet batches s ms ins) (hfit : ∀ m ∈ batches.flatten, m.Fits) {accepts : List Bool}
    (hq : quiet → UdpLinkEvent.Quiet (.handUp accepts)) (hs : step s (.handUp accepts) = some t) :
    ∃ ms', Sound quiet batches t ms' [] ∧ moved t ms' [] = moved s ms ins := by
  unfold step at hs
  dsimp only at hs
  split at hs
  · rename_i again res msgs hc hr
    obtain ⟨ms₁, ms₂, how, num, hall, rfl, rfl, hquiet, hres⟩ := h.returned hfit hc hr
    obtain ⟨hpre, hset, hover, hopen⟩ := sessionUdpFwdB_spec accepts again hres
    have hhanded := h.all (h.live (by rw [hc]; exact Option.some_ne_none _))
    have harriving : arriving (ms ++ ms₁) = s.handed ++ (ms₁.map HevSocks5UdpMsg.received).filter (·.buf ≠ []) := by
      rw [hhanded, arriving, arriving, List.map_append, List.filter_append]
    cases hs
    refine ⟨ms ++ ms₁, ⟨?_, h.back, ?_, fun _ => ⟨rfl, _, hr⟩, (fun _ hn => by cases hn), fun hn => absurd rfl hn, ?_, ?_, ?_⟩, ?_⟩
    · have := h.sender
      rw [← List.flatMap_append] at this
      rw [List.append_nil]
      exact this
    · exact ⟨ms₂, by rw [hall, List.append_assoc]⟩
    · rw [harriving]
      exact (List.prefix_append_right_inj _).2 hpre
    · intro hne
      rw [harriving, hover hne]
    · exact ⟨hset, fun hqt => hopen (hquiet hqt) (hq hqt)⟩
    · simp only [moved, List.flatMap_append, List.length_append, List.length_nil]
      omega
  · cases hs

/-- A step keeps `Sound`, with the datagrams of a call that has returned; and `moved` counts the moves of the connection. -/
theorem Sound.step (h : Sound quiet batches s ms ins) (hfit : ∀ m ∈ batches.flatten, m.Fits) {e : UdpLinkEvent} (hok : Between s e)
    (hq : quiet → e.Quiet) (hs : UdpLink.step s e = some t) :
    ∃ ms' ins', Sound quiet batches t ms' ins' ∧ moved t ms' ins' = moved s ms ins + if e.isMove then 1 else 0 := by
  cases e with
  | conn e =>
    obtain ⟨net, hnet, rfl⟩ := Option.map_eq_some_iff.1 hs
    obtain ⟨ins', hsound, hmoved⟩ := h.conn hfit hok hnet
    refine ⟨ms, ins', hsound, ?_⟩
    rw [hmoved]
    cases e <;> rfl
  | fwdB num fault =>
    obtain ⟨hsound, hmoved⟩ := h.fwdB hq hs
    exact ⟨ms, ins, hsound, hmoved⟩
  | handUp accepts =>
    obtain ⟨ms', hsound, hmoved⟩ := h.handUp hfit hq hs
    exact ⟨ms', [], hsound, hmoved⟩

/-! ## Runs -/

theorem exec_sound {ok : UdpLink → UdpLinkEvent → Prop} (hok : ∀ s e, ok s e → Between s e ∧ (quiet → e.Quiet))
    {es : List UdpLinkEvent} (hfit : ∀ m ∈ batches.flatten, m.Fits) (hm : Meets UdpLink.step ok (init batches) es)
    (hx : exec UdpLink.step (init batches) es = some s) :
    ∃ ms ins, Sound quiet batches s ms ins ∧ moved s ms ins = es.countP UdpLinkEvent.isMove := by
  refine exec_history_invariant (fun es s => ∃ ms ins, Sound quiet batches s ms ins ∧
    moved s ms ins = es.countP UdpLinkEvent.isMove) ?_ ⟨[], [], sound_init quiet batches, rfl⟩ hm hx
  rintro past s e t ⟨ms, ins, hsound, hmoved⟩ hstep hs
  obtain ⟨ms', ins', hsound', hmoved'⟩ := hsound.step hfit (hok s e hstep).1 (hok s e hstep).2 hs
  refine ⟨ms', ins', hsound', ?_⟩
  rw [hmoved', hmoved, List.countP_append, List.countP_singleton]

/-- The sender has sent everything, and the receiver has taken everything out of the stream. -/
def Finished (s : UdpLink) : Prop := (∃ ok, s.net.left = .done ok) ∧ s.net.forth = [] ∧ s.calling = none

/-- A sender that has ended has sent everything. -/
theorem Sound.sent_all (h : Sound quiet batches s ms ins) (hne : ∀ b ∈ batches, b ≠ []) {ok : Bool} (hleft : s.net.left = .done ok) :
    ∃ rest, batches.flatten = ms ++ rest ∧ ins ++ s.net.forth = rest.flatMap HevSocks5UdpMsg.frame := by
  obtain ⟨_, _, ⟨b, next, failed, hput⟩ | ⟨ok', hdone, hall⟩⟩ := sendBatches_trace rfl h.sender
  · rw [hleft] at hput
    cases hput
  obtain ⟨rest, hrest⟩ := h.first
  have hout := (hall hne).2
  rw [← hrest, List.flatMap_append, List.append_assoc, List.append_cancel_left_eq] at hout
  exact ⟨rest, hrest.symm, hout⟩

/-- Every datagram has come when the sender has ended and the stream is empty. -/
theorem Sound.finished (h : Sound True batches s ms ins) (hne : ∀ b ∈ batches, b ≠ []) (hf : Finished s) :
    s.handed = arriving batches.flatten := by
  obtain ⟨⟨ok, hleft⟩, hforth, hcalling⟩ := hf
  obtain ⟨rfl, _⟩ := h.idle hcalling
  obtain ⟨rest, hall, hsent⟩ := h.sent_all hne hleft
  rw [hforth] at hsent
  have hnil : rest = [] := by
    by_contra hcons
    exact frames_ne_nil hcons hsent.symm
  rw [h.all (h.resB.2 trivial), hall, hnil, List.append_nil]

/-- A calm run leads to the end. -/
def Ends (s : UdpLink) : Prop := ∃ es t, Meets UdpLink.step Calm s es ∧ exec UdpLink.step s es = some t ∧ Finished t

theorem Ends.of_step {e : UdpLinkEvent} (hok : Calm s e) (hs : UdpLink.step s e = some t) (h : Ends t) : Ends s := by
  obtain ⟨es, u, hm, hx, hu⟩ := h
  refine ⟨e :: es, u, meets_cons.2 ⟨hok, fun t' ht' => ?_⟩, exec_cons_eq_some.2 ⟨t, hs, hx⟩, hu⟩
  rw [hs, Option.some.injEq] at ht'
  exact ht' ▸ hm

end UdpLink

open Socks5.UdpAux

/-- A datagram of UDP comes back through the stream exactly when it fits: from a name of 249 bytes on the length of the header
wraps around, and a datagram that does not fit the buffer of the receiver with its address is an error there. -/
theorem udp_frame_iff (m : HevSocks5UdpMsg) (hbuf : m.buf.length < 65536) :
    Eval recvFrame m.frame [] (.msg m.received) ↔ m.Fits := by
  refine ⟨?_, eval_recvFrame⟩
  intro h
  obtain ⟨atype, first, rest, hb, hlen⟩ := exists_bytes m.addr
  have ht : Trace ⟨false, false⟩ recvFrame m.frame [] (.done (.msg m.received)) := h.trace
  obtain ⟨head, ins₁, ins₂, outs₁, outs₂, hins, _, hr, hq⟩ := trace_bind_done ht
  obtain ⟨_, ⟨_, hd | ⟨_, hd⟩⟩ | ⟨_, ⟨hd, _⟩ | ⟨hne, _⟩⟩⟩ := trace_recvHead rfl hr
  · cases hd
    cases hq.2.2
  · cases hd
  · cases hd
    rw [frame_eq m hb] at hins
    split at hq
    · simp only [List.cons_append, List.nil_append, List.cons.injEq] at hins
      obtain ⟨rfl, rfl, rfl, rfl, rfl, rfl⟩ := hins
      split at hq
      · cases hq.2.2
      rename_i hfive
      dsimp only at hq
      split at hq
      · cases hq.2.2
      rename_i hroom
      obtain ⟨body, ins₃, ins₄, outs₃, outs₄, hins', _, hr', hq'⟩ := trace_bind_done hq
      split at hq'
      · cases hq'.2.2
      rename_i hbody
      rw [not_not] at hbody
      obtain ⟨_, _, hq'⟩ := hq'
      rw [Proc.done.injEq, Turn.msg.injEq, HevSocks5UdpMsg.received, hb, ReceivedMsg.mk.injEq, List.cons.injEq,
        List.cons.injEq] at hq'
      have hrest : rest.length = (octet (3 + m.addr.len)).val - 3 - 2 := by
        rw [hq'.1.2.2, List.length_take, hbody]
        omega
      have hdat := datlen_eq hbuf
      have hmod : (octet (3 + m.addr.len)).val < 256 := (octet (3 + m.addr.len)).isLt
      unfold udpBufSize at hroom
      unfold HevSocks5UdpMsg.Fits udpBufSize
      omega
    · cases hq.2.2
  · exact absurd rfl (hne _)

/-- An empty datagram to a name of 249 bytes does not come back. -/
theorem udp_frame_iff_longName :
    ∃ m : HevSocks5UdpMsg, m.addr.len = 253 ∧ m.buf = [] ∧ ¬Eval recvFrame m.frame [] (.msg m.received) := by
  have hlen : (List.replicate 249 (97 : Octet)).length = 249 := List.length_replicate
  have hzero : (0 : Octet) ∉ List.replicate 249 97 := fun h => absurd (List.eq_of_mem_replicate h) (by decide)
  have hname : (HevSocks5Addr.name (List.replicate 249 97) ⟨[0, 53], rfl⟩ (by omega) hzero).len = 253 := by
    change 4 + (List.replicate 249 (97 : Octet)).length = 253
    rw [hlen]
  refine ⟨⟨.name (List.replicate 249 97) ⟨[0, 53], rfl⟩ (by omega) hzero, []⟩, hname, rfl, ?_⟩
  intro h
  have hfit := (udp_frame_iff _ (by exact Nat.zero_lt_succ _)).1 h
  rw [HevSocks5UdpMsg.Fits, hname] at hfit
  exact absurd hfit.1 (by decide)

end Open365Vpn
