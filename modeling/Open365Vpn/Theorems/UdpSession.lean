import Open365Vpn.Lemmas.Socks5
import Open365Vpn.Tunnel.UdpSession

/-!
# The datagrams of lwIP

A session takes the datagrams of lwIP out of its queue in the order in which they have come, each of them once. What goes out of each
is its first `pbuf`, as a datagram, or as a frame in the stream as long as no write goes in part (`udp_session_fifo`).
-/

namespace Open365Vpn

open Runs Duplex Duplex.Proc Socks5

/-- What the queue says about a send into the stream is what the program of the send does: the bytes that have gone are the beginning
of the frames, and the result is the number of all of them when there is any. -/
theorem udpSendmmsg_of_trace {weak : Faults} {msgv : List HevSocks5UdpMsg} {ins outs : List Octet} {ok : Bool}
    (h : Trace weak (udpSendmmsgTcp msgv) ins outs (.done ok)) :
    ∃ size, outs = (msgv.flatMap HevSocks5UdpMsg.frame).take size ∧
      udpSendmmsg .udpInTcp msgv (.stream size) = some (if ok then (msgv.length : Int) else -1) := by
  obtain ⟨_, hpre, hok, _⟩ := trace_send_done h
  refine ⟨outs.length, List.prefix_iff_eq_take.1 hpre, ?_⟩
  unfold udpSendmmsg
  dsimp only
  rw [if_neg (by have := hpre.length_le; omega)]
  cases ok with
  | true => rw [if_neg (List.length_pos_iff.2 (hok.1 rfl)).ne', if_pos rfl]
  | false =>
    have hnil : outs = [] := by
      by_contra hne
      cases hok.2 hne
    rw [hnil, List.length_nil, if_pos rfl]
    rfl

/-- What an observer of the queue remembers: the datagrams that lwIP has handed over and those of them that the queue has taken; those
that have left the queue; the bytes that have gone into the stream and the messages that have gone as datagrams; and whether a
write has gone in part. -/
structure UdpLog where
  arrived : List HevSocks5UdpFrame
  accepted : List HevSocks5UdpFrame
  taken : List HevSocks5UdpFrame
  stream : List Octet
  packets : List HevSocks5UdpMsg
  cut : Bool

namespace UdpSession

/-- The bytes and the messages of a send that has returned. -/
def logSend (msgv : List HevSocks5UdpMsg) (r : SendResult) (log : UdpLog) : UdpLog :=
  match r with
  | .stream size =>
    { log with
      stream := log.stream ++ (msgv.flatMap HevSocks5UdpMsg.frame).take size
      cut := log.cut || decide (0 < size ∧ size < (msgv.flatMap HevSocks5UdpMsg.frame).length) }
  | .datagrams res => { log with packets := log.packets ++ msgv.take res.toNat }

def record (s : UdpSession) (e : UdpEvent) (t : UdpSession) (log : UdpLog) : UdpLog :=
  match e with
  | .recvHandler frame =>
    { log with arrived := log.arrived ++ [frame], accepted := log.accepted ++ t.frameList.drop s.frameList.length }
  | .fwdF => log
  | .sent r =>
    logSend (s.sending.getD []) r
      { log with taken := log.taken ++ s.frameList.take (s.frameList.length - t.frameList.length) }

/-- The frames of datagrams in the stream. -/
def framesOf (taken : List HevSocks5UdpFrame) : List Octet := (taken.map HevSocks5UdpFrame.msg).flatMap HevSocks5UdpMsg.frame

theorem framesOf_append (l l' : List HevSocks5UdpFrame) : framesOf (l ++ l') = framesOf l ++ framesOf l' := by
  rw [framesOf, List.map_append, List.flatMap_append]
  rfl

/-- What holds of the queue and of what has gone through it. -/
structure Fifo (s : UdpSession) (log : UdpLog) : Prop where
  frames : s.frames = s.frameList.length
  bound : s.frames ≤ udpPoolSize + 1
  order : log.accepted = log.taken ++ s.frameList
  accepted : log.accepted.Sublist log.arrived
  sending : ∀ msgv, s.sending = some msgv → ∃ n ≤ s.frameList.length, msgv = (s.frameList.take n).map HevSocks5UdpFrame.msg

/-- What has gone out of the datagrams that have left the queue. -/
structure Gone (s : UdpSession) (log : UdpLog) : Prop where
  packets : s.type = .udpInUdp → log.packets = log.taken.map HevSocks5UdpFrame.msg
  whole : s.type = .udpInTcp → log.cut = false → log.stream = framesOf log.taken
  cut : s.type = .udpInTcp → log.cut = true → log.stream.length < (framesOf log.taken).length

theorem fifo_init (type : HevSocks5Type) : (init type).Fifo ⟨[], [], [], [], [], false⟩ :=
  ⟨rfl, Nat.zero_le _, rfl, List.Sublist.refl _, fun _ h => by cases h⟩

theorem gone_init (type : HevSocks5Type) : (init type).Gone ⟨[], [], [], [], [], false⟩ :=
  ⟨fun _ => rfl, fun _ _ => rfl, fun _ h => by cases h⟩

variable {num : Nat} {s t : UdpSession} {log : UdpLog}

@[simp] theorem logSend_accepted (msgv : List HevSocks5UdpMsg) (r : SendResult) (log : UdpLog) :
    (logSend msgv r log).accepted = log.accepted ∧ (logSend msgv r log).arrived = log.arrived ∧
      (logSend msgv r log).taken = log.taken := by
  cases r <;> exact ⟨rfl, rfl, rfl⟩

/-- The result of a send: at most the number of the messages; for datagrams what the system says, and for a stream all of them when
any byte has gone. -/
theorem udpSendmmsg_spec {type : HevSocks5Type} {msgv : List HevSocks5UdpMsg} {r : SendResult} {res : Int}
    (h : udpSendmmsg type msgv r = some res) :
    res.toNat ≤ msgv.length ∧ (type = .udpInUdp → r = .datagrams res) ∧
      (type = .udpInTcp → ∃ size, r = .stream size ∧ size ≤ (msgv.flatMap HevSocks5UdpMsg.frame).length ∧
        res.toNat = if size = 0 then 0 else msgv.length) := by
  unfold udpSendmmsg at h
  split at h
  · rename_i size
    split at h
    · cases h
    rename_i hsize
    cases h
    refine ⟨?_, (fun h => by cases h), fun _ => ⟨size, rfl, Nat.le_of_not_lt hsize, ?_⟩⟩
    · split <;> omega
    · split <;> rfl
  · split at h
    · cases h
    rename_i hres
    cases h
    exact ⟨by omega, fun _ => rfl, fun h => by cases h⟩
  · cases h

/-- A send that returns takes the first `n` datagrams out of the queue, and their messages are the first of those sent. -/
theorem sent_cases (h : s.Fifo log) {r : SendResult} (hs : s.step num (.sent r) = some t) :
    ∃ msgv res n, s.sending = some msgv ∧ udpSendmmsg s.type msgv r = some res ∧ n = res.toNat ∧ n ≤ s.frameList.length ∧
      t.type = s.type ∧ t.sending = none ∧ t.frames = s.frames - n ∧ t.frameList = s.frameList.drop n ∧
      (s.frameList.take n).map HevSocks5UdpFrame.msg = msgv.take n := by
  obtain ⟨msgv, hmsgv, hs⟩ := Option.bind_eq_some_iff.1 hs
  obtain ⟨res, hres, rfl⟩ := Option.map_eq_some_iff.1 hs
  obtain ⟨k, hk, rfl⟩ := h.sending msgv hmsgv
  have hle := (udpSendmmsg_spec hres).1
  rw [List.length_map, List.length_take, Nat.min_eq_left hk] at hle
  have htake : (s.frameList.take res.toNat).map HevSocks5UdpFrame.msg =
      ((s.frameList.take k).map HevSocks5UdpFrame.msg).take res.toNat := by
    rw [← List.map_take, List.take_take, Nat.min_eq_left hle]
  refine ⟨_, res, res.toNat, hmsgv, hres, rfl, hle.trans hk, ?_⟩
  split
  · rename_i hneg
    rw [Int.toNat_of_nonpos hneg] at htake ⊢
    exact ⟨rfl, rfl, rfl, rfl, htake⟩
  · exact ⟨rfl, rfl, rfl, rfl, htake⟩

theorem step_type {e : UdpEvent} (hs : s.step num e = some t) : t.type = s.type := by
  cases e with
  | recvHandler p =>
    dsimp only [step] at hs
    split at hs <;> cases hs <;> rfl
  | fwdF =>
    dsimp only [step] at hs
    split at hs
    · cases hs
    split at hs <;> cases hs <;> rfl
  | sent r =>
    obtain ⟨msgv, _, hs⟩ := Option.bind_eq_some_iff.1 hs
    obtain ⟨res, _, rfl⟩ := Option.map_eq_some_iff.1 hs
    split <;> rfl

theorem fifo_step {e : UdpEvent} (h : s.Fifo log) (hs : s.step num e = some t) : t.Fifo (record s e t log) := by
  cases e with
  | recvHandler p =>
    dsimp only [step] at hs
    split at hs
    · obtain rfl := Option.some.inj hs
      refine ⟨h.frames, h.bound, ?_, ?_, h.sending⟩
      · simp only [record, List.drop_length, List.append_nil]
        exact h.order
      · simp only [record, List.drop_length, List.append_nil]
        exact h.accepted.trans (List.sublist_append_left _ _)
    · rename_i hroom
      obtain rfl := Option.some.inj hs
      refine ⟨?_, Nat.succ_le_succ (Nat.le_of_not_lt hroom), ?_, ?_, ?_⟩
      · simp only [List.length_append, List.length_singleton]
        rw [h.frames]
      · simp only [record, List.drop_left, h.order, List.append_assoc]
      · simp only [record, List.drop_left]
        exact h.accepted.append (List.Sublist.refl _)
      · intro msgv hmsgv
        obtain ⟨n, hle, rfl⟩ := h.sending msgv hmsgv
        refine ⟨n, ?_, ?_⟩
        · rw [List.length_append]
          omega
        · rw [List.take_append_of_le_length hle]
  | fwdF =>
    dsimp only [step] at hs
    split at hs
    · cases hs
    rename_i hfree
    rw [not_or, Bool.not_eq_true, Option.isSome_eq_false_iff, Option.isNone_iff_eq_none] at hfree
    split at hs
    · obtain rfl := Option.some.inj hs
      refine ⟨h.frames, h.bound, h.order, h.accepted, ?_⟩
      intro msgv hmsgv
      rw [show s.sending = some msgv from hmsgv] at hfree
      cases hfree.1
    · obtain rfl := Option.some.inj hs
      refine ⟨h.frames, h.bound, h.order, h.accepted, ?_⟩
      intro msgv hmsgv
      cases hmsgv
      exact ⟨min s.frames num, h.frames ▸ Nat.min_le_left _ _, rfl⟩
  | sent r =>
    obtain ⟨_, _, n, _, _, _, hn, _, hnone, hframes, hlist, _⟩ := sent_cases h hs
    obtain ⟨haccepted, harrived, htaken⟩ := logSend_accepted (s.sending.getD []) r
      { log with taken := log.taken ++ s.frameList.take (s.frameList.length - t.frameList.length) }
    have hcount : s.frameList.length - t.frameList.length = n := by
      rw [hlist, List.length_drop]
      omega
    refine ⟨?_, ?_, ?_, ?_, fun msgv hm => ?_⟩
    · rw [hframes, hlist, List.length_drop, h.frames]
    · rw [hframes]
      exact (Nat.sub_le _ _).trans h.bound
    · rw [record, haccepted, htaken, hcount, hlist, List.append_assoc, List.take_append_drop]
      exact h.order
    · rw [record, haccepted, harrived]
      exact h.accepted
    · rw [hnone] at hm
      cases hm

/-- A send that has returned leaves what has gone as it says. -/
theorem gone_sent (h : s.Fifo log) (hg : s.Gone log) {r : SendResult} (hs : s.step num (.sent r) = some t) :
    t.Gone (record s (.sent r) t log) := by
  obtain ⟨msgv, res, n, hmsgv, hres, rfl, hn, htype, _, _, hlist, htake⟩ := sent_cases h hs
  obtain ⟨_, hudp, htcp⟩ := udpSendmmsg_spec hres
  have hcount : s.frameList.length - t.frameList.length = res.toNat := by
    rw [hlist, List.length_drop]
    omega
  -- a write into the stream leaves either all of the messages in the queue or none
  have hframes : s.type = .udpInTcp → ∃ size, r = .stream size ∧ size ≤ (msgv.flatMap HevSocks5UdpMsg.frame).length ∧
      framesOf (log.taken ++ s.frameList.take res.toNat) = framesOf log.taken ++ if size = 0 then [] else msgv.flatMap HevSocks5UdpMsg.frame := by
    intro ht
    obtain ⟨size, rfl, hsize, hn₀⟩ := htcp ht
    refine ⟨size, rfl, hsize, ?_⟩
    rw [framesOf_append]
    change _ ++ ((s.frameList.take res.toNat).map HevSocks5UdpFrame.msg).flatMap HevSocks5UdpMsg.frame = _
    rw [htake, hn₀]
    split
    · rfl
    · rw [List.take_length]
  rw [record, hmsgv, Option.getD_some, hcount]
  refine ⟨?_, ?_, ?_⟩
  · intro hu
    rw [htype] at hu
    obtain rfl := hudp hu
    change log.packets ++ msgv.take res.toNat = (log.taken ++ s.frameList.take res.toNat).map HevSocks5UdpFrame.msg
    rw [hg.packets hu, List.map_append, htake]
  · intro ht hcut
    rw [htype] at ht
    obtain ⟨size, rfl, hsize, hbytes⟩ := hframes ht
    change (log.cut || decide (0 < size ∧ size < (msgv.flatMap HevSocks5UdpMsg.frame).length)) = false at hcut
    obtain ⟨hcut, hall⟩ := Bool.or_eq_false_iff.1 hcut
    change log.stream ++ (msgv.flatMap HevSocks5UdpMsg.frame).take size = framesOf (log.taken ++ s.frameList.take res.toNat)
    rw [hg.whole ht hcut, hbytes]
    congr 1
    split
    · rename_i hzero
      rw [hzero, List.take_zero]
    · rename_i hpos
      have := of_decide_eq_false hall
      exact List.take_of_length_le (by omega)
  · intro ht hcut
    rw [htype] at ht
    obtain ⟨size, rfl, hsize, hbytes⟩ := hframes ht
    change (log.cut || decide (0 < size ∧ size < (msgv.flatMap HevSocks5UdpMsg.frame).length)) = true at hcut
    change (log.stream ++ (msgv.flatMap HevSocks5UdpMsg.frame).take size).length <
      (framesOf (log.taken ++ s.frameList.take res.toNat)).length
    rw [hbytes, List.length_append, List.length_append, List.length_take]
    have hle : log.stream.length ≤ (framesOf log.taken).length := by
      cases hc : log.cut with
      | false => rw [hg.whole ht hc]
      | true => exact (hg.cut ht hc).le
    by_cases hc : log.cut = true
    · have := hg.cut ht hc
      split
      · rw [List.length_nil]
        omega
      · omega
    · obtain ⟨hpos, hlt⟩ := of_decide_eq_true ((Bool.or_eq_true_iff.1 hcut).resolve_left hc)
      rw [if_neg hpos.ne']
      omega

theorem gone_step {e : UdpEvent} (h : s.Fifo log) (hg : s.Gone log) (hs : s.step num e = some t) : t.Gone (record s e t log) := by
  cases e with
  | recvHandler p =>
    dsimp only [step] at hs
    split at hs
    · cases hs
      exact ⟨hg.packets, hg.whole, hg.cut⟩
    · cases hs
      exact ⟨hg.packets, hg.whole, hg.cut⟩
  | fwdF =>
    dsimp only [step] at hs
    split at hs
    · cases hs
    split at hs
    · cases hs
      exact ⟨hg.packets, hg.whole, hg.cut⟩
    · cases hs
      exact ⟨hg.packets, hg.whole, hg.cut⟩
  | sent r => exact gone_sent h hg hs

end UdpSession

open UdpSession in
/-- In every order in which lwIP hands datagrams over and the splicer sends them, also while a send is on its way: what has left the
queue, followed by what waits, is what the queue has taken, in the order in which it has come, so the queue loses, repeats and
overtakes none; the counter is the length of the list; and no more than 513 datagrams wait, one more than the pool is meant to hold. With
datagrams of its own a session has sent the first `pbuf` of each that has left; with a stream their frames are in it exactly when
no write has gone in part. The first `pbuf` is the data of each exactly when none that has left is a longer chain. -/
theorem udp_session_fifo (type : HevSocks5Type) (num : Nat) (es : List UdpEvent) (s : UdpSession) (log : UdpLog)
    (hx : exec (observe (UdpSession.step num) record) (init type, ⟨[], [], [], [], [], false⟩) es = some (s, log)) :
    (log.taken ++ s.frameList = log.accepted ∧ log.accepted.Sublist log.arrived ∧ s.frames = s.frameList.length ∧
        s.frameList.length ≤ 513) ∧
      (type = .udpInUdp → log.packets = log.taken.map HevSocks5UdpFrame.msg) ∧
      (type = .udpInTcp → (log.stream = (log.taken.map HevSocks5UdpFrame.msg).flatMap HevSocks5UdpMsg.frame ↔ log.cut = false)) ∧
      (log.taken.map (·.msg.buf) = log.taken.map (·.bytes) ↔ ∀ frame ∈ log.taken, frame.next.flatten = []) := by
  have h : (s.Fifo log ∧ s.Gone log) ∧ s.type = type := by
    refine exec_invariant (fun s => (s.1.Fifo s.2 ∧ s.1.Gone s.2) ∧ s.1.type = type) ?_ ⟨⟨fifo_init type, gone_init type⟩, rfl⟩
      (meets_true _ _) hx
    rintro s e t ⟨⟨hf, hg⟩, htype⟩ _ hst
    obtain ⟨hst, hlog⟩ := observe_eq_some.1 hst
    rw [hlog]
    exact ⟨⟨fifo_step hf hst, gone_step hf hg hst⟩, (step_type hst).trans htype⟩
  obtain ⟨⟨hf, hg⟩, rfl⟩ := h
  refine ⟨⟨hf.order.symm, hf.accepted, hf.frames, hf.frames ▸ hf.bound⟩, hg.packets, ?_, ?_⟩
  · intro ht
    constructor
    · intro heq
      by_contra hcut
      have hlt := hg.cut ht (Bool.not_eq_false _ ▸ hcut)
      rw [heq] at hlt
      exact Nat.lt_irrefl _ hlt
    · exact hg.whole ht
  · rw [List.map_inj_left]
    refine forall₂_congr fun frame _ => ?_
    rw [HevSocks5UdpFrame.bytes, HevSocks5UdpFrame.msg, List.self_eq_append_right]

/-- A datagram comes while two are being sent, of which the send takes one. -/
theorem udp_session_fifo_partial :
    ∃ s log, exec (observe (UdpSession.step 2) UdpSession.record) (UdpSession.init .udpInUdp, ⟨[], [], [], [], [], false⟩)
        [.recvHandler ⟨.ipv4 ⟨[10, 0, 0, 1], rfl⟩ ⟨[0, 53], rfl⟩, [1], []⟩,
          .recvHandler ⟨.ipv4 ⟨[10, 0, 0, 1], rfl⟩ ⟨[0, 53], rfl⟩, [2], [[3]]⟩, .fwdF,
          .recvHandler ⟨.ipv4 ⟨[10, 0, 0, 1], rfl⟩ ⟨[0, 53], rfl⟩, [4], []⟩, .sent (.datagrams 1)] = some (s, log) ∧
      log.taken ++ s.frameList = log.accepted ∧ log.packets = log.taken.map HevSocks5UdpFrame.msg ∧ log.taken.length = 1 ∧
      log.accepted.length = 3 := by
  have hrun : (exec (observe (UdpSession.step 2) UdpSession.record) (UdpSession.init .udpInUdp, ⟨[], [], [], [], [], false⟩)
      [.recvHandler ⟨.ipv4 ⟨[10, 0, 0, 1], rfl⟩ ⟨[0, 53], rfl⟩, [1], []⟩,
        .recvHandler ⟨.ipv4 ⟨[10, 0, 0, 1], rfl⟩ ⟨[0, 53], rfl⟩, [2], [[3]]⟩, .fwdF,
        .recvHandler ⟨.ipv4 ⟨[10, 0, 0, 1], rfl⟩ ⟨[0, 53], rfl⟩, [4], []⟩, .sent (.datagrams 1)]).any
        (fun p => p.2.taken.length = 1 ∧ p.2.accepted.length = 3) = true := by
    decide
  obtain ⟨⟨s, log⟩, hs, hlen⟩ := Option.any_eq_true _ _ |>.1 hrun
  obtain ⟨htaken, haccepted⟩ := of_decide_eq_true hlen
  obtain ⟨⟨horder, _⟩, hpackets, _⟩ := udp_session_fifo .udpInUdp 2 _ s log hs
  exact ⟨s, log, hs, horder, hpackets rfl, htaken, haccepted⟩

end Open365Vpn
