import Open365Vpn.Tunnel.TcpSession

/-!
# What a step of a TCP session does

`Move` lists what an event can do to a session, with the tests that the code has made; `step_cases` reads a step as one of these,
and the proofs about the two streams split on it and never unfold the code. After a piece of the task the session has `Landed`:
it stands where the results of the two directions send it.
-/

namespace Open365Vpn

open Ring

/-! ## The chain of buffers and lwIP's counters -/

/-- Freeing the header of a chain drops its first bytes. -/
theorem flatten_pbufFreeHeader (q : List (List UInt8)) (n : Nat) : (pbufFreeHeader q n).flatten = q.flatten.drop n := by
  fun_induction pbufFreeHeader q n with
  | case1 q => rw [List.drop_zero]
  | case2 n => simp
  | case3 p ps n h ih =>
    rw [ih, List.flatten_cons, List.drop_append, List.drop_eq_nil_of_le h, List.nil_append]
  | case4 p ps n h =>
    rw [List.flatten_cons, List.flatten_cons, List.drop_append, Nat.sub_eq_zero_of_le (by omega), List.drop_zero]

theorem u16_of_le {n : Nat} (h : n ≤ tcpWnd) : u16 n = n :=
  Nat.mod_eq_of_lt (lt_of_le_of_lt h (by decide))

/-! ## The size of the buffer -/

theorem storeInt_nonneg (value : Nat) : 0 ≤ storeInt value ↔ value % 4294967296 < 2147483648 := by
  unfold storeInt
  rw [BitVec.toInt_eq_toNat_cond, BitVec.toNat_ofNat]
  split <;> omega

theorem storeInt_ge (value : Nat) : -2147483648 ≤ storeInt value := by
  unfold storeInt
  rw [BitVec.toInt_eq_toNat_cond, BitVec.toNat_ofNat]
  split <;> omega

theorem sizeT_eq (n : Int) : sizeT n = (n % 18446744073709551616).toNat := by
  unfold sizeT
  rw [BitVec.toNat_ofInt]
  rfl

/-- A size that is not negative is bounded. -/
theorem sizeT_boundTcpBufferSize {n : Int} (h : 0 ≤ n) : sizeT (boundTcpBufferSize n) ≤ tcpSndBuf := by
  rw [sizeT_eq]
  unfold boundTcpBufferSize tcpSndBuf
  split <;> omega

/-- A negative one is not. -/
theorem sizeT_of_neg {value : Nat} (h : storeInt value < 0) :
    9223372036854775808 ≤ sizeT (boundTcpBufferSize (storeInt value)) := by
  have hge := storeInt_ge value
  rw [sizeT_eq]
  unfold boundTcpBufferSize tcpSndBuf
  rw [if_neg (by omega)]
  omega

namespace TcpPcb

/-- Within the window `tcp_recved` gives back what it is told. -/
theorem tcpRecved_rcvWnd {pcb : TcpPcb} {len : Nat} (h : pcb.rcvWnd + len ≤ tcpWnd) :
    (pcb.tcpRecved len).rcvWnd = pcb.rcvWnd + len := by
  unfold tcpRecved
  dsimp only
  rw [u16_of_le (Nat.le_trans (Nat.le_add_left _ _) h), u16_of_le h, if_neg (by omega)]

theorem tcpRecved_unacked (pcb : TcpPcb) (len : Nat) : (pcb.tcpRecved len).unacked = pcb.unacked := by
  unfold tcpRecved
  dsimp only
  split <;> rfl

theorem tcpRecved_sndBuf (pcb : TcpPcb) (len : Nat) : (pcb.tcpRecved len).sndBuf = pcb.sndBuf := by
  unfold tcpRecved
  dsimp only
  split <;> rfl

theorem tcpRecved_txShut (pcb : TcpPcb) (len : Nat) : (pcb.tcpRecved len).txShut = pcb.txShut := by
  unfold tcpRecved
  dsimp only
  split <;> rfl

/-- A segment that has a byte and fits into the free part of the send buffer is taken as it is, if it is taken. -/
theorem tcpWrite_eq {pcb : TcpPcb} {s : Segment} (accepts : Bool) (h0 : 0 < s.len) (hs : s.len ≤ pcb.sndBuf)
    (hb : pcb.sndBuf ≤ tcpSndBuf) :
    pcb.tcpWrite accepts s =
      if accepts then ({ pcb with sndBuf := pcb.sndBuf - s.len, unacked := pcb.unacked ++ [s] }, true) else (pcb, false) := by
  unfold tcpWrite
  rw [u16_of_le (hs.trans hb), if_neg (show s.len ≠ 0 by omega), if_neg (show ¬s.len > pcb.sndBuf by omega)]
  cases accepts <;> rfl

end TcpPcb

namespace TcpSession

/-- Where a session may stand at the end of a piece of its task. -/
def Landed (s : TcpSession) : Prop :=
  match s.point with
  | .lockF _ | .lockB _ => False
  | .spliceB => s.resB ≠ .over
  | .returned false => s.pcb = none ∨ s.buffer.useSize = 0
  | _ => True

theorem leave_landed (s : TcpSession) : ∃ p, s.leave = { s with point := p } ∧ Landed { s with point := p } := by
  unfold leave
  split
  · exact ⟨_, rfl, trivial⟩
  · rename_i h
    refine ⟨_, rfl, ?_⟩
    have hor : s.pcb = none ∨ s.buffer.useSize = 0 := by
      rw [not_and_or, not_not, Option.not_isSome_iff_eq_none] at h
      exact h
    exact hor

theorem chooseYield_landed (s : TcpSession) : ∃ p, s.chooseYield = { s with point := p } ∧ Landed { s with point := p } := by
  unfold chooseYield
  split
  · exact ⟨_, rfl, trivial⟩
  split
  · exact ⟨_, rfl, trivial⟩
  · exact leave_landed s

theorem afterF_landed (s : TcpSession) : ∃ p, s.afterF = { s with point := p } ∧ Landed { s with point := p } := by
  unfold afterF
  split
  · rename_i h
    exact ⟨_, rfl, h⟩
  · exact chooseYield_landed s

theorem iterate_landed (s : TcpSession) : ∃ p, s.iterate = { s with point := p } ∧ Landed { s with point := p } := by
  unfold iterate
  split
  · exact ⟨_, rfl, trivial⟩
  · exact afterF_landed s

/-! ## The moves -/

/-- The bytes that `writev` has taken and `pbuf_free_header` has not yet freed. -/
def pending (s : TcpSession) : Nat :=
  match s.point with
  | .lockF n => n
  | _ => 0

/-- What an event can do to a session. -/
inductive Move (s : TcpSession) : TcpEvent → TcpSession → Prop where
  | shutWr (r : WritevResult) (p : SplicePoint) (hp : s.point = .spliceF) (hq : s.queue = []) (he : s.pcbEof = true)
      (hl : Landed { s with shutWr := true, resF := .over, point := p }) :
      Move s (.spliceF r) { s with shutWr := true, resF := .over, point := p }
  | quietF (r : WritevResult) (res : SpliceResult) (p : SplicePoint) (hp : s.point = .spliceF)
      (hl : Landed { s with resF := res, point := p }) :
      Move s (.spliceF r) { s with resF := res, point := p }
  | writev (n : Nat) (hp : s.point = .spliceF) (hn : n ≤ s.queue.flatten.length) :
      Move s (.spliceF (.wrote n)) { s with point := .lockF n, toServer := s.toServer ++ s.queue.flatten.take n }
  | freeHeader (n : Nat) (p : SplicePoint) (hp : s.point = .lockF n)
      (hl : Landed { s with
        queue := pbufFreeHeader s.queue (u16 n), pcb := s.pcb.map (TcpPcb.tcpRecved · n), resF := .more, point := p }) :
      Move s .lockF { s with
        queue := pbufFreeHeader s.queue (u16 n), pcb := s.pcb.map (TcpPcb.tcpRecved · n), resF := .more, point := p }
  | quietB (r : ReadvResult) (res : SpliceResult) (hp : s.point = .spliceB) :
      Move s (.spliceB r) { s with point := .lockB res }
  | readv (xs : List UInt8) (hp : s.point = .spliceB) (hx : xs.length ≤ size s.buffer.writing) :
      Move s (.spliceB (.read xs)) { s with
        point := .lockB .more, buffer := s.buffer.write xs, fromServer := s.fromServer ++ xs }
  | tcpWrite (res : SpliceResult) (accepts : List Bool) (output : Bool) (pcb : TcpPcb) (resB : SpliceResult) (p : SplicePoint)
      (hp : s.point = .lockB res) (hpcb : s.pcb = some pcb)
      (hres : resB = if (pcb.tcpWriteAll accepts s.buffer.reading).2 && output then .more else .over)
      (hl : Landed { s with
        pcb := some (pcb.tcpWriteAll accepts s.buffer.reading).1
        buffer := s.buffer.readFinish (size s.buffer.reading), resB := resB, point := p }) :
      Move s (.lockB accepts output) { s with
        pcb := some (pcb.tcpWriteAll accepts s.buffer.reading).1
        buffer := s.buffer.readFinish (size s.buffer.reading), resB := resB, point := p }
  | tcpShutdown (res : SpliceResult) (accepts : List Bool) (output : Bool) (pcb : TcpPcb) (p : SplicePoint)
      (hp : s.point = .lockB res) (hpcb : s.pcb = some pcb) (hr : s.buffer.reading = [])
      (hl : Landed { s with pcb := some { pcb with txShut := true }, resB := .over, point := p }) :
      Move s (.lockB accepts output) { s with pcb := some { pcb with txShut := true }, resB := .over, point := p }
  | quietLockB (res : SpliceResult) (accepts : List Bool) (output : Bool) (resB : SpliceResult) (p : SplicePoint)
      (hp : s.point = .lockB res) (hl : Landed { s with resB := resB, point := p }) :
      Move s (.lockB accepts output) { s with resB := resB, point := p }
  | yielded (ok : Bool) (p : SplicePoint) (hn : ∀ n, s.point ≠ .lockF n) (hl : Landed { s with point := p }) :
      Move s (.yielder ok) { s with point := p }
  | recv (pcb : TcpPcb) (c : List (List UInt8)) (hpcb : s.pcb = some pcb) (he : s.pcbEof = false)
      (hw : c.flatten.length ≤ pcb.rcvWnd) :
      Move s (.recv c) { s with
        queue := s.queue ++ c, pcb := some { pcb with rcvWnd := pcb.rcvWnd - c.flatten.length }
        fromApp := s.fromApp ++ c.flatten }
  | recvEof : Move s .recvEof { s with pcbEof := true }
  | sent (pcb : TcpPcb) (len : Nat) (hpcb : s.pcb = some pcb) (h : len ≤ size pcb.unacked) :
      Move s (.sent len) { s with
        pcb := some (pcb.ack len), toApp := s.toApp ++ (gather s.buffer.data pcb.unacked).take len
        buffer := s.buffer.readRelease len }
  | err : Move s .err { s with pcb := none }

theorem tcpSpliceF_cases {s t : TcpSession} {r : WritevResult} (hp : s.point = .spliceF) (h : s.tcpSpliceF r = some t) :
    s.Move (.spliceF r) t := by
  unfold tcpSpliceF at h
  split at h
  · rename_i hq
    split at h
    · rename_i he
      obtain ⟨p, ht, hl⟩ := afterF_landed { s with shutWr := true, resF := .over }
      rw [ht, Option.some.injEq] at h
      exact h ▸ .shutWr r p hp hq he hl
    · obtain ⟨p, ht, hl⟩ := afterF_landed { s with resF := .idle }
      rw [ht, Option.some.injEq] at h
      exact h ▸ .quietF r .idle p hp hl
  · split at h
    · rename_i n
      split at h
      · rename_i hn
        rw [Option.some.injEq] at h
        refine h ▸ .writev n hp (hn.2.trans ?_)
        nth_rewrite 2 [← List.take_append_drop 64 s.queue]
        rw [List.flatten_append, List.length_append]
        exact Nat.le_add_right _ _
      · nomatch h
    · obtain ⟨p, ht, hl⟩ := afterF_landed { s with resF := .idle }
      rw [ht, Option.some.injEq] at h
      exact h ▸ .quietF _ .idle p hp hl
    · obtain ⟨p, ht, hl⟩ := afterF_landed { s with resF := .over }
      rw [ht, Option.some.injEq] at h
      exact h ▸ .quietF _ .over p hp hl

theorem tcpSpliceFLocked_cases {s : TcpSession} {n : Nat} (hp : s.point = .lockF n) : s.Move .lockF (s.tcpSpliceFLocked n) := by
  unfold tcpSpliceFLocked
  obtain ⟨p, ht, hl⟩ := afterF_landed { s with
    queue := pbufFreeHeader s.queue (u16 n), pcb := s.pcb.map (TcpPcb.tcpRecved · n), resF := .more }
  rw [ht]
  exact .freeHeader n p hp hl

theorem tcpSpliceB_cases {s t : TcpSession} {r : ReadvResult} (hp : s.point = .spliceB) (h : s.tcpSpliceB r = some t) :
    s.Move (.spliceB r) t := by
  unfold tcpSpliceB at h
  split at h
  · rw [Option.some.injEq] at h
    exact h ▸ .quietB r .idle hp
  · split at h
    · rename_i xs
      split at h
      · rename_i hx
        rw [Option.some.injEq] at h
        exact h ▸ .readv xs hp hx.2
      · nomatch h
    · rw [Option.some.injEq] at h
      exact h ▸ .quietB _ .idle hp
    · rw [Option.some.injEq] at h
      exact h ▸ .quietB _ .over hp

theorem tcpSpliceBLocked_cases {s : TcpSession} {res : SpliceResult} (accepts : List Bool) (output : Bool)
    (hp : s.point = .lockB res) : s.Move (.lockB accepts output) (s.tcpSpliceBLocked res accepts output) := by
  unfold tcpSpliceBLocked
  split
  · obtain ⟨p, ht, hl⟩ := chooseYield_landed { s with resB := .over }
    rw [ht]
    exact .quietLockB res accepts output .over p hp hl
  · rename_i pcb hpcb
    split
    · dsimp only
      obtain ⟨p, ht, hl⟩ := chooseYield_landed { s with
        pcb := some (pcb.tcpWriteAll accepts s.buffer.reading).1
        buffer := s.buffer.readFinish (size s.buffer.reading)
        resB := if (pcb.tcpWriteAll accepts s.buffer.reading).2 && output then .more else .over }
      rw [ht]
      exact .tcpWrite res accepts output pcb _ p hp hpcb rfl hl
    split
    · rename_i hr _
      obtain ⟨p, ht, hl⟩ := chooseYield_landed { s with pcb := some { pcb with txShut := true }, resB := .over }
      rw [ht]
      exact .tcpShutdown res accepts output pcb p hp hpcb (not_not.1 hr) hl
    · obtain ⟨p, ht, hl⟩ := chooseYield_landed { s with resB := res }
      rw [ht]
      exact .quietLockB res accepts output res p hp hl

theorem yielded_cases {s t : TcpSession} {ok : Bool} (h : s.yielded ok = some t) : s.Move (.yielder ok) t := by
  unfold yielded at h
  split at h
  · rename_i hp
    split at h
    · obtain ⟨p, ht, hl⟩ := iterate_landed s
      rw [ht, Option.some.injEq] at h
      exact h ▸ .yielded ok p (by simp [hp]) hl
    · nomatch h
  · rename_i hp
    split at h
    · obtain ⟨p, ht, hl⟩ := iterate_landed s
      rw [ht, Option.some.injEq] at h
      exact h ▸ .yielded _ p (by simp [hp]) hl
    · obtain ⟨p, ht, hl⟩ := leave_landed s
      rw [ht, Option.some.injEq] at h
      exact h ▸ .yielded _ p (by simp [hp]) hl
  · rename_i hp
    split at h
    · obtain ⟨p, ht, hl⟩ := leave_landed s
      rw [ht, Option.some.injEq] at h
      exact h ▸ .yielded _ p (by simp [hp]) hl
    · rw [Option.some.injEq] at h
      exact h ▸ .yielded _ (.returned true) (by simp [hp]) trivial
  · nomatch h

theorem handler_cases {s t : TcpSession} :
    (∀ c, s.tcpRecvHandler c = some t → s.Move (.recv c) t) ∧ (∀ len, s.tcpSentHandler len = some t → s.Move (.sent len) t) := by
  constructor
  · intro c h
    obtain ⟨pcb, hpcb, h⟩ := Option.bind_eq_some_iff.1 h
    split at h
    · rename_i hc
      rw [Option.some.injEq] at h
      exact h ▸ .recv pcb c hpcb hc.1 hc.2.2
    · nomatch h
  · intro len h
    obtain ⟨pcb, hpcb, h⟩ := Option.bind_eq_some_iff.1 h
    split at h
    · rename_i hc
      rw [Option.some.injEq] at h
      exact h ▸ .sent pcb len hpcb hc.2
    · nomatch h

/-- A step is one of the moves. -/
theorem step_cases {s t : TcpSession} {e : TcpEvent} (h : s.step e = some t) : s.Move e t := by
  unfold step at h
  split at h
  · nomatch h
  · rename_i hp
    exact tcpSpliceF_cases hp h
  · rename_i hp
    rw [Option.some.injEq] at h
    exact h ▸ tcpSpliceFLocked_cases hp
  · rename_i hp
    exact tcpSpliceB_cases hp h
  · rename_i hp
    rw [Option.some.injEq] at h
    exact h ▸ tcpSpliceBLocked_cases _ _ hp
  · exact yielded_cases h
  · exact handler_cases.1 _ h
  · split at h
    · rw [Option.some.injEq] at h
      exact h ▸ .recvEof
    · nomatch h
  · exact handler_cases.2 _ h
  · rw [Option.some.injEq] at h
    exact h ▸ .err
  · nomatch h

end TcpSession

end Open365Vpn
