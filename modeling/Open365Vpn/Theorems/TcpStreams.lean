import Open365Vpn.Lemmas.TcpSession

/-!
# The two streams of a TCP session

In every interleaving of the task of a session with the handlers of lwIP: what is written to the server is what the app has sent,
in order, and the window that lwIP is told to open again is the one of the bytes written (`tcp_upstream`); what the app gets is
what the server has sent, in order, and the end of the stream comes behind the last byte (`tcp_downstream`); and no byte that
lwIP holds a pointer to is written over (`tcp_buffer_safe`). The second needs that lwIP does not take the second segment of a
vector when it has refused the first: the loop of `tcp_splice_b` collects the errors and goes on.
-/

namespace Open365Vpn

open Ring Runs

namespace TcpSession

/-! ## From the app to the server -/

/-- What holds of the stream from the app to the server. -/
structure Upstream (s : TcpSession) : Prop where
  pending : s.pending ≤ s.queue.flatten.length
  stream : s.fromApp = s.toServer ++ s.queue.flatten.drop s.pending
  bound : s.queue.flatten.length ≤ tcpWnd
  window : ∀ pcb, s.pcb = some pcb → pcb.rcvWnd + s.queue.flatten.length = tcpWnd
  shut : s.shutWr = true → s.pcbEof = true ∧ s.queue = []

theorem Landed.pending_eq_zero {s : TcpSession} (h : s.Landed) : s.pending = 0 := by
  unfold Landed at h
  unfold pending
  split at h
  · exact h.elim
  · exact h.elim
  all_goals
    split
    · simp_all
    · rfl

theorem pending_of_point {s : TcpSession} {p : SplicePoint} (h : s.point = p) (hn : ∀ n, p ≠ .lockF n) : s.pending = 0 := by
  unfold pending
  split
  · rename_i n hp
    exact absurd (h.symm.trans hp) (hn n)
  · rfl

theorem upstream_init (n : Int) (garbage : Nat → UInt8) : (init n garbage).Upstream where
  pending := Nat.zero_le _
  stream := rfl
  bound := Nat.zero_le _
  window pcb h := by
    cases h
    rfl
  shut h := by cases h

/-- A move to another point, behind which nothing is pending, keeps the stream. -/
theorem Upstream.of_eq {s t : TcpSession} (h : s.Upstream) (hs : s.pending = 0) (ht : t.pending = 0)
    (hq : t.queue = s.queue) (hf : t.fromApp = s.fromApp) (hto : t.toServer = s.toServer)
    (hw : ∀ pcb, t.pcb = some pcb → ∃ pcb', s.pcb = some pcb' ∧ pcb.rcvWnd = pcb'.rcvWnd)
    (hshut : t.shutWr = true → t.pcbEof = true ∧ t.queue = []) : t.Upstream where
  pending := by
    rw [ht]
    exact Nat.zero_le _
  stream := by
    rw [ht, hq, hf, hto, h.stream, hs]
  bound := hq ▸ h.bound
  window pcb hp := by
    obtain ⟨pcb', hp', he⟩ := hw pcb hp
    rw [he, hq]
    exact h.window pcb' hp'
  shut := hshut

theorem tcpWriteAll_rcvWnd (pcb : TcpPcb) (accepts : List Bool) (segs : List Segment) :
    (pcb.tcpWriteAll accepts segs).1.rcvWnd = pcb.rcvWnd := by
  induction segs generalizing pcb accepts with
  | nil => simp [TcpPcb.tcpWriteAll]
  | cons s segs ih =>
    simp only [TcpPcb.tcpWriteAll]
    rw [ih]
    unfold TcpPcb.tcpWrite
    split
    · rfl
    split
    · rfl
    split <;> rfl

theorem upstream_step {s t : TcpSession} {e : TcpEvent} (h : s.Upstream) (hm : s.Move e t) : t.Upstream := by
  cases hm with
  | shutWr r p hp hq he hl =>
    exact h.of_eq (pending_of_point hp (by simp)) (Landed.pending_eq_zero hl) rfl rfl rfl (fun pcb hp => ⟨pcb, hp, rfl⟩)
      fun _ => ⟨he, hq⟩
  | quietF r res p hp hl =>
    exact h.of_eq (pending_of_point hp (by simp)) (Landed.pending_eq_zero hl) rfl rfl rfl (fun pcb hp => ⟨pcb, hp, rfl⟩) h.shut
  | writev n hp hn =>
    have h0 := pending_of_point hp (by simp)
    refine ⟨hn, ?_, h.bound, h.window, h.shut⟩
    have hs := h.stream
    rw [h0, List.drop_zero] at hs
    change s.fromApp = s.toServer ++ s.queue.flatten.take n ++ s.queue.flatten.drop n
    rw [List.append_assoc, List.take_append_drop]
    exact hs
  | freeHeader n p hp hl =>
    have hpend : s.pending = n := by
      unfold pending
      rw [hp]
    have hn : n ≤ s.queue.flatten.length := hpend ▸ h.pending
    have hu : u16 n = n := u16_of_le (hn.trans h.bound)
    have hz := Landed.pending_eq_zero hl
    refine ⟨hz ▸ Nat.zero_le _, ?_, ?_, ?_, ?_⟩
    · rw [hz, List.drop_zero]
      simp only
      rw [flatten_pbufFreeHeader, hu, ← hpend]
      exact h.stream
    · simp only
      rw [flatten_pbufFreeHeader, List.length_drop]
      exact (Nat.sub_le _ _).trans h.bound
    · intro pcb hpcb
      obtain ⟨pcb', hp', rfl⟩ := Option.map_eq_some_iff.1 hpcb
      have hw := h.window pcb' hp'
      simp only
      rw [flatten_pbufFreeHeader, List.length_drop, hu, TcpPcb.tcpRecved_rcvWnd (by omega)]
      omega
    · intro hsh
      obtain ⟨he, hq⟩ := h.shut hsh
      refine ⟨he, ?_⟩
      simp only
      rw [hq]
      cases u16 n <;> rfl
  | quietB r res hp =>
    exact h.of_eq (pending_of_point hp (by simp)) rfl rfl rfl rfl (fun pcb hp => ⟨pcb, hp, rfl⟩) h.shut
  | readv xs hp hx =>
    exact h.of_eq (pending_of_point hp (by simp)) rfl rfl rfl rfl (fun pcb hp => ⟨pcb, hp, rfl⟩) h.shut
  | tcpWrite res accepts output pcb resB p hp hpcb hres hl =>
    refine h.of_eq (pending_of_point hp (by simp)) (Landed.pending_eq_zero hl) rfl rfl rfl ?_ h.shut
    intro pcb' hp'
    cases hp'
    exact ⟨pcb, hpcb, tcpWriteAll_rcvWnd pcb accepts _⟩
  | tcpShutdown res accepts output pcb p hp hpcb hr hl =>
    refine h.of_eq (pending_of_point hp (by simp)) (Landed.pending_eq_zero hl) rfl rfl rfl ?_ h.shut
    intro pcb' hp'
    cases hp'
    exact ⟨pcb, hpcb, rfl⟩
  | quietLockB res accepts output resB p hp hl =>
    exact h.of_eq (pending_of_point hp (by simp)) (Landed.pending_eq_zero hl) rfl rfl rfl (fun pcb hp => ⟨pcb, hp, rfl⟩) h.shut
  | yielded ok p hn hl =>
    exact h.of_eq (pending_of_point rfl hn) (Landed.pending_eq_zero hl) rfl rfl rfl (fun pcb hp => ⟨pcb, hp, rfl⟩) h.shut
  | recv pcb c hpcb he hw =>
    have hwin := h.window pcb hpcb
    have hpd := h.pending
    have hlen : (s.queue ++ c).flatten.length = s.queue.flatten.length + c.flatten.length := by
      rw [List.flatten_append, List.length_append]
    refine ⟨?_, ?_, ?_, ?_, ?_⟩
    · change s.pending ≤ (s.queue ++ c).flatten.length
      omega
    · change s.fromApp ++ c.flatten = s.toServer ++ (s.queue ++ c).flatten.drop s.pending
      rw [List.flatten_append, List.drop_append_of_le_length hpd, ← List.append_assoc, ← h.stream]
    · change (s.queue ++ c).flatten.length ≤ tcpWnd
      omega
    · intro pcb' hp'
      cases hp'
      change pcb.rcvWnd - c.flatten.length + (s.queue ++ c).flatten.length = tcpWnd
      omega
    · intro hsh
      exact absurd (h.shut hsh).1 (by rw [he]; decide)
  | recvEof => exact ⟨h.pending, h.stream, h.bound, h.window, fun hsh => ⟨rfl, (h.shut hsh).2⟩⟩
  | sent pcb len hpcb hlen =>
    refine ⟨h.pending, h.stream, h.bound, ?_, h.shut⟩
    intro pcb' hp'
    cases hp'
    exact h.window pcb hpcb
  | err => exact ⟨h.pending, h.stream, h.bound, fun pcb hp => (by cases hp), h.shut⟩

/-! ## From the server to the app -/

/-- The segments that `tcp_write` takes. -/
def taken : List Bool → List Segment → List Segment
  | accepts, s :: segs => if accepts.headD true then s :: taken accepts.tail segs else taken accepts.tail segs
  | _, [] => []

/-- lwIP does not take the second segment of a vector when it has refused the first. -/
def InOrder (s : TcpSession) : TcpEvent → Prop
  | .lockB (false :: accepts) _ => s.buffer.reading.length ≤ 1 ∨ accepts.headD true = false
  | _ => True

instance (s : TcpSession) (e : TcpEvent) : Decidable (s.InOrder e) := by
  unfold InOrder
  split <;> infer_instance

theorem taken_sublist (accepts : List Bool) (segs : List Segment) : (taken accepts segs).Sublist segs := by
  induction segs generalizing accepts with
  | nil => exact List.Sublist.refl _
  | cons s segs ih =>
    rw [taken]
    split
    · exact (ih _).cons_cons s
    · exact (ih _).cons s

/-- Segments that fit into the send buffer together are all offered as they are, and no error says that all are taken. -/
theorem tcpWriteAll_eq (pcb : TcpPcb) (accepts : List Bool) {segs : List Segment} (hs : size segs ≤ pcb.sndBuf)
    (hb : pcb.sndBuf ≤ tcpSndBuf) (h0 : ∀ s ∈ segs, 0 < s.len) :
    (pcb.tcpWriteAll accepts segs).1 = { pcb with
      sndBuf := pcb.sndBuf - size (taken accepts segs), unacked := pcb.unacked ++ taken accepts segs } ∧
    ((pcb.tcpWriteAll accepts segs).2 = true → taken accepts segs = segs) := by
  induction segs generalizing pcb accepts with
  | nil => simp [TcpPcb.tcpWriteAll, taken]
  | cons s segs ih =>
    rw [size_cons] at hs
    have hs0 : 0 < s.len := h0 s List.mem_cons_self
    simp only [TcpPcb.tcpWriteAll, taken, TcpPcb.tcpWrite_eq (accepts.headD true) hs0 (by omega) hb]
    split
    · obtain ⟨h1, h2⟩ := ih { pcb with sndBuf := pcb.sndBuf - s.len, unacked := pcb.unacked ++ [s] }
        accepts.tail (by simp only; omega) (by simp only; omega) fun s' hs' => h0 s' (List.mem_cons_of_mem _ hs')
      refine ⟨?_, ?_⟩
      · rw [h1, size_cons, List.append_assoc, List.singleton_append, Nat.sub_sub]
      · intro hok
        rw [Bool.true_and] at hok
        rw [h2 hok]
    · obtain ⟨h1, _⟩ := ih pcb accepts.tail (by omega) hb fun s' hs' => h0 s' (List.mem_cons_of_mem _ hs')
      exact ⟨h1, fun hok => by simp at hok⟩

/-- In order, the segments taken are the first ones. -/
theorem prefix_taken {s : TcpSession} {accepts : List Bool} {output : Bool} (h : s.InOrder (.lockB accepts output))
    (hlen : s.buffer.reading.length ≤ 2) : taken accepts s.buffer.reading <+: s.buffer.reading := by
  unfold InOrder at h
  match hr : s.buffer.reading, accepts with
  | [], _ => exact List.nil_prefix
  | [a], false :: _ => exact List.nil_prefix
  | [a], true :: _ => exact List.prefix_refl _
  | [a], [] => exact List.prefix_refl _
  | [a, b], [] => exact List.prefix_refl _
  | [a, b], [true] => exact List.prefix_refl _
  | [a, b], true :: true :: _ => exact List.prefix_refl _
  | [a, b], true :: false :: _ => exact ⟨[b], rfl⟩
  | [a, b], false :: false :: _ => exact List.nil_prefix
  | [a, b], [false] | [a, b], false :: true :: _ =>
    rw [hr] at h
    rcases h with h | h
    · exact absurd h (by simp)
    · exact absurd h (by simp)
  | _ :: _ :: _ :: _, _ =>
    rw [hr] at hlen
    exact absurd hlen (by simp)

/-- What holds of the stream from the server to the app: the buffer holds the bytes `inFlight` and `unread`, and the pointers of
lwIP point to cells of the bytes in flight. `ordered` says that the second segment of a vector is never taken without the
first. -/
structure Downstream (ordered : Prop) (s : TcpSession) (first : Nat) (inFlight unread : List UInt8) : Prop where
  holds : s.buffer.Holds first inFlight unread
  bound : s.buffer.maxSize ≤ tcpSndBuf
  sndBuf : ∀ pcb, s.pcb = some pcb → pcb.sndBuf + size pcb.unacked = tcpSndBuf
  pointers : ∀ pcb, s.pcb = some pcb →
    (gather id pcb.unacked).Sublist (window id s.buffer.maxSize first inFlight.length)
  whole : ∀ pcb, s.pcb = some pcb → s.resB ≠ .over →
    gather id pcb.unacked = window id s.buffer.maxSize first inFlight.length
  shut : ∀ pcb, s.pcb = some pcb → pcb.txShut = true →
    s.resB = .over ∧ unread = [] ∧ gather id pcb.unacked = window id s.buffer.maxSize first inFlight.length
  calling : s.point = .spliceB ∨ (∃ res, s.point = .lockB res) → s.resB ≠ .over
  returned : s.point = .returned false → s.pcb = none ∨ s.buffer.useSize = 0
  order : ordered → ∀ pcb, s.pcb = some pcb →
    gather id pcb.unacked <+: window id s.buffer.maxSize first inFlight.length
  stream : ordered → s.fromServer = s.toApp ++ inFlight ++ unread

theorem Landed.calling {s : TcpSession} (h : s.Landed) (hp : s.point = .spliceB ∨ ∃ res, s.point = .lockB res) :
    s.resB ≠ .over := by
  unfold Landed at h
  rcases hp with hp | ⟨res, hp⟩
  · rw [hp] at h
    exact h
  · rw [hp] at h
    exact h.elim

theorem Landed.returned {s : TcpSession} (h : s.Landed) (hp : s.point = .returned false) :
    s.pcb = none ∨ s.buffer.useSize = 0 := by
  unfold Landed at h
  rw [hp] at h
  exact h

namespace Downstream

variable {ordered : Prop} {s t : TcpSession} {first : Nat} {inFlight unread : List UInt8}

theorem init (ordered : Prop) {n : Int} (hn : 0 ≤ n) (garbage : Nat → UInt8) : Downstream ordered (init n garbage) 0 [] [] where
  holds := HevRingBuffer.holds_alloca garbage _
  bound := sizeT_boundTcpBufferSize hn
  sndBuf pcb h := by
    cases h
    rfl
  pointers pcb h := by
    cases h
    exact List.Sublist.refl _
  whole pcb h _ := by
    cases h
    rfl
  shut pcb h ht := by
    cases h
    cases ht
  calling h := by rcases h with h | ⟨_, h⟩ <;> cases h
  returned h := by cases h
  order _ pcb h := by
    cases h
    exact List.prefix_refl _
  stream _ := rfl

/-- A move that leaves the buffer and the pointers alone keeps the stream. -/
theorem of_eq (h : Downstream ordered s first inFlight unread) (hb : t.buffer = s.buffer) (hf : t.fromServer = s.fromServer)
    (ha : t.toApp = s.toApp) (hr : t.resB ≠ .over → s.resB ≠ .over)
    (hp : ∀ pcb, t.pcb = some pcb →
      ∃ pcb', s.pcb = some pcb' ∧ pcb.sndBuf = pcb'.sndBuf ∧ pcb.unacked = pcb'.unacked ∧ pcb.txShut = pcb'.txShut)
    (hc : t.point = .spliceB ∨ (∃ res, t.point = .lockB res) → t.resB ≠ .over)
    (hret : t.point = .returned false → t.pcb = none ∨ t.buffer.useSize = 0) :
    Downstream ordered t first inFlight unread where
  holds := hb ▸ h.holds
  bound := hb ▸ h.bound
  sndBuf pcb hpcb := by
    obtain ⟨pcb', hp', hs, hu, _⟩ := hp pcb hpcb
    rw [hs, hu]
    exact h.sndBuf pcb' hp'
  pointers pcb hpcb := by
    obtain ⟨pcb', hp', _, hu, _⟩ := hp pcb hpcb
    rw [hu, hb]
    exact h.pointers pcb' hp'
  whole pcb hpcb hne := by
    obtain ⟨pcb', hp', _, hu, _⟩ := hp pcb hpcb
    rw [hu, hb]
    exact h.whole pcb' hp' (hr hne)
  shut pcb hpcb hsh := by
    obtain ⟨pcb', hp', _, hu, ht⟩ := hp pcb hpcb
    obtain ⟨hover, hnil, hg⟩ := h.shut pcb' hp' (ht ▸ hsh)
    refine ⟨?_, hnil, by rw [hu, hb]; exact hg⟩
    by_contra hne
    exact hr hne hover
  calling := hc
  returned := hret
  order ho pcb hpcb := by
    obtain ⟨pcb', hp', _, hu, _⟩ := hp pcb hpcb
    rw [hu, hb]
    exact h.order ho pcb' hp'
  stream ho := by
    rw [hf, ha]
    exact h.stream ho

/-- Bytes that `readv` stores come behind the readable ones. -/
theorem readv (h : Downstream ordered s first inFlight unread) {xs : List UInt8} (hp : s.point = .spliceB)
    (hx : xs.length ≤ size s.buffer.writing) :
    Downstream ordered { s with
      point := .lockB .more, buffer := s.buffer.write xs, fromServer := s.fromServer ++ xs } first inFlight (unread ++ xs) where
  holds := h.holds.write (by rw [← h.holds.size_writing]; exact hx)
  bound := h.bound
  sndBuf := h.sndBuf
  pointers := h.pointers
  whole := h.whole
  shut pcb hpcb hsh := absurd (h.shut pcb hpcb hsh).1 (h.calling (Or.inl hp))
  calling _ := h.calling (Or.inl hp)
  returned hr := by cases hr
  order := h.order
  stream ho := by
    simp only
    rw [h.stream ho, List.append_assoc, List.append_assoc]

/-- Written bytes are in flight, all of them, whether lwIP takes them or not. -/
theorem tcpWrite (h : Downstream ordered s first inFlight unread) {res resB : SpliceResult} {accepts : List Bool} {output : Bool}
    {pcb : TcpPcb} {p : SplicePoint} (hp : s.point = .lockB res) (hpcb : s.pcb = some pcb)
    (hres : resB = if (pcb.tcpWriteAll accepts s.buffer.reading).2 && output then .more else .over)
    (ho : ordered → s.InOrder (.lockB accepts output))
    (hl : Landed { s with
      pcb := some (pcb.tcpWriteAll accepts s.buffer.reading).1
      buffer := s.buffer.readFinish (size s.buffer.reading), resB := resB, point := p }) :
    Downstream ordered { s with
      pcb := some (pcb.tcpWriteAll accepts s.buffer.reading).1
      buffer := s.buffer.readFinish (size s.buffer.reading), resB := resB, point := p } first (inFlight ++ unread) [] := by
  have hne := h.calling (Or.inr ⟨res, hp⟩)
  have hsnd := h.sndBuf pcb hpcb
  have hwhole := h.whole pcb hpcb hne
  have hsize : size pcb.unacked = inFlight.length := by
    have := congrArg List.length hwhole
    simpa using this
  have hrd := h.holds.size_reading
  have huse := h.holds.use
  have hfit := h.holds.fits
  have hbound := h.bound
  obtain ⟨hw, hok⟩ := tcpWriteAll_eq pcb accepts (show size s.buffer.reading ≤ pcb.sndBuf by omega) (by omega) h.holds.reading_pos
  have hgather : gather id (pcb.unacked ++ taken accepts s.buffer.reading) =
      window id s.buffer.maxSize first inFlight.length ++ gather id (taken accepts s.buffer.reading) := by
    rw [gather_append, hwhole]
  have htaken : (taken accepts s.buffer.reading).Sublist s.buffer.reading := taken_sublist _ _
  refine ⟨?_, hbound, ?_, ?_, ?_, ?_, hl.calling, hl.returned, ?_, ?_⟩
  · rw [hrd]
    exact h.holds.readFinish
  · intro pcb' hp'
    cases hp'
    have hle : size (taken accepts s.buffer.reading) ≤ size s.buffer.reading := by
      have hg : (gather id (taken accepts s.buffer.reading)).Sublist (gather id s.buffer.reading) := gather_sublist htaken
      simpa using hg.length_le
    rw [hw]
    simp only [size_append]
    omega
  · intro pcb' hp'
    cases hp'
    rw [hw]
    change (gather id (pcb.unacked ++ _)).Sublist (window id s.buffer.maxSize first (inFlight ++ unread).length)
    rw [hgather, ← h.holds.window_append_reading]
    exact (List.Sublist.refl _).append (gather_sublist htaken)
  · intro pcb' hp' hne'
    cases hp'
    have hall : (pcb.tcpWriteAll accepts s.buffer.reading).2 = true := by
      by_contra hf
      rw [Bool.not_eq_true] at hf
      rw [hf] at hres
      exact hne' hres
    rw [hw, hok hall]
    change gather id (pcb.unacked ++ _) = window id s.buffer.maxSize first (inFlight ++ unread).length
    rw [gather_append, hwhole, h.holds.window_append_reading]
  · intro pcb' hp' hsh
    cases hp'
    rw [hw] at hsh
    exact absurd (h.shut pcb hpcb hsh).1 hne
  · intro hord pcb' hp'
    cases hp'
    rw [hw]
    change gather id (pcb.unacked ++ _) <+: window id s.buffer.maxSize first (inFlight ++ unread).length
    rw [hgather, ← h.holds.window_append_reading, List.prefix_append_right_inj]
    exact prefix_gather (prefix_taken (ho hord) length_span_le)
  · intro hord
    simp only
    rw [h.stream hord, List.append_nil, List.append_assoc]

/-- Acknowledged bytes leave the buffer and have reached the app. -/
theorem sent (h : Downstream ordered s first inFlight unread) {pcb : TcpPcb} {len : Nat} (hpcb : s.pcb = some pcb)
    (hlen : len ≤ size pcb.unacked) :
    Downstream ordered { s with
      pcb := some (pcb.ack len), toApp := s.toApp ++ (gather s.buffer.data pcb.unacked).take len
      buffer := s.buffer.readRelease len } (HevRingBuffer.Holds.firstAfter s.buffer first len) (inFlight.drop len) unread := by
  have hsub := h.pointers pcb hpcb
  have hle : size pcb.unacked ≤ inFlight.length := by
    have := hsub.length_le
    simpa using this
  -- the cells of the bytes in flight that are left
  have hwin : window id s.buffer.maxSize (HevRingBuffer.Holds.firstAfter s.buffer first len) (inFlight.drop len).length =
      (window id s.buffer.maxSize first inFlight.length).drop len := by
    unfold HevRingBuffer.Holds.firstAfter
    have hu := h.holds.use
    split
    · rw [List.drop_eq_nil_of_le (show inFlight.length ≤ len by omega), List.drop_eq_nil_of_le (by rw [length_window]; omega)]
      rfl
    · rw [List.length_drop]
      nth_rewrite 2 [← Nat.add_sub_cancel' (hlen.trans hle)]
      rw [window_add, List.drop_left' length_window]
  have hgather : gather id (pcb.ack len).unacked = (gather id pcb.unacked).drop len := gather_advance len
  refine ⟨h.holds.readRelease (hlen.trans hle), ?_, ?_, ?_, ?_, ?_, h.calling, ?_, ?_, ?_⟩
  · change (s.buffer.readRelease len).maxSize ≤ tcpSndBuf
    rw [HevRingBuffer.readRelease_maxSize]
    exact h.bound
  · intro pcb' hp'
    cases hp'
    have := h.sndBuf pcb hpcb
    change pcb.sndBuf + len + size (advance pcb.unacked len) = tcpSndBuf
    rw [size_advance]
    omega
  · intro pcb' hp'
    cases hp'
    simp only [HevRingBuffer.readRelease_maxSize]
    rw [hwin, hgather]
    exact hsub.drop len
  · intro pcb' hp' hne
    cases hp'
    simp only [HevRingBuffer.readRelease_maxSize]
    rw [hwin, hgather, h.whole pcb hpcb hne]
  · intro pcb' hp' hsh
    cases hp'
    obtain ⟨hover, hnil, hg⟩ := h.shut pcb hpcb hsh
    simp only [HevRingBuffer.readRelease_maxSize]
    rw [hwin, hgather, hg]
    exact ⟨hover, hnil, rfl⟩
  · intro hret
    refine Or.inr ?_
    simp only [HevRingBuffer.readRelease_useSize]
    rcases h.returned hret with hn | hz
    · rw [hpcb] at hn
      cases hn
    · rw [hz, Nat.zero_sub]
  · intro hord pcb' hp'
    cases hp'
    simp only [HevRingBuffer.readRelease_maxSize]
    rw [hwin, hgather]
    obtain ⟨rest, hrest⟩ := h.order hord pcb hpcb
    have hl : len ≤ (gather id pcb.unacked).length := by rw [length_gather]; exact hlen
    exact ⟨rest, by rw [← hrest, List.drop_append_of_le_length hl]⟩
  · intro hord
    obtain ⟨rest, hrest⟩ := h.order hord pcb hpcb
    have hdata : gather s.buffer.data pcb.unacked ++ rest.map s.buffer.data = inFlight := by
      rw [gather_eq_map, ← List.map_append, hrest, ← window_eq_map, h.holds.window_inFlight]
    have htake : (gather s.buffer.data pcb.unacked).take len = inFlight.take len := by
      rw [← hdata, List.take_append_of_le_length (by simpa using hlen)]
    simp only
    rw [htake, h.stream hord, List.append_assoc s.toApp (inFlight.take len), List.take_append_drop]

theorem step (h : Downstream ordered s first inFlight unread) {e : TcpEvent} (hm : s.Move e t) (ho : ordered → s.InOrder e) :
    ∃ first inFlight unread, Downstream ordered t first inFlight unread := by
  have same : ∀ pcb, s.pcb = some pcb →
      ∃ pcb', s.pcb = some pcb' ∧ pcb.sndBuf = pcb'.sndBuf ∧ pcb.unacked = pcb'.unacked ∧ pcb.txShut = pcb'.txShut :=
    fun pcb hp => ⟨pcb, hp, rfl, rfl, rfl⟩
  cases hm with
  | shutWr r p hp hq he hl => exact ⟨_, _, _, h.of_eq rfl rfl rfl id same hl.calling hl.returned⟩
  | quietF r res p hp hl => exact ⟨_, _, _, h.of_eq rfl rfl rfl id same hl.calling hl.returned⟩
  | writev n hp hn =>
    exact ⟨_, _, _, h.of_eq rfl rfl rfl id same (fun hc => by rcases hc with hc | ⟨_, hc⟩ <;> cases hc) fun hr => by cases hr⟩
  | freeHeader n p hp hl =>
    refine ⟨_, _, _, h.of_eq rfl rfl rfl id ?_ hl.calling hl.returned⟩
    intro pcb hpcb
    obtain ⟨pcb', hp', rfl⟩ := Option.map_eq_some_iff.1 hpcb
    exact ⟨pcb', hp', TcpPcb.tcpRecved_sndBuf _ _, TcpPcb.tcpRecved_unacked _ _, TcpPcb.tcpRecved_txShut _ _⟩
  | quietB r res hp =>
    exact ⟨_, _, _, h.of_eq rfl rfl rfl id same (fun _ => h.calling (Or.inl hp)) fun hr => by cases hr⟩
  | readv xs hp hx => exact ⟨_, _, _, h.readv hp hx⟩
  | tcpWrite res accepts output pcb resB p hp hpcb hres hl => exact ⟨_, _, _, h.tcpWrite hp hpcb hres ho hl⟩
  | tcpShutdown res accepts output pcb p hp hpcb hr hl =>
    have hne := h.calling (Or.inr ⟨res, hp⟩)
    have hnil : unread = [] := by
      rw [← h.holds.gather_reading, hr]
      rfl
    refine ⟨first, inFlight, unread, h.holds, h.bound, ?_, ?_, ?_, ?_, hl.calling, hl.returned, ?_, h.stream⟩
    · intro pcb' hp'
      cases hp'
      exact h.sndBuf pcb hpcb
    · intro pcb' hp'
      cases hp'
      exact h.pointers pcb hpcb
    · intro pcb' hp' hne'
      exact absurd rfl hne'
    · intro pcb' hp' _
      cases hp'
      exact ⟨rfl, hnil, h.whole pcb hpcb hne⟩
    · intro hord pcb' hp'
      cases hp'
      exact h.order hord pcb hpcb
  | quietLockB res accepts output resB p hp hl =>
    exact ⟨_, _, _, h.of_eq rfl rfl rfl (fun _ => h.calling (Or.inr ⟨res, hp⟩)) same hl.calling hl.returned⟩
  | yielded ok p hn hl => exact ⟨_, _, _, h.of_eq rfl rfl rfl id same hl.calling hl.returned⟩
  | recv pcb c hpcb he hw =>
    refine ⟨_, _, _, h.of_eq rfl rfl rfl id ?_ h.calling ?_⟩
    · intro pcb' hp'
      cases hp'
      exact ⟨pcb, hpcb, rfl, rfl, rfl⟩
    · intro hr
      rcases h.returned hr with hn | hz
      · rw [hpcb] at hn
        cases hn
      · exact Or.inr hz
  | recvEof => exact ⟨_, _, _, h.of_eq rfl rfl rfl id same h.calling h.returned⟩
  | sent pcb len hpcb hlen => exact ⟨_, _, _, h.sent hpcb hlen⟩
  | err => exact ⟨_, _, _, h.of_eq rfl rfl rfl id (fun pcb hp => by cases hp) h.calling fun _ => Or.inl rfl⟩

end Downstream

/-- The stream from the app to the server after a run. -/
theorem exec_upstream {n : Int} {garbage : Nat → UInt8} {es : List TcpEvent} {s : TcpSession}
    (hx : exec step (TcpSession.init n garbage) es = some s) : s.Upstream :=
  exec_invariant Upstream (fun _ _ _ h _ hs => upstream_step h (step_cases hs)) (upstream_init n garbage) (meets_true _ es) hx

/-- The stream from the server to the app after a run. -/
theorem exec_downstream {ordered : Prop} {n : Int} (hn : 0 ≤ n) {garbage : Nat → UInt8} {es : List TcpEvent} {s : TcpSession}
    (hm : Meets step (fun s e => ordered → s.InOrder e) (TcpSession.init n garbage) es)
    (hx : exec step (TcpSession.init n garbage) es = some s) :
    ∃ first inFlight unread, Downstream ordered s first inFlight unread := by
  refine exec_invariant (fun s => ∃ first inFlight unread, Downstream ordered s first inFlight unread) ?_
    ⟨0, [], [], Downstream.init ordered hn garbage⟩ hm hx
  intro s e t h ho hs
  obtain ⟨first, inFlight, unread, h⟩ := h
  exact h.step (step_cases hs) ho

end TcpSession

open TcpSession

/-- A session with a buffer of four bytes that wraps, to the end of both streams. -/
def wrappingRun : List TcpEvent :=
  [.recv [[1, 2, 3]], .spliceF (.wrote 2), .recv [[4]], .lockF, .spliceB (.read [10, 11, 12]), .lockB [] true, .yielder true,
    .sent 2, .spliceF (.wrote 2), .lockF, .spliceB (.read [13, 14]), .lockB [true, true] true, .yielder true, .recvEof,
    .spliceF .again, .spliceB .failed, .lockB [] true, .sent 3, .yielder true]

/-- After every run of a session with lwIP's handlers in any order: the bytes written to the server are the first ones the app
has sent, and the others are in the queue; the window lwIP has left and the bytes in the queue make up the whole window, so
`tcp_recved` has given back the room of exactly the bytes that have left the queue, and none of its 16-bit arguments is cut; and
the sending side of the server's socket is shut down only behind the last byte of a stream that has ended. -/
theorem tcp_upstream (tcpBufferSize : Nat) (garbage : Nat → UInt8) (es : List TcpEvent) (s : TcpSession)
    (hx : exec TcpSession.step (TcpSession.init tcpBufferSize garbage) es = some s) :
    s.fromApp = s.toServer ++ s.queue.flatten.drop s.pending ∧
    (∀ pcb, s.pcb = some pcb → pcb.rcvWnd + s.queue.flatten.length = tcpWnd) ∧
    u16 s.pending = s.pending ∧
    (s.shutWr = true → s.pcbEof = true ∧ s.toServer = s.fromApp) := by
  have h := exec_upstream hx
  refine ⟨h.stream, h.window, u16_of_le (h.pending.trans h.bound), ?_⟩
  intro hsh
  obtain ⟨he, hq⟩ := h.shut hsh
  refine ⟨he, ?_⟩
  rw [h.stream, hq]
  simp

theorem tcp_upstream_wrappingRun : ∃ s, exec TcpSession.step (TcpSession.init 4 fun _ => 0) wrappingRun = some s ∧
    s.shutWr = true ∧ s.pcbEof = true ∧ s.toServer = s.fromApp := by
  have hx : (exec TcpSession.step (TcpSession.init 4 fun _ => 0) wrappingRun).map TcpSession.shutWr = some true := by decide +kernel
  obtain ⟨s, hs, hsh⟩ := Option.map_eq_some_iff.1 hx
  exact ⟨s, hs, hsh, (tcp_upstream 4 _ wrappingRun s hs).2.2.2 hsh⟩

/-- After every run in which lwIP never takes the second segment of a vector when it has refused the first: the acknowledged
bytes and behind them the bytes lwIP may still send, read through its pointers as the memory is now, are the first ones the
server has sent; a stream that is shut down has no byte left behind; and when the splicer returns on its own with the connection
alive, every byte is acknowledged and lwIP holds no pointer into the buffer, which is on the stack of the task. -/
theorem tcp_downstream (tcpBufferSize : Nat) (garbage : Nat → UInt8) (es : List TcpEvent) (s : TcpSession)
    (hx : exec TcpSession.step (TcpSession.init tcpBufferSize garbage) es = some s)
    (hm : Meets TcpSession.step TcpSession.InOrder (TcpSession.init tcpBufferSize garbage) es) :
    s.toApp <+: s.fromServer ∧
    (∀ pcb, s.pcb = some pcb → s.toApp ++ gather s.buffer.data pcb.unacked <+: s.fromServer) ∧
    (∀ pcb, s.pcb = some pcb → pcb.txShut = true → s.toApp ++ gather s.buffer.data pcb.unacked = s.fromServer) ∧
    (∀ pcb, s.pcb = some pcb → s.point = .returned false → s.toApp = s.fromServer ∧ size pcb.unacked = 0) := by
  have hm' : Meets TcpSession.step (fun s e => True → s.InOrder e) (TcpSession.init tcpBufferSize garbage) es := by
    simpa only [forall_const] using hm
  obtain ⟨first, inFlight, unread, h⟩ := exec_downstream (Int.natCast_nonneg _) hm' hx
  have hs := h.stream trivial
  have hread : ∀ pcb : TcpPcb, gather s.buffer.data pcb.unacked = (gather id pcb.unacked).map s.buffer.data :=
    fun pcb => gather_eq_map
  have hwin : (window id s.buffer.maxSize first inFlight.length).map s.buffer.data = inFlight := by
    rw [← window_eq_map, h.holds.window_inFlight]
  refine ⟨⟨inFlight ++ unread, by rw [hs, List.append_assoc]⟩, ?_, ?_, ?_⟩
  · intro pcb hpcb
    obtain ⟨rest, hrest⟩ := h.order trivial pcb hpcb
    refine ⟨rest.map s.buffer.data ++ unread, ?_⟩
    rw [hs, hread, List.append_assoc, ← List.append_assoc (List.map _ _), ← List.map_append, hrest, hwin, List.append_assoc]
  · intro pcb hpcb hsh
    obtain ⟨_, hnil, hg⟩ := h.shut pcb hpcb hsh
    rw [hs, hread, hg, hwin, hnil, List.append_nil]
  · intro pcb hpcb hret
    rcases h.returned hret with hn | hz
    · rw [hpcb] at hn
      cases hn
    · have huse := h.holds.use
      have hi : inFlight = [] := List.eq_nil_of_length_eq_zero (by omega)
      have hu : unread = [] := List.eq_nil_of_length_eq_zero (by omega)
      refine ⟨by rw [hs, hi, hu, List.append_nil, List.append_nil], ?_⟩
      have hle := (h.pointers pcb hpcb).length_le
      rw [hi] at hle
      simpa using hle

theorem tcp_downstream_wrappingRun : ∃ s, exec TcpSession.step (TcpSession.init 4 fun _ => 0) wrappingRun = some s ∧
    s.toApp <+: s.fromServer ∧ s.toApp = [10, 11, 12, 13, 14] := by
  have hx : (exec TcpSession.step (TcpSession.init 4 fun _ => 0) wrappingRun).map TcpSession.toApp =
      some [10, 11, 12, 13, 14] := by decide +kernel
  obtain ⟨s, hs, ha⟩ := Option.map_eq_some_iff.1 hx
  exact ⟨s, hs, (tcp_downstream 4 _ wrappingRun s hs (by decide +kernel)).1, ha⟩

/-- When lwIP refuses the first of two segments and takes the second, the app gets a byte of the second in the place of the
first. -/
example : ((exec TcpSession.step (TcpSession.init 4 fun _ => 0)
    [.spliceF .again, .spliceB (.read [1, 2, 3]), .lockB [] true, .yielder true, .sent 2, .spliceF .again,
      .spliceB (.read [4, 5]), .lockB [false, true] true, .sent 2]).map fun s => (s.fromServer, s.toApp)) =
    some ([1, 2, 3, 4, 5], [1, 2, 3, 5]) := by decide +kernel

/-- A value of `tcp-buffer-size` that does not become negative as an `int` gives a buffer of at most `TCP_SND_BUF` bytes, and after
every run, also when lwIP refuses what it is given: no segment that `readv` or `tcp_write` gets reaches past the buffer; no cell
that `readv` may write to is one lwIP holds a pointer to; the bytes that are to be written fit into lwIP's send buffer and into
the 16 bits of its parameter, which is what the bound on `tcp-buffer-size` is for; and lwIP never gives back more than is in
use. A value that becomes negative passes the bound, and the buffer would have to have 2^63 bytes or more. -/
theorem tcp_buffer_safe (value : Nat) :
    (0 ≤ storeInt value ↔ value % 4294967296 < 2147483648) ∧
    (storeInt value < 0 → 9223372036854775808 ≤ sizeT (boundTcpBufferSize (storeInt value))) ∧
    (0 ≤ storeInt value → ∀ (garbage : Nat → UInt8) (es : List TcpEvent) (s : TcpSession),
      exec TcpSession.step (TcpSession.init (storeInt value) garbage) es = some s →
      s.buffer.maxSize ≤ tcpSndBuf ∧
      (∀ seg ∈ s.buffer.reading ++ s.buffer.writing, seg.base + seg.len ≤ s.buffer.maxSize ∧ u16 seg.len = seg.len) ∧
      (∀ pcb, s.pcb = some pcb → ∀ a ∈ gather id pcb.unacked, a < s.buffer.maxSize ∧ a ∉ gather id s.buffer.writing) ∧
      (∀ pcb, s.pcb = some pcb → size pcb.unacked ≤ s.buffer.useSize ∧
        (s.resB ≠ .over → size s.buffer.reading ≤ pcb.sndBuf))) := by
  refine ⟨storeInt_nonneg value, sizeT_of_neg, ?_⟩
  intro hn garbage es s hx
  have hm : Meets TcpSession.step (fun s e => False → s.InOrder e) (TcpSession.init (storeInt value) garbage) es := by
    simpa only [false_imp_iff] using meets_true _ es
  obtain ⟨first, inFlight, unread, h⟩ := exec_downstream hn hm hx
  have huse := h.holds.use
  have hfit := h.holds.fits
  refine ⟨h.bound, ?_, ?_, ?_⟩
  · intro seg hseg
    have hin := h.holds.inside seg hseg
    exact ⟨hin, u16_of_le ((Nat.le_add_left _ _).trans (hin.trans h.bound))⟩
  · intro pcb hpcb a ha
    have hin : a ∈ window id s.buffer.maxSize first inFlight.length := (h.pointers pcb hpcb).subset ha
    have hall : a ∈ window id s.buffer.maxSize first s.buffer.useSize := by
      rw [huse, window_add]
      exact List.mem_append_left _ hin
    refine ⟨?_, h.holds.not_mem_writing hall⟩
    obtain ⟨i, hi, rfl⟩ := List.mem_map.1 hin
    rw [List.mem_range] at hi
    exact Nat.mod_lt _ (by omega)
  · intro pcb hpcb
    have hle := (h.pointers pcb hpcb).length_le
    rw [length_gather, length_window] at hle
    refine ⟨by omega, ?_⟩
    intro hne
    have hsize := congrArg List.length (h.whole pcb hpcb hne)
    rw [length_gather, length_window] at hsize
    have hsnd := h.sndBuf pcb hpcb
    have hrd := h.holds.size_reading
    have hb := h.bound
    omega

theorem tcp_buffer_safe_wrappingRun : ∃ s, exec TcpSession.step (TcpSession.init (storeInt 4294967300) fun _ => 0)
      (wrappingRun.take 12) = some s ∧ s.pcb.isSome = true ∧ ∀ seg ∈ s.buffer.reading ++ s.buffer.writing,
      seg.base + seg.len ≤ s.buffer.maxSize ∧ u16 seg.len = seg.len := by
  have hx : (exec TcpSession.step (TcpSession.init (storeInt 4294967300) fun _ => 0) (wrappingRun.take 12)).map (·.pcb.isSome) =
      some true := by decide +kernel
  obtain ⟨s, hs, hp⟩ := Option.map_eq_some_iff.1 hx
  exact ⟨s, hs, hp, ((tcp_buffer_safe 4294967300).2.2 (by decide) _ _ s hs).2.1⟩

end Open365Vpn
