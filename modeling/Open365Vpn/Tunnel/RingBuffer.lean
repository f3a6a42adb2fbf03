import Open365Vpn.Lib.Ring

/-!
# The ring buffer of the tunnel

`hev-ring-buffer.c` of `hev-socks5-tunnel`. Reading has two stages: `read_finish` takes bytes off the readable part, and
`read_release` gives their space back later, since lwIP keeps pointers into the buffer until the bytes are acknowledged. So the
buffer holds the bytes in flight, read and not released, and behind them the readable ones; `Holds` says which these are, and
each operation has one lemma about it. `data` is the memory from the field of that name on, and a vector of `struct iovec` is
a list of segments of it.
-/

namespace Open365Vpn

open Ring

/-- `HevRingBuffer`. -/
structure HevRingBuffer (α : Type*) where
  rp : Nat
  wp : Nat
  rdaSize : Nat
  useSize : Nat
  maxSize : Nat
  data : Nat → α

namespace HevRingBuffer

variable {α : Type*}

/-- `hev_ring_buffer_alloca`. The memory is not initialized. -/
def alloca (garbage : Nat → α) (s : Nat) : HevRingBuffer α where
  rp := 0
  wp := 0
  rdaSize := 0
  useSize := 0
  maxSize := s
  data := garbage

/-- `hev_ring_buffer_reading`. -/
def reading (self : HevRingBuffer α) : List Segment :=
  if self.rdaSize = 0 then []
  else
    let upperSize := self.maxSize - self.rp
    if self.rdaSize ≤ upperSize then [⟨self.rp, self.rdaSize⟩]
    else [⟨self.rp, upperSize⟩, ⟨0, self.rdaSize - upperSize⟩]

/-- `hev_ring_buffer_read_finish`. -/
def readFinish (self : HevRingBuffer α) (size : Nat) : HevRingBuffer α :=
  { self with rp := (self.rp + size) % self.maxSize, rdaSize := self.rdaSize - size }

/-- `hev_ring_buffer_read_release`. -/
def readRelease (self : HevRingBuffer α) (size : Nat) : HevRingBuffer α :=
  let useSize := self.useSize - size
  if useSize = 0 then { self with useSize, rp := 0, wp := 0 } else { self with useSize }

/-- `hev_ring_buffer_writing`. -/
def writing (self : HevRingBuffer α) : List Segment :=
  if self.useSize = self.maxSize then []
  else
    let upperSize := self.maxSize - self.wp
    let spcSize := self.maxSize - self.useSize
    if spcSize ≤ upperSize then [⟨self.wp, spcSize⟩]
    else [⟨self.wp, upperSize⟩, ⟨0, spcSize - upperSize⟩]

/-- `hev_ring_buffer_write_finish`. -/
def writeFinish (self : HevRingBuffer α) (size : Nat) : HevRingBuffer α :=
  { self with wp := (self.wp + size) % self.maxSize, useSize := self.useSize + size, rdaSize := self.rdaSize + size }

/-- The bytes `xs` are written to the segments of `writing`, and `write_finish` is told how many. -/
def write (self : HevRingBuffer α) (xs : List α) : HevRingBuffer α :=
  { self with data := scatter self.data self.writing xs }.writeFinish xs.length

/-- The buffer holds, from the cell `first` on, the bytes `inFlight`, read and not released, and behind them the bytes
`unread`. -/
structure Holds (b : HevRingBuffer α) (first : Nat) (inFlight unread : List α) : Prop where
  rda : b.rdaSize = unread.length
  use : b.useSize = inFlight.length + unread.length
  fits : b.useSize ≤ b.maxSize
  cells : 0 < b.maxSize → first < b.maxSize ∧ b.rp = (first + inFlight.length) % b.maxSize ∧
    b.wp = (first + b.useSize) % b.maxSize ∧ window b.data b.maxSize first b.useSize = inFlight ++ unread

variable {b : HevRingBuffer α} {first : Nat} {inFlight unread : List α}

theorem holds_alloca (garbage : Nat → α) (s : Nat) : (alloca garbage s).Holds 0 [] [] where
  rda := rfl
  use := rfl
  fits := Nat.zero_le _
  cells hs := ⟨hs, by simp [alloca], by simp [alloca], rfl⟩

theorem reading_eq_span : b.reading = span b.maxSize b.rp b.rdaSize := rfl

theorem writing_eq_span (h : b.useSize ≤ b.maxSize) :
    b.writing = span b.maxSize b.wp (b.maxSize - b.useSize) := by
  unfold writing span
  by_cases he : b.useSize = b.maxSize
  · rw [if_pos he, if_pos (by omega)]
  · have hne : b.maxSize - b.useSize ≠ 0 := by omega
    simp only [if_neg he, if_neg hne]

theorem readRelease_data (size : Nat) : (b.readRelease size).data = b.data := by
  unfold readRelease
  dsimp only
  split <;> rfl

theorem readRelease_maxSize (size : Nat) : (b.readRelease size).maxSize = b.maxSize := by
  unfold readRelease
  dsimp only
  split <;> rfl

theorem readRelease_useSize (size : Nat) : (b.readRelease size).useSize = b.useSize - size := by
  unfold readRelease
  dsimp only
  split <;> rfl

namespace Holds

theorem rp_lt (h : b.Holds first inFlight unread) (hm : 0 < b.maxSize) : b.rp < b.maxSize := by
  obtain ⟨_, hrp, _⟩ := h.cells hm
  rw [hrp]
  exact Nat.mod_lt _ hm

theorem wp_lt (h : b.Holds first inFlight unread) (hm : 0 < b.maxSize) : b.wp < b.maxSize := by
  obtain ⟨_, _, hwp, _⟩ := h.cells hm
  rw [hwp]
  exact Nat.mod_lt _ hm

/-- The segments of `reading` hold the readable bytes. -/
theorem gather_reading (h : b.Holds first inFlight unread) : gather b.data b.reading = unread := by
  rcases Nat.eq_zero_or_pos b.maxSize with hm | hm
  · have hz : b.rdaSize = 0 := by have := h.rda; have := h.use; have := h.fits; omega
    have hn : unread = [] := List.eq_nil_of_length_eq_zero (by rw [← h.rda, hz])
    rw [reading, if_pos hz, hn, gather_nil]
  · obtain ⟨hf, hrp, _, hw⟩ := h.cells hm
    have hu := h.use
    have hr := h.rda
    have hfit := h.fits
    rw [reading_eq_span, gather_span (h.rp_lt hm) (by omega)]
    rw [hu, window_add, ← hrp] at hw
    have := List.append_inj_right hw (by simp)
    rw [hr, this]

theorem size_reading (h : b.Holds first inFlight unread) : size b.reading = unread.length := by
  rw [← h.gather_reading, length_gather]

theorem size_writing (h : b.Holds first inFlight unread) : size b.writing = b.maxSize - b.useSize := by
  rcases Nat.eq_zero_or_pos b.maxSize with hm | hm
  · have hz : b.useSize = b.maxSize := by have := h.fits; omega
    rw [writing, if_pos hz, size_nil]
    omega
  · rw [writing_eq_span h.fits, size_span (h.wp_lt hm) (Nat.sub_le _ _)]

/-- No segment of `reading` or of `writing` reaches past the end of the buffer. -/
theorem inside (h : b.Holds first inFlight unread) : ∀ s ∈ b.reading ++ b.writing, s.base + s.len ≤ b.maxSize := by
  intro s hs
  rcases Nat.eq_zero_or_pos b.maxSize with hm | hm
  · have hz : b.rdaSize = 0 := by have := h.rda; have := h.use; have := h.fits; omega
    have hu : b.useSize = b.maxSize := by have := h.fits; omega
    rw [reading, writing, if_pos hz, if_pos hu] at hs
    cases hs
  · rcases List.mem_append.1 hs with hs | hs
    · rw [reading_eq_span] at hs
      have := h.use
      have := h.rda
      have := h.fits
      exact span_inside (h.rp_lt hm) (by omega) s hs
    · rw [writing_eq_span h.fits] at hs
      exact span_inside (h.wp_lt hm) (Nat.sub_le _ _) s hs

/-- No segment of `reading` is empty. -/
theorem reading_pos (h : b.Holds first inFlight unread) : ∀ s ∈ b.reading, 0 < s.len := by
  intro s hs
  rcases Nat.eq_zero_or_pos b.maxSize with hm | hm
  · have hz : b.rdaSize = 0 := by have := h.rda; have := h.use; have := h.fits; omega
    rw [reading, if_pos hz] at hs
    cases hs
  · exact span_pos (h.rp_lt hm) s hs

/-- The bytes in flight are read from the first cells. -/
theorem window_inFlight (h : b.Holds first inFlight unread) :
    window b.data b.maxSize first inFlight.length = inFlight := by
  rcases Nat.eq_zero_or_pos b.maxSize with hm | hm
  · have hz : inFlight = [] := List.eq_nil_of_length_eq_zero (by have := h.use; have := h.fits; omega)
    rw [hz]
    rfl
  · obtain ⟨_, _, _, hw⟩ := h.cells hm
    rw [h.use, window_add] at hw
    exact List.append_inj_left hw (by simp)

/-- The cells of `reading` follow the cells of the bytes in flight. -/
theorem window_append_reading (h : b.Holds first inFlight unread) :
    window id b.maxSize first inFlight.length ++ gather id b.reading =
      window id b.maxSize first (inFlight ++ unread).length := by
  have hr := h.rda
  have hu := h.use
  have hfit := h.fits
  rcases Nat.eq_zero_or_pos b.maxSize with hm | hm
  · have hz : b.rdaSize = 0 := by omega
    rw [reading, if_pos hz, gather_nil, List.append_nil, List.length_append]
    congr 1
    omega
  · obtain ⟨_, hrp, _, _⟩ := h.cells hm
    rw [reading_eq_span, gather_span (h.rp_lt hm) (by omega), hrp, hr, List.length_append, window_add]

/-- No cell that is in use is among the cells of `writing`. -/
theorem not_mem_writing (h : b.Holds first inFlight unread) {a : Nat} (ha : a ∈ window id b.maxSize first b.useSize) :
    a ∉ gather id b.writing := by
  have hfit := h.fits
  rcases Nat.eq_zero_or_pos b.maxSize with hm | hm
  · have hz : b.useSize = b.maxSize := by omega
    rw [writing, if_pos hz]
    exact List.not_mem_nil
  · obtain ⟨_, _, hwp, _⟩ := h.cells hm
    have hnd : (window id b.maxSize first (b.useSize + (b.maxSize - b.useSize))).Nodup := nodup_window (by omega)
    rw [window_add, ← hwp] at hnd
    rw [writing_eq_span h.fits, gather_span (h.wp_lt hm) (Nat.sub_le _ _)]
    intro hw
    exact List.disjoint_of_nodup_append hnd ha hw

/-- Finished bytes are in flight. -/
theorem readFinish (h : b.Holds first inFlight unread) :
    (b.readFinish unread.length).Holds first (inFlight ++ unread) [] where
  rda := by simp [HevRingBuffer.readFinish, h.rda]
  use := by simp [HevRingBuffer.readFinish, h.use]
  fits := h.fits
  cells hm := by
    obtain ⟨hf, hrp, hwp, hw⟩ := h.cells hm
    refine ⟨hf, ?_, hwp, ?_⟩
    · simp only [HevRingBuffer.readFinish]
      rw [hrp, Nat.mod_add_mod, List.length_append, Nat.add_assoc]
    · rw [List.append_nil]
      exact hw

/-- The cell of the first byte after a release: both positions go back to the start when the buffer is empty. -/
def firstAfter (b : HevRingBuffer α) (first size : Nat) : Nat :=
  if b.useSize - size = 0 then 0 else (first + size) % b.maxSize

/-- A release gives back the space of the first bytes in flight. -/
theorem readRelease (h : b.Holds first inFlight unread) {size : Nat} (hs : size ≤ inFlight.length) :
    (b.readRelease size).Holds (firstAfter b first size) (inFlight.drop size) unread where
  rda := by
    rw [← h.rda]
    unfold HevRingBuffer.readRelease
    dsimp only
    split <;> rfl
  use := by
    rw [readRelease_useSize, h.use, List.length_drop]
    omega
  fits := by
    rw [readRelease_useSize, readRelease_maxSize]
    exact (Nat.sub_le _ _).trans h.fits
  cells hm := by
    rw [readRelease_maxSize] at hm ⊢
    obtain ⟨hf, hrp, hwp, hw⟩ := h.cells hm
    have hu := h.use
    rw [readRelease_useSize, readRelease_data]
    unfold HevRingBuffer.readRelease firstAfter
    dsimp only
    split
    · rename_i hz
      have hi : inFlight.drop size = [] := List.drop_eq_nil_of_le (by omega)
      have hun : unread = [] := List.eq_nil_of_length_eq_zero (by omega)
      rw [hz, hi, hun]
      exact ⟨hm, by simp, by simp, rfl⟩
    · refine ⟨Nat.mod_lt _ hm, ?_, ?_, ?_⟩
      · rw [Nat.mod_add_mod, hrp, List.length_drop, Nat.add_assoc, Nat.add_sub_cancel' hs]
      · rw [Nat.mod_add_mod, hwp, Nat.add_assoc, Nat.add_sub_cancel' (by omega)]
      · have hsplit : size + (b.useSize - size) = b.useSize := by omega
        rw [← hsplit, window_add] at hw
        have := congrArg (List.drop size) hw
        rw [List.drop_left' (by simp), List.drop_append_of_le_length hs] at this
        exact this

/-- Written bytes come behind the readable ones, and the bytes in flight stay where they are. -/
theorem write (h : b.Holds first inFlight unread) {xs : List α} (hx : xs.length ≤ b.maxSize - b.useSize) :
    (b.write xs).Holds first inFlight (unread ++ xs) where
  rda := by simp [HevRingBuffer.write, writeFinish, h.rda]
  use := by simp [HevRingBuffer.write, writeFinish, h.use, Nat.add_assoc]
  fits := by
    have := h.fits
    simp only [HevRingBuffer.write, writeFinish]
    omega
  cells hm := by
    change 0 < b.maxSize at hm
    obtain ⟨hf, hrp, hwp, hw⟩ := h.cells hm
    have hfit := h.fits
    have hn : b.useSize + (b.maxSize - b.useSize) ≤ b.maxSize := by omega
    refine ⟨hf, hrp, ?_, ?_⟩
    · simp only [HevRingBuffer.write, writeFinish]
      rw [hwp, Nat.mod_add_mod, Nat.add_assoc]
    · simp only [HevRingBuffer.write, writeFinish]
      rw [writing_eq_span h.fits, hwp, window_add, window_scatter_before hf hn hx,
        window_scatter_self (Nat.mod_lt _ hm) (Nat.sub_le _ _) hx, hw, List.append_assoc]

end Holds

end HevRingBuffer

end Open365Vpn
