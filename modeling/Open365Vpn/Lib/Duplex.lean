import Open365Vpn.Lib.Runs
import Mathlib.Tactic.Cases

/-!
# Two programs and a connection

A program that writes and reads a connection byte by byte is a tree: at every write and read it goes on in one of two ways, when
the byte has gone or come, or when the connection fails. A read waits for its byte, or it does not wait, and then it also fails
when there is none. Two programs with a stream between them in each direction are a `Net`; the bytes in a stream are those
written and not yet read. `step` is a move of one of the two, in any order, or a failure, which may come anywhere; `advance` is a
move alone.

Whatever fails, what a program has read is the beginning of what the other has written (`exec_traces`), so a statement about both
follows from what each of them does alone (`Trace`). When nothing fails the order of the moves does not matter: a run that comes
to an end has the end and the length of every other one (`advance_converges`).
-/

namespace Duplex

open Runs

/-- A program over a connection. -/
inductive Proc (β α : Type) where
  | done (a : α)
  | put (b : β) (next failed : Proc β α)
  | get (waits : Bool) (next : β → Proc β α) (failed : Proc β α)

variable {β α α₁ α₂ γ : Type}

namespace Proc

def bind : Proc β α → (α → Proc β γ) → Proc β γ
  | done a, f => f a
  | put b next failed, f => put b (next.bind f) (failed.bind f)
  | get waits next failed, f => get waits (fun b => (next b).bind f) (failed.bind f)

instance : Monad (Proc β) where
  pure := done
  bind := bind

@[simp] theorem pure_eq (a : α) : (pure a : Proc β α) = done a := rfl

@[simp] theorem done_bind (a : α) (f : α → Proc β γ) : (done a >>= f) = f a := rfl

@[simp] theorem put_bind (b : β) (next failed : Proc β α) (f : α → Proc β γ) :
    (put b next failed >>= f) = put b (next >>= f) (failed >>= f) := rfl

@[simp] theorem get_bind (waits : Bool) (next : β → Proc β α) (failed : Proc β α) (f : α → Proc β γ) :
    (get waits next failed >>= f) = get waits (fun b => next b >>= f) (failed >>= f) := rfl

@[simp] theorem bind_assoc (p : Proc β α) (f : α → Proc β γ) {δ : Type} (g : γ → Proc β δ) :
    ((p >>= f) >>= g) = (p >>= fun a => f a >>= g) := by
  induction p with
  | done a => rfl
  | put b next failed ihn ihf => rw [put_bind, put_bind, put_bind, ihn, ihf]
  | get waits next failed ihn ihf =>
    rw [get_bind, get_bind, get_bind, ihf]
    simp only [ihn]

@[simp] theorem bind_done (p : Proc β α) : (p >>= done) = p := by
  induction p with
  | done a => rfl
  | put b next failed ihn ihf => rw [put_bind, ihn, ihf]
  | get waits next failed ihn ihf =>
    rw [get_bind, ihf]
    simp only [ihn]

/-- Write bytes until the connection fails: the number of them that have gone, with those that had gone before. -/
def putAll : List β → Nat → Proc β Nat
  | [], size => done size
  | b :: bs, size => put b (putAll bs (size + 1)) (done size)

/-- Read bytes until there are enough or the connection fails: those that have come, behind those that had come before. -/
def getAll : Nat → List β → Proc β (List β)
  | 0, acc => done acc
  | n + 1, acc => get true (fun b => getAll n (acc ++ [b])) (done acc)

/-! ## What a program does alone -/

/-- Where a program may fail: at its writes, and at its reads that wait. A read that does not wait always may. -/
structure Faults where
  put : Bool
  wait : Bool
  deriving DecidableEq, Repr

/-- Every read may fail, and the writes as the Boolean says. -/
instance : Coe Bool Faults := ⟨fun put => ⟨put, true⟩⟩

/-- The program stands where it may fail. -/
def mayFail (weak : Faults) : Proc β α → Bool
  | done _ => true
  | put _ _ _ => weak.put
  | get waits _ _ => !waits || weak.wait

/-- The program may read `ins`, write `outs` and be at `q` then, when it fails only where `weak` says that it may. -/
def Trace (weak : Faults) : Proc β α → List β → List β → Proc β α → Prop
  | done a, ins, outs, q => ins = [] ∧ outs = [] ∧ q = done a
  | put b next failed, ins, outs, q =>
    (ins = [] ∧ outs = [] ∧ q = put b next failed) ∨ (∃ outs', outs = b :: outs' ∧ Trace weak next ins outs' q) ∨
      (weak.put = true ∧ Trace weak failed ins outs q)
  | get waits next failed, ins, outs, q =>
    (ins = [] ∧ outs = [] ∧ q = get waits next failed) ∨ (∃ b ins', ins = b :: ins' ∧ Trace weak (next b) ins' outs q) ∨
      ((!waits || weak.wait) = true ∧ Trace weak failed ins outs q)

section Trace

variable {weak : Faults} {p q r : Proc β α} {ins outs ins' outs' : List β}

theorem trace_self (p : Proc β α) : Trace weak p [] [] p := by
  cases p with
  | done a => exact ⟨rfl, rfl, rfl⟩
  | put b next failed => exact Or.inl ⟨rfl, rfl, rfl⟩
  | get waits next failed => exact Or.inl ⟨rfl, rfl, rfl⟩

theorem bind_ne_done {p : Proc β α} {f : α → Proc β γ} (h : ∀ a, p ≠ done a) (c : γ) : (p >>= f) ≠ done c := by
  cases p with
  | done a => exact absurd rfl (h a)
  | put b next failed => nofun
  | get waits next failed => nofun

/-- A trace goes on with a trace of where it has come to. -/
theorem Trace.append (h : Trace weak p ins outs q) (h' : Trace weak q ins' outs' r) :
    Trace weak p (ins ++ ins') (outs ++ outs') r := by
  induction p generalizing ins outs with
  | done a =>
    obtain ⟨rfl, rfl, rfl⟩ := h
    exact h'
  | put b next failed ihn ihf =>
    rcases h with ⟨rfl, rfl, rfl⟩ | ⟨outs₁, rfl, h⟩ | ⟨hw, h⟩
    · exact h'
    · exact Or.inr (Or.inl ⟨outs₁ ++ outs', rfl, ihn h⟩)
    · exact Or.inr (Or.inr ⟨hw, ihf h⟩)
  | get waits next failed ihn ihf =>
    rcases h with ⟨rfl, rfl, rfl⟩ | ⟨b, ins₁, rfl, h⟩ | ⟨hw, h⟩
    · exact h'
    · exact Or.inr (Or.inl ⟨b, ins₁ ++ ins', rfl, ihn b h⟩)
    · exact Or.inr (Or.inr ⟨hw, ihf h⟩)

/-- A trace of two programs in sequence ends in the first, or it is one of the first to its end and one of the second. -/
theorem trace_bind {f : α → Proc β γ} {q : Proc β γ} (h : Trace weak (p >>= f) ins outs q) :
    (∃ r, Trace weak p ins outs r ∧ (∀ a, r ≠ done a) ∧ q = (r >>= f)) ∨
    ∃ a ins₁ ins₂ outs₁ outs₂, ins = ins₁ ++ ins₂ ∧ outs = outs₁ ++ outs₂ ∧ Trace weak p ins₁ outs₁ (done a) ∧
      Trace weak (f a) ins₂ outs₂ q := by
  induction p generalizing ins outs with
  | done a => exact Or.inr ⟨a, [], ins, [], outs, rfl, rfl, trace_self _, h⟩
  | put b next failed ihn ihf =>
    rw [put_bind] at h
    rcases h with ⟨rfl, rfl, rfl⟩ | ⟨outs₀, rfl, h⟩ | ⟨hw, h⟩
    · exact Or.inl ⟨_, trace_self _, nofun, rfl⟩
    · rcases ihn h with ⟨r, h', hr, rfl⟩ | ⟨a, ins₁, ins₂, outs₁, outs₂, rfl, rfl, h, h'⟩
      · exact Or.inl ⟨r, Or.inr (Or.inl ⟨outs₀, rfl, h'⟩), hr, rfl⟩
      · exact Or.inr ⟨a, ins₁, ins₂, b :: outs₁, outs₂, rfl, rfl, Or.inr (Or.inl ⟨outs₁, rfl, h⟩), h'⟩
    · rcases ihf h with ⟨r, h', hr, rfl⟩ | ⟨a, ins₁, ins₂, outs₁, outs₂, rfl, rfl, h, h'⟩
      · exact Or.inl ⟨r, Or.inr (Or.inr ⟨hw, h'⟩), hr, rfl⟩
      · exact Or.inr ⟨a, ins₁, ins₂, outs₁, outs₂, rfl, rfl, Or.inr (Or.inr ⟨hw, h⟩), h'⟩
  | get waits next failed ihn ihf =>
    rw [get_bind] at h
    rcases h with ⟨rfl, rfl, rfl⟩ | ⟨b, ins₀, rfl, h⟩ | ⟨hw, h⟩
    · exact Or.inl ⟨_, trace_self _, nofun, rfl⟩
    · rcases ihn b h with ⟨r, h', hr, rfl⟩ | ⟨a, ins₁, ins₂, outs₁, outs₂, rfl, rfl, h, h'⟩
      · exact Or.inl ⟨r, Or.inr (Or.inl ⟨b, ins₀, rfl, h'⟩), hr, rfl⟩
      · exact Or.inr ⟨a, b :: ins₁, ins₂, outs₁, outs₂, rfl, rfl, Or.inr (Or.inl ⟨b, ins₁, rfl, h⟩), h'⟩
    · rcases ihf h with ⟨r, h', hr, rfl⟩ | ⟨a, ins₁, ins₂, outs₁, outs₂, rfl, rfl, h, h'⟩
      · exact Or.inl ⟨r, Or.inr (Or.inr ⟨hw, h'⟩), hr, rfl⟩
      · exact Or.inr ⟨a, ins₁, ins₂, outs₁, outs₂, rfl, rfl, Or.inr (Or.inr ⟨hw, h⟩), h'⟩

/-- A trace to the end of two programs in sequence. -/
theorem trace_bind_done {f : α → Proc β γ} {c : γ} (h : Trace weak (p >>= f) ins outs (done c)) :
    ∃ a ins₁ ins₂ outs₁ outs₂, ins = ins₁ ++ ins₂ ∧ outs = outs₁ ++ outs₂ ∧ Trace weak p ins₁ outs₁ (done a) ∧
      Trace weak (f a) ins₂ outs₂ (done c) := by
  induction p generalizing ins outs with
  | done a => exact ⟨a, [], ins, [], outs, rfl, rfl, trace_self _, h⟩
  | put b next failed ihn ihf =>
    rw [put_bind] at h
    rcases h with ⟨_, _, h⟩ | ⟨outs₀, rfl, h⟩ | ⟨hw, h⟩
    · nomatch h
    · obtain ⟨a, ins₁, ins₂, outs₁, outs₂, rfl, rfl, h, h'⟩ := ihn h
      exact ⟨a, ins₁, ins₂, b :: outs₁, outs₂, rfl, rfl, Or.inr (Or.inl ⟨outs₁, rfl, h⟩), h'⟩
    · obtain ⟨a, ins₁, ins₂, outs₁, outs₂, rfl, rfl, h, h'⟩ := ihf h
      exact ⟨a, ins₁, ins₂, outs₁, outs₂, rfl, rfl, Or.inr (Or.inr ⟨hw, h⟩), h'⟩
  | get waits next failed ihn ihf =>
    rw [get_bind] at h
    rcases h with ⟨_, _, h⟩ | ⟨b, ins₀, rfl, h⟩ | ⟨hw, h⟩
    · nomatch h
    · obtain ⟨a, ins₁, ins₂, outs₁, outs₂, rfl, rfl, h, h'⟩ := ihn b h
      exact ⟨a, b :: ins₁, ins₂, outs₁, outs₂, rfl, rfl, Or.inr (Or.inl ⟨b, ins₁, rfl, h⟩), h'⟩
    · obtain ⟨a, ins₁, ins₂, outs₁, outs₂, rfl, rfl, h, h'⟩ := ihf h
      exact ⟨a, ins₁, ins₂, outs₁, outs₂, rfl, rfl, Or.inr (Or.inr ⟨hw, h⟩), h'⟩

/-- A write that has not ended has bytes left, and is at the next one. -/
theorem trace_putAll {bs : List β} {size : Nat} {q : Proc β Nat} (h : Trace weak (putAll bs size) ins outs q)
    (hq : ∀ n, q ≠ done n) :
    ins = [] ∧ outs <+: bs ∧ outs.length < bs.length ∧ ∃ b next failed, q = put b next failed := by
  induction bs generalizing size outs with
  | nil => exact absurd h.2.2 (hq size)
  | cons b bs ih =>
    rcases h with ⟨rfl, rfl, rfl⟩ | ⟨outs', rfl, h⟩ | ⟨_, h⟩
    · exact ⟨rfl, List.nil_prefix, Nat.succ_pos _, b, _, _, rfl⟩
    · obtain ⟨rfl, hp, hlt, hput⟩ := ih h
      exact ⟨rfl, List.cons_prefix_cons.2 ⟨rfl, hp⟩, Nat.succ_lt_succ hlt, hput⟩
    · exact absurd h.2.2 (hq size)

/-- The bytes that have gone when `putAll` ends. -/
theorem trace_putAll_done {bs : List β} {size n : Nat} (h : Trace weak (putAll bs size) ins outs (done n)) :
    ins = [] ∧ outs <+: bs ∧ n = size + outs.length ∧ (weak.put = false → outs = bs) := by
  induction bs generalizing size outs with
  | nil =>
    obtain ⟨rfl, rfl, h⟩ := h
    cases h
    exact ⟨rfl, List.prefix_refl _, rfl, fun _ => rfl⟩
  | cons b bs ih =>
    rcases h with ⟨_, _, h⟩ | ⟨outs', rfl, h⟩ | ⟨hw, h⟩
    · nomatch h
    · obtain ⟨rfl, hp, rfl, hall⟩ := ih h
      refine ⟨rfl, List.cons_prefix_cons.2 ⟨rfl, hp⟩, ?_, fun hw => by rw [hall hw]⟩
      rw [List.length_cons]
      omega
    · obtain ⟨rfl, rfl, hq⟩ := h
      cases hq
      exact ⟨rfl, List.nil_prefix, rfl, fun hw' => by rw [hw] at hw'; nomatch hw'⟩

/-- A read that has not ended has bytes to come, and it waits. -/
theorem trace_getAll {n : Nat} {acc : List β} {q : Proc β (List β)} (h : Trace weak (getAll n acc) ins outs q)
    (hq : ∀ bs, q ≠ done bs) : outs = [] ∧ ins.length < n := by
  induction n generalizing acc ins with
  | zero => exact absurd h.2.2 (hq acc)
  | succ n ih =>
    rcases h with ⟨rfl, rfl, _⟩ | ⟨b, ins', rfl, h⟩ | ⟨_, h⟩
    · exact ⟨rfl, Nat.succ_pos n⟩
    · exact ⟨(ih h).1, Nat.succ_lt_succ (ih h).2⟩
    · exact absurd h.2.2 (hq acc)

/-- The bytes that have come when `getAll` ends: all of them when it cannot fail. -/
theorem trace_getAll_done {n : Nat} {acc bs : List β} (h : Trace weak (getAll n acc) ins outs (done bs)) :
    outs = [] ∧ bs = acc ++ ins ∧ ins.length ≤ n ∧ (weak.wait = false → ins.length = n) := by
  induction n generalizing acc ins with
  | zero =>
    obtain ⟨rfl, rfl, h⟩ := h
    cases h
    exact ⟨rfl, by simp, Nat.le_refl _, fun _ => rfl⟩
  | succ n ih =>
    rcases h with ⟨_, _, h⟩ | ⟨b, ins', rfl, h⟩ | ⟨hw, h⟩
    · nomatch h
    · obtain ⟨rfl, rfl, hn, hall⟩ := ih h
      exact ⟨rfl, by simp, Nat.succ_le_succ hn, fun hw => congrArg Nat.succ (hall hw)⟩
    · obtain ⟨rfl, rfl, hq⟩ := h
      cases hq
      refine ⟨rfl, by simp, Nat.zero_le _, ?_⟩
      intro hw'
      rw [hw'] at hw
      nomatch hw

/-- Without a failure the program reads `ins`, writes `outs` and ends. -/
def Eval : Proc β α → List β → List β → α → Prop
  | done a, ins, outs, b => ins = [] ∧ outs = [] ∧ a = b
  | put c next _, ins, outs, b => ∃ outs', outs = c :: outs' ∧ Eval next ins outs' b
  | get _ next _, ins, outs, b => ∃ c ins', ins = c :: ins' ∧ Eval (next c) ins' outs b

theorem eval_done (a : α) : Eval (done a : Proc β α) [] [] a := ⟨rfl, rfl, rfl⟩

theorem Eval.bind {f : α → Proc β γ} {a : α} {c : γ} (h : Eval p ins outs a) (h' : Eval (f a) ins' outs' c) :
    Eval (p >>= f) (ins ++ ins') (outs ++ outs') c := by
  induction p generalizing ins outs with
  | done b =>
    obtain ⟨rfl, rfl, rfl⟩ := h
    exact h'
  | put b next failed ihn _ =>
    obtain ⟨outs₁, rfl, h⟩ := h
    exact ⟨outs₁ ++ outs', rfl, ihn h⟩
  | get waits next failed ihn _ =>
    obtain ⟨b, ins₁, rfl, h⟩ := h
    exact ⟨b, ins₁ ++ ins', rfl, ihn b h⟩

/-- A run without a failure is a trace. -/
theorem Eval.trace {a : α} (h : Eval p ins outs a) : Trace weak p ins outs (done a) := by
  induction p generalizing ins outs with
  | done b =>
    obtain ⟨rfl, rfl, rfl⟩ := h
    exact ⟨rfl, rfl, rfl⟩
  | put b next failed ihn _ =>
    obtain ⟨outs₁, rfl, h⟩ := h
    exact Or.inr (Or.inl ⟨outs₁, rfl, ihn h⟩)
  | get waits next failed ihn _ =>
    obtain ⟨b, ins₁, rfl, h⟩ := h
    exact Or.inr (Or.inl ⟨b, ins₁, rfl, ihn b h⟩)

theorem eval_putAll (bs : List β) (size : Nat) : Eval (putAll bs size) [] bs (size + bs.length) := by
  induction bs generalizing size with
  | nil => exact ⟨rfl, rfl, rfl⟩
  | cons b bs ih =>
    have h := ih (size + 1)
    rw [Nat.add_right_comm] at h
    exact ⟨bs, rfl, h⟩

theorem eval_getAll (bs acc : List β) : Eval (getAll bs.length acc) bs [] (acc ++ bs) := by
  induction bs generalizing acc with
  | nil => exact ⟨rfl, rfl, by rw [List.append_nil]⟩
  | cons b bs ih =>
    have h := ih (acc ++ [b])
    rw [List.append_assoc, List.singleton_append] at h
    exact ⟨b, bs, rfl, h⟩

/-- The program writes at most `n` bytes. -/
def AtMost : Nat → Proc β α → Prop
  | _, done _ => True
  | 0, put _ _ _ => False
  | n + 1, put _ next failed => AtMost n next ∧ AtMost (n + 1) failed
  | n, get _ next failed => (∀ b, AtMost n (next b)) ∧ AtMost n failed

theorem AtMost.mono {m n : Nat} (h : AtMost m p) (hle : m ≤ n) : AtMost n p := by
  induction p generalizing m n with
  | done a => cases n <;> trivial
  | put b next failed ihn ihf =>
    obtain _ | m := m
    · exact h.elim
    · obtain ⟨n, rfl⟩ : ∃ k, n = k + 1 := ⟨n - 1, by omega⟩
      exact ⟨ihn h.1 (by omega), ihf h.2 hle⟩
  | get waits next failed ihn ihf =>
    cases m <;> cases n <;> exact ⟨fun b => ihn b (h.1 b) hle, ihf h.2 hle⟩

theorem AtMost.bind {f : α → Proc β γ} {m n : Nat} (h : AtMost m p) (hf : ∀ a, AtMost n (f a)) : AtMost (m + n) (p >>= f) := by
  induction p generalizing m with
  | done a => exact (hf a).mono (Nat.le_add_left n m)
  | put b next failed ihn ihf =>
    obtain _ | m := m
    · exact h.elim
    · rw [put_bind, Nat.add_right_comm]
      refine ⟨ihn h.1, ?_⟩
      rw [Nat.add_right_comm]
      exact ihf h.2
  | get waits next failed ihn ihf =>
    have h' : (∀ b, AtMost m (next b)) ∧ AtMost m failed := by cases m <;> exact h
    rw [get_bind]
    have key : (∀ b, AtMost (m + n) (next b >>= f)) ∧ AtMost (m + n) (failed >>= f) :=
      ⟨fun b => ihn b (h'.1 b), ihf h'.2⟩
    generalize m + n = k at key
    cases k <;> exact key

theorem atMost_putAll (bs : List β) (size : Nat) : AtMost bs.length (putAll bs size) := by
  induction bs generalizing size with
  | nil => trivial
  | cons b bs ih => exact ⟨ih (size + 1), trivial⟩

theorem atMost_getAll (n : Nat) (acc : List β) : AtMost 0 (getAll n acc) := by
  induction n generalizing acc with
  | zero => trivial
  | succ n ih => exact ⟨fun b => ih _, trivial⟩

theorem AtMost.length_le {n : Nat} (h : AtMost n p) (ht : Trace weak p ins outs q) : outs.length ≤ n := by
  induction p generalizing n ins outs with
  | done a =>
    rw [ht.2.1]
    exact Nat.zero_le _
  | put b next failed ihn ihf =>
    obtain _ | n := n
    · exact h.elim
    · rcases ht with ⟨_, rfl, _⟩ | ⟨outs', rfl, ht⟩ | ⟨_, ht⟩
      · exact Nat.zero_le _
      · exact Nat.succ_le_succ (ihn h.1 ht)
      · exact ihf h.2 ht
  | get waits next failed ihn ihf =>
    have h' : (∀ b, AtMost n (next b)) ∧ AtMost n failed := by cases n <;> exact h
    rcases ht with ⟨_, rfl, _⟩ | ⟨b, ins', rfl, ht⟩ | ⟨_, ht⟩
    · exact Nat.zero_le _
    · exact ihn b (h'.1 b) ht
    · exact ihf h'.2 ht

end Trace

end Proc

/-! ## Two programs -/

open Proc

/-- Two programs, with the stream from the left one to the right one and the stream back. -/
structure Net (β α₁ α₂ : Type) where
  left : Proc β α₁
  right : Proc β α₂
  forth : List β
  back : List β

/-- The programs seen from the other end. -/
def Net.swap (s : Net β α₁ α₂) : Net β α₂ α₁ := ⟨s.right, s.left, s.back, s.forth⟩

/-- A move of the left program that does not fail. -/
def moveLeft (s : Net β α₁ α₂) : Option (Net β α₁ α₂) :=
  match s.left with
  | .done _ => none
  | .put b next _ => some { s with left := next, forth := s.forth ++ [b] }
  | .get _ next _ =>
    match s.back with
    | b :: back => some { s with left := next b, back }
    | [] => none

/-- A write or read of the left program fails. -/
def failLeft (s : Net β α₁ α₂) : Option (Net β α₁ α₂) :=
  match s.left with
  | .done _ => none
  | .put _ _ failed => some { s with left := failed }
  | .get _ _ failed => some { s with left := failed }

inductive End where
  | left
  | right
  deriving DecidableEq, Repr

/-- A program moves, or it fails. -/
inductive Event where
  | go (e : End)
  | fail (e : End)
  deriving DecidableEq, Repr

/-- A move without a failure. -/
def advance (s : Net β α₁ α₂) : End → Option (Net β α₁ α₂)
  | .left => moveLeft s
  | .right => (moveLeft s.swap).map Net.swap

/-- A move or a failure. -/
def step (s : Net β α₁ α₂) : Event → Option (Net β α₁ α₂)
  | .go e => advance s e
  | .fail .left => failLeft s
  | .fail .right => (failLeft s.swap).map Net.swap

/-! ## Runs with failures -/

section Failures

variable {s t : Net β α₁ α₂}

/-- The program has ended with a result that satisfies `ok`. -/
def Proc.isDone (ok : α → Bool) : Proc β α → Bool
  | done a => ok a
  | _ => false

/-- A program fails only where it may. -/
def Allowed (weakLeft weakRight : Faults) (s : Net β α₁ α₂) : Event → Prop
  | .go _ => True
  | .fail .left => s.left.mayFail weakLeft = true
  | .fail .right => s.right.mayFail weakRight = true

instance decidableAllowed (weakLeft weakRight : Faults) (s : Net β α₁ α₂) : ∀ e, Decidable (Allowed weakLeft weakRight s e)
  | .go _ => inferInstanceAs (Decidable True)
  | .fail .left => inferInstanceAs (Decidable (_ = _))
  | .fail .right => inferInstanceAs (Decidable (_ = _))

/-- What a move or a failure of the left program changes. -/
structure LeftMoves (weak : Faults) (n : Nat) (s t : Net β α₁ α₂) : Prop where
  right : t.right = s.right
  moves : ∃ ins outs, Trace weak s.left ins outs t.left ∧ s.back = ins ++ t.back ∧ t.forth = s.forth ++ outs ∧
    ins.length + outs.length = n

/-- The bytes that go or come with an event. -/
def Event.bytes : Event → Nat
  | .go _ => 1
  | .fail _ => 0

theorem leftMoves_moveLeft {weak : Faults} (h : moveLeft s = some t) : LeftMoves weak 1 s t := by
  unfold moveLeft at h
  split at h
  · nomatch h
  · rename_i b next failed hl
    cases h
    refine ⟨rfl, [], [b], ?_, rfl, rfl, rfl⟩
    rw [hl]
    exact Or.inr (Or.inl ⟨[], rfl, trace_self _⟩)
  · rename_i next failed hl
    split at h
    · rename_i b back hb
      cases h
      refine ⟨rfl, [b], [], ?_, hb, by simp, rfl⟩
      rw [hl]
      exact Or.inr (Or.inl ⟨b, [], rfl, trace_self _⟩)
    · nomatch h

theorem leftMoves_failLeft {weak : Faults} (hok : s.left.mayFail weak = true) (h : failLeft s = some t) :
    LeftMoves weak 0 s t := by
  unfold failLeft at h
  split at h
  · nomatch h
  · rename_i b next failed hl
    cases h
    refine ⟨rfl, [], [], ?_, rfl, by simp, rfl⟩
    rw [hl] at hok ⊢
    exact Or.inr (Or.inr ⟨hok, trace_self _⟩)
  · rename_i next failed hl
    cases h
    refine ⟨rfl, [], [], ?_, rfl, by simp, rfl⟩
    rw [hl] at hok ⊢
    exact Or.inr (Or.inr ⟨hok, trace_self _⟩)

/-- A step moves one of the two ends. -/
theorem step_moves {weakLeft weakRight : Faults} {e : Event} (hok : Allowed weakLeft weakRight s e) (h : step s e = some t) :
    LeftMoves weakLeft e.bytes s t ∨ LeftMoves weakRight e.bytes s.swap t.swap := by
  rcases e with (_ | _) | (_ | _)
  · exact Or.inl (leftMoves_moveLeft h)
  · obtain ⟨u, hu, rfl⟩ := Option.map_eq_some_iff.1 h
    exact Or.inr (leftMoves_moveLeft hu)
  · exact Or.inl (leftMoves_failLeft hok h)
  · obtain ⟨u, hu, rfl⟩ := Option.map_eq_some_iff.1 h
    exact Or.inr (leftMoves_failLeft hok hu)

/-- In a run from empty streams every program has done a trace of its own, and what it has read is the beginning of what the
other has written; the rest is in the stream. -/
theorem exec_traces {weakLeft weakRight : Faults} {p : Proc β α₁} {q : Proc β α₂} {es : List Event}
    (hm : Meets step (Allowed weakLeft weakRight) ⟨p, q, [], []⟩ es) (hx : exec step ⟨p, q, [], []⟩ es = some s) :
    ∃ insLeft outsLeft insRight outsRight,
      Trace weakLeft p insLeft outsLeft s.left ∧ Trace weakRight q insRight outsRight s.right ∧
      outsLeft = insRight ++ s.forth ∧ outsRight = insLeft ++ s.back := by
  refine exec_invariant (fun s => ∃ insLeft outsLeft insRight outsRight,
    Trace weakLeft p insLeft outsLeft s.left ∧ Trace weakRight q insRight outsRight s.right ∧
    outsLeft = insRight ++ s.forth ∧ outsRight = insLeft ++ s.back) ?_ ?_ hm hx
  · rintro s e t ⟨il, ol, ir, or, hl, hr, hol, hor⟩ hok hs
    rcases step_moves hok hs with ⟨hright, ins, outs, htr, hback, hforth, _⟩ | ⟨hleft, ins, outs, htr, hforth, hback, _⟩
    · refine ⟨il ++ ins, ol ++ outs, ir, or, hl.append htr, ?_, ?_, ?_⟩
      · rw [hright]
        exact hr
      · rw [hol, hforth, List.append_assoc]
      · rw [hor, hback, List.append_assoc]
    · change t.left = s.left at hleft
      change s.forth = ins ++ t.forth at hforth
      change t.back = s.back ++ outs at hback
      refine ⟨il, ol, ir ++ ins, or ++ outs, ?_, hr.append htr, ?_, ?_⟩
      · rw [hleft]
        exact hl
      · rw [hol, hforth, List.append_assoc]
      · rw [hor, hback, List.append_assoc]
  · exact ⟨[], [], [], [], trace_self _, trace_self _, rfl, rfl⟩

end Failures

/-! ## Runs without failures -/

section Order

variable {σ : Type} {move : σ → End → Option σ}

/-- A state that no end can leave. -/
def Stuck (move : σ → End → Option σ) (s : σ) : Prop := ∀ e, move s e = none

/-- When the moves of the two ends commute, a move leads no further away from the end of a run. -/
theorem exec_of_move (hcomm : ∀ s s₁ s₂, move s .left = some s₁ → move s .right = some s₂ →
      ∃ t, move s₁ .right = some t ∧ move s₂ .left = some t)
    {s s₁ t : σ} {e : End} {es : List End} (hs : move s e = some s₁) (hx : exec move s es = some t) (ht : Stuck move t) :
    ∃ fs, exec move s₁ fs = some t ∧ fs.length + 1 = es.length := by
  have hcomm' : ∀ s a b s₁ s₂, a ≠ b → move s a = some s₁ → move s b = some s₂ →
      ∃ t, move s₁ b = some t ∧ move s₂ a = some t := by
    intro s a b s₁ s₂ hne ha hb
    cases a <;> cases b
    · exact absurd rfl hne
    · exact hcomm s s₁ s₂ ha hb
    · obtain ⟨t, h₁, h₂⟩ := hcomm s s₂ s₁ hb ha
      exact ⟨t, h₂, h₁⟩
    · exact absurd rfl hne
  induction es generalizing s s₁ with
  | nil =>
    cases hx
    rw [ht e] at hs
    nomatch hs
  | cons f es ih =>
    obtain ⟨s₂, hs₂, hx⟩ := exec_cons_eq_some.1 hx
    by_cases he : e = f
    · subst he
      rw [hs, Option.some.injEq] at hs₂
      subst hs₂
      exact ⟨es, hx, rfl⟩
    · obtain ⟨u, hu₁, hu₂⟩ := hcomm' s e f s₁ s₂ he hs hs₂
      obtain ⟨fs, hfs, hlen⟩ := ih hu₂ hx
      exact ⟨f :: fs, exec_cons_eq_some.2 ⟨u, hu₁, hfs⟩, by rw [List.length_cons, List.length_cons, hlen]⟩

/-- When the moves of the two ends commute and some run ends in a state that neither can leave, every run leads to it, in as
many moves. -/
theorem exec_converges (hcomm : ∀ s s₁ s₂, move s .left = some s₁ → move s .right = some s₂ →
      ∃ t, move s₁ .right = some t ∧ move s₂ .left = some t)
    {s t u : σ} {es fs : List End} (hx : exec move s es = some t) (ht : Stuck move t) (hu : exec move s fs = some u) :
    ∃ gs, exec move u gs = some t ∧ fs.length + gs.length = es.length := by
  induction fs generalizing s es with
  | nil =>
    cases hu
    exact ⟨es, hx, Nat.zero_add _⟩
  | cons f fs ih =>
    obtain ⟨s₁, hs, hu⟩ := exec_cons_eq_some.1 hu
    obtain ⟨es', hx', hlen⟩ := exec_of_move hcomm hs hx ht
    obtain ⟨gs, hgs, hlen'⟩ := ih hx' hu
    exact ⟨gs, hgs, by rw [List.length_cons]; omega⟩

end Order

section Advance

variable {s t : Net β α₁ α₂}

/-- The moves of the two ends commute. -/
theorem advance_comm (s s₁ s₂ : Net β α₁ α₂) (h₁ : advance s .left = some s₁) (h₂ : advance s .right = some s₂) :
    ∃ t, advance s₁ .right = some t ∧ advance s₂ .left = some t := by
  obtain ⟨l, r, forth, back⟩ := s
  cases l with
  | done a => nomatch h₁
  | put b nextL failedL =>
    cases h₁
    cases r with
    | done a => nomatch h₂
    | put b' nextR failedR =>
      cases h₂
      exact ⟨_, rfl, rfl⟩
    | get waitsR nextR failedR =>
      cases forth with
      | nil => nomatch h₂
      | cons b' forth =>
        cases h₂
        exact ⟨_, rfl, rfl⟩
  | get waitsL nextL failedL =>
    cases r with
    | done a => nomatch h₂
    | put b' nextR failedR =>
      cases h₂
      cases back with
      | nil => nomatch h₁
      | cons b back =>
        cases h₁
        exact ⟨_, rfl, rfl⟩
    | get waitsR nextR failedR =>
      cases back with
      | nil => nomatch h₁
      | cons b back =>
        cases h₁
        cases forth with
        | nil => nomatch h₂
        | cons b' forth =>
          cases h₂
          exact ⟨_, rfl, rfl⟩

/-- A run without failures that ends where neither program can move has the end and the length of every other one. -/
theorem advance_converges {u : Net β α₁ α₂} {es fs : List End} (hx : exec advance s es = some t)
    (ht : Stuck advance t) (hu : exec advance s fs = some u) :
    ∃ gs, exec advance u gs = some t ∧ fs.length + gs.length = es.length :=
  exec_converges advance_comm hx ht hu

/-- Two programs that have ended cannot move. -/
theorem stuck_done (a : α₁) (b : α₂) (forth back : List β) :
    Stuck advance (⟨.done a, .done b, forth, back⟩ : Net β α₁ α₂) := by
  intro e
  cases e <;> rfl

/-! What a program does alone without a failure is a run of its end. -/

theorem reaches_left {p : Proc β γ} {ins outs : List β} {a : γ} (h : Eval p ins outs a) (f : γ → Proc β α₁) (r : Proc β α₂)
    (forth back : List β) :
    Reaches advance (⟨p >>= f, r, forth, ins ++ back⟩ : Net β α₁ α₂) ⟨f a, r, forth ++ outs, back⟩ := by
  induction p generalizing ins outs forth with
  | done b =>
    obtain ⟨rfl, rfl, rfl⟩ := h
    rw [List.append_nil]
    exact Reaches.refl _
  | put b next failed ihn _ =>
    obtain ⟨outs', rfl, h⟩ := h
    have hn := ihn h (forth ++ [b])
    rw [List.append_assoc, List.singleton_append] at hn
    exact (Reaches.single (e := End.left) rfl).trans hn
  | get waits next failed ihn _ =>
    obtain ⟨b, ins', rfl, h⟩ := h
    exact (Reaches.single (e := End.left) rfl).trans (ihn b h forth)

theorem reaches_right {p : Proc β γ} {ins outs : List β} {a : γ} (h : Eval p ins outs a) (f : γ → Proc β α₂) (l : Proc β α₁)
    (forth back : List β) :
    Reaches advance (⟨l, p >>= f, ins ++ forth, back⟩ : Net β α₁ α₂) ⟨l, f a, forth, back ++ outs⟩ := by
  induction p generalizing ins outs back with
  | done b =>
    obtain ⟨rfl, rfl, rfl⟩ := h
    rw [List.append_nil]
    exact Reaches.refl _
  | put b next failed ihn _ =>
    obtain ⟨outs', rfl, h⟩ := h
    have hn := ihn h (back ++ [b])
    rw [List.append_assoc, List.singleton_append] at hn
    exact (Reaches.single (e := End.right) rfl).trans hn
  | get waits next failed ihn _ =>
    obtain ⟨b, ins', rfl, h⟩ := h
    exact (Reaches.single (e := End.right) rfl).trans (ihn b h back)

/-- A program that ends at the left. -/
theorem reaches_left_done {p : Proc β α₁} {ins outs : List β} {a : α₁} (h : Eval p ins outs a) (r : Proc β α₂)
    (forth back : List β) :
    Reaches advance (⟨p, r, forth, ins ++ back⟩ : Net β α₁ α₂) ⟨.done a, r, forth ++ outs, back⟩ := by
  have := reaches_left h .done r forth back
  rwa [bind_done] at this

/-- A program that ends at the right. -/
theorem reaches_right_done {p : Proc β α₂} {ins outs : List β} {a : α₂} (h : Eval p ins outs a) (l : Proc β α₁)
    (forth back : List β) :
    Reaches advance (⟨l, p, ins ++ forth, back⟩ : Net β α₁ α₂) ⟨l, .done a, forth, back ++ outs⟩ := by
  have := reaches_right h .done l forth back
  rwa [bind_done] at this

end Advance

end Duplex
