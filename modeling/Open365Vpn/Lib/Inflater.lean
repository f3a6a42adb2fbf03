import Mathlib.Data.List.Basic
import Mathlib.Tactic.Basic

/-!
# An inflater

A decompressor that is given its whole input at once and then asked for output, buffer by buffer, as `java.util.zip.Inflater`
is. What the input holds is a list of bytes and the way it ends (`Ending`); from every state something of it is left, and a
call gives the next piece of it, in any split that the buffer allows. A call gives nothing only at the end, where the flags tell
how the input ended; `finished` is set only at the end of a complete stream.
-/

namespace Inflating

variable {ε : Type}

/-- How the input of an inflater ends: with the end of the stream, before it, with the demand for a preset dictionary, or with
bytes that are no stream. -/
inductive Ending (ε : Type) where
  | complete
  | needsInput
  | needsDictionary
  | corrupt (error : ε)
  deriving DecidableEq

/-- An inflater for a buffer of some size, with its contract. -/
structure Inflater (ε : Type) (size : Nat) where
  State : Type
  setInput : List UInt8 → State
  inflate : State → Except ε (List UInt8 × State)
  finished : State → Bool
  needsInput : State → Bool
  needsDictionary : State → Bool
  /-- What is left to be given, and how it ends. -/
  left : State → List UInt8 × Ending ε
  inflate_ok : ∀ {s t bytes}, inflate s = .ok (bytes, t) →
    left s = (bytes ++ (left t).1, (left t).2) ∧ bytes.length ≤ size
  inflate_error : ∀ {s e}, inflate s = .error e → (left s).2 = .corrupt e
  inflate_nothing : ∀ {s t}, inflate s = .ok ([], t) →
    (left t).1 = [] ∧
      ((left t).2 = .complete ∧ finished t = true ∨ (left t).2 = .needsInput ∧ needsInput t = true ∨
        (left t).2 = .needsDictionary ∧ needsDictionary t = true)
  finished_only : ∀ {s}, finished s = true → left s = ([], .complete)

namespace Inflater

variable {size : Nat}

/-- What an input holds. -/
def stream (I : Inflater ε size) (input : List UInt8) : List UInt8 × Ending ε := I.left (I.setInput input)

/-- Calls of `inflate` lead from one state to the other. -/
inductive Calls (I : Inflater ε size) : I.State → I.State → Prop where
  | refl (s : I.State) : Calls I s s
  | next {s t u : I.State} {bytes : List UInt8} (h : I.inflate s = .ok (bytes, t)) (h' : Calls I t u) : Calls I s u

/-- Some number of calls on an input leads to a state that is finished. -/
def Finishes (I : Inflater ε size) (input : List UInt8) : Prop := ∃ t, I.Calls (I.setInput input) t ∧ I.finished t = true

/-- A call does not change how the input ends. -/
theorem Calls.ending {I : Inflater ε size} {s t : I.State} (h : I.Calls s t) : (I.left t).2 = (I.left s).2 := by
  induction h with
  | refl => rfl
  | next hi _ ih => rw [ih, (I.inflate_ok hi).1]

/-- From a state whose input ends with its stream, calls lead to the end. -/
theorem exists_finished (I : Inflater ε size) {s : I.State} (h : (I.left s).2 = .complete) :
    ∃ t, I.Calls s t ∧ I.finished t = true := by
  induction hn : (I.left s).1.length using Nat.strongRecOn generalizing s with
  | ind n ih =>
    cases hi : I.inflate s with
    | error e =>
      rw [I.inflate_error hi] at h
      cases h
    | ok r =>
      obtain ⟨bytes, t⟩ := r
      obtain ⟨hleft, -⟩ := I.inflate_ok hi
      have hend : (I.left t).2 = .complete := by rw [← h, hleft]
      cases bytes with
      | nil =>
        obtain ⟨-, hflags⟩ := I.inflate_nothing hi
        rw [hend] at hflags
        refine ⟨t, .next hi (.refl t), ?_⟩
        rcases hflags with ⟨-, hf⟩ | ⟨he, -⟩ | ⟨he, -⟩
        · exact hf
        · cases he
        · cases he
      | cons b bs =>
        have hlt : (I.left t).1.length < n := by
          rw [← hn, hleft]
          simp only [List.length_append, List.length_cons]
          omega
        obtain ⟨u, hu, hf⟩ := ih _ hlt hend rfl
        exact ⟨u, .next hi hu, hf⟩

/-- An inflater finishes on exactly the inputs that hold a complete stream. -/
theorem finishes_iff (I : Inflater ε size) (input : List UInt8) : I.Finishes input ↔ (I.stream input).2 = .complete := by
  constructor
  · rintro ⟨t, ht, hf⟩
    rw [stream, ← ht.ending, I.finished_only hf]
  · exact I.exists_finished

/-- The inflater of a decompression function, which fills its buffer with every call. -/
def ofDecode (decode : List UInt8 → List UInt8 × Ending ε) (size : Nat) (hsize : 0 < size) : Inflater ε size where
  State := List UInt8 × Ending ε
  setInput := decode
  inflate s :=
    match s with
    | (b :: bs, e) => .ok ((b :: bs).take size, (b :: bs).drop size, e)
    | ([], .corrupt e) => .error e
    | ([], e) => .ok ([], [], e)
  finished s := match s with
    | ([], .complete) => true
    | _ => false
  needsInput s := match s with
    | ([], .needsInput) => true
    | _ => false
  needsDictionary s := match s with
    | ([], .needsDictionary) => true
    | _ => false
  left := id
  inflate_ok := by
    rintro ⟨l, e⟩ ⟨l', e'⟩ bytes h
    cases l with
    | nil => cases e <;> cases h <;> exact ⟨rfl, Nat.zero_le _⟩
    | cons b bs =>
      cases h
      exact ⟨Prod.ext (List.take_append_drop size (b :: bs)).symm rfl, List.length_take_le size (b :: bs)⟩
  inflate_error := by
    rintro ⟨l, e⟩ err h
    cases l with
    | nil =>
      cases e with
      | corrupt e' =>
        cases h
        rfl
      | complete | needsInput | needsDictionary => cases h
    | cons b bs => cases h
  inflate_nothing := by
    rintro ⟨l, e⟩ ⟨l', e'⟩ h
    cases l with
    | nil =>
      cases e with
      | corrupt e' => cases h
      | complete =>
        cases h
        exact ⟨rfl, .inl ⟨rfl, rfl⟩⟩
      | needsInput =>
        cases h
        exact ⟨rfl, .inr (.inl ⟨rfl, rfl⟩)⟩
      | needsDictionary =>
        cases h
        exact ⟨rfl, .inr (.inr ⟨rfl, rfl⟩)⟩
    | cons b bs =>
      obtain ⟨n, rfl⟩ : ∃ n, size = n + 1 := ⟨size - 1, by omega⟩
      simp at h
  finished_only := by
    rintro ⟨l, e⟩ h
    cases l with
    | nil =>
      cases e with
      | complete => rfl
      | needsInput | needsDictionary | corrupt => cases h
    | cons b bs => cases h

end Inflater

end Inflating
