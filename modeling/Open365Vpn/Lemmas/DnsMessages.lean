import Open365Vpn.Lemmas.MappedDns

/-!
# The messages of the mapped DNS

What the loops of `handle` do to a message: they never leave it, whatever its bytes are, and the names they pass to `find` are
those of `asked`, which reads the message alone.
-/

namespace Open365Vpn

namespace HevMappedDns

/-! ## Reading -/

/-- The loop over the labels ends inside the message: it rejects it, or it stops at a zero, and the bytes from there on are as
before. -/
theorem readName_spec (fuel : Nat) (rb : List Octet) (off : Nat) (hoff : off < rb.length) (hf : rb.length - off ≤ fuel) :
    readName fuel rb off = .rejected ∨
    ∃ rb' stop, readName fuel rb off = .done (rb', stop) ∧ off ≤ stop ∧ stop < rb.length ∧ rb'.length = rb.length ∧
      rb'[stop]? = some 0 ∧ ∀ i, stop ≤ i → rb'[i]? = rb[i]? := by
  induction fuel generalizing rb off with
  | zero => omega
  | succ fuel ih =>
    rw [readName, List.getElem?_eq_getElem hoff]
    dsimp only
    split
    · rename_i hz
      refine Or.inr ⟨rb, off, rfl, Nat.le_refl _, hoff, rfl, ?_, fun _ _ => rfl⟩
      rw [List.getElem?_eq_getElem hoff, hz]
    split
    · exact Or.inl rfl
    · rename_i hlt
      have hlen : (rb.set off 46).length = rb.length := List.length_set
      rcases ih (rb.set off 46) (off + (1 + rb[off].val)) (by omega) (by omega) with h | h
      · exact Or.inl h
      · obtain ⟨rb', stop, hd, hle, hst, hl, hz, hsame⟩ := h
        refine Or.inr ⟨rb', stop, hd, by omega, by omega, hl.trans hlen, hz, ?_⟩
        intro i hi
        rw [hsame i hi, List.getElem?_set_ne (by omega)]

/-- The names that `handle` passes to `find`. -/
def asked : Nat → List Octet → Nat → List (List Octet)
  | 0, _, _ => []
  | qd + 1, rb, off =>
    if off ≥ rb.length then []
    else
      match readName rb.length rb off with
      | .fault | .rejected => []
      | .done (rb, stop) =>
        if stop + 1 + 3 ≥ rb.length then []
        else if readU16 rb (stop + 1) = some 1 ∧ readU16 rb (stop + 3) = some 1 then
          (cString rb (off + 1)).toList ++ asked qd rb (stop + 5)
        else asked qd rb (stop + 5)

/-- A name of a question is a C string that ends inside the message. Behind the name of the root the type is read as the end. -/
theorem cString_isSome {rb : List Octet} {off stop : Nat} (hle : off ≤ stop) (hz : rb[stop]? = some 0)
    (ht : readU16 rb (stop + 1) = some 1) : ∃ name, cString rb (off + 1) = some name := by
  unfold cString
  have hmem : (0 : Octet) ∈ rb.drop (off + 1) := by
    rcases Nat.eq_or_lt_of_le hle with rfl | hlt
    · unfold readU16 at ht
      obtain ⟨a, ha, ht⟩ := Option.bind_eq_some_iff.1 ht
      obtain ⟨b, _, ht⟩ := Option.map_eq_some_iff.1 ht
      have ha0 : a = 0 := by
        apply Fin.ext
        change a.val = 0
        omega
      rw [ha0] at ha
      refine List.mem_of_getElem? (i := 0) ?_
      rw [List.getElem?_drop]
      exact ha
    · refine List.mem_of_getElem? (i := stop - (off + 1)) ?_
      rw [List.getElem?_drop, show off + 1 + (stop - (off + 1)) = stop by omega]
      exact hz
  rw [if_pos hmem]
  exact ⟨_, rfl⟩

/-- The loop over at most as many questions as there are places never faults, and it is a run of touches of the names asked for, in
order. -/
theorem readQuestions_spec {d : HevMappedDns} (hi : d.Inv) (qd : Nat) (rb : List Octet) (off : Nat) (answers : List Answer)
    (hroom : answers.length + qd ≤ ipPlaces) :
    TouchRun d (asked qd rb off) (d.readQuestions qd rb off answers).1 ∧
    (d.readQuestions qd rb off answers).2 ≠ .fault := by
  induction qd generalizing d rb off answers with
  | zero => exact ⟨.nil d, by simp [readQuestions]⟩
  | succ qd ih =>
    have hfree : ¬answers.length ≥ ipPlaces := by omega
    rw [readQuestions, asked, if_neg hfree]
    split
    · exact ⟨.nil d, by simp⟩
    · rename_i hoff
      rcases readName_spec rb.length rb off (by omega) (Nat.sub_le _ _) with h | h
      · rw [h]
        exact ⟨.nil d, by simp⟩
      · obtain ⟨rb', stop, hd, hle, _, hl, hz, _⟩ := h
        rw [hd]
        dsimp only
        split
        · exact ⟨.nil d, by simp⟩
        split
        · rename_i ht
          obtain ⟨name, hname⟩ := cString_isSome hle hz ht.1
          obtain ⟨d', idx, hf, htouch⟩ := find_spec hi name
          rw [hname, Option.bind_some, hf]
          obtain ⟨hrun, hok⟩ := ih htouch.inv rb' (stop + 5) (answers ++ [⟨off, idx⟩])
            (by rw [List.length_append, List.length_singleton]; omega)
          exact ⟨.cons htouch hrun, hok⟩
        · exact ih hi rb' (stop + 5) answers (by omega)

/-! ## Writing -/

theorem store_isSome {p bs : List Octet} {off : Nat} (h : off + bs.length ≤ p.length) :
    store p off bs = some (p.take off ++ bs ++ p.drop (off + bs.length)) := by
  unfold store
  rw [if_pos h]

/-- Bytes in the middle are replaced. -/
theorem store_middle {a b c : List Octet} {b' : List Octet} (h : b'.length = b.length) :
    store (a ++ b ++ c) a.length b' = some (a ++ b' ++ c) := by
  rw [store_isSome (by simp; omega), Option.some.injEq, h]
  congr 1
  · rw [List.append_assoc, List.take_left]
  · rw [List.drop_left' (by simp)]

@[simp] theorem length_answerBytes (net : BitVec 32) (a : Answer) : (answerBytes net a).length = 16 := rfl

theorem length_answers (net : BitVec 32) (as : List Answer) : (as.flatMap (answerBytes net)).length = 16 * as.length := by
  induction as with
  | nil => rfl
  | cons a as ih =>
    rw [List.flatMap_cons, List.length_append, length_answerBytes, ih, List.length_cons]
    omega

/-- The loop over the answers never faults. -/
theorem writeAnswers_spec (net : BitVec 32) (as : List Answer) (sb : List Octet) (off : Nat) :
    writeAnswers net as sb off = .rejected ∨
    (writeAnswers net as sb off = .done (sb.take off ++ as.flatMap (answerBytes net) ++ sb.drop (off + 16 * as.length),
      off + 16 * as.length) ∧ (as ≠ [] → off + 16 * as.length ≤ sb.length)) := by
  induction as generalizing sb off with
  | nil =>
    right
    simp [writeAnswers]
  | cons a as ih =>
    rw [writeAnswers]
    split
    · exact Or.inl rfl
    · rename_i hlt
      have hle : off + (answerBytes net a).length ≤ sb.length := by
        rw [length_answerBytes]
        omega
      rw [store_isSome hle, length_answerBytes]
      dsimp only
      generalize hsb : sb.take off ++ answerBytes net a ++ sb.drop (off + 16) = sb'
      have hpre : (sb.take off ++ answerBytes net a).length = off + 16 := by
        rw [List.length_append, List.length_take, length_answerBytes]
        omega
      have hlen : sb'.length = sb.length := by
        rw [← hsb, List.length_append, hpre, List.length_drop]
        omega
      rcases ih sb' (off + 16) with h | ⟨h, hroom⟩
      · exact Or.inl h
      · right
        refine ⟨?_, ?_⟩
        · rw [h]
          have htake : sb'.take (off + 16) = sb.take off ++ answerBytes net a := by
            rw [← hsb, List.take_left' hpre]
          have hdrop : sb'.drop (off + 16 + 16 * as.length) = sb.drop (off + 16 * (as.length + 1)) := by
            rw [← hsb, List.drop_append, hpre, List.drop_eq_nil_of_le (by omega), List.nil_append, List.drop_drop]
            congr 1
            omega
          rw [htake, hdrop, List.flatMap_cons, List.length_cons, List.append_assoc (sb.take off)]
          congr 2
          omega
        · intro _
          rw [List.length_cons]
          cases as with
          | nil =>
            simp
            omega
          | cons b bs =>
            have := hroom (by simp)
            rw [hlen] at this
            rw [List.length_cons] at this ⊢
            omega

/-- Answers that fit are written. -/
theorem writeAnswers_ne_rejected (net : BitVec 32) (as : List Answer) (sb : List Octet) (off : Nat)
    (h : off + 16 * as.length ≤ sb.length) : writeAnswers net as sb off ≠ .rejected := by
  induction as generalizing sb off with
  | nil => simp [writeAnswers]
  | cons a as ih =>
    rw [List.length_cons] at h
    rw [writeAnswers, if_neg (by omega), store_isSome (by rw [length_answerBytes]; omega)]
    apply ih
    simp
    omega

/-! ## Questions that are well formed -/

/-- A question: the labels of a name, the type and the class. -/
structure Question where
  labels : List (List Octet)
  qtype : Nat
  qclass : Nat

namespace Question

/-- No label is empty, too long for the byte of its length, or has a zero in it. -/
def Valid (q : Question) : Prop :=
  (∀ l ∈ q.labels, 0 < l.length ∧ l.length < 256 ∧ (0 : Octet) ∉ l) ∧ q.qtype < 65536 ∧ q.qclass < 65536

/-- The question asks for an address of the name. -/
def isA (q : Question) : Bool := q.qtype = 1 ∧ q.qclass = 1

/-- The name with dots between its labels. -/
def name (q : Question) : List Octet := [46].intercalate q.labels

/-- The labels as they are sent, each behind its length. -/
def wire (labels : List (List Octet)) : List Octet := labels.flatMap fun l => octet l.length :: l

/-- The question as it is sent. -/
def encode (q : Question) : List Octet := wire q.labels ++ [0] ++ u16Bytes q.qtype ++ u16Bytes q.qclass

/-- The labels as `readName` leaves them. -/
def dots (labels : List (List Octet)) : List Octet := labels.flatMap fun l => 46 :: l

theorem length_dots (labels : List (List Octet)) : (dots labels).length = (wire labels).length := by
  simp [dots, wire, List.length_flatMap]

theorem length_labels_le (labels : List (List Octet)) : labels.length ≤ (wire labels).length := by
  induction labels with
  | nil => exact Nat.le_refl _
  | cons l labels ih =>
    simp only [wire, List.flatMap_cons, List.length_append, List.length_cons] at ih ⊢
    omega

end Question

open Question

/-- What the loop over the questions finds and answers, from the offset of the first one on. -/
def answersFor (d : HevMappedDns) (off : Nat) : List Question → Option (HevMappedDns × List Answer)
  | [] => some (d, [])
  | q :: qs =>
    if q.isA then
      (d.find q.name).bind fun (d, idx) =>
        (d.answersFor (off + q.encode.length) qs).map fun (d, as) => (d, ⟨off, idx⟩ :: as)
    else d.answersFor (off + q.encode.length) qs

/-- The loop over the labels of a name that is well formed. -/
theorem readName_wire (labels : List (List Octet)) (hl : ∀ l ∈ labels, 0 < l.length ∧ l.length < 256 ∧ (0 : Octet) ∉ l)
    (pre post : List Octet) (fuel : Nat) (hf : labels.length < fuel) :
    readName fuel (pre ++ wire labels ++ 0 :: post) pre.length =
      .done (pre ++ dots labels ++ 0 :: post, pre.length + (wire labels).length) := by
  induction labels generalizing pre fuel with
  | nil =>
    obtain ⟨fuel, rfl⟩ := Nat.exists_eq_add_of_lt hf
    simp [readName, wire, dots]
  | cons l labels ih =>
    obtain ⟨hpos, hlt, _⟩ := hl l List.mem_cons_self
    obtain ⟨fuel, rfl⟩ : ∃ k, fuel = k + 1 := ⟨fuel - 1, by omega⟩
    have hrb : pre ++ wire (l :: labels) ++ 0 :: post = pre ++ octet l.length :: (l ++ wire labels ++ 0 :: post) := by
      simp [wire]
    have hset : (pre ++ octet l.length :: (l ++ wire labels ++ 0 :: post)).set pre.length 46 =
        (pre ++ 46 :: l) ++ wire labels ++ 0 :: post := by
      rw [List.set_append_right _ _ (Nat.le_refl _), Nat.sub_self]
      simp
    have hne : octet l.length ≠ 0 := by
      intro h
      have := congrArg Fin.val h
      rw [octet_val hlt] at this
      change l.length = 0 at this
      omega
    rw [hrb, readName, getElem?_middle]
    dsimp only
    rw [if_neg hne, octet_val hlt, if_neg (by simp; omega), hset]
    have hoff : pre.length + (1 + l.length) = (pre ++ 46 :: l).length := by
      simp
      omega
    rw [hoff, ih (fun l' hl' => hl l' (List.mem_cons_of_mem _ hl')) _ _ (by simpa using hf)]
    simp [wire, dots]
    omega

/-- Labels with dots between them: a dot before each but the first. -/
theorem intercalate_cons (l : List Octet) (labels : List (List Octet)) : [46].intercalate (l :: labels) = l ++ dots labels := by
  induction labels generalizing l with
  | nil => simp [List.intercalate, dots]
  | cons l' labels ih =>
    have h := ih l'
    simp only [List.intercalate, dots, List.flatMap_cons] at h ⊢
    rw [List.intersperse_cons_cons, List.flatten_cons, List.flatten_cons, h]
    simp

theorem not_mem_dots {labels : List (List Octet)} (hl : ∀ l ∈ labels, (0 : Octet) ∉ l) : (0 : Octet) ∉ dots labels := by
  unfold dots
  rw [List.mem_flatMap]
  rintro ⟨l, hm, h0⟩
  rcases List.mem_cons.1 h0 with h0 | h0
  · exact absurd h0 (by decide)
  · exact hl l hm h0

/-- The C string behind the first length is the name. -/
theorem cString_name (q : Question) (hv : q.Valid) (hA : q.isA = true) (pre post : List Octet) :
    cString (pre ++ dots q.labels ++ 0 :: (u16Bytes q.qtype ++ post)) (pre.length + 1) = some q.name := by
  have take_zero : ∀ xs ys : List Octet, (0 : Octet) ∉ xs → (xs ++ 0 :: ys).takeWhile (· ≠ 0) = xs := by
    intro xs ys hx
    have hpos : ∀ a ∈ xs, decide (a ≠ 0) = true := by
      intro a ha
      rw [decide_eq_true_eq]
      rintro rfl
      exact hx ha
    rw [List.takeWhile_append_of_pos hpos]
    simp
  unfold cString Question.name
  cases hl : q.labels with
  | nil =>
    -- behind the root the type is read, and it begins with a zero
    have ht : q.qtype = 1 := by
      simp only [isA, decide_eq_true_eq] at hA
      exact hA.1
    have hdrop : (pre ++ dots [] ++ 0 :: (u16Bytes q.qtype ++ post)).drop (pre.length + 1) = [] ++ 0 :: (1 :: post) := by
      rw [ht, dots, List.flatMap_nil, List.append_nil, List.drop_append, List.drop_eq_nil_of_le (Nat.le_succ _),
        Nat.add_sub_cancel_left]
      rfl
    rw [hdrop, if_pos (by simp), take_zero _ _ (by simp)]
    rfl
  | cons l labels =>
    have hno : (0 : Octet) ∉ l ++ dots labels := by
      have hzero : ∀ l ∈ q.labels, (0 : Octet) ∉ l := fun l hm => (hv.1 l hm).2.2
      rw [hl] at hzero
      rw [List.mem_append, not_or]
      exact ⟨hzero l List.mem_cons_self, not_mem_dots fun l' hm => hzero l' (List.mem_cons_of_mem _ hm)⟩
    have hdrop : (pre ++ dots (l :: labels) ++ 0 :: (u16Bytes q.qtype ++ post)).drop (pre.length + 1) =
        (l ++ dots labels) ++ 0 :: (u16Bytes q.qtype ++ post) := by
      rw [List.append_assoc, List.drop_append, List.drop_eq_nil_of_le (by omega), Nat.add_sub_cancel_left]
      simp [dots]
    rw [hdrop, if_pos (by simp), take_zero _ _ hno, intercalate_cons]

/-- The loop over questions that are well formed reads them to their end and answers those for an address. -/
theorem readQuestions_encode {d : HevMappedDns} (hi : d.Inv) (qs : List Question) (hv : ∀ q ∈ qs, q.Valid)
    (pre rest : List Octet) (answers : List Answer) (hroom : answers.length + qs.length ≤ ipPlaces) :
    ∃ d' as, d.answersFor pre.length qs = some (d', as) ∧
      d.readQuestions qs.length (pre ++ qs.flatMap encode ++ rest) pre.length answers =
        (d', .done (pre.length + (qs.flatMap encode).length, answers ++ as)) := by
  induction qs generalizing d pre answers with
  | nil => exact ⟨d, [], rfl, by simp [readQuestions]⟩
  | cons q qs ih =>
    obtain ⟨hl, ht, hc⟩ := hv q List.mem_cons_self
    have hvs : ∀ q ∈ qs, q.Valid := fun q' hq' => hv q' (List.mem_cons_of_mem _ hq')
    rw [List.length_cons] at hroom
    have hfree : ¬answers.length ≥ ipPlaces := by omega
    -- the message in front of the question, with the dots, is in front of the rest
    generalize hpre' : pre ++ dots q.labels ++ [0] ++ u16Bytes q.qtype ++ u16Bytes q.qclass = pre'
    have hlen : pre'.length = pre.length + q.encode.length := by
      rw [← hpre']
      simp [encode, length_dots]
    have hmsg : pre ++ (q :: qs).flatMap encode ++ rest =
        pre ++ wire q.labels ++ 0 :: (u16Bytes q.qtype ++ u16Bytes q.qclass ++ (qs.flatMap encode ++ rest)) := by
      simp [encode]
    have hdone : pre ++ dots q.labels ++ 0 :: (u16Bytes q.qtype ++ u16Bytes q.qclass ++ (qs.flatMap encode ++ rest)) =
        pre' ++ qs.flatMap encode ++ rest := by
      rw [← hpre']
      simp
    have hstop : pre.length + (wire q.labels).length + 5 = pre'.length := by
      rw [hlen]
      simp [encode, u16Bytes]
      omega
    have hend : pre.length + ((q :: qs).flatMap encode).length = pre'.length + (qs.flatMap encode).length := by
      rw [hlen, List.flatMap_cons, List.length_append]
      omega
    have hfuel : q.labels.length < (pre ++ wire q.labels ++
        0 :: (u16Bytes q.qtype ++ u16Bytes q.qclass ++ (qs.flatMap encode ++ rest))).length := by
      have := length_labels_le q.labels
      simp
      omega
    have htype : readU16 (pre' ++ qs.flatMap encode ++ rest) (pre.length + (wire q.labels).length + 1) = some q.qtype := by
      have h := readU16_bytes ht (pre ++ dots q.labels ++ [0]) (u16Bytes q.qclass ++ (qs.flatMap encode ++ rest))
      rw [← hdone]
      simpa [length_dots, Nat.add_assoc] using h
    have hclass : readU16 (pre' ++ qs.flatMap encode ++ rest) (pre.length + (wire q.labels).length + 3) = some q.qclass := by
      have h := readU16_bytes hc (pre ++ dots q.labels ++ [0] ++ u16Bytes q.qtype) (qs.flatMap encode ++ rest)
      rw [← hdone]
      simpa [length_dots, Nat.add_assoc, u16Bytes] using h
    have hoff : ¬pre.length ≥ (pre ++ wire q.labels ++
        0 :: (u16Bytes q.qtype ++ u16Bytes q.qclass ++ (qs.flatMap encode ++ rest))).length := by
      rw [List.length_append, List.length_append, List.length_cons]
      omega
    rw [List.length_cons, readQuestions, hmsg, if_neg hfree, if_neg hoff, readName_wire q.labels hl _ _ _ hfuel, hdone]
    dsimp only
    rw [if_neg (by rw [List.length_append, List.length_append]; omega), htype, hclass, hstop, hend]
    by_cases hA : q.isA = true
    · have hA' : q.qtype = 1 ∧ q.qclass = 1 := by simpa [isA] using hA
      obtain ⟨d₁, idx, hf, htouch⟩ := find_spec hi q.name
      obtain ⟨d', as, has, hrq⟩ := ih htouch.inv hvs pre' (answers ++ [⟨pre.length, idx⟩])
        (by rw [List.length_append, List.length_singleton]; omega)
      have hname := cString_name q (hv q List.mem_cons_self) hA pre (u16Bytes q.qclass ++ (qs.flatMap encode ++ rest))
      rw [← List.append_assoc (u16Bytes q.qtype), hdone] at hname
      refine ⟨d', ⟨pre.length, idx⟩ :: as, ?_, ?_⟩
      · rw [answersFor, if_pos hA, hf, Option.bind_some, ← hlen]
        dsimp only
        rw [has]
        rfl
      · rw [if_pos ⟨by rw [hA'.1], by rw [hA'.2]⟩, hname, Option.bind_some, hf]
        dsimp only
        rw [hrq, List.append_assoc]
        rfl
    · have hA' : ¬(q.qtype = 1 ∧ q.qclass = 1) := by simpa [isA] using hA
      obtain ⟨d', as, has, hrq⟩ := ih hi hvs pre' answers (by omega)
      refine ⟨d', as, ?_, ?_⟩
      · rw [answersFor, if_neg hA, ← hlen]
        exact has
      · rw [if_neg (by simpa using hA')]
        exact hrq

end HevMappedDns

end Open365Vpn
