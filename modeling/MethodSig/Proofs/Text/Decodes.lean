import MethodSig.Proofs.Text.Utf8

/-!
# Splitting bytes between characters

Bytes in front of an ASCII character are UTF-8 exactly if they and what follows are, since no
sequence goes on over that character.
-/

namespace MethodSig.Text.Utf8

/-- The bytes stand for these characters. -/
inductive Decodes : List UInt8 → List Char → Prop
  | nil : Decodes [] []
  | cons {b : UInt8} {rest left : List UInt8} {n : ℕ} {chars : List Char}
      (hhead : decodeHead b rest = .ok (n, left)) (hleft : Decodes left chars) :
      Decodes (b :: rest) (Char.ofNat n :: chars)

theorem decodeFrom_eq_ok_iff {offset : ℕ} {bytes : List UInt8} {chars : List Char} :
    decodeFrom offset bytes = .ok chars ↔ Decodes bytes chars := by
  fun_induction decodeFrom offset bytes generalizing chars with
  | case1 =>
      refine ⟨?_, ?_⟩
      · intro h
        rw [← Except.ok.inj h]
        exact .nil
      · intro h
        cases h
        rfl
  | case2 offset b rest length reason hhead =>
      refine ⟨fun h => by contradiction, ?_⟩
      intro h
      cases h with
      | cons hother _ =>
          rw [hhead] at hother
          contradiction
  | case3 offset b rest n left hhead _ fault hfault ih =>
      refine ⟨fun h => by contradiction, ?_⟩
      intro h
      cases h with
      | cons hother hleft =>
          rw [hhead, Except.ok.injEq, Prod.mk.injEq] at hother
          obtain ⟨rfl, rfl⟩ := hother
          have := ih.mpr hleft
          rw [hfault] at this
          contradiction
  | case4 offset b rest n left hhead _ others hothers ih =>
      refine ⟨?_, ?_⟩
      · intro h
        rw [← Except.ok.inj h]
        exact .cons hhead (ih.mp hothers)
      · intro h
        cases h with
        | cons hother hleft =>
            rw [hhead, Except.ok.injEq, Prod.mk.injEq] at hother
            obtain ⟨rfl, rfl⟩ := hother
            have := ih.mpr hleft
            rw [hothers] at this
            rw [Except.ok.inj this]

theorem decode_eq_ok_iff {bytes : List UInt8} {s : String} :
    decode bytes = .ok s ↔ Decodes bytes s.toList := by
  rw [decode, ← @decodeFrom_eq_ok_iff 0]
  cases decodeFrom 0 bytes with
  | error fault => simp [Except.map]
  | ok chars =>
      rw [Except.map, Except.ok.injEq, Except.ok.injEq]
      exact ⟨fun h => by rw [← h, String.toList_ofList], fun h => by rw [h, String.ofList_toList]⟩

theorem continuing_append {wanted read number n : ℕ} {p left : List UInt8}
    (h : continuing wanted read number p = .ok (n, left)) (q : List UInt8) :
    continuing wanted read number (p ++ q) = .ok (n, left ++ q) := by
  induction wanted generalizing read number p with
  | zero =>
      rw [continuing, Except.ok.injEq, Prod.mk.injEq] at h
      rw [continuing, h.1, h.2]
  | succ wanted ih =>
      cases p with
      | nil => simp [continuing] at h
      | cons b p =>
          rw [continuing] at h
          rw [List.cons_append, continuing]
          split at h
          next hb => rw [if_pos hb, ih h]
          next => contradiction

/-- No sequence goes on over an ASCII character. -/
theorem exists_of_continuing_append_cons {wanted read number n : ℕ} {p r left : List UInt8}
    {c : UInt8} (hc : c.toNat < 0x80)
    (h : continuing wanted read number (p ++ c :: r) = .ok (n, left)) :
    ∃ before, left = before ++ c :: r ∧ continuing wanted read number p = .ok (n, before) := by
  induction wanted generalizing read number p with
  | zero =>
      rw [continuing, Except.ok.injEq, Prod.mk.injEq] at h
      exact ⟨p, h.2.symm, by rw [continuing, h.1]⟩
  | succ wanted ih =>
      cases p with
      | nil =>
          have hstop : isContinuation c = false := by
            rw [← Bool.not_eq_true, isContinuation_iff]
            omega
          simp [continuing, hstop] at h
      | cons b p =>
          rw [List.cons_append, continuing] at h
          rw [continuing]
          split at h
          next hb =>
            rw [if_pos hb]
            exact ih h
          next => contradiction

theorem decodeHead_append {b : UInt8} {p left : List UInt8} {n : ℕ}
    (h : decodeHead b p = .ok (n, left)) (q : List UInt8) :
    decodeHead b (p ++ q) = .ok (n, left ++ q) := by
  unfold decodeHead at h ⊢
  split at h
  next => contradiction
  next hb =>
    rw [Except.ok.injEq, Prod.mk.injEq] at h
    simp [hb, h.1, h.2]
  next => contradiction
  next wanted second p hb =>
    split at h
    next hsecond =>
      have happend := continuing_append h q
      simpa [hb, hsecond] using happend
    next => contradiction

theorem exists_of_decodeHead_append_cons {b c : UInt8} {p r left : List UInt8} {n : ℕ}
    (hc : c.toNat < 0x80) (h : decodeHead b (p ++ c :: r) = .ok (n, left)) :
    ∃ before, left = before ++ c :: r ∧ decodeHead b p = .ok (n, before) := by
  cases hb : continuations b with
  | none => simp [decodeHead, hb] at h
  | some wanted =>
      cases wanted with
      | zero =>
          simp only [decodeHead, hb, Except.ok.injEq, Prod.mk.injEq] at h
          exact ⟨p, h.2.symm, by simp [decodeHead, hb, h.1]⟩
      | succ wanted =>
          cases p with
          | nil =>
              have hstop : mayFollow b c = false := by
                rw [← Bool.not_eq_true, mayFollow_iff]
                omega
              simp [decodeHead, hb, hstop] at h
          | cons second p =>
              cases hsecond : mayFollow b second with
              | false => simp [decodeHead, hb, hsecond] at h
              | true =>
                  rw [List.cons_append, decodeHead_of_mayFollow hb hsecond] at h
                  rw [decodeHead_of_mayFollow hb hsecond]
                  exact exists_of_continuing_append_cons hc h

namespace Decodes

variable {p q r : List UInt8} {x y z : List Char} {c : UInt8}

theorem unique (hx : Decodes p x) (hy : Decodes p y) : x = y := by
  rw [← @decodeFrom_eq_ok_iff 0] at hx hy
  rw [hx] at hy
  exact Except.ok.inj hy

theorem append (hp : Decodes p x) (hq : Decodes q y) : Decodes (p ++ q) (x ++ y) := by
  induction hp with
  | nil => exact hq
  | cons hhead _ ih => exact .cons (decodeHead_append hhead q) ih

theorem ascii (hc : c.toNat < 0x80) (hr : Decodes r y) :
    Decodes (c :: r) (Char.ofNat c.toNat :: y) := by
  have hcontinuations : continuations c = some 0 := by
    rw [continuations_eq_some_iff]
    omega
  refine .cons ?_ hr
  simp [decodeHead, hcontinuations]

/-- An ASCII character stands for itself wherever it stands. -/
theorem append_ascii_iff (hc : c.toNat < 0x80) :
    Decodes (p ++ c :: r) z ↔
      ∃ x y, z = x ++ Char.ofNat c.toNat :: y ∧ Decodes p x ∧ Decodes r y := by
  refine ⟨?_, ?_⟩
  · intro h
    generalize hbytes : p ++ c :: r = bytes at h
    induction h generalizing p with
    | nil => simp at hbytes
    | @cons b rest left n chars hhead hleft ih =>
        cases p with
        | nil =>
            have hcontinuations : continuations c = some 0 := by
              rw [continuations_eq_some_iff]
              omega
            obtain ⟨rfl, rfl⟩ := List.cons.inj hbytes
            simp only [decodeHead, hcontinuations, Except.ok.injEq, Prod.mk.injEq] at hhead
            obtain ⟨rfl, rfl⟩ := hhead
            exact ⟨[], chars, rfl, .nil, hleft⟩
        | cons first p =>
            obtain ⟨rfl, rfl⟩ := List.cons.inj hbytes
            obtain ⟨before, rfl, hbefore⟩ := exists_of_decodeHead_append_cons hc hhead
            obtain ⟨x, y, rfl, hx, hy⟩ := ih rfl
            exact ⟨Char.ofNat n :: x, y, rfl, .cons hbefore hx, hy⟩
  · rintro ⟨x, y, rfl, hp, hr⟩
    exact hp.append (ascii hc hr)

end Decodes

end MethodSig.Text.Utf8
