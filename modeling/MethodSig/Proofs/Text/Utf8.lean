import Mathlib.Data.List.Basic
import MethodSig.Text.Utf8

/-!
# Decoding what was encoded

Decoding reads back every text that was encoded.
-/

namespace MethodSig.Text.Utf8

theorem continuations_eq_some_iff (b : UInt8) (n : ℕ) :
    continuations b = some n ↔
      n = 0 ∧ b.toNat < 0x80 ∨ n = 1 ∧ 0xc2 ≤ b.toNat ∧ b.toNat < 0xe0 ∨
        n = 2 ∧ 0xe0 ≤ b.toNat ∧ b.toNat < 0xf0 ∨ n = 3 ∧ 0xf0 ≤ b.toNat ∧ b.toNat < 0xf5 := by
  simp only [continuations, UInt8.lt_iff_toNat_lt, UInt8.reduceToNat]
  split_ifs <;> simp <;> omega

theorem mayFollow_iff (first second : UInt8) :
    mayFollow first second = true ↔
      0x80 ≤ second.toNat ∧ second.toNat ≤ 0xbf ∧
        (first.toNat = 0xe0 → 0xa0 ≤ second.toNat) ∧ (first.toNat = 0xed → second.toNat ≤ 0x9f) ∧
        (first.toNat = 0xf0 → 0x90 ≤ second.toNat) ∧
        (first.toNat = 0xf4 → second.toNat ≤ 0x8f) := by
  have hfirst (n : UInt8) : first = n ↔ first.toNat = n.toNat := UInt8.toNat_inj.symm
  simp only [mayFollow, hfirst, UInt8.le_iff_toNat_le, UInt8.reduceToNat]
  split_ifs <;> simp <;> omega

theorem isContinuation_iff (b : UInt8) :
    isContinuation b = true ↔ 0x80 ≤ b.toNat ∧ b.toNat ≤ 0xbf := by
  simp [isContinuation, UInt8.le_iff_toNat_le]

/-! ## One character -/

/-- A byte keeps the bits of a number below its mark. -/
theorem toNat_ofNat_mod_add {k mark : ℕ} (hk : 0 < k) (hmark : k + mark ≤ 256) (n : ℕ) :
    (UInt8.ofNat (n % k + mark)).toNat = n % k + mark := by
  have hlt : n % k < k := Nat.mod_lt n hk
  rw [UInt8.toNat_ofNat']
  exact Nat.mod_eq_of_lt (by omega)

theorem toNat_trailing (n : ℕ) : (UInt8.ofNat (n % 64 + 0x80)).toNat = n % 64 + 0x80 :=
  toNat_ofNat_mod_add (by decide) (by decide) n

theorem continuing_trailing (wanted read number n : ℕ) (rest : List UInt8) :
    continuing (wanted + 1) read number (UInt8.ofNat (n % 64 + 0x80) :: rest) =
      continuing wanted (read + 1) (number * 64 + n % 64) rest := by
  have hcontinuation : isContinuation (UInt8.ofNat (n % 64 + 0x80)) = true := by
    rw [isContinuation_iff, toNat_trailing]
    omega
  rw [continuing, if_pos hcontinuation, toNat_trailing]
  congr 2
  omega

/-- A sequence of several bytes is read from its first byte and six bits of each other. -/
theorem decodeHead_of_mayFollow {b second : UInt8} {wanted : ℕ} {rest : List UInt8}
    (hb : continuations b = some (wanted + 1)) (hsecond : mayFollow b second = true) :
    decodeHead b (second :: rest) =
      continuing wanted 2 (b.toNat % Nat.pow 2 (5 - wanted) * 64 + second.toNat % 64) rest := by
  simp [decodeHead, hb, hsecond]

/-- The bytes of a character decode to its code point, whatever follows them. -/
theorem decodeHead_utf8EncodeChar (c : Char) (rest : List UInt8) :
    ∃ b trailing, String.utf8EncodeChar c = b :: trailing ∧
      decodeHead b (trailing ++ rest) = .ok (c.toNat, rest) := by
  have hvalid : c.toNat < 0xd800 ∨ 0xdfff < c.toNat ∧ c.toNat < 0x110000 := c.valid
  have hval : c.val.toNat = c.toNat := rfl
  unfold String.utf8EncodeChar
  rw [hval]
  generalize c.toNat = v at hvalid
  dsimp only
  split_ifs with hone htwo hthree
  · refine ⟨_, [], rfl, ?_⟩
    have hb : (UInt8.ofNat v).toNat = v := by
      rw [UInt8.toNat_ofNat']
      omega
    have hcontinuations : continuations (UInt8.ofNat v) = some 0 := by
      rw [continuations_eq_some_iff, hb]
      omega
    simp [decodeHead, hcontinuations, hb]
  · refine ⟨_, [_], rfl, ?_⟩
    have hb : (UInt8.ofNat (v / 64 % 32 + 0xc0)).toNat = v / 64 % 32 + 0xc0 :=
      toNat_ofNat_mod_add (by decide) (by decide) _
    rw [List.singleton_append, @decodeHead_of_mayFollow _ _ 0, hb,
      toNat_trailing, continuing]
    · simp
      omega
    · rw [continuations_eq_some_iff, hb]
      omega
    · rw [mayFollow_iff, hb, toNat_trailing]
      omega
  · refine ⟨_, [_, _], rfl, ?_⟩
    have hb : (UInt8.ofNat (v / 4096 % 16 + 0xe0)).toNat = v / 4096 % 16 + 0xe0 :=
      toNat_ofNat_mod_add (by decide) (by decide) _
    rw [List.cons_append, List.singleton_append, @decodeHead_of_mayFollow _ _ 1, hb,
      toNat_trailing, continuing_trailing, continuing]
    · simp
      omega
    · rw [continuations_eq_some_iff, hb]
      omega
    · rw [mayFollow_iff, hb, toNat_trailing]
      omega
  · refine ⟨_, [_, _, _], rfl, ?_⟩
    have hb : (UInt8.ofNat (v / 262144 % 8 + 0xf0)).toNat = v / 262144 % 8 + 0xf0 :=
      toNat_ofNat_mod_add (by decide) (by decide) _
    rw [List.cons_append, List.cons_append, List.singleton_append,
      @decodeHead_of_mayFollow _ _ 2, hb, toNat_trailing, continuing_trailing, continuing_trailing,
      continuing]
    · simp
      omega
    · rw [continuations_eq_some_iff, hb]
      omega
    · rw [mayFollow_iff, hb, toNat_trailing]
      omega

/-! ## A text -/

theorem decodeFrom_flatMap_utf8EncodeChar (chars : List Char) (offset : ℕ) :
    decodeFrom offset (chars.flatMap String.utf8EncodeChar) = .ok chars := by
  induction chars generalizing offset with
  | nil => rw [List.flatMap_nil, decodeFrom]
  | cons c chars ih =>
      obtain ⟨b, trailing, hchar, hhead⟩ :=
        decodeHead_utf8EncodeChar c (chars.flatMap String.utf8EncodeChar)
      rw [List.flatMap_cons, hchar, List.cons_append, decodeFrom]
      split
      next h => simp [hhead] at h
      next n left h =>
        rw [hhead, Except.ok.injEq, Prod.mk.injEq] at h
        obtain ⟨rfl, rfl⟩ := h
        simp only [ih, Char.ofNat_toNat]

theorem toList_loop (bytes : ByteArray) (i : ℕ) (read : List UInt8) :
    ByteArray.toList.loop bytes i read = read.reverse ++ bytes.data.toList.drop i := by
  fun_induction ByteArray.toList.loop bytes i read with
  | case1 i read hi ih =>
      have hbyte : bytes.data.toList.drop i = bytes.get! i :: bytes.data.toList.drop (i + 1) := by
        rw [List.drop_eq_getElem_cons (by simpa using hi)]
        simp [ByteArray.get!, hi]
      rw [ih, hbyte]
      simp
  | case2 i read hi =>
      rw [List.drop_eq_nil_of_le (by simpa using hi), List.append_nil]

theorem encode_eq_flatMap (s : String) : encode s = s.toList.flatMap String.utf8EncodeChar := by
  rw [encode, ByteArray.toList, toList_loop, List.reverse_nil, List.nil_append, List.drop_zero,
    String.toUTF8_eq_toByteArray, ← String.utf8Encode_toList, List.utf8Encode,
    List.toList_data_toByteArray]

theorem decode_encode (s : String) : decode (encode s) = .ok s := by
  rw [decode, encode_eq_flatMap, decodeFrom_flatMap_utf8EncodeChar]
  simp [Except.map]

end MethodSig.Text.Utf8
