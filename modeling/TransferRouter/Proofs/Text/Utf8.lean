import TransferRouter.Text.Utf8

/-!
Decoding inverts encoding. Each character is read back from the bytes written for it, whatever bytes
follow, so different texts have different bytes.
-/

namespace TransferRouter.Utf8

private theorem toNat_lt (c : Char) : c.toNat < 0xD800 ∨ 0xDFFF < c.toNat ∧ c.toNat < 0x110000 :=
  c.valid

private theorem ofNat_eq {n : Nat} {c : Char} (h : n = c.toNat) : Char.ofNat n = c := by
  rw [h, Char.ofNat_toNat]

private theorem toNat_ofNat {n : Nat} (h : n < 256) : (UInt8.ofNat n).toNat = n := by
  rw [UInt8.toNat_ofNat']
  exact Nat.mod_eq_of_lt h

/-- The second byte of a character of three bytes is neither below the shortest form nor a
surrogate's. -/
private theorem isSecondOfThree_of_char {n : Nat} (h : 0x800 ≤ n) (h' : n < 0x10000)
    (hv : n < 0xD800 ∨ 0xDFFF < n) :
    isSecondOfThree (0xE0 + n / 4096) (0x80 + n / 64 % 64) = true := by
  simp only [isSecondOfThree, Bool.and_eq_true, decide_eq_true_eq]
  constructor <;> split <;> omega

/-- The second byte of a character of four bytes is neither below the shortest form nor above the
last code point. -/
private theorem isSecondOfFour_of_char {n : Nat} (h : 0x10000 ≤ n) (h' : n < 0x110000) :
    isSecondOfFour (0xF0 + n / 262144) (0x80 + n / 4096 % 64) = true := by
  simp only [isSecondOfFour, Bool.and_eq_true, decide_eq_true_eq]
  constructor <;> split <;> omega

private theorem isContinuation_low (n : Nat) : isContinuation (0x80 + n % 64) = true := by
  simp only [isContinuation, Bool.and_eq_true, decide_eq_true_eq]
  omega

/-- A character is read back from its bytes. -/
theorem head_encodeChar (c : Char) (rest : Bytes) :
    ∃ a s width, encodeChar c ++ rest = a :: s ∧ head a s = .char c width rest := by
  have hv := toNat_lt c
  unfold encodeChar
  dsimp only
  split
  next h1 =>
    refine ⟨_, _, 1, List.cons_append, ?_⟩
    simp only [head, toNat_ofNat (show c.toNat < 256 by omega), h1, if_true, List.nil_append]
    rw [ofNat_eq rfl]
  next h1 =>
  split
  next h2 =>
    refine ⟨_, _, 2, List.cons_append, ?_⟩
    have ha := toNat_ofNat (show 0xC0 + c.toNat / 64 < 256 by omega)
    have hb := toNat_ofNat (show 0x80 + c.toNat % 64 < 256 by omega)
    simp only [head, ha, if_neg (show ¬ 0xC0 + c.toNat / 64 < 0x80 by omega),
      if_neg (show ¬ 0xC0 + c.toNat / 64 < 0xC2 by omega),
      if_pos (show 0xC0 + c.toNat / 64 < 0xE0 by omega), headOfTwo, List.cons_append,
      List.nil_append, hb, isContinuation_low, if_true]
    exact congrArg (Head.char · 2 rest) (ofNat_eq (by omega))
  next h2 =>
  split
  next h3 =>
    refine ⟨_, _, 3, List.cons_append, ?_⟩
    have ha := toNat_ofNat (show 0xE0 + c.toNat / 4096 < 256 by omega)
    have hb := toNat_ofNat (show 0x80 + c.toNat / 64 % 64 < 256 by omega)
    have hc := toNat_ofNat (show 0x80 + c.toNat % 64 < 256 by omega)
    simp only [head, ha, if_neg (show ¬ 0xE0 + c.toNat / 4096 < 0x80 by omega),
      if_neg (show ¬ 0xE0 + c.toNat / 4096 < 0xC2 by omega),
      if_neg (show ¬ 0xE0 + c.toNat / 4096 < 0xE0 by omega),
      if_pos (show 0xE0 + c.toNat / 4096 < 0xF0 by omega), headOfThree, List.cons_append,
      List.nil_append, hb, isSecondOfThree_of_char (by omega) h3 (by omega), hc,
      isContinuation_low, if_true]
    exact congrArg (Head.char · 3 rest) (ofNat_eq (by omega))
  next h3 =>
    refine ⟨_, _, 4, List.cons_append, ?_⟩
    have ha := toNat_ofNat (show 0xF0 + c.toNat / 262144 < 256 by omega)
    have hb := toNat_ofNat (show 0x80 + c.toNat / 4096 % 64 < 256 by omega)
    have hc := toNat_ofNat (show 0x80 + c.toNat / 64 % 64 < 256 by omega)
    have hd := toNat_ofNat (show 0x80 + c.toNat % 64 < 256 by omega)
    simp only [head, ha, if_neg (show ¬ 0xF0 + c.toNat / 262144 < 0x80 by omega),
      if_neg (show ¬ 0xF0 + c.toNat / 262144 < 0xC2 by omega),
      if_neg (show ¬ 0xF0 + c.toNat / 262144 < 0xE0 by omega),
      if_neg (show ¬ 0xF0 + c.toNat / 262144 < 0xF0 by omega),
      if_pos (show 0xF0 + c.toNat / 262144 < 0xF5 by omega), headOfFour, List.cons_append,
      List.nil_append, hb, isSecondOfFour_of_char (n := c.toNat) (by omega) (by omega), hc, hd,
      isContinuation_low, if_true]
    exact congrArg (Head.char · 4 rest) (ofNat_eq (by omega))

theorem decodeFrom_of_head {a : UInt8} {s rest : Bytes} {c : Char} {width : Nat}
    (h : head a s = .char c width rest) (index : Nat) (acc : List Char) :
    decodeFrom index acc (a :: s) = decodeFrom (index + width) (c :: acc) rest := by
  rw [decodeFrom]
  split <;> simp_all

theorem decodeFrom_encodeChars (cs : List Char) (index : Nat) (acc : List Char) :
    decodeFrom index acc (encodeChars cs) = .ok (acc.reverse ++ cs) := by
  induction cs generalizing index acc with
  | nil => simp [encodeChars, decodeFrom]
  | cons c cs ih =>
    obtain ⟨a, s, width, hs, hhead⟩ := head_encodeChar c (encodeChars cs)
    have hcons : encodeChars (c :: cs) = a :: s := by rw [← hs]; rfl
    rw [hcons, decodeFrom_of_head hhead, ih, List.reverse_cons, List.append_assoc]
    rfl

theorem decode_encode (s : String) : decode (encode s) = .ok s := by
  rw [decode, encode, decodeFrom_encodeChars]
  simp [Except.map]

theorem encode_inj {s t : String} (h : encode s = encode t) : s = t := by
  have := decode_encode s
  rw [h, decode_encode] at this
  exact (Except.ok.inj this).symm

/-- A character is one byte that is its code, or it starts with a byte that is no ASCII. -/
theorem encodeChar_ascii_or (c : Char) :
    c.toNat < 0x80 ∧ encodeChar c = [UInt8.ofNat c.toNat] ∨
      0x80 ≤ c.toNat ∧ ∃ b s, encodeChar c = b :: s ∧ 0x80 ≤ b.toNat := by
  have hv := toNat_lt c
  unfold encodeChar
  dsimp only
  split
  next h => exact .inl ⟨h, rfl⟩
  next h =>
  refine .inr ⟨Nat.le_of_not_lt h, ?_⟩
  split
  · exact ⟨_, _, rfl, by rw [toNat_ofNat] <;> omega⟩
  split
  · exact ⟨_, _, rfl, by rw [toNat_ofNat] <;> omega⟩
  · exact ⟨_, _, rfl, by rw [toNat_ofNat] <;> omega⟩

theorem encodeChars_cons (c : Char) (cs : List Char) :
    encodeChars (c :: cs) = encodeChar c ++ encodeChars cs := rfl

/-- An ASCII byte in front comes from the character with its code. -/
theorem exists_of_encodeChars {b : UInt8} {s : Bytes} {cs : List Char} (hb : b.toNat < 0x80)
    (h : encodeChars cs = b :: s) :
    ∃ rest, cs = Char.ofNat b.toNat :: rest ∧ encodeChars rest = s := by
  cases cs with
  | nil => exact absurd h nofun
  | cons c rest =>
    rw [encodeChars_cons] at h
    rcases encodeChar_ascii_or c with ⟨hc, hchar⟩ | ⟨-, b', s', hchar, hb'⟩
    · rw [hchar] at h
      obtain ⟨rfl, hrest⟩ := List.cons.inj h
      refine ⟨rest, ?_, hrest⟩
      rw [toNat_ofNat (by omega), Char.ofNat_toNat]
    · rw [hchar] at h
      obtain ⟨rfl, -⟩ := List.cons.inj h
      omega

theorem length_encodeChar_le (c : Char) : (encodeChar c).length ≤ 4 := by
  unfold encodeChar
  dsimp only
  split
  · exact Nat.le_of_ble_eq_true rfl
  split
  · exact Nat.le_of_ble_eq_true rfl
  split <;> exact Nat.le_of_ble_eq_true rfl

theorem length_encodeChars_le (cs : List Char) : (encodeChars cs).length ≤ 4 * cs.length := by
  induction cs with
  | nil => exact Nat.le_refl 0
  | cons c cs ih =>
    have hc := length_encodeChar_le c
    change (encodeChar c ++ encodeChars cs).length ≤ _
    simp only [List.length_append, List.length_cons]
    omega

end TransferRouter.Utf8
