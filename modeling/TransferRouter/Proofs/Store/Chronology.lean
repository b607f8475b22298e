import TransferRouter.Proofs.Identifier
import TransferRouter.Proofs.Order
import TransferRouter.Proofs.Store.Key

/-!
Key order in the time index is time order. Byte strings of one length are in the order of the
numbers that they spell with the high byte first, so keys of the index are in the order of their
times and then of their hashes, and the bound of a time is above exactly the keys of earlier times.
A time and a hash are read from their key and from no other bytes.
-/

namespace TransferRouter

open StrictOrder

namespace Bytes

theorem ofLittleEndian_append (s t : Bytes) :
    ofLittleEndian (s ++ t) = ofLittleEndian s + count s.length * ofLittleEndian t := by
  induction s with
  | nil => simp [ofLittleEndian, count]
  | cons b s ih =>
    rw [List.cons_append, ofLittleEndian, ih, ofLittleEndian, List.length_cons, count, Nat.mul_add,
      Nat.mul_assoc, Nat.add_assoc]

theorem ofBigEndian_cons (b : UInt8) (s : Bytes) :
    ofBigEndian (b :: s) = ofBigEndian s + count s.length * b.toNat := by
  rw [ofBigEndian, List.reverse_cons, ofLittleEndian_append, List.length_reverse, ofLittleEndian,
    ofLittleEndian, Nat.mul_zero, Nat.add_zero, ofBigEndian]

theorem ofBigEndian_lt (s : Bytes) : ofBigEndian s < count s.length := by
  induction s with
  | nil => exact Nat.one_pos
  | cons b s ih =>
    rw [ofBigEndian_cons, List.length_cons, count]
    calc ofBigEndian s + count s.length * b.toNat
        < count s.length + count s.length * b.toNat := Nat.add_lt_add_right ih _
      _ = count s.length * (b.toNat + 1) := by rw [Nat.mul_succ, Nat.add_comm]
      _ ≤ count s.length * 256 := Nat.mul_le_mul_left _ b.toNat_lt
      _ = 256 * count s.length := Nat.mul_comm ..

/-- The first digits decide when they are different. -/
theorem ofBigEndian_cons_lt {a b : UInt8} {s t : Bytes} (hlen : s.length = t.length)
    (h : a.toNat < b.toNat) : ofBigEndian (a :: s) < ofBigEndian (b :: t) := by
  have hs := ofBigEndian_lt s
  rw [ofBigEndian_cons, ofBigEndian_cons, hlen] at *
  calc ofBigEndian s + count t.length * a.toNat
      < count t.length + count t.length * a.toNat := Nat.add_lt_add_right hs _
    _ = count t.length * (a.toNat + 1) := by rw [Nat.mul_succ, Nat.add_comm]
    _ ≤ count t.length * b.toNat := Nat.mul_le_mul_left _ h
    _ ≤ ofBigEndian t + count t.length * b.toNat := Nat.le_add_left ..

theorem littleEndian_ofLittleEndian (s : Bytes) : littleEndian s.length (ofLittleEndian s) = s := by
  induction s with
  | nil => rfl
  | cons b s ih =>
    have hb := b.toNat_lt
    have hlow : UInt8.ofNat (b.toNat + 256 * ofLittleEndian s) = b := by
      apply UInt8.toNat_inj.1
      rw [UInt8.toNat_ofNat']
      omega
    have hhigh : (b.toNat + 256 * ofLittleEndian s) / 256 = ofLittleEndian s := by omega
    rw [List.length_cons, ofLittleEndian, littleEndian, hlow, hhigh, ih]

theorem bigEndian_ofBigEndian (s : Bytes) : bigEndian s.length (ofBigEndian s) = s := by
  rw [bigEndian, ofBigEndian, ← List.length_reverse, littleEndian_ofLittleEndian,
    List.reverse_reverse]

/-- Strings that start with as many bytes are in the order of the numbers that these spell, and then
of what follows. -/
theorem before_append {s t : Bytes} (h : s.length = t.length) (u v : Bytes) :
    before (s ++ u) (t ++ v) = before (ofBigEndian s, u) (ofBigEndian t, v) := by
  induction s generalizing t with
  | nil =>
    obtain rfl : t = [] := List.eq_nil_of_length_eq_zero h.symm
    simp [before, ofBigEndian, ofLittleEndian]
  | cons a s ih =>
    cases t with
    | nil => exact absurd h (Nat.succ_ne_zero _)
    | cons b t =>
      have hlen : s.length = t.length := Nat.succ.inj h
      have hcons : before (a :: s ++ u) (b :: t ++ v) =
          (before a b || (!before b a && before (s ++ u) (t ++ v))) := rfl
      rw [hcons, ih hlen]
      rcases Nat.lt_trichotomy a.toNat b.toNat with hab | hab | hab
      · have := ofBigEndian_cons_lt hlen hab
        simp [before, hab, this]
      · obtain rfl := UInt8.toNat_inj.1 hab
        simp [before, ofBigEndian_cons, hlen]
      · have := ofBigEndian_cons_lt hlen.symm hab
        simp [before, hab, this, Nat.not_lt_of_lt]

end Bytes

namespace Key

theorem before_bigEndian_append (t u : UInt64) (r s : Bytes) :
    before (Bytes.bigEndian 8 t.toNat ++ r) (Bytes.bigEndian 8 u.toNat ++ s) =
      before (t.toNat, r) (u.toNat, s) := by
  rw [Bytes.before_append (by simp), Bytes.ofBigEndian_bigEndian t.toNat_lt,
    Bytes.ofBigEndian_bigEndian u.toNat_lt]

/-- Keys of the index are in the order of their times, and then of their hashes. -/
theorem before_pendingByTime (t u : UInt64) (g h : PayloadHash) :
    before (pendingByTime t g).bytes (pendingByTime u h).bytes =
      before (t.toNat, g.bytes) (u.toNat, h.bytes) := by
  rw [← before_bigEndian_append]
  exact before_cons_self _ _ _

/-- The bound of a time is above exactly the keys of earlier times. -/
theorem before_timeBound {t cutoff : UInt64} {h : PayloadHash} :
    before (pendingByTime t h).bytes (timeBound cutoff) = true ↔ t.toNat < cutoff.toNat := by
  have happend := before_bigEndian_append t cutoff h.bytes []
  rw [List.append_nil] at happend
  have hcons : before (pendingByTime t h).bytes (timeBound cutoff) =
      before (Bytes.bigEndian 8 t.toNat ++ h.bytes) (Bytes.bigEndian 8 cutoff.toNat) :=
    before_cons_self _ _ _
  rw [hcons, happend]
  change (before t.toNat cutoff.toNat || (!before cutoff.toNat t.toNat && before h.bytes [])) = true
    ↔ _
  rw [before_nil, Bool.and_false, Bool.or_false]
  exact decide_eq_true_iff

theorem not_before_timeIndex (t : UInt64) (h : PayloadHash) :
    before (pendingByTime t h).bytes timeIndex = false := by
  have hcons : before (pendingByTime t h).bytes timeIndex =
      before (Bytes.bigEndian 8 t.toNat ++ h.bytes) [] := before_cons_self _ _ _
  rw [hcons]
  exact before_nil _

theorem pendingByTime_lt_iff {t u : UInt64} {h g : PayloadHash} :
    (pendingByTime t h).bytes < (pendingByTime u g).bytes ↔ t < u ∨ t = u ∧ h.bytes < g.bytes := by
  rw [← before_bytes, ← before_bytes, before_pendingByTime, UInt64.lt_iff_toNat_lt,
    ← UInt64.toNat_inj]
  simp only [before, Bool.or_eq_true, Bool.and_eq_true, Bool.not_eq_true', decide_eq_true_eq,
    decide_eq_false_iff_not, id_eq]
  constructor
  · rintro (hlt | ⟨hge, hhash⟩)
    · exact .inl hlt
    · exact (Nat.lt_or_eq_of_le (Nat.not_lt.1 hge)).imp_right fun heq => ⟨heq, hhash⟩
  · rintro (hlt | ⟨heq, hhash⟩)
    · exact .inl hlt
    · exact .inr ⟨Nat.not_lt.2 (Nat.le_of_eq heq), hhash⟩

/-! ## Reading -/

/-- Forty bytes are the bytes of a time and of a hash. -/
theorem bytes_of_halves {s : Bytes} {h : PayloadHash}
    (hh : PayloadHash.ofBytes? (s.drop 8) = some h) :
    0x32 :: s = (pendingByTime (UInt64.ofNat (Bytes.ofBigEndian (s.take 8))) h).bytes := by
  have hhash : h.bytes = s.drop 8 := PayloadHash.ofBytes?_eq_some_iff.1 hh
  have hlen : (s.take 8).length = 8 := by
    have := h.length_eq
    rw [hhash, List.length_drop] at this
    rw [List.length_take]
    omega
  have hlt := Bytes.ofBigEndian_lt (s.take 8)
  have hbytes := Bytes.bigEndian_ofBigEndian (s.take 8)
  rw [hlen] at hlt hbytes
  have htime : (UInt64.ofNat (Bytes.ofBigEndian (s.take 8))).toNat = Bytes.ofBigEndian (s.take 8) :=
    UInt64.toNat_ofNat_of_lt' hlt
  calc 0x32 :: s
      = 0x32 :: (s.take 8 ++ s.drop 8) := by rw [List.take_append_drop]
    _ = (pendingByTime _ h).bytes := by rw [bytes, htime, hbytes, hhash, List.cons_append]

/-- A time and a hash are read from their key and from nothing else. -/
theorem readTimeKey_eq_ok {key : Bytes} {t : UInt64} {h : PayloadHash} :
    readTimeKey key = .ok (t, h) ↔ key = (pendingByTime t h).bytes := by
  refine ⟨fun hread => ?_, fun hkey => hkey ▸ readTimeKey_bytes t h⟩
  unfold readTimeKey at hread
  split at hread
  next s =>
    split at hread
    next hash hhash =>
      obtain ⟨rfl, rfl⟩ := Prod.mk.inj (Except.ok.inj hread)
      exact bytes_of_halves hhash
    next => exact absurd hread nofun
  next => exact absurd hread nofun

/-- There is one failure of reading, and it names the bytes. -/
theorem readTimeKey_of_malformed {key : Bytes} (h : ∀ t hash, key ≠ (pendingByTime t hash).bytes) :
    readTimeKey key = .error (.corruption (.malformedIndexKey key)) := by
  have hrefused : ∀ read, readTimeKey key ≠ .ok read := fun (t, hash) hread =>
    h t hash (readTimeKey_eq_ok.1 hread)
  unfold readTimeKey at hrefused ⊢
  split
  next s =>
    split
    next hash hhash =>
      simp only [hhash] at hrefused
      exact absurd rfl (hrefused _)
    next => rfl
  next => rfl

/-- The time index. The store lists it by time and then by hash, because keys are listed in the
lexicographic order of their bytes; it is cut at a time by the bound of the time; and each of its
keys is read back, while any other bytes are reported as a corruption of the store. -/
structure Chronological : Prop where
  listed : ∀ s t : Bytes, before s t = true ↔ s < t
  lt_iff : ∀ t u h g, (pendingByTime t h).bytes < (pendingByTime u g).bytes ↔
    t < u ∨ t = u ∧ h.bytes < g.bytes
  lt_timeBound_iff : ∀ t h cutoff, (pendingByTime t h).bytes < timeBound cutoff ↔ t < cutoff
  read_iff : ∀ key t h, readTimeKey key = .ok (t, h) ↔ key = (pendingByTime t h).bytes
  refused : ∀ key, (∀ t h, key ≠ (pendingByTime t h).bytes) →
    readTimeKey key = .error (.corruption (.malformedIndexKey key))

theorem chronological_of_keys : Chronological where
  listed _ _ := before_bytes
  lt_iff _ _ _ _ := pendingByTime_lt_iff
  lt_timeBound_iff t h cutoff := by
    rw [← before_bytes, before_timeBound, UInt64.lt_iff_toNat_lt]
  read_iff _ _ _ := readTimeKey_eq_ok
  refused _ := readTimeKey_of_malformed

end Key

end TransferRouter
