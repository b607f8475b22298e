import TransferRouter.Proofs.Store
import TransferRouter.Store.Key

/-!
What keys name. The byte in front tells the families of keys apart; within the families of recorded
payloads a key names one hash, or one time and one hash, which are read back from it.
-/

namespace TransferRouter

theorem PayloadHash.ext {g h : PayloadHash} (hgh : g.bytes = h.bytes) : g = h := by
  cases g; cases h; simp_all

theorem PayloadHash.ofBytes?_bytes (h : PayloadHash) : PayloadHash.ofBytes? h.bytes = some h := by
  rw [PayloadHash.ofBytes?, dif_pos h.length_eq]

theorem Bytes.bigEndian_inj {width m n : Nat} (hm : m < count width) (hn : n < count width)
    (h : bigEndian width m = bigEndian width n) : m = n := by
  rw [← ofBigEndian_bigEndian hm, h, ofBigEndian_bigEndian hn]

namespace Key

/-- The byte in front of a key. -/
def family : Key → UInt8
  | params => 0x01
  | pausedAction _ => 0x10
  | pausedProtocol _ => 0x20
  | pausedRoute .. => 0x21
  | sequence => 0x30
  | pending _ => 0x31
  | pendingByTime .. => 0x32
  | traffic .. => 0x40
  | dispatchCount .. => 0x41

theorem head?_bytes (k : Key) : k.bytes.head? = some k.family := by
  cases k <;> rfl

theorem bytes_ne_of_family {k l : Key} (h : k.family ≠ l.family) : k.bytes ≠ l.bytes := by
  intro hkl
  have := congrArg List.head? hkl
  rw [head?_bytes, head?_bytes] at this
  exact h (Option.some.inj this)

theorem pending_inj {g h : PayloadHash} (hgh : (pending g).bytes = (pending h).bytes) : g = h :=
  PayloadHash.ext (List.cons.inj hgh).2

theorem pendingByTime_inj {t u : UInt64} {g h : PayloadHash}
    (hkey : (pendingByTime t g).bytes = (pendingByTime u h).bytes) : t = u ∧ g = h := by
  obtain ⟨-, hrest⟩ := List.cons.inj hkey
  obtain ⟨htime, hhash⟩ := List.append_inj hrest (by simp)
  refine ⟨UInt64.toNat_inj.1 (Bytes.bigEndian_inj ?_ ?_ htime), PayloadHash.ext hhash⟩
  · exact t.toNat_lt
  · exact u.toNat_lt

theorem readTimeKey_bytes (t : UInt64) (h : PayloadHash) :
    readTimeKey (pendingByTime t h).bytes = .ok (t, h) := by
  have hlen : (Bytes.bigEndian 8 t.toNat).length = 8 := Bytes.length_bigEndian ..
  have htime : Bytes.ofBigEndian (Bytes.bigEndian 8 t.toNat) = t.toNat :=
    Bytes.ofBigEndian_bigEndian t.toNat_lt
  change readTimeKey (0x32 :: (Bytes.bigEndian 8 t.toNat ++ h.bytes)) = _
  simp only [readTimeKey, List.drop_left' hlen, List.take_left' hlen, PayloadHash.ofBytes?_bytes,
    htime, UInt64.ofNat_toNat]

/-- The keys of what is recorded: the counter, the entries, and their time index. -/
def IsRecord (key : Bytes) : Prop :=
  key.head? = some 0x30 ∨ key.head? = some 0x31 ∨ key.head? = some 0x32

theorem isRecord_bytes {k : Key} :
    IsRecord k.bytes ↔ k.family = 0x30 ∨ k.family = 0x31 ∨ k.family = 0x32 := by
  simp only [IsRecord, head?_bytes, Option.some.injEq]

/-- A key between the bounds of a sweep belongs to the time index. -/
theorem head?_of_between {key : Bytes} {cutoff : UInt64}
    (hstop : StrictOrder.before key (timeBound cutoff) = true)
    (hstart : StrictOrder.before key timeIndex = false) : key.head? = some 0x32 := by
  change StrictOrder.listBefore key (0x32 :: _) = true at hstop
  change StrictOrder.listBefore key [0x32] = false at hstart
  match key with
  | [] => simp [StrictOrder.listBefore] at hstart
  | b :: key =>
    simp only [StrictOrder.listBefore, Bool.or_eq_false_iff, Bool.or_eq_true,
      Bool.and_eq_true, Bool.not_eq_true'] at hstart hstop
    obtain ⟨hge, -⟩ := hstart
    obtain ⟨hle, -⟩ := hstop.resolve_left (by simp [hge])
    exact congrArg some (StrictOrder.connex hge hle)

end Key

end TransferRouter
