import TransferRouter.Proofs.Order
import TransferRouter.Proofs.Store

/-!
Scans return what they are asked for. The extensions of a beginning stand together in key order:
a key that is not below the beginning and is no extension of it is above all extensions. So a scan
may stop at the first key that does not match, and the least string above all extensions, where
there is one, cuts the same entries out of the store as the beginning does.
-/

namespace TransferRouter

open StrictOrder

namespace Bytes

variable {a b : UInt8} {p s k : Bytes}

/-! ## Strings above all extensions -/

/-- A string is above every extension of another. -/
def Above (p s : Bytes) : Prop := ∀ k, p <+: k → k < s

theorem not_above_nil : ¬ Above p [] := fun h => List.not_lt_nil _ (h p List.prefix_rfl)

theorem Above.lt (h : Above p s) : p < s := h p List.prefix_rfl

theorem above_cons_cons : Above (a :: p) (b :: s) ↔ a < b ∨ a = b ∧ Above p s := by
  constructor
  · intro h
    obtain hlt | ⟨rfl, -⟩ := List.cons_lt_cons_iff.1 h.lt
    · exact .inl hlt
    · refine .inr ⟨rfl, fun k hk => ?_⟩
      have hcons := h (a :: k) (List.cons_prefix_cons.2 ⟨rfl, hk⟩)
      obtain hlt | ⟨-, hks⟩ := List.cons_lt_cons_iff.1 hcons
      · exact absurd hlt (UInt8.lt_irrefl a)
      · exact hks
  · intro h k hk
    obtain ⟨rest, rfl⟩ := hk
    apply List.cons_lt_cons_iff.2
    exact h.imp_right fun ⟨hab, hs⟩ => ⟨hab, hs _ (List.prefix_append p rest)⟩

/-- A key between a beginning and an extension of it is an extension too, so what is no extension is
above all of them. -/
theorem above_of_le (hle : p ≤ k) (hp : ¬ p <+: k) : Above p k := by
  intro x hx
  rw [← before_bytes]
  cases hxk : before x k with
  | true => rfl
  | false =>
    have hkp : before k p = false := by
      rw [Bool.eq_false_iff, ne_eq, before_bytes]
      exact List.not_lt.2 hle
    cases hkx : before k x with
    | true =>
      have hbetween := Store.isPrefixOf_of_before hkx hkp (List.isPrefixOf_iff_prefix.2 hx)
      exact absurd (List.isPrefixOf_iff_prefix.1 hbetween) hp
    | false =>
      obtain rfl := connex hxk hkx
      exact absurd hx hp

theorem le_of_isPrefix (h : p <+: k) : p ≤ k := by
  apply List.not_lt.1
  rw [← before_bytes, Store.before_eq_false_of_isPrefixOf (List.isPrefixOf_iff_prefix.2 h)]
  exact Bool.false_ne_true

/-! ## The least of them -/

/-- The least string above all extensions, or nothing if there is no such string. -/
def IsCeiling (p : Bytes) : Option Bytes → Prop
  | some e => Above p e ∧ ∀ s, Above p s → e ≤ s
  | none => ∀ s, ¬ Above p s

/-- A byte below the highest has one right above it. -/
theorem lt_iff_succ_le (h : a.toNat < 255) : a < b ↔ ¬ b < a + 1 := by
  rw [UInt8.lt_iff_toNat_lt, UInt8.lt_iff_toNat_lt, UInt8.toNat_add, UInt8.toNat_one]
  omega

theorem isCeiling_cons {e : Bytes} (h : IsCeiling p (some e)) :
    IsCeiling (a :: p) (some (a :: e)) := by
  refine ⟨above_cons_cons.2 (.inr ⟨rfl, h.1⟩), fun s hs => ?_⟩
  cases s with
  | nil => exact absurd hs not_above_nil
  | cons b s =>
    apply List.cons_le_cons_iff.2
    obtain hlt | ⟨hab, hs⟩ := above_cons_cons.1 hs
    · exact .inl hlt
    · exact .inr ⟨hab, h.2 s hs⟩

/-- Where nothing is above the extensions of the rest, the first byte has to be raised. -/
theorem isCeiling_succ (h : IsCeiling p none) (ha : a.toNat < 255) :
    IsCeiling (a :: p) (some [a + 1]) := by
  have hsucc : ¬ a + 1 < a + 1 := UInt8.lt_irrefl _
  refine ⟨above_cons_cons.2 (.inl ((lt_iff_succ_le ha).2 hsucc)), fun s hs => ?_⟩
  cases s with
  | nil => exact absurd hs not_above_nil
  | cons b s =>
    obtain hlt | ⟨-, hs⟩ := above_cons_cons.1 hs
    · apply List.not_lt.1
      rw [List.cons_lt_cons_iff]
      rintro (hlow | ⟨-, hnil⟩)
      · exact (lt_iff_succ_le ha).1 hlt hlow
      · exact List.not_lt_nil _ hnil
    · exact absurd hs (h s)

theorem isCeiling_highest (h : IsCeiling p none) (ha : ¬ a.toNat < 255) :
    IsCeiling (a :: p) none := by
  intro s hs
  cases s with
  | nil => exact not_above_nil hs
  | cons b s =>
    obtain hlt | ⟨-, hs⟩ := above_cons_cons.1 hs
    · have := b.toNat_lt
      rw [UInt8.lt_iff_toNat_lt] at hlt
      omega
    · exact h s hs

theorem isCeiling_ceiling (p : Bytes) : IsCeiling p (ceiling p) := by
  induction p with
  | nil => exact fun s hs => List.lt_irrefl s (hs s List.nil_prefix)
  | cons a p ih =>
    rw [ceiling]
    cases hrest : ceiling p with
    | some e =>
      rw [hrest] at ih
      exact isCeiling_cons ih
    | none =>
      rw [hrest] at ih
      dsimp only
      split
      next ha => exact isCeiling_succ ih ha
      next ha => exact isCeiling_highest ih ha

theorem ceiling_eq_some {e : Bytes} :
    ceiling p = some e ↔ Above p e ∧ ∀ s, Above p s → e ≤ s := by
  have hceiling := isCeiling_ceiling p
  constructor
  · intro h
    rwa [h] at hceiling
  · rintro ⟨habove, hleast⟩
    cases h : ceiling p with
    | none =>
      rw [h] at hceiling
      exact absurd habove (hceiling e)
    | some e' =>
      rw [h] at hceiling
      exact congrArg some (List.le_antisymm (hceiling.2 e habove) (hleast e' hceiling.1))

/-- The highest byte cannot be raised, so the byte before it is. -/
example : ceiling [0x31, 0xFF] = some [0x32] := rfl

theorem ceiling_eq_none : ceiling p = none ↔ ∀ s, ¬ Above p s := by
  have hceiling := isCeiling_ceiling p
  constructor
  · intro h
    rwa [h] at hceiling
  · intro hnone
    cases h : ceiling p with
    | none => rfl
    | some e =>
      rw [h] at hceiling
      exact absurd hceiling.1 (hnone e)

/-- The extensions of a string are what is between it and the least string above them. -/
theorem prefix_iff_between : p <+: k ↔ p ≤ k ∧ ∀ e, ceiling p = some e → k < e := by
  constructor
  · exact fun h => ⟨le_of_isPrefix h, fun e he => (ceiling_eq_some.1 he).1 k h⟩
  · rintro ⟨hle, hlt⟩
    apply Decidable.byContradiction
    intro hp
    have habove := above_of_le hle hp
    cases h : ceiling p with
    | none => exact ceiling_eq_none.1 h k habove
    | some e => exact List.not_lt.2 ((ceiling_eq_some.1 h).2 k habove) (hlt e h)

end Bytes

namespace Store

variable {s : Store} {p start stop e : Bytes}

/-! ## Scans -/

/-- The entries of a store whose key meets a condition, each of them once, ascending. -/
structure Selects (s : Store) (cond : Bytes → Prop) (l : List (Bytes × Bytes)) : Prop where
  ascending : l.Pairwise fun a b => a.1 < b.1
  mem_iff : ∀ key value, (key, value) ∈ l ↔ s.get? key = some value ∧ cond key

theorem selects_filter {cond : Bytes → Prop} {test : Bytes × Bytes → Bool}
    (h : ∀ entry, test entry = true ↔ cond entry.1) : s.Selects cond (s.entries.filter test) where
  ascending := (s.ascending.filter test).imp before_bytes.1
  mem_iff key value := by
    rw [List.mem_filter, h, OrderedMap.get?_eq_some_iff]

theorem selects_extensions (s : Store) (p : Bytes) : s.Selects (p <+: ·) (s.extensions p) := by
  rw [extensions_eq]
  exact selects_filter fun _ => List.isPrefixOf_iff_prefix

theorem between_iff {key : Bytes} :
    (before key stop && !before key start) = true ↔ start ≤ key ∧ key < stop := by
  rw [Bool.and_eq_true, Bool.not_eq_true', Bool.eq_false_iff, ne_eq, before_bytes, before_bytes,
    List.not_lt, and_comm]

/-- A range is the beginning of what is between its bounds. -/
theorem exists_range (s : Store) (start stop : Bytes) :
    ∃ l, s.Selects (fun key => start ≤ key ∧ key < stop) l ∧
      ∀ limit, s.range start stop limit = l.take limit :=
  ⟨_, selects_filter fun _ => between_iff, s.range_eq start stop⟩

theorem range_of_le (h : stop ≤ start) (limit : Nat) : s.range start stop limit = [] := by
  have hnone : ∀ entry ∈ s.entries, ¬ (before entry.1 stop && !before entry.1 start) = true := by
    intro entry _ hbetween
    obtain ⟨hstart, hstop⟩ := between_iff.1 hbetween
    exact List.not_lt.2 (List.le_trans h hstart) hstop
  rw [range_eq, List.filter_eq_nil_iff.2 hnone, List.take_nil]

theorem extensions_eq_range (h : Bytes.ceiling p = some e) :
    s.extensions p = s.range p e s.size := by
  have htest : ∀ entry : Bytes × Bytes,
      p.isPrefixOf entry.1 = (before entry.1 e && !before entry.1 p) := by
    intro entry
    rw [Bool.eq_iff_iff, between_iff, List.isPrefixOf_iff_prefix, Bytes.prefix_iff_between, h]
    simp
  rw [extensions_eq, range_eq, List.filter_congr fun entry _ => htest entry]
  exact (List.take_of_length_le (List.length_filter_le _ _)).symm

/-- What scans return. A scan for a beginning returns all that starts with it, and a scan of a range
the first entries between its bounds, in ascending order. A range up to the least string above all
extensions of a beginning is a scan for the beginning. -/
structure Scans (s : Store) : Prop where
  extensions : ∀ p, s.Selects (p <+: ·) (s.extensions p)
  range : ∀ start stop, ∃ l, s.Selects (fun key => start ≤ key ∧ key < stop) l ∧
    ∀ limit, s.range start stop limit = l.take limit
  range_nil : ∀ start stop limit, stop ≤ start → s.range start stop limit = []
  prefix_iff : ∀ p key : Bytes, p <+: key ↔ p ≤ key ∧ ∀ e, Bytes.ceiling p = some e → key < e
  ceiling_some : ∀ p e, Bytes.ceiling p = some e ↔
    Bytes.Above p e ∧ ∀ b, Bytes.Above p b → e ≤ b
  ceiling_none : ∀ p, Bytes.ceiling p = none ↔ ∀ b, ¬ Bytes.Above p b
  extensions_eq_range : ∀ p e, Bytes.ceiling p = some e → s.extensions p = s.range p e s.size

theorem scans_of_entries (s : Store) : s.Scans where
  extensions := s.selects_extensions
  range := s.exists_range
  range_nil _ _ limit h := range_of_le h limit
  prefix_iff _ _ := Bytes.prefix_iff_between
  ceiling_some _ _ := Bytes.ceiling_eq_some
  ceiling_none _ := Bytes.ceiling_eq_none
  extensions_eq_range _ _ := extensions_eq_range

end Store

end TransferRouter
