import TransferRouter.Order

/-!
Finite maps kept as a list of entries in strictly ascending key order. The order is part of the
type, so two maps with the same answers are the same map and a listing is always sorted.
-/

namespace TransferRouter

/-- A finite map from `κ` to `ν`. -/
structure OrderedMap (κ ν : Type) [StrictOrder κ] where
  entries : List (κ × ν)
  ascending : entries.Pairwise fun a b => StrictOrder.before a.1 b.1 = true

namespace OrderedMap

open StrictOrder

variable {κ ν : Type} [StrictOrder κ]

/-- The map without entries. -/
def empty : OrderedMap κ ν := ⟨[], .nil⟩

instance : Inhabited (OrderedMap κ ν) := ⟨empty⟩

/-- Puts a value under a key into an ascending list, in place of an earlier value under that key. -/
def insertEntry (k : κ) (v : ν) : List (κ × ν) → List (κ × ν)
  | [] => [(k, v)]
  | e :: rest =>
    if before k e.1 then (k, v) :: e :: rest
    else if before e.1 k then e :: insertEntry k v rest
    else (k, v) :: rest

theorem mem_insertEntry {k : κ} {v : ν} {e : κ × ν} {es : List (κ × ν)}
    (h : e ∈ insertEntry k v es) : e = (k, v) ∨ e ∈ es := by
  induction es with
  | nil => exact .inl (List.mem_singleton.1 h)
  | cons d es ih =>
    unfold insertEntry at h
    split at h
    · simpa using h
    · split at h
      · rcases List.mem_cons.1 h with h | h
        · exact .inr (h ▸ List.mem_cons_self)
        · exact (ih h).imp_right (List.mem_cons_of_mem _)
      · rcases List.mem_cons.1 h with h | h
        · exact .inl h
        · exact .inr (List.mem_cons_of_mem _ h)

theorem ascending_insertEntry (k : κ) (v : ν) {es : List (κ × ν)}
    (h : es.Pairwise fun a b => before a.1 b.1 = true) :
    (insertEntry k v es).Pairwise fun a b => before a.1 b.1 = true := by
  induction es with
  | nil => exact List.pairwise_singleton ..
  | cons d es ih =>
    obtain ⟨hd, hes⟩ := List.pairwise_cons.1 h
    unfold insertEntry
    split
    next hk =>
      refine List.pairwise_cons.2 ⟨fun e he => ?_, h⟩
      rcases List.mem_cons.1 he with rfl | he
      · exact hk
      · exact StrictOrder.trans hk (hd e he)
    next hk =>
      split
      next hk' =>
        refine List.pairwise_cons.2 ⟨fun e he => ?_, ih hes⟩
        rcases mem_insertEntry he with rfl | he
        · exact hk'
        · exact hd e he
      next hk' =>
        have : k = d.1 := connex (by simpa using hk) (by simpa using hk')
        refine List.pairwise_cons.2 ⟨fun e he => ?_, hes⟩
        subst this
        exact hd e he

/-- The map with `v` under `k`. -/
def insert (m : OrderedMap κ ν) (k : κ) (v : ν) : OrderedMap κ ν :=
  ⟨insertEntry k v m.entries, ascending_insertEntry k v m.ascending⟩

/-- Two keys neither of which comes first are the same key. -/
def sameKey (k l : κ) : Bool := !before k l && !before l k

theorem sameKey_iff {k l : κ} : sameKey k l = true ↔ k = l := by
  constructor
  · intro h
    simp only [sameKey, Bool.and_eq_true, Bool.not_eq_true'] at h
    exact connex h.1 h.2
  · rintro rfl
    simp [sameKey, StrictOrder.irrefl]

/-- The value under a key. -/
def get? (m : OrderedMap κ ν) (k : κ) : Option ν :=
  (m.entries.find? fun e => sameKey e.1 k).map (·.2)

/-- True when a value is held under the key. -/
def contains (m : OrderedMap κ ν) (k : κ) : Bool := (m.get? k).isSome

/-- The map with nothing under `k`. -/
def erase (m : OrderedMap κ ν) (k : κ) : OrderedMap κ ν :=
  ⟨m.entries.filter fun e => !sameKey e.1 k, m.ascending.filter _⟩

/-- Number of entries. -/
def size (m : OrderedMap κ ν) : Nat := m.entries.length

@[ext] theorem ext {m n : OrderedMap κ ν} (h : m.entries = n.entries) : m = n := by
  cases m; cases n; simp_all

theorem find?_insertEntry (k l : κ) (v : ν) (es : List (κ × ν)) :
    ((insertEntry k v es).find? fun e => sameKey e.1 l).map (·.2) =
      if sameKey k l then some v else (es.find? fun e => sameKey e.1 l).map (·.2) := by
  induction es with
  | nil => cases h : sameKey k l <;> simp [insertEntry, h]
  | cons d es ih =>
    unfold insertEntry
    split
    · cases h : sameKey k l <;> simp [List.find?_cons, h]
    next hk =>
      split
      next hk' =>
        cases hd : sameKey d.1 l with
        | false => simpa [List.find?_cons, hd] using ih
        | true =>
          have hkl : sameKey k l = false := by
            rw [Bool.eq_false_iff]
            intro h
            have := (sameKey_iff.1 hd).trans (sameKey_iff.1 h).symm
            exact ne_of_before hk' this
          simp [hd, hkl]
      next hk' =>
        have : k = d.1 := connex (by simpa using hk) (by simpa using hk')
        subst this
        cases h : sameKey d.1 l <;> simp [h]

theorem get?_insert (m : OrderedMap κ ν) (k l : κ) (v : ν) :
    (m.insert k v).get? l = if sameKey k l then some v else m.get? l :=
  find?_insertEntry k l v m.entries

@[simp] theorem get?_insert_self (m : OrderedMap κ ν) (k : κ) (v : ν) :
    (m.insert k v).get? k = some v := by
  simp [get?_insert, sameKey_iff.2 rfl]

theorem get?_insert_ne {m : OrderedMap κ ν} {k l : κ} {v : ν} (h : k ≠ l) :
    (m.insert k v).get? l = m.get? l := by
  have : sameKey k l = false := by
    rw [Bool.eq_false_iff]
    exact fun h' => h (sameKey_iff.1 h')
  simp [get?_insert, this]

theorem get?_erase (m : OrderedMap κ ν) (k l : κ) :
    (m.erase k).get? l = if sameKey k l then none else m.get? l := by
  simp only [get?, erase, List.find?_filter]
  cases h : sameKey k l with
  | false =>
    have : (fun e : κ × ν => !sameKey e.1 k && sameKey e.1 l) = fun e => sameKey e.1 l := by
      funext e
      cases hl : sameKey e.1 l with
      | false => simp
      | true =>
        have hk : sameKey e.1 k = false := by
          rw [Bool.eq_false_iff]
          intro hk
          rw [← sameKey_iff.1 hk, hl] at h
          exact absurd h (by decide)
        simp [hk]
    simp [this]
  | true =>
    have hkl := sameKey_iff.1 h
    subst hkl
    simp

@[simp] theorem get?_erase_self (m : OrderedMap κ ν) (k : κ) : (m.erase k).get? k = none := by
  simp [get?_erase, sameKey_iff.2 rfl]

theorem get?_erase_ne {m : OrderedMap κ ν} {k l : κ} (h : k ≠ l) :
    (m.erase k).get? l = m.get? l := by
  have : sameKey k l = false := by
    rw [Bool.eq_false_iff]
    exact fun h' => h (sameKey_iff.1 h')
  simp [get?_erase, this]

@[simp] theorem get?_empty (k : κ) : (empty : OrderedMap κ ν).get? k = none := rfl

end OrderedMap

end TransferRouter
