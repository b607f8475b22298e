import TransferRouter.Proofs.Store.Disk
import TransferRouter.Proofs.Store.Naming

/-!
Stores that can be read. Under each key is what a writer leaves there: the texts in the key are such
that their ends are found again, the endpoints in it may be routed, and the value is the encoding of
a value of the family of the key, or nothing where the key says it all. Whatever is under such keys
is told apart and read back, and batches of such writes keep a store that way.
-/

namespace TransferRouter

open Codec LawfulCodec

namespace Key

/-- A value that a writer may leave under a key. -/
def MayHold (value : Bytes) : Key → Prop
  | params => ∃ p : Params, p.check = .ok () ∧ value = encode p
  | pausedAction id => id.check = .ok () ∧ value = []
  | pausedProtocol id => id.check = .ok () ∧ value = []
  | pausedRoute protocol counterparty =>
    Fits (⟨protocol, counterparty⟩ : CrossChainId) ∧ value = []
  | sequence => ∃ n : UInt64, value = encode n
  | pending _ => ∃ e : PendingEntry, Fits e ∧ value = encode e
  | pendingByTime .. => value = []
  | traffic source destination denom =>
    (Fits source ∧ Fits destination ∧ Fits denom) ∧ ∃ t : Traffic, value = encode t
  | dispatchCount source destination =>
    (Fits source ∧ Fits destination) ∧ ∃ n : UInt64, value = encode n

theorem MayHold.fits {k : Key} {value : Bytes} (h : k.MayHold value) : Fits k := by
  cases k with
  | pausedRoute => exact h.1.2
  | traffic => exact ⟨h.1.1.2, h.1.2.1.2, h.1.2.2⟩
  | dispatchCount => exact ⟨h.1.1.2, h.1.2.2⟩
  | _ => trivial

/-! ## Reading keys and values -/

/-- Bytes are read as the key of something: the byte in front tells the family, and the rest is
decoded to what the family names. -/
structure ReadsAs (key : Bytes) (k : Key) : Prop where
  family : key.head? = some k.family
  suffix : match k with
    | params | sequence => key.drop 1 = []
    | pausedAction id => decodeAt ActionId key (key.drop 1) = .ok id
    | pausedProtocol id => decodeAt ProtocolId key (key.drop 1) = .ok id
    | pausedRoute protocol counterparty =>
      decodeAt (ProtocolId × String) key (key.drop 1) = .ok (protocol, counterparty)
    | pending hash => PayloadHash.ofBytes? (key.drop 1) = some hash
    | pendingByTime timestamp hash => readTimeKey key = .ok (timestamp, hash)
    | traffic source destination denom =>
      decodeAt (ProtocolId × String × CrossChainId × String) key (key.drop 1) =
        .ok (source.protocol, source.counterparty, destination, denom)
    | dispatchCount source destination =>
      decodeAt (CrossChainId × CrossChainId) key (key.drop 1) = .ok (source, destination)

/-- A value is read as one of the family of a key: parameters, a number, an entry or totals, and
nothing at all for breakers and the time index. -/
def Legible (value : Bytes) (k : Key) : Prop :=
  match k with
  | params => ∃ p, decodeAt Params k.bytes value = .ok p
  | pausedAction _ | pausedProtocol _ | pausedRoute .. | pendingByTime .. => value = []
  | sequence | dispatchCount .. => ∃ n, decodeAt UInt64 k.bytes value = .ok n
  | pending _ => ∃ e, decodeAt PendingEntry k.bytes value = .ok e
  | traffic .. => ∃ t, decodeAt Traffic k.bytes value = .ok t

namespace MayHold

variable {k : Key} {value : Bytes}

theorem readsAs (h : k.MayHold value) : ReadsAs k.bytes k where
  family := head?_bytes k
  suffix := by
    cases k with
    | params | sequence => rfl
    | pausedAction id => exact decodeAt_encode (v := id) trivial _
    | pausedProtocol id => exact decodeAt_encode (v := id) trivial _
    | pausedRoute protocol counterparty =>
      have hfits : Fits (protocol, counterparty) := ⟨trivial, h.1.2⟩
      exact decodeAt_encode hfits _
    | pending hash => exact PayloadHash.ofBytes?_bytes hash
    | pendingByTime timestamp hash => exact readTimeKey_bytes timestamp hash
    | traffic source destination denom =>
      obtain ⟨⟨hsource, hdestination, hdenom⟩, -⟩ := h
      have hfits : Fits (source.protocol, source.counterparty, destination, denom) :=
        ⟨trivial, hsource.2, hdestination, hdenom⟩
      exact decodeAt_encode hfits _
    | dispatchCount source destination =>
      exact decodeAt_encode (v := (source, destination)) h.1 _

theorem legible (h : k.MayHold value) : k.Legible value := by
  cases k with
  | params =>
    obtain ⟨p, -, rfl⟩ := h
    exact ⟨p, decodeAt_encode trivial _⟩
  | pausedAction | pausedProtocol | pausedRoute => exact h.2
  | pendingByTime => exact h
  | sequence =>
    obtain ⟨n, rfl⟩ := h
    exact ⟨n, decodeAt_encode trivial _⟩
  | pending hash =>
    obtain ⟨e, he, rfl⟩ := h
    exact ⟨e, decodeAt_encode he _⟩
  | traffic =>
    obtain ⟨-, t, rfl⟩ := h
    have hfits : Fits t := ⟨trivial, trivial⟩
    exact ⟨t, decodeAt_encode hfits _⟩
  | dispatchCount =>
    obtain ⟨-, n, rfl⟩ := h
    exact ⟨n, decodeAt_encode trivial _⟩

end MayHold

/-- Bytes are read as one key at most. -/
theorem ReadsAs.unique {key : Bytes} {k l : Key} (hk : ReadsAs key k) (hl : ReadsAs key l) :
    k = l := by
  have hfamily : k.family = l.family := Option.some.inj (hk.family.symm.trans hl.family)
  have hsuffix := hk.suffix
  have hsuffix' := hl.suffix
  -- Only the cases in which both are of one family are left.
  cases k <;> cases l <;> try (simp [Key.family] at hfamily; done)
  case params.params => rfl
  case sequence.sequence => rfl
  case pausedAction.pausedAction => rw [Except.ok.inj (hsuffix.symm.trans hsuffix')]
  case pausedProtocol.pausedProtocol => rw [Except.ok.inj (hsuffix.symm.trans hsuffix')]
  case pausedRoute.pausedRoute =>
    obtain ⟨rfl, rfl⟩ := Prod.mk.inj (Except.ok.inj (hsuffix.symm.trans hsuffix'))
    rfl
  case pending.pending => rw [Option.some.inj (hsuffix.symm.trans hsuffix')]
  case pendingByTime.pendingByTime =>
    obtain ⟨rfl, rfl⟩ := Prod.mk.inj (Except.ok.inj (hsuffix.symm.trans hsuffix'))
    rfl
  case traffic.traffic source destination denom source' destination' denom' =>
    obtain ⟨p, c⟩ := source
    obtain ⟨q, d⟩ := source'
    have hparts := Except.ok.inj (hsuffix.symm.trans hsuffix')
    simp only [Prod.mk.injEq] at hparts
    obtain ⟨rfl, rfl, rfl, rfl⟩ := hparts
    rfl
  case dispatchCount.dispatchCount =>
    obtain ⟨rfl, rfl⟩ := Prod.mk.inj (Except.ok.inj (hsuffix.symm.trans hsuffix'))
    rfl

end Key

/-! ## Stores -/

/-- Under each key is what a writer may leave there. -/
def Store.Orderly (s : Store) : Prop :=
  ∀ key value, s.get? key = some value → ∃ k : Key, k.bytes = key ∧ k.MayHold value

/-- A write that keeps a store orderly and does not take the parameters away. -/
def Write.Sound : Write → Prop
  | .put key value => ∃ k : Key, k.bytes = key ∧ k.MayHold value
  | .delete key => key ≠ Key.params.bytes

namespace Store

variable {s : Store}

theorem orderly_of_absent (h : ∀ key, s.get? key = none) : s.Orderly := by
  intro key value hvalue
  rw [h key] at hvalue
  exact absurd hvalue nofun

namespace Orderly

/-- What is under a key is what the family of the key may hold, under the same bytes. -/
theorem family (h : s.Orderly) {key value : Bytes} {front : UInt8} (hkey : key.head? = some front)
    (hvalue : s.get? key = some value) :
    ∃ k : Key, k.family = front ∧ k.bytes = key ∧ k.MayHold value := by
  obtain ⟨k, rfl, hk⟩ := h key value hvalue
  rw [Key.head?_bytes] at hkey
  exact ⟨k, Option.some.inj hkey, rfl, hk⟩

theorem apply (h : s.Orderly) {w : Write} (hw : w.Sound) : (s.apply w).Orderly := by
  intro key value hvalue
  rw [get?_apply] at hvalue
  by_cases hkey : w.key = key
  · rw [if_pos hkey] at hvalue
    cases w with
    | put k v =>
      obtain rfl : v = value := Option.some.inj hvalue
      obtain ⟨l, hl, hmay⟩ := hw
      exact ⟨l, hl.trans hkey, hmay⟩
    | delete k => exact absurd hvalue nofun
  · rw [if_neg hkey] at hvalue
    exact h key value hvalue

theorem applyAll (h : s.Orderly) {batch : List Write} (hbatch : ∀ w ∈ batch, w.Sound) :
    (s.applyAll batch).Orderly := by
  induction batch generalizing s with
  | nil => exact h
  | cons w batch ih =>
    obtain ⟨hw, hbatch⟩ := List.forall_mem_cons.1 hbatch
    exact ih (h.apply hw) hbatch

end Orderly

/-- The parameters stay where they are. -/
theorem contains_params_applyAll {batch : List Write} (hbatch : ∀ w ∈ batch, w.Sound)
    (h : s.contains Key.params.bytes = true) :
    (s.applyAll batch).contains Key.params.bytes = true := by
  induction batch generalizing s with
  | nil => exact h
  | cons w batch ih =>
    obtain ⟨hw, hbatch⟩ := List.forall_mem_cons.1 hbatch
    refine ih hbatch ?_
    rw [OrderedMap.contains, get?_apply]
    split
    next hkey =>
      cases w with
      | put k v => rfl
      | delete k => exact absurd hkey hw
    next => exact h

end Store

/-! ## Disks -/

/-- A disk that never fails, with an orderly store. It has parameters if it was founded. -/
structure Disk.Sound (founded : Prop) (d : Disk) : Prop where
  reliable : d.Reliable
  orderly : d.store.Orderly
  founded : founded → d.store.contains Key.params.bytes = true

end TransferRouter
