import Mathlib.Logic.Basic
import Mathlib.Tactic.Choose
import TransferRouter.Proofs.Indifference
import TransferRouter.Proofs.Store.Naming

/-!
The statistics are sums. Every dispatch that succeeds gives a receipt, and as long as no total
leaves its range the totals of a route are the sums over its receipts. A receipt that does not fit
in one of its totals is left out altogether, and a dispatch that fails leaves all totals alone.
-/

namespace TransferRouter

open Disk (Apart)
open Transfer (SameSource)

/-! ## Receipts and tallies -/

/-- What a dispatch that succeeded adds to the statistics. -/
structure Receipt where
  source : CrossChainId
  destination : CrossChainId
  incoming : Coin
  outgoing : Coin
  deriving DecidableEq

namespace Receipt

/-- The receipt is for the route from one endpoint to another. -/
def Over (rc : Receipt) (source destination : CrossChainId) : Prop :=
  rc.source = source ∧ rc.destination = destination

instance (rc : Receipt) (source destination : CrossChainId) :
    Decidable (rc.Over source destination) :=
  inferInstanceAs (Decidable (_ ∧ _))

/-- What came in over a route in a denomination. -/
def gotIn (rc : Receipt) (source destination : CrossChainId) (denom : String) : Nat :=
  if rc.Over source destination ∧ rc.incoming.denom = denom then rc.incoming.amount.toNat else 0

/-- What went out over a route in a denomination. -/
def wentOut (rc : Receipt) (source destination : CrossChainId) (denom : String) : Nat :=
  if rc.Over source destination ∧ rc.outgoing.denom = denom then rc.outgoing.amount.toNat else 0

/-- The texts of a receipt can be kept in the store. -/
structure Short (rc : Receipt) : Prop where
  source : Fits rc.source.counterparty
  destination : Fits rc.destination.counterparty
  incoming : Fits rc.incoming.denom
  outgoing : Fits rc.outgoing.denom

end Receipt

/-- The number of dispatches over each route, and what came in and went out in each denomination. -/
structure Tally where
  count : CrossChainId → CrossChainId → Nat
  incoming : CrossChainId → CrossChainId → String → Nat
  outgoing : CrossChainId → CrossChainId → String → Nat

namespace Tally

/-- Nothing was dispatched. -/
def zero : Tally := ⟨fun _ _ => 0, fun _ _ _ => 0, fun _ _ _ => 0⟩

@[simp] theorem zero_count (source destination : CrossChainId) :
    zero.count source destination = 0 := rfl

@[simp] theorem zero_incoming (source destination : CrossChainId) (denom : String) :
    zero.incoming source destination denom = 0 := rfl

@[simp] theorem zero_outgoing (source destination : CrossChainId) (denom : String) :
    zero.outgoing source destination denom = 0 := rfl

/-- The tally with one more receipt. -/
def add (t : Tally) (rc : Receipt) : Tally where
  count source destination :=
    t.count source destination + if rc.Over source destination then 1 else 0
  incoming source destination denom :=
    t.incoming source destination denom + rc.gotIn source destination denom
  outgoing source destination denom :=
    t.outgoing source destination denom + rc.wentOut source destination denom

/-- All totals stay in their range when a receipt is added. -/
structure Takes (t : Tally) (rc : Receipt) : Prop where
  count : t.count rc.source rc.destination + 1 < 2 ^ 64
  incoming : t.incoming rc.source rc.destination rc.incoming.denom + rc.incoming.amount.toNat <
    2 ^ 256
  outgoing : t.outgoing rc.source rc.destination rc.outgoing.denom + rc.outgoing.amount.toNat <
    2 ^ 256

instance (t : Tally) (rc : Receipt) : Decidable (t.Takes rc) :=
  decidable_of_iff (_ ∧ _ ∧ _) ⟨fun h => ⟨h.1, h.2.1, h.2.2⟩, fun h => ⟨h.1, h.2, h.3⟩⟩

/-- The tally after a receipt, which is added if all totals stay in their range. -/
def record (t : Tally) (rc : Receipt) : Tally := if t.Takes rc then t.add rc else t

end Tally

/-! ## Totals in the store -/

/-- What is stored under a key, and if there is nothing a default. -/
def Store.stored {α : Type} [Codec α] (store : Store) (key : Key) (default : α) :
    Except StoreFault α :=
  match store.get? key.bytes with
  | none => .ok default
  | some s => Codec.decodeAt α key.bytes s

/-- The totals in a store are those of a tally. -/
structure Tally.In (t : Tally) (store : Store) : Prop where
  count : ∀ source destination, Fits (Key.dispatchCount source destination) → ∃ n : UInt64,
    store.stored (.dispatchCount source destination) 0 = .ok n ∧
      n.toNat = t.count source destination
  traffic : ∀ source destination denom, Fits (Key.traffic source destination denom) →
    ∃ sum : Traffic, store.stored (.traffic source destination denom) .none = .ok sum ∧
      sum.incoming.toNat = t.incoming source destination denom ∧
      sum.outgoing.toNat = t.outgoing source destination denom

section

variable {w : World} {source destination : CrossChainId} {denom : String}

theorem read_getD_run {α : Type} [Codec α] {key : Key} {default a : α} (hw : w.disk.Readable)
    (h : w.disk.store.stored key default = .ok a) :
    (do return (← RouterM.read α key).getD default : RouterM α) w = .ok a w := by
  unfold Store.stored at h
  split at h
  next habsent =>
    obtain rfl := Except.ok.inj h
    exact bind_of_ok (read_of_absent hw habsent)
  next s hpresent =>
    have hread := read_of_present (α := α) hw hpresent
    rw [h] at hread
    exact bind_of_ok hread

theorem dispatches_run (hw : w.disk.Readable) {n : UInt64}
    (h : w.disk.store.stored (.dispatchCount source destination) 0 = .ok n) :
    Statistics.dispatches source destination w = .ok n w :=
  read_getD_run hw h

theorem traffic_run (hw : w.disk.Readable) {sum : Traffic}
    (h : w.disk.store.stored (.traffic source destination denom) .none = .ok sum) :
    Statistics.traffic source destination denom w = .ok sum w :=
  read_getD_run hw h

/-- What the statistics answer is what a tally tells. -/
structure World.Tells (w : World) (t : Tally) : Prop where
  dispatches : ∀ source destination, Fits source.counterparty → Fits destination.counterparty →
    ∃ n, Statistics.dispatches source destination w = .ok n w ∧
      n.toNat = t.count source destination
  traffic : ∀ source destination denom, Fits source.counterparty →
    Fits destination.counterparty → Fits denom →
    ∃ sum, Statistics.traffic source destination denom w = .ok sum w ∧
      sum.incoming.toNat = t.incoming source destination denom ∧
      sum.outgoing.toNat = t.outgoing source destination denom

theorem Tally.In.tells {t : Tally} (h : t.In w.disk.store) (hw : w.disk.Readable) :
    w.Tells t where
  dispatches source destination hsource hdestination := by
    obtain ⟨n, hstored, hn⟩ := h.count source destination ⟨hsource, hdestination⟩
    exact ⟨n, dispatches_run hw hstored, hn⟩
  traffic source destination denom hsource hdestination hdenom := by
    obtain ⟨sum, hstored, hsum⟩ :=
      h.traffic source destination denom ⟨hsource, hdestination, hdenom⟩
    exact ⟨sum, traffic_run hw hstored, hsum⟩

theorem Tally.In.of_same {t : Tally} {store store' : Store} (h : t.In store)
    (hsame : ∀ key, Statistics.IsTotal key → store'.get? key = store.get? key) : t.In store' where
  count source destination hfits := by
    have hkey := hsame (Key.dispatchCount source destination).bytes (.inr rfl)
    have hcount := h.count source destination hfits
    unfold Store.stored at hcount ⊢
    rwa [hkey]
  traffic source destination denom hfits := by
    have hkey := hsame (Key.traffic source destination denom).bytes (.inl rfl)
    have htraffic := h.traffic source destination denom hfits
    unfold Store.stored at htraffic ⊢
    rwa [hkey]

theorem Tally.in_empty {store : Store}
    (h : ∀ key, Statistics.IsTotal key → store.get? key = none) : Tally.zero.In store where
  count source destination _ := by
    refine ⟨0, ?_, rfl⟩
    rw [Store.stored, h _ (.inr rfl)]
  traffic source destination denom _ := by
    refine ⟨.none, ?_, rfl, rfl⟩
    rw [Store.stored, h _ (.inl rfl)]

end

/-! ## One receipt -/

namespace Traffic

instance : Inhabited Traffic := ⟨none⟩

/-- The denominations of a transfer. -/
def denoms (t : Transfer) : List String :=
  if t.sourceDenom = t.destinationDenom then [t.sourceDenom]
  else [t.sourceDenom, t.destinationDenom]

/-- The traffic of a transfer in one denomination. -/
def share (t : Transfer) (denom : String) : Traffic where
  incoming := if t.sourceDenom = denom then t.sourceAmount else .zero
  outgoing := if t.destinationDenom = denom then t.destinationAmount else .zero

theorem ofTransfer_eq (t : Transfer) :
    ofTransfer t = (denoms t).map fun denom => (denom, share t denom) := by
  unfold ofTransfer denoms
  split
  next h => simp [share, h]
  next h => simp [share, h, Ne.symm h]

theorem mem_denoms {t : Transfer} {denom : String} :
    denom ∈ denoms t ↔ t.sourceDenom = denom ∨ t.destinationDenom = denom := by
  unfold denoms
  split
  next h => simp [h, eq_comm]
  next => simp [eq_comm]

theorem add_of_lt {a b : Traffic} (hin : a.incoming.toNat + b.incoming.toNat < Amount.size)
    (hout : a.outgoing.toNat + b.outgoing.toNat < Amount.size) :
    a.add b = .ok ⟨⟨_, hin⟩, ⟨_, hout⟩⟩ := by
  simp only [add, Amount.add?, Amount.ofNat?, dif_pos hin, dif_pos hout]

theorem add_of_not_lt {a b : Traffic} (h : ¬ (a.incoming.toNat + b.incoming.toNat < Amount.size ∧
    a.outgoing.toNat + b.outgoing.toNat < Amount.size)) : ∃ e, a.add b = .error e := by
  unfold add Amount.add? Amount.ofNat?
  by_cases hin : a.incoming.toNat + b.incoming.toNat < Amount.size
  · have hout : ¬ a.outgoing.toNat + b.outgoing.toNat < Amount.size := fun hout => h ⟨hin, hout⟩
    simp only [dif_pos hin, dif_neg hout]
    exact ⟨_, rfl⟩
  · simp only [dif_neg hin]
    exact ⟨_, rfl⟩

end Traffic

namespace Statistics

variable {w : World} {source destination : CrossChainId} {denoms : List String}
  {current gain total : String → Traffic}

theorem additions_run (hw : w.disk.Readable)
    (hcurrent : ∀ denom ∈ denoms,
      w.disk.store.stored (.traffic source destination denom) .none = .ok (current denom))
    (htotal : ∀ denom ∈ denoms, (current denom).add (gain denom) = .ok (total denom)) :
    additions source destination (denoms.map fun denom => (denom, gain denom)) w =
      .ok (denoms.map fun denom =>
        .put (Key.traffic source destination denom).bytes (Codec.encode (total denom))) w := by
  induction denoms with
  | nil => rfl
  | cons denom rest ih =>
    obtain ⟨hread, hreads⟩ := List.forall_mem_cons.1 hcurrent
    obtain ⟨hadd, hadds⟩ := List.forall_mem_cons.1 htotal
    refine (bind_of_ok (traffic_run hw hread)).trans ?_
    rw [hadd]
    refine (bind_of_ok (settle_run _ w)).trans ?_
    exact bind_of_ok (ih hreads hadds)

/-- One total that would leave its range is enough for all to be left alone. -/
theorem additions_refused (hw : w.disk.Readable)
    (hcurrent : ∀ denom ∈ denoms,
      w.disk.store.stored (.traffic source destination denom) .none = .ok (current denom))
    (herror : ∃ denom ∈ denoms, ∃ e, (current denom).add (gain denom) = .error e) :
    ∃ e, additions source destination (denoms.map fun denom => (denom, gain denom)) w =
      .error e w := by
  induction denoms with
  | nil =>
    obtain ⟨_, hmem, -⟩ := herror
    exact absurd hmem List.not_mem_nil
  | cons denom rest ih =>
    obtain ⟨hread, hreads⟩ := List.forall_mem_cons.1 hcurrent
    cases hadd : (current denom).add (gain denom) with
    | error e =>
      refine ⟨e, (bind_of_ok (traffic_run hw hread)).trans ?_⟩
      rw [hadd]
      rfl
    | ok total =>
      obtain ⟨refused, hmem, e, hrefused⟩ := herror
      rcases List.mem_cons.1 hmem with rfl | hmem
      · rw [hadd] at hrefused
        exact absurd hrefused nofun
      · obtain ⟨e, he⟩ := ih hreads ⟨refused, hmem, e, hrefused⟩
        refine ⟨e, (bind_of_ok (traffic_run hw hread)).trans ?_⟩
        rw [hadd]
        exact (bind_of_ok (settle_run _ w)).trans (bind_of_error he)

/-- The writes that replace totals of a route. -/
def batch (source destination : CrossChainId) (denoms : List String) (total : String → Traffic)
    (count : UInt64) : List Write :=
  denoms.map (fun denom =>
      .put (Key.traffic source destination denom).bytes (Codec.encode (total denom))) ++
    [.put (Key.dispatchCount source destination).bytes (Codec.encode count)]

theorem mem_batch {count : UInt64} {x : Write}
    (h : x ∈ batch source destination denoms total count) :
    (∃ denom ∈ denoms, x =
      .put (Key.traffic source destination denom).bytes (Codec.encode (total denom))) ∨
        x = .put (Key.dispatchCount source destination).bytes (Codec.encode count) := by
  rcases List.mem_append.1 h with h | h
  · obtain ⟨denom, hmem, rfl⟩ := List.mem_map.1 h
    exact .inl ⟨denom, hmem, rfl⟩
  · exact .inr (List.mem_singleton.1 h)

section

variable {store : Store} {count : UInt64}

theorem stored_of_get? {α : Type} [Codec α] [Storable α] [LawfulCodec α] {key : Key}
    {v default : α} (hv : Fits v) (h : store.get? key.bytes = some (Codec.encode v)) :
    store.stored key default = .ok v := by
  rw [Store.stored, h]
  exact LawfulCodec.decodeAt_encode hv key.bytes

theorem traffic_ne_count {denom : String} : (Key.traffic source destination denom).bytes ≠
    (Key.dispatchCount source destination).bytes :=
  Key.bytes_ne_of_family (by simp [Key.family])

theorem stored_batch_count :
    (store.applyAll (batch source destination denoms total count)).stored
      (.dispatchCount source destination) 0 = .ok count := by
  refine stored_of_get? trivial (Store.get?_applyAll_of_mem (List.mem_append_right _ ?_) ?_)
  · exact List.mem_singleton_self _
  · intro x hx hkey
    rcases mem_batch hx with ⟨denom, -, rfl⟩ | rfl
    · exact absurd hkey traffic_ne_count
    · rfl

variable (hfits : ∀ denom ∈ denoms, Fits (Key.traffic source destination denom))

include hfits

theorem stored_batch_traffic {denom : String} (hmem : denom ∈ denoms) :
    (store.applyAll (batch source destination denoms total count)).stored
      (.traffic source destination denom) .none = .ok (total denom) := by
  refine stored_of_get? (show Fits (total denom) from ⟨trivial, trivial⟩)
    (Store.get?_applyAll_of_mem (List.mem_append_left _ (List.mem_map_of_mem hmem)) ?_)
  intro x hx hkey
  rcases mem_batch hx with ⟨other, hother, rfl⟩ | rfl
  · obtain ⟨-, -, rfl⟩ := Key.traffic_inj (hfits _ hother) (hfits _ hmem) hkey
    rfl
  · exact absurd hkey.symm traffic_ne_count

/-- Keys of other things are left alone. -/
theorem stored_batch_other {α : Type} [Codec α] {key : Key} {default : α} (hkey : Fits key)
    (hcount : key ≠ .dispatchCount source destination)
    (htraffic : ∀ denom ∈ denoms, key ≠ .traffic source destination denom)
    (hroute : Fits (Key.dispatchCount source destination)) :
    (store.applyAll (batch source destination denoms total count)).stored key default =
      store.stored key default := by
  have hget : (store.applyAll (batch source destination denoms total count)).get? key.bytes =
      store.get? key.bytes := by
    refine Store.get?_applyAll_of_forall_ne fun x hx => ?_
    rcases mem_batch hx with ⟨denom, hmem, rfl⟩ | rfl
    · exact Key.bytes_ne (hfits denom hmem) hkey (htraffic denom hmem).symm
    · exact Key.bytes_ne hroute hkey hcount.symm
  rw [Store.stored, Store.stored, hget]

end

/-! ### The record of a transfer -/

theorem countDispatch_of_lt {n : UInt64} (h : n.toNat + 1 < 2 ^ 64) :
    ∃ m, countDispatch n = .ok m ∧ m.toNat = n.toNat + 1 := by
  refine ⟨n + 1, ?_, ?_⟩
  · rw [countDispatch, successor?, if_pos (show n.toNat + 1 < UInt64.size from h)]
  · rw [UInt64.toNat_add]
    exact Nat.mod_eq_of_lt h

theorem countDispatch_of_not_lt {n : UInt64} (h : ¬ n.toNat + 1 < 2 ^ 64) :
    countDispatch n = .error (.overflow .dispatchCount) := by
  rw [countDispatch, successor?, if_neg (show ¬ n.toNat + 1 < UInt64.size from h)]

variable {transfer : Transfer} {t : Tally}

/-- The receipt for a transfer over a route. -/
def receipt (source destination : CrossChainId) (transfer : Transfer) : Receipt :=
  ⟨source, destination, transfer.sourceCoin, transfer.destinationCoin⟩

theorem share_incoming (denom : String) : (Traffic.share transfer denom).incoming.toNat =
    (receipt source destination transfer).gotIn source destination denom := by
  by_cases h : transfer.sourceDenom = denom <;>
    simp [Traffic.share, Receipt.gotIn, Receipt.Over, receipt, Transfer.sourceCoin, Amount.zero, h]

theorem share_outgoing (denom : String) : (Traffic.share transfer denom).outgoing.toNat =
    (receipt source destination transfer).wentOut source destination denom := by
  by_cases h : transfer.destinationDenom = denom <;>
    simp [Traffic.share, Receipt.wentOut, Receipt.Over, receipt, Transfer.destinationCoin,
      Amount.zero, h]

/-- A receipt is taken when there is room in the count and in the totals of its denominations. -/
theorem takes_iff
    (hin : ∀ denom ∈ Traffic.denoms transfer,
      (current denom).incoming.toNat = t.incoming source destination denom)
    (hout : ∀ denom ∈ Traffic.denoms transfer,
      (current denom).outgoing.toNat = t.outgoing source destination denom) :
    t.Takes (receipt source destination transfer) ↔
      t.count source destination + 1 < 2 ^ 64 ∧ ∀ denom ∈ Traffic.denoms transfer,
        (current denom).incoming.toNat + (Traffic.share transfer denom).incoming.toNat <
          Amount.size ∧
        (current denom).outgoing.toNat + (Traffic.share transfer denom).outgoing.toNat <
          Amount.size := by
  have hsize : (2 : Nat) ^ 256 = Amount.size := by decide
  constructor
  · rintro ⟨hcount, hincoming, houtgoing⟩
    rw [hsize] at hincoming houtgoing
    refine ⟨hcount, fun denom hmem => ⟨?_, ?_⟩⟩
    · by_cases h : transfer.sourceDenom = denom
      · rw [hin denom hmem]
        subst h
        simpa [Traffic.share, receipt, Transfer.sourceCoin] using hincoming
      · simpa [Traffic.share, h, Amount.zero] using (current denom).incoming.isLt
    · by_cases h : transfer.destinationDenom = denom
      · rw [hout denom hmem]
        subst h
        simpa [Traffic.share, receipt, Transfer.destinationCoin] using houtgoing
      · simpa [Traffic.share, h, Amount.zero] using (current denom).outgoing.isLt
  · rintro ⟨hcount, hall⟩
    have hsource : transfer.sourceDenom ∈ Traffic.denoms transfer :=
      Traffic.mem_denoms.2 (.inl rfl)
    have hdestination : transfer.destinationDenom ∈ Traffic.denoms transfer :=
      Traffic.mem_denoms.2 (.inr rfl)
    refine ⟨hcount, ?_, ?_⟩ <;> rw [hsize]
    · have hlt := (hall _ hsource).1
      rw [hin _ hsource] at hlt
      simpa [Traffic.share, receipt, Transfer.sourceCoin] using hlt
    · have hlt := (hall _ hdestination).2
      rw [hout _ hdestination] at hlt
      simpa [Traffic.share, receipt, Transfer.destinationCoin] using hlt

/-- The keys of the totals of a receipt can be held. -/
theorem fits_of_short (h : (receipt source destination transfer).Short) :
    Fits (Key.dispatchCount source destination) ∧ ∀ denom ∈ Traffic.denoms transfer,
      Fits (Key.traffic source destination denom) := by
  refine ⟨⟨h.source, h.destination⟩, fun denom hmem => ⟨h.source, h.destination, ?_⟩⟩
  rcases Traffic.mem_denoms.1 hmem with rfl | rfl
  · exact h.incoming
  · exact h.outgoing

/-- New totals of a route in a store make one more receipt of its tally. -/
theorem in_batch {store : Store} {count : UInt64} (hin : t.In store)
    (hshort : (receipt source destination transfer).Short)
    (hcount : count.toNat = t.count source destination + 1)
    (hincoming : ∀ denom ∈ Traffic.denoms transfer, (total denom).incoming.toNat =
      t.incoming source destination denom + (Traffic.share transfer denom).incoming.toNat)
    (houtgoing : ∀ denom ∈ Traffic.denoms transfer, (total denom).outgoing.toNat =
      t.outgoing source destination denom + (Traffic.share transfer denom).outgoing.toNat) :
    (t.add (receipt source destination transfer)).In
      (store.applyAll (batch source destination (Traffic.denoms transfer) total count)) := by
  obtain ⟨hroute, hfits⟩ := fits_of_short hshort
  constructor
  · intro source' destination' hkey
    by_cases hover : source = source' ∧ destination = destination'
    · obtain ⟨rfl, rfl⟩ := hover
      exact ⟨count, stored_batch_count, by simp [Tally.add, Receipt.Over, receipt, hcount]⟩
    · have hne : Key.dispatchCount source' destination' ≠ .dispatchCount source destination := by
        rintro ⟨⟩
        exact hover ⟨rfl, rfl⟩
      rw [stored_batch_other hfits hkey hne (fun _ _ => nofun) hroute]
      obtain ⟨n, hstored, hn⟩ := hin.count source' destination' hkey
      exact ⟨n, hstored, by simp [Tally.add, Receipt.Over, receipt, hover, hn]⟩
  · intro source' destination' denom hkey
    by_cases hmem : (source = source' ∧ destination = destination') ∧
        denom ∈ Traffic.denoms transfer
    · obtain ⟨⟨rfl, rfl⟩, hmem⟩ := hmem
      refine ⟨total denom, stored_batch_traffic hfits hmem, ?_, ?_⟩
      · rw [hincoming denom hmem, share_incoming]
        rfl
      · rw [houtgoing denom hmem, share_outgoing]
        rfl
    · have hne : ∀ other ∈ Traffic.denoms transfer,
          Key.traffic source' destination' denom ≠ .traffic source destination other := by
        rintro other hother ⟨⟩
        exact hmem ⟨⟨rfl, rfl⟩, hother⟩
      rw [stored_batch_other hfits hkey nofun hne hroute]
      obtain ⟨sum, hstored, hsum⟩ := hin.traffic source' destination' denom hkey
      -- A receipt says nothing about other routes and other denominations.
      have hgot : (receipt source destination transfer).gotIn source' destination' denom = 0 :=
        if_neg fun h => hmem ⟨h.1, Traffic.mem_denoms.2 (.inl h.2)⟩
      have hwent : (receipt source destination transfer).wentOut source' destination' denom = 0 :=
        if_neg fun h => hmem ⟨h.1, Traffic.mem_denoms.2 (.inr h.2)⟩
      refine ⟨sum, hstored, ?_⟩
      simpa only [Tally.add, hgot, hwent, Nat.add_zero] using hsum

section

variable (hw : w.disk.Reliable) (hin : t.In w.disk.store) (hsource : transfer.source = .ok source)
  (hshort : (receipt source destination transfer).Short)

include hw hin hsource hshort

theorem record_of_takes (h : t.Takes (receipt source destination transfer)) :
    ∃ w', record transfer destination w = .ok () w' ∧
      (t.add (receipt source destination transfer)).In w'.disk.store := by
  obtain ⟨hroute, hfits⟩ := fits_of_short hshort
  obtain ⟨n, hn, hcount⟩ := hin.count source destination hroute
  choose! current hcurrent hin' hout' using fun denom hmem =>
    hin.traffic source destination denom (hfits denom hmem)
  obtain ⟨hlt, hall⟩ := (takes_iff hin' hout').1 h
  obtain ⟨m, hm, hm'⟩ := countDispatch_of_lt (hcount ▸ hlt)
  have hsums : ∀ denom ∈ Traffic.denoms transfer, ∃ sum : Traffic,
      (current denom).add (Traffic.share transfer denom) = .ok sum ∧
        sum.incoming.toNat = (current denom).incoming.toNat +
          (Traffic.share transfer denom).incoming.toNat ∧
        sum.outgoing.toNat = (current denom).outgoing.toNat +
          (Traffic.share transfer denom).outgoing.toNat := fun denom hmem =>
    ⟨_, Traffic.add_of_lt (hall denom hmem).1 (hall denom hmem).2, rfl, rfl⟩
  choose! total htotal hincoming houtgoing using hsums
  refine ⟨{ w with disk := ⟨w.disk.store.applyAll
    (batch source destination (Traffic.denoms transfer) total m), w.disk.faults⟩ }, ?_, ?_⟩
  · rw [record, bind_of_ok (checked_run hsource w), Traffic.ofTransfer_eq,
      bind_of_ok (additions_run hw.readable hcurrent htotal),
      bind_of_ok (dispatches_run hw.readable hn), hm, bind_of_ok (settle_run m w)]
    exact onDisk_run (Disk.write_run (hw .batch) _)
  · refine in_batch hin hshort (hm'.trans (congrArg (· + 1) hcount)) ?_ ?_
    · intro denom hmem
      rw [hincoming denom hmem, hin' denom hmem]
    · intro denom hmem
      rw [houtgoing denom hmem, hout' denom hmem]

/-- A receipt that is not taken leaves everything as it was. -/
theorem record_of_not_takes (h : ¬ t.Takes (receipt source destination transfer)) :
    ∃ e, record transfer destination w = .error e w := by
  obtain ⟨hroute, hfits⟩ := fits_of_short hshort
  obtain ⟨n, hn, hcount⟩ := hin.count source destination hroute
  choose! current hcurrent hin' hout' using fun denom hmem =>
    hin.traffic source destination denom (hfits denom hmem)
  rw [takes_iff hin' hout'] at h
  rw [record, bind_of_ok (checked_run hsource w), Traffic.ofTransfer_eq]
  by_cases hall : ∀ denom ∈ Traffic.denoms transfer,
      (current denom).incoming.toNat + (Traffic.share transfer denom).incoming.toNat <
        Amount.size ∧
      (current denom).outgoing.toNat + (Traffic.share transfer denom).outgoing.toNat < Amount.size
  · have hfull : ¬ n.toNat + 1 < 2 ^ 64 := fun hlt => h ⟨hcount ▸ hlt, hall⟩
    have hsums : ∀ denom ∈ Traffic.denoms transfer, ∃ sum : Traffic,
        (current denom).add (Traffic.share transfer denom) = .ok sum := fun denom hmem =>
      ⟨_, Traffic.add_of_lt (hall denom hmem).1 (hall denom hmem).2⟩
    choose! total htotal using hsums
    rw [bind_of_ok (additions_run hw.readable hcurrent htotal),
      bind_of_ok (dispatches_run hw.readable hn), countDispatch_of_not_lt hfull]
    exact ⟨_, rfl⟩
  · obtain ⟨denom, hdenom⟩ := not_forall.1 hall
    obtain ⟨hmem, hover⟩ := Classical.not_imp.1 hdenom
    obtain ⟨e, he⟩ := Traffic.add_of_not_lt hover
    obtain ⟨e', he'⟩ := additions_refused hw.readable hcurrent ⟨denom, hmem, e, he⟩
    exact ⟨e', bind_of_error he'⟩

end

end Statistics

/-! ## Dispatches -/

section

variable (execute : Action → StageM Unit) (forward : ForwardingPacket → RouterM Unit)
variable (payload : Payload)

/-- All of a dispatch but its record. -/
def carryOut : StageM (Transfer × CrossChainId) := do
  let destination ← screening payload
  executeAll execute payload.preActions
  let transfer ← forwarding forward payload
  return (transfer, destination)

theorem dispatch_eq_carryOut : dispatch execute forward payload =
    carryOut execute forward payload >>= fun p =>
      StageM.onWorld (RouterM.attempt (Statistics.record p.1 p.2)) := by
  unfold dispatch carryOut screening forwarding
  simp only [bind_assoc, pure_bind]

variable {execute forward payload}

theorem screening_ok {s s' : Stage} {destination : CrossChainId}
    (h : screening payload s = .ok destination s') :
    s.transfer.check = .ok () ∧ payload.forwarding.destination = .ok destination ∧ s' = s := by
  obtain ⟨_, u, hget, h₁⟩ := bind_eq_ok.1 h
  obtain ⟨rfl, rfl⟩ := get_eq_ok.1 hget
  obtain ⟨_, u, htransfer, h₂⟩ := bind_eq_ok.1 h₁
  obtain ⟨htransfer', rfl⟩ := settle_eq_ok.1 htransfer
  obtain ⟨_, u, hpayload, h₃⟩ := bind_eq_ok.1 h₂
  obtain ⟨-, rfl⟩ := settle_eq_ok.1 hpayload
  obtain ⟨hdestination, rfl⟩ := settle_eq_ok.1 h₃
  exact ⟨htransfer', hdestination, rfl⟩

theorem carryOut_ok {s s' : Stage} {p : Transfer × CrossChainId}
    (h : carryOut execute forward payload s = .ok p s') :
    s.transfer.check = .ok () ∧ payload.forwarding.destination = .ok p.2 ∧ s'.transfer = p.1 := by
  obtain ⟨destination, u, hscreening, h₁⟩ := bind_eq_ok.1 h
  obtain ⟨htransfer, hdestination, rfl⟩ := screening_ok hscreening
  obtain ⟨_, v, -, h₂⟩ := bind_eq_ok.1 h₁
  obtain ⟨transfer, v', hforwarding, h₃⟩ := bind_eq_ok.1 h₂
  obtain ⟨rfl, rfl⟩ := pure_eq_ok.1 h₃
  obtain ⟨_, x, hget, h₄⟩ := bind_eq_ok.1 hforwarding
  obtain ⟨rfl, rfl⟩ := get_eq_ok.1 hget
  obtain ⟨_, y, hwrapped, h₅⟩ := bind_eq_ok.1 h₄
  obtain ⟨rfl, rfl⟩ := pure_eq_ok.1 h₅
  obtain ⟨_, hworld, rfl⟩ := zoom_eq_ok.1 hwrapped
  obtain ⟨_, -, rfl⟩ := zoom_eq_ok.1 hworld
  exact ⟨htransfer, hdestination, rfl⟩

end

/-- The totals, where the transfer came from, and texts that can be kept in the store are left. -/
structure Stage.Uncounted (s s' : Stage) : Prop where
  disk : Apart Statistics.IsTotal s.world.disk s'.world.disk
  source : SameSource s.transfer s'.transfer
  denom : Fits s.transfer.destinationDenom → Fits s'.transfer.destinationDenom

instance : IsPreorder Stage Stage.Uncounted where
  refl _ := ⟨refl_of (Apart Statistics.IsTotal) _, refl_of SameSource _, id⟩
  trans _ _ _ h h' := ⟨trans_of (Apart Statistics.IsTotal) h.disk h'.disk,
    trans_of SameSource h.source h'.source, h'.denom ∘ h.denom⟩

/-- A dispatch that is asked for, with the handlers that it uses. -/
structure Errand where
  transfer : Transfer
  payload : Payload
  execute : Action → StageM Unit
  forward : ForwardingPacket → RouterM Unit

namespace Errand

variable {e : Errand} {w : World} {t : Tally}

/-- The endpoint that the transfer comes from. -/
def source (e : Errand) : CrossChainId := ⟨e.transfer.sourceProtocol, e.transfer.sourceCounterparty⟩

/-- The endpoint that the payload goes to. -/
def destination (e : Errand) : CrossChainId :=
  ⟨e.payload.forwarding.protocol, e.payload.forwarding.attributes.counterparty⟩

def run (e : Errand) (w : World) : EStateM.Result RouterError Stage Unit :=
  dispatch e.execute e.forward e.payload ⟨w, e.transfer⟩

/-- The world after a dispatch, whether it succeeds or fails. -/
def after (w : World) (e : Errand) : World :=
  match e.run w with
  | .ok _ s | .error _ s => s.world

/-- The receipt for a dispatch, if it succeeds. -/
def receipt? (e : Errand) (w : World) : Option Receipt :=
  match e.run w with
  | .ok _ s => some ⟨e.source, e.destination, e.transfer.sourceCoin, s.transfer.destinationCoin⟩
  | .error .. => none

/-- The receipts for the dispatches of a sequence that succeed. -/
def receipts : World → List Errand → List Receipt
  | _, [] => []
  | w, e :: es => (e.receipt? w).toList ++ receipts (after w e) es

/-- Handlers that do not touch the totals or where the transfer comes from, and short texts. -/
structure Honest (e : Errand) : Prop where
  execute : ∀ action ∈ e.payload.preActions, Keeps Stage.Uncounted (e.execute action)
  forward : ∀ packet,
    Keeps (fun w w' => Apart Statistics.IsTotal w.disk w'.disk) (e.forward packet)
  source : Fits e.transfer.sourceCounterparty
  destination : Fits e.payload.forwarding.attributes.counterparty
  incoming : Fits e.transfer.sourceDenom
  outgoing : Fits e.transfer.destinationDenom

theorem Honest.keeps_carryOut (he : e.Honest) :
    Keeps Stage.Uncounted (carryOut e.execute e.forward e.payload) := by
  have hscreening : Keeps Stage.Uncounted (screening e.payload) :=
    Keeps.get.bind fun _ => (Keeps.checked _).bind fun _ => (Keeps.checked _).bind fun _ =>
      Keeps.checked _
  have hforwarding : Keeps Stage.Uncounted (forwarding e.forward e.payload) := by
    refine Keeps.get.bind fun _ => Keeps.bind (Keeps.wrapping ?_) fun _ => Keeps.pure _
    exact (he.forward _).zoom fun s _ h => ⟨h, refl_of SameSource s.transfer, id⟩
  have hactions := keeps_executeAll_in
    (fun _ _ h => ⟨h.disk, refl_of SameSource _, id⟩) he.execute
  exact hscreening.bind fun _ => hactions.bind fun _ => hforwarding.bind fun _ => Keeps.pure _

theorem source_ok (htransfer : e.transfer.check = .ok ()) :
    e.transfer.source = .ok e.source := by
  obtain ⟨hprotocol, hcounterparty, -⟩ := Transfer.check_eq_ok.1 htransfer
  have hcheck : e.source.check = .ok () := CrossChainId.check_eq_ok.2 ⟨hprotocol, hcounterparty⟩
  exact CrossChainId.make_eq_ok hcheck

theorem destination_eq {destination : CrossChainId}
    (h : e.payload.forwarding.destination = .ok destination) : destination = e.destination := by
  obtain ⟨-, hid⟩ := check_then_eq_ok.1 h
  exact (Except.ok.inj hid).symm

/-- What is known of a transfer when it comes to be recorded. -/
structure Brings (e : Errand) (transfer : Transfer) : Prop where
  source : transfer.source = .ok e.source
  destination : e.destination.check = .ok ()
  receipt : Statistics.receipt e.source e.destination transfer =
    ⟨e.source, e.destination, e.transfer.sourceCoin, transfer.destinationCoin⟩
  short : (Statistics.receipt e.source e.destination transfer).Short

theorem Honest.brings (he : e.Honest) {transfer : Transfer} {destination : CrossChainId}
    {s : Stage} (h : carryOut e.execute e.forward e.payload ⟨w, e.transfer⟩ =
      .ok (transfer, destination) s) :
    s.transfer = transfer ∧ destination = e.destination ∧ e.Brings transfer := by
  obtain ⟨htransfer, hdestination, hleft⟩ := carryOut_ok h
  obtain rfl : s.transfer = transfer := hleft
  have hkept := he.keeps_carryOut.ok h
  have hdenom : s.transfer.sourceCoin.denom = e.transfer.sourceDenom :=
    congrArg Coin.denom hkept.source.coin
  have hincoming : Fits s.transfer.sourceCoin.denom := hdenom ▸ he.incoming
  refine ⟨rfl, destination_eq hdestination, ?_⟩
  obtain ⟨rfl, hvalid⟩ := CrossChainId.make_ok hdestination
  exact {
    source := hkept.source.endpoint.trans (source_ok htransfer)
    destination := hvalid
    receipt := by rw [Statistics.receipt, hkept.source.coin]
    short := ⟨he.source, he.destination, hincoming, hkept.denom he.outgoing⟩ }

/-- The record of what was carried out ends a dispatch, whether it succeeds or fails. -/
theorem run_of_carryOut {p : Transfer × CrossChainId} {s : Stage} {v : World}
    (h : carryOut e.execute e.forward e.payload ⟨w, e.transfer⟩ = .ok p s)
    (hrecord : RouterM.attempt (Statistics.record p.1 p.2) s.world = .ok () v) :
    e.run w = .ok () ⟨v, s.transfer⟩ := by
  rw [run, dispatch_eq_carryOut, bind_of_ok h]
  exact zoom_eq_ok.2 ⟨v, hrecord, rfl⟩

/-- What a dispatch does to the totals of a store whose content is that of a tally. -/
def Counts (e : Errand) (t : Tally) (w : World) : Prop :=
  match e.receipt? w with
  | none => Apart Statistics.IsTotal w.disk (after w e).disk
  | some rc =>
    if t.Takes rc then (t.add rc).In (after w e).disk.store
    else Apart Statistics.IsTotal w.disk (after w e).disk

theorem Honest.counts (he : e.Honest) (hw : w.disk.Reliable) (hin : t.In w.disk.store) :
    e.Counts t w ∧ (after w e).disk.Reliable := by
  cases hrun : carryOut e.execute e.forward e.payload ⟨w, e.transfer⟩ with
  | error error s =>
    have hfails : e.run w = .error error s := by
      rw [run, dispatch_eq_carryOut, bind_of_error hrun]
    have hkept := he.keeps_carryOut.error hrun
    simp only [Counts, receipt?, after, hfails]
    exact ⟨hkept.disk, hkept.disk.reliable hw⟩
  | ok p s =>
    obtain ⟨transfer, destination⟩ := p
    obtain ⟨rfl, rfl, hsource, -, hreceipt, hshort⟩ := he.brings hrun
    have hkept := he.keeps_carryOut.ok hrun
    have hs := hkept.disk.reliable hw
    have hin' : t.In s.world.disk.store := hin.of_same hkept.disk.get?
    by_cases htakes : t.Takes (Statistics.receipt e.source e.destination s.transfer)
    · obtain ⟨v, hrecord, hadded⟩ := Statistics.record_of_takes hs hin' hsource hshort htakes
      have hlater := (Statistics.keeps_record (B := Eq) Statistics.aside_others s.transfer
        e.destination).ok hrecord
      have hend := run_of_carryOut hrun (attempt_eq_ok.2 (.inl hrecord))
      simp only [Counts, receipt?, after, hend, ← hreceipt, if_pos htakes]
      exact ⟨hadded, hlater.disk.reliable hs⟩
    · obtain ⟨error, hrecord⟩ := Statistics.record_of_not_takes hs hin' hsource hshort htakes
      have hend := run_of_carryOut hrun (attempt_eq_ok.2 (.inr ⟨error, hrecord⟩))
      simp only [Counts, receipt?, after, hend, ← hreceipt, if_neg htakes]
      exact ⟨hkept.disk, hs⟩

/-- After a dispatch the totals are those of the tally with its receipt, if it has one. -/
theorem Honest.in_after (he : e.Honest) (hw : w.disk.Reliable) (hin : t.In w.disk.store) :
    ((e.receipt? w).toList.foldl Tally.record t).In (after w e).disk.store := by
  obtain ⟨hcounts, -⟩ := he.counts hw hin
  unfold Counts at hcounts
  cases hreceipt : e.receipt? w with
  | none =>
    simp only [hreceipt] at hcounts
    exact hin.of_same hcounts.get?
  | some rc =>
    simp only [hreceipt] at hcounts
    change (t.record rc).In _
    unfold Tally.record
    split
    next htakes => rwa [if_pos htakes] at hcounts
    next htakes =>
      rw [if_neg htakes] at hcounts
      exact hin.of_same hcounts.get?

theorem in_run {es : List Errand} (hes : ∀ e ∈ es, e.Honest) (hw : w.disk.Reliable)
    (hin : t.In w.disk.store) :
    ((receipts w es).foldl Tally.record t).In (es.foldl after w).disk.store ∧
      (es.foldl after w).disk.Reliable := by
  induction es generalizing w t with
  | nil => exact ⟨hin, hw⟩
  | cons e es ih =>
    obtain ⟨he, hes⟩ := List.forall_mem_cons.1 hes
    rw [receipts, List.foldl_append, List.foldl_cons]
    exact ih hes (he.counts hw hin).2 (he.in_after hw hin)

end Errand

/-! ## Sums -/

namespace Tally

variable {t : Tally} {rc : Receipt} {source destination : CrossChainId}

/-- When there is room for it in the totals of a route, a receipt adds to them what it tells about
the route, which is nothing if it is for another one. -/
theorem record_of_room (t : Tally) (rc : Receipt) (source destination : CrossChainId)
    (hcount : t.count source destination + (if rc.Over source destination then 1 else 0) < 2 ^ 64)
    (hincoming : ∀ denom, t.incoming source destination denom +
      rc.gotIn source destination denom < 2 ^ 256)
    (houtgoing : ∀ denom, t.outgoing source destination denom +
      rc.wentOut source destination denom < 2 ^ 256) :
    (t.record rc).count source destination = (t.add rc).count source destination ∧ ∀ denom,
      (t.record rc).incoming source destination denom =
        (t.add rc).incoming source destination denom ∧
      (t.record rc).outgoing source destination denom =
        (t.add rc).outgoing source destination denom := by
  unfold record
  split
  next => exact ⟨rfl, fun _ => ⟨rfl, rfl⟩⟩
  next hrefused =>
    have hother : ¬ rc.Over source destination := by
      intro hover
      have hin := hincoming rc.incoming.denom
      have hout := houtgoing rc.outgoing.denom
      obtain ⟨rfl, rfl⟩ := hover
      simp only [Receipt.gotIn, Receipt.wentOut, Receipt.Over, and_self, if_true] at *
      exact hrefused ⟨hcount, hin, hout⟩
    simp [add, Receipt.gotIn, Receipt.wentOut, hother]

/-- As long as the sums over the receipts of a route stay in their range, so do its totals, which
are these sums. -/
theorem foldl_record {rcs : List Receipt}
    (hcount : t.count source destination + rcs.countP (·.Over source destination) < 2 ^ 64)
    (hincoming : ∀ denom, t.incoming source destination denom +
      (rcs.map (·.gotIn source destination denom)).sum < 2 ^ 256)
    (houtgoing : ∀ denom, t.outgoing source destination denom +
      (rcs.map (·.wentOut source destination denom)).sum < 2 ^ 256) :
    (rcs.foldl record t).count source destination =
      t.count source destination + rcs.countP (·.Over source destination) ∧ ∀ denom,
      (rcs.foldl record t).incoming source destination denom =
        t.incoming source destination denom +
          (rcs.map (·.gotIn source destination denom)).sum ∧
      (rcs.foldl record t).outgoing source destination denom =
        t.outgoing source destination denom +
          (rcs.map (·.wentOut source destination denom)).sum := by
  induction rcs generalizing t with
  | nil => simp
  | cons rc rcs ih =>
    simp only [List.countP_cons, List.map_cons, List.sum_cons, List.foldl_cons,
      decide_eq_true_eq] at *
    obtain ⟨hcount', htraffic'⟩ := record_of_room t rc source destination (by omega)
      (fun denom => by have := hincoming denom; omega)
      (fun denom => by have := houtgoing denom; omega)
    simp only [add] at hcount' htraffic'
    obtain ⟨hcounts, htraffics⟩ := ih (t := t.record rc) (by omega)
      (fun denom => by have := hincoming denom; have := (htraffic' denom).1; omega)
      (fun denom => by have := houtgoing denom; have := (htraffic' denom).2; omega)
    refine ⟨by omega, fun denom => ?_⟩
    obtain ⟨hin, hout⟩ := htraffics denom
    obtain ⟨hin', hout'⟩ := htraffic' denom
    omega

theorem foldl_record_zero {rcs : List Receipt}
    (hcount : rcs.countP (·.Over source destination) < 2 ^ 64)
    (hsums : ∀ denom, (rcs.map (·.gotIn source destination denom)).sum < 2 ^ 256 ∧
      (rcs.map (·.wentOut source destination denom)).sum < 2 ^ 256) :
    (rcs.foldl record zero).count source destination =
      rcs.countP (·.Over source destination) ∧ ∀ denom,
      (rcs.foldl record zero).incoming source destination denom =
        (rcs.map (·.gotIn source destination denom)).sum ∧
      (rcs.foldl record zero).outgoing source destination denom =
        (rcs.map (·.wentOut source destination denom)).sum := by
  have hsum := foldl_record (t := zero) (by simpa using hcount)
    (fun denom => by simpa using (hsums denom).1) (fun denom => by simpa using (hsums denom).2)
  simpa using hsum

end Tally

/-! ## Runs -/

namespace Errand

/-- What a dispatch does to the statistics: nothing if it fails, and if it succeeds it adds its
receipt, or nothing if that does not fit in one of the totals. -/
def Tallied (e : Errand) (t : Tally) (w : World) : Prop :=
  match e.receipt? w with
  | none => Apart Statistics.IsTotal w.disk (after w e).disk
  | some rc =>
    if t.Takes rc then (after w e).Tells (t.add rc)
    else Apart Statistics.IsTotal w.disk (after w e).disk

theorem Honest.tallied {e : Errand} {w : World} {t : Tally} (he : e.Honest)
    (hw : w.disk.Reliable) (hin : t.In w.disk.store) : e.Tallied t w := by
  obtain ⟨hcounts, hreliable⟩ := he.counts hw hin
  unfold Counts at hcounts
  unfold Tallied
  split
  next hreceipt => simpa only [hreceipt] using hcounts
  next rc hreceipt =>
    simp only [hreceipt] at hcounts
    split
    next htakes =>
      rw [if_pos htakes] at hcounts
      exact hcounts.tells hreliable.readable
    next htakes => rwa [if_neg htakes] at hcounts

end Errand

/-- Fees, swaps and escrow touch no totals and leave the source of a transfer alone. -/
theorem Errand.honest_of_fitted {r : Router} (hr : r.Fitted) {transfer : Transfer}
    {payload : Payload} (hsource : Fits transfer.sourceCounterparty)
    (hdestination : Fits payload.forwarding.attributes.counterparty)
    (hincoming : Fits transfer.sourceDenom) (houtgoing : Fits transfer.destinationDenom)
    (hswaps : ∀ action ∈ payload.preActions, ∀ denom, action.SwapsInto denom → Fits denom) :
    Errand.Honest ⟨transfer, payload, r.execute, r.forward⟩ where
  execute action haction s := by
    have hkept : Keeps (Stage.Within (Apart Statistics.IsTotal) (Books.Quiet Event.isOutcome)
        SameSource) (r.execute action) :=
      keeps_execute fun c hc => hr.wired.faithful.actions action.id c hc action
    have hbooks : Books.Respected (fun _ => True) Fits Eq := by
      constructor
      case held => exact fun h => congrArg (·.ledger.balances Testbed.holding) h.symm
      case ship => rintro b _ shipment rfl; rfl
      case pay => exact fun _ _ _ => Respects.of_eq _
      case draw => exact fun _ _ => Respects.of_eq _
      case report => exact fun _ => Respects.of_eq _
    have hdeals : Respects (Stage.Beside Fits Eq) (r.execute action) :=
      respects_execute hr hbooks fun denom hdenom => ⟨trivial, hswaps action haction denom hdenom⟩
    exact ⟨(hkept s).world.disk, (hkept s).transfer,
      fun hfits => (hdeals.leaves ⟨⟨rfl, rfl⟩, rfl, hfits⟩).deals⟩
  forward packet := by
    have hkept : Keeps (World.Within (Apart Statistics.IsTotal) Anything) (r.forward packet) :=
      keeps_forward (fun _ _ _ _ _ => trivial) packet
    exact hkept.mono fun _ _ h => h.disk
  source := hsource
  destination := hdestination
  incoming := hincoming
  outgoing := houtgoing

/-- The statistics of a store that had none are the tally of the receipts for the dispatches so far,
of which each was added as a whole or left out as a whole, and the next dispatch is recorded in the
same way. A route whose sums stay in their range has these sums as its totals. -/
theorem tallied_of_errands {w : World} (hw : w.disk.Reliable)
    (hnone : ∀ key, Statistics.IsTotal key → w.disk.store.get? key = none) {es : List Errand}
    (hes : ∀ e ∈ es, e.Honest) :
    let rcs := Errand.receipts w es
    let t := rcs.foldl Tally.record .zero
    let w' := es.foldl Errand.after w
    w'.Tells t ∧ (∀ e : Errand, e.Honest → e.Tallied t w') ∧ ∀ source destination,
      rcs.countP (·.Over source destination) < 2 ^ 64 →
      (∀ denom, (rcs.map (·.gotIn source destination denom)).sum < 2 ^ 256 ∧
        (rcs.map (·.wentOut source destination denom)).sum < 2 ^ 256) →
      t.count source destination = rcs.countP (·.Over source destination) ∧ ∀ denom,
        t.incoming source destination denom =
          (rcs.map (·.gotIn source destination denom)).sum ∧
        t.outgoing source destination denom =
          (rcs.map (·.wentOut source destination denom)).sum := by
  intro rcs t w'
  obtain ⟨hin, hw'⟩ := Errand.in_run hes hw (Tally.in_empty hnone)
  refine ⟨hin.tells hw'.readable, fun e he => he.tallied hw' hin, ?_⟩
  exact fun source destination hcount hsums => Tally.foldl_record_zero hcount hsums

namespace Testbed

/-- The dispatch of a coin with a fee. -/
def errand : Errand := ⟨.fresh origin coin, taxed, router.execute, router.forward⟩

theorem honest_errand : errand.Honest := by
  refine Errand.honest_of_fitted fitted_router ?_ ?_ ?_ ?_ fun action haction denom hdenom => ?_
  case refine_5 =>
    obtain rfl := List.mem_singleton.1 haction
    exact hdenom.elim
  all_goals decide +kernel

/-- The second of two dispatches finds nothing in the holding account. -/
theorem receipts_errands : Errand.receipts stocked [errand, errand] =
    [⟨origin, ⟨.cctp, "6"⟩, ⟨"uusdc", ⟨100, by decide⟩⟩, ⟨"uusdc", ⟨95, by decide⟩⟩⟩] := by
  decide +kernel

theorem tallied_errands :
    ([errand, errand].foldl Errand.after stocked).Tells
      ((Errand.receipts stocked [errand, errand]).foldl Tally.record .zero) ∧
    ((Errand.receipts stocked [errand, errand]).foldl Tally.record .zero).count
      origin ⟨.cctp, "6"⟩ = 1 := by
  have hnone : ∀ key, Statistics.IsTotal key → stocked.disk.store.get? key = none :=
    fun key _ => get?_world key
  have hes : ∀ e ∈ [errand, errand], e.Honest := by
    simpa using honest_errand
  obtain ⟨htells, -, hsums⟩ := tallied_of_errands (w := stocked) (fun _ => rfl) hnone hes
  refine ⟨htells, ?_⟩
  rw [receipts_errands] at hsums ⊢
  have hcount := (hsums origin ⟨.cctp, "6"⟩ (by decide +kernel) fun denom => ?_).1
  · rw [hcount]
    decide +kernel
  · simp only [List.map_cons, List.map_nil, List.sum_cons, List.sum_nil, Receipt.gotIn,
      Receipt.wentOut]
    constructor <;> split <;> decide

end Testbed

end TransferRouter
