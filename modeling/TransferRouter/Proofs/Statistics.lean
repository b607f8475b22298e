import TransferRouter.Proofs.Store.Key
import TransferRouter.Proofs.World
import TransferRouter.Statistics.Record

/-! The statistics write only under keys of their own, whatever a dispatch adds to them. -/

namespace TransferRouter.Statistics

open Disk (Apart)

variable {P : Bytes → Prop} {B : Books → Books → Prop} [IsPreorder Books B]

/-- Keys that no total of the statistics stands under. -/
def Aside (P : Bytes → Prop) : Prop :=
  (∀ source destination denom, ¬ P (Key.traffic source destination denom).bytes) ∧
    ∀ source destination, ¬ P (Key.dispatchCount source destination).bytes

/-- The keys of statistics. -/
def IsTotal (key : Bytes) : Prop := key.head? = some 0x40 ∨ key.head? = some 0x41

theorem isTotal_bytes {k : Key} : IsTotal k.bytes ↔ k.family = 0x40 ∨ k.family = 0x41 := by
  simp only [IsTotal, Key.head?_bytes, Option.some.injEq]

theorem aside_others : Aside fun key => ¬ IsTotal key :=
  ⟨fun _ _ _ h => h (.inl rfl), fun _ _ h => h (.inr rfl)⟩

theorem keeps_traffic (source destination : CrossChainId) (denom : String) :
    Keeps (World.Within (Apart P) B) (traffic source destination denom) :=
  (keeps_read _).bind fun _ => Keeps.pure _

theorem keeps_dispatches (source destination : CrossChainId) :
    Keeps (World.Within (Apart P) B) (dispatches source destination) :=
  (keeps_read _).bind fun _ => Keeps.pure _

theorem keeps_additions (source destination : CrossChainId) (traffics : List (String × Traffic)) :
    Keeps (World.Within (Apart P) B) (additions source destination traffics) := by
  induction traffics with
  | nil => exact Keeps.pure []
  | cons t rest ih =>
    exact (keeps_traffic source destination t.1).bind fun _ => (Keeps.settle _ _).bind fun _ =>
      ih.bind fun _ => Keeps.pure _

/-- The writes of a dispatch are about totals of its route. -/
theorem key_of_mem_additions {source destination : CrossChainId}
    {traffics : List (String × Traffic)} {w w' : World} {writes : List Write}
    (h : additions source destination traffics w = .ok writes w') {x : Write} (hx : x ∈ writes) :
    ∃ denom, x.key = (Key.traffic source destination denom).bytes := by
  induction traffics generalizing w w' writes with
  | nil =>
    obtain ⟨rfl, -⟩ := pure_eq_ok.1 h
    exact absurd hx List.not_mem_nil
  | cons t rest ih =>
    obtain ⟨current, u, -, h⟩ := bind_eq_ok.1 h
    obtain ⟨total, v, -, h⟩ := bind_eq_ok.1 h
    obtain ⟨others, z, hothers, h⟩ := bind_eq_ok.1 h
    obtain ⟨rfl, -⟩ := pure_eq_ok.1 h
    rcases List.mem_cons.1 hx with rfl | hx
    · exact ⟨t.1, rfl⟩
    · exact ih hothers hx

theorem keeps_record (hP : Aside P) (transfer : Transfer) (destination : CrossChainId) :
    Keeps (World.Within (Apart P) B) (record transfer destination) := by
  refine (Keeps.checked _).bind fun source => ?_
  refine (keeps_additions source destination _).bind_of
    (Q := fun writes => ∀ x ∈ writes, ¬ P x.key) (fun w writes w' h x hx => ?_) fun writes hw => ?_
  · obtain ⟨denom, hkey⟩ := key_of_mem_additions h hx
    exact hkey ▸ hP.1 source destination denom
  · refine (keeps_dispatches source destination).bind fun _ => (Keeps.settle _ _).bind fun _ =>
      keeps_onDisk (Disk.keeps_write fun x hx => ?_)
    rcases List.mem_append.1 hx with hx | hx
    · exact hw x hx
    · obtain rfl := List.mem_singleton.1 hx
      exact hP.2 source destination

end TransferRouter.Statistics
