import TransferRouter.Administration
import TransferRouter.Genesis.Exchange
import TransferRouter.Proofs.World

/-!
What administrative calls change at most: a pause or its end writes only under the keys of breakers,
and a change of parameters or an import only under those and the key of the parameters.
-/

namespace TransferRouter

open Disk (AllowsReads Apart)

variable {P : Bytes → Prop} {B : Books → Books → Prop} [IsPreorder Books B] {α : Type}

theorem keeps_authorized {R : World → World → Prop} [IsPreorder World R] {act : RouterM α}
    (h : Keeps R act) (r : Router) (signer : String) : Keeps R (r.authorized signer act) :=
  (Keeps.settle _ _).bind fun _ => h

/-- The authority passes. -/
theorem Router.authorized_of_eq {r : Router} {signer : String} (h : signer = r.authority)
    (act : RouterM α) : r.authorized signer act = act := by
  rw [authorized, checkAuthority, if_pos h]
  rfl

/-- Anyone else is refused, whatever was asked for. -/
theorem Router.authorized_of_ne {r : Router} {signer : String} (h : signer ≠ r.authority)
    (act : RouterM α) (w : World) :
    r.authorized signer act w = .error (.unauthorized r.authority signer) w := by
  rw [authorized, checkAuthority, if_neg h]
  rfl

namespace Breaker

theorem keeps_set {key : Key} (hP : ¬ P key.bytes) (paused : Bool) :
    Keeps (World.Within (Apart P) B) (set key paused) := by
  refine keeps_onDisk ((Disk.keeps_contains _).bind fun present => ?_)
  match present, paused with
  | false, true => exact (Disk.keeps_put hP).bind fun _ => Keeps.pure _
  | true, false => exact (Disk.keeps_delete hP).bind fun _ => Keeps.pure _
  | true, true => exact Keeps.pure _
  | false, false => exact Keeps.pure _

theorem keeps_setAction {action : ActionId} {paused : Bool}
    (hP : ¬ P (Key.pausedAction action).bytes)
    (hB : ∀ b : Books, B b { b with events := b.events ++ [actionEvent paused action] }) :
    Keeps (World.Within (Apart P) B) (setAction action paused) :=
  (Keeps.checked _).bind fun _ => (keeps_set hP paused).bind fun _ =>
    Keeps.ite (keeps_emit hB) (Keeps.pure _)

theorem keeps_setProtocol {protocol : ProtocolId} {paused : Bool}
    (hP : ¬ P (Key.pausedProtocol protocol).bytes)
    (hB : ∀ b : Books, B b { b with events := b.events ++ [protocolEvent paused protocol] }) :
    Keeps (World.Within (Apart P) B) (setProtocol protocol paused) :=
  (keeps_set hP paused).bind fun _ => Keeps.ite (keeps_emit hB) (Keeps.pure _)

theorem keeps_routesToChange {D : Disk → Disk → Prop} [AllowsReads D] (paused : Bool)
    (routes : List CrossChainId) : Keeps D (routesToChange paused routes) := by
  induction routes with
  | nil => exact Keeps.pure []
  | cons route rest ih => exact (Disk.keeps_contains _).bind fun _ => ih.bind fun _ => Keeps.pure _

theorem key_routeWrite (paused : Bool) (route : CrossChainId) :
    (routeWrite paused route).key = (routeKey route).bytes := by
  cases paused <;> rfl

theorem keeps_setRoutes {protocol : ProtocolId} {counterparties : List String} {paused : Bool}
    (hP : ∀ route, ¬ P (routeKey route).bytes)
    (hB : ∀ (b : Books) route, B b { b with events := b.events ++ [routeEvent paused route] }) :
    Keeps (World.Within (Apart P) B) (setRoutes protocol counterparties paused) := by
  refine (Keeps.checked _).bind fun routes => Keeps.bind (keeps_onDisk ?_) fun changed =>
    Keeps.forM fun route _ => keeps_emit fun b => hB b route
  refine (keeps_routesToChange paused routes).bind fun changed => ?_
  have hwrite : Keeps (Apart P) (Disk.write (changed.map (routeWrite paused))) := by
    refine Disk.keeps_write fun w hw => ?_
    obtain ⟨route, -, rfl⟩ := List.mem_map.1 hw
    rw [key_routeWrite]
    exact hP route
  exact Keeps.ite (hwrite.bind fun _ => Keeps.pure _) (Keeps.pure _)

theorem keeps_setTraffic {protocol : ProtocolId} {counterparties : List String} {paused : Bool}
    (hprotocol : ¬ P (Key.pausedProtocol protocol).bytes)
    (hroute : ∀ route, ¬ P (routeKey route).bytes)
    (hB : ∀ (b : Books) (event : Event), event = protocolEvent paused protocol ∨
      (∃ route, event = routeEvent paused route) → B b { b with events := b.events ++ [event] }) :
    Keeps (World.Within (Apart P) B) (setTraffic protocol counterparties paused) := by
  refine (Keeps.checked _).bind fun _ => ?_
  cases counterparties with
  | nil => exact keeps_setProtocol hprotocol fun b => hB b _ (.inl rfl)
  | cons counterparty rest =>
    exact keeps_setRoutes hroute fun b route => hB b _ (.inr ⟨route, rfl⟩)

end Breaker

theorem keeps_updateParams (r : Router) (signer : String) (params : Params)
    (hP : ¬ P Key.params.bytes)
    (hB : ∀ b : Books, B b { b with events := b.events ++ [.paramsUpdated params] }) :
    Keeps (World.Within (Apart P) B) (r.updateParams signer params) :=
  keeps_authorized ((Keeps.checked _).bind fun _ => (keeps_onDisk (Disk.keeps_put hP)).bind
    fun _ => keeps_emit hB) r signer

/-- An import writes only the parameters and breakers. -/
theorem Genesis.key_of_mem_writes {g : Genesis} {w : Write} (h : w ∈ g.writes) :
    w.key = Key.params.bytes ∨ (∃ a, w.key = (Key.pausedAction a).bytes) ∨
      (∃ p, w.key = (Key.pausedProtocol p).bytes) ∨
      ∃ route, w.key = (Breaker.routeKey route).bytes := by
  simp only [writes, List.mem_append, List.mem_cons, List.mem_map] at h
  rcases h with ((rfl | ⟨a, -, rfl⟩) | ⟨p, -, rfl⟩) | ⟨route, -, rfl⟩
  · exact .inl rfl
  · exact .inr (.inl ⟨a, rfl⟩)
  · exact .inr (.inr (.inl ⟨p, rfl⟩))
  · exact .inr (.inr (.inr ⟨route, rfl⟩))

theorem Genesis.keeps_importState (g : Genesis) (hparams : ¬ P Key.params.bytes)
    (haction : ∀ a, ¬ P (Key.pausedAction a).bytes)
    (hprotocol : ∀ p, ¬ P (Key.pausedProtocol p).bytes)
    (hroute : ∀ route, ¬ P (Breaker.routeKey route).bytes) :
    Keeps (World.Within (Apart P) B) g.importState := by
  refine (Keeps.checked _).bind fun _ => keeps_onDisk (Disk.keeps_write fun w hw => ?_)
  rcases Genesis.key_of_mem_writes hw with h | ⟨a, h⟩ | ⟨p, h⟩ | ⟨route, h⟩ <;> rw [h]
  · exact hparams
  · exact haction a
  · exact hprotocol p
  · exact hroute route

end TransferRouter
