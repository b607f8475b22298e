import TransferRouter.Proofs.Check
import TransferRouter.Registry

/-!
Registries of lists. Handlers can all be registered exactly when none reports a reserved identifier
and no two report the same one; the registry then routes each identifier to the handler that
reported it, and no other.
-/

namespace TransferRouter.Registry

section

variable {κ ρ : Type} [DecidableEq κ] {key : ρ → κ} {handlers : List ρ} {r : Registry κ ρ} {k : κ}

/-- A sealed registry of just these handlers, under their own identifiers. -/
structure Serves (r : Registry κ ρ) (key : ρ → κ) (handlers : List ρ) : Prop where
  isSealed : r.isSealed = true
  route?_iff : ∀ k h, r.route? k = some h ↔ h ∈ handlers ∧ key h = k

theorem hasRoute_iff : r.hasRoute k = true ↔ k ∈ r.keys := by
  simp [hasRoute, route?, keys]

/-- When no identifier occurs twice, a handler is routed to wherever it stands. -/
theorem route?_eq_some_iff (hr : r.keys.Nodup) {handler : ρ} :
    r.route? k = some handler ↔ (k, handler) ∈ r.routes := by
  obtain ⟨routes, isSealed⟩ := r
  simp only [route?, keys] at hr ⊢
  induction routes with
  | nil => simp
  | cons e routes ih =>
    rw [List.map_cons, List.nodup_cons] at hr
    rw [List.find?_cons, List.mem_cons]
    cases hk : e.1 == k with
    | true =>
      obtain rfl := eq_of_beq hk
      have hother : (e.1, handler) ∉ routes := fun hmem => hr.1 (List.mem_map.2 ⟨_, hmem, rfl⟩)
      rw [or_iff_left hother, Prod.ext_iff]
      simp [eq_comm]
    | false =>
      have hne : (k, handler) ≠ e := by
        rintro rfl
        exact absurd hk (by simp)
      rw [or_iff_right hne]
      exact ih hr.2

end

variable {κ ρ : Type} [DecidableEq κ] [RouteKey κ] {key : ρ → κ} {handlers : List ρ}
  {r r' : Registry κ ρ} {k : κ}

theorem require_eq_ok {handler : ρ} : r.require k = .ok handler ↔ r.route? k = some handler := by
  unfold require
  cases r.route? k <;> simp

/-- The handlers report identifiers that may be routed, each of them once. -/
structure Registrable (key : ρ → κ) (handlers : List ρ) : Prop where
  supported : ∀ h ∈ handlers, RouteKey.check (key h) = .ok ()
  nodup : (handlers.map key).Nodup

/-- A handler is added behind the others, unless its identifier is refused or taken. -/
theorem add_eq_ok (hr : r.isSealed = false) {handler : ρ} : r.add k handler = .ok r' ↔
    (RouteKey.check k = .ok () ∧ k ∉ r.keys) ∧ r' = ⟨r.routes ++ [(k, handler)], false⟩ := by
  unfold add
  rw [hr, if_neg Bool.false_ne_true]
  cases hcheck : RouteKey.check k with
  | error cause => exact iff_of_false nofun fun h => absurd h.1.1 nofun
  | ok _ =>
    rw [← hasRoute_iff]
    dsimp only
    split
    next htaken => exact iff_of_false nofun fun h => h.1.2 htaken
    next hfree =>
      rw [Except.ok.injEq, eq_comm (a := r'), and_iff_right ⟨rfl, hfree⟩]

/-- Handlers are registered in turn until one of them is refused. -/
theorem foldlM_add_eq_ok (hr : r.isSealed = false) (hkeys : r.keys.Nodup) :
    handlers.foldlM (fun (r : Registry κ ρ) h => r.add (key h) h) r = .ok r' ↔
      ((∀ h ∈ handlers, RouteKey.check (key h) = .ok ()) ∧ (r.keys ++ handlers.map key).Nodup) ∧
        r' = ⟨r.routes ++ handlers.map fun h => (key h, h), false⟩ := by
  induction handlers generalizing r with
  | nil =>
    obtain ⟨routes, isSealed⟩ := r
    obtain rfl : isSealed = false := hr
    simp only [List.map_nil, List.append_nil]
    rw [and_iff_right ⟨fun _ hh => absurd hh List.not_mem_nil, hkeys⟩]
    exact ⟨fun h => (Except.ok.inj h).symm, fun h => h ▸ rfl⟩
  | cons handler rest ih =>
    have hsplit : r.keys ++ (handler :: rest).map key =
        (r.keys ++ [key handler]) ++ rest.map key := by simp
    have hsnoc : (r.keys ++ [key handler]).Nodup ↔ key handler ∉ r.keys := by
      simp [List.nodup_append, hkeys, List.forall_mem_ne']
    have hadded : (Registry.mk (r.routes ++ [(key handler, handler)]) false).keys =
        r.keys ++ [key handler] := by simp [keys]
    have hroutes : (r.routes ++ [(key handler, handler)]) ++ rest.map (fun h => (key h, h)) =
        r.routes ++ (handler :: rest).map fun h => (key h, h) := by simp
    rw [List.foldlM_cons, except_bind_eq_ok, List.forall_mem_cons, hsplit, ← hroutes]
    constructor
    · rintro ⟨u, hadd, hrest⟩
      obtain ⟨⟨hcheck, hfree⟩, rfl⟩ := (add_eq_ok hr).1 hadd
      obtain ⟨⟨hchecks, hnodup⟩, rfl⟩ := (ih rfl (hadded ▸ hsnoc.2 hfree)).1 hrest
      exact ⟨⟨⟨hcheck, hchecks⟩, hadded ▸ hnodup⟩, rfl⟩
    · rintro ⟨⟨⟨hcheck, hchecks⟩, hnodup⟩, rfl⟩
      have hfirst := hnodup.sublist (List.sublist_append_left _ _)
      refine ⟨_, (add_eq_ok hr).2 ⟨⟨hcheck, hsnoc.1 hfirst⟩, rfl⟩, ?_⟩
      exact (ih rfl (hadded ▸ hfirst)).2 ⟨⟨hchecks, hadded ▸ hnodup⟩, rfl⟩

/-- A list of handlers makes the registry of its handlers, or none at all. -/
theorem ofList_eq_ok : ofList key handlers = .ok r ↔
    Registrable key handlers ∧ r = ⟨handlers.map fun h => (key h, h), true⟩ := by
  have hfold (u : Registry κ ρ) :
      handlers.foldlM (fun (r : Registry κ ρ) h => r.add (key h) h) empty = .ok u ↔
        Registrable key handlers ∧ u = ⟨handlers.map fun h => (key h, h), false⟩ := by
    have hempty : (empty : Registry κ ρ).keys.Nodup := List.nodup_nil
    refine (foldlM_add_eq_ok rfl hempty).trans ?_
    exact and_congr_left' ⟨fun h => ⟨h.1, h.2⟩, fun h => ⟨h.supported, h.nodup⟩⟩
  unfold ofList
  cases hmade : handlers.foldlM (fun (r : Registry κ ρ) h => r.add (key h) h) empty with
  | error e =>
    refine iff_of_false nofun fun h => ?_
    rw [(hfold _).2 ⟨h.1, rfl⟩] at hmade
    exact absurd hmade nofun
  | ok u =>
    obtain ⟨hregistrable, rfl⟩ := (hfold u).1 hmade
    rw [and_iff_right hregistrable]
    exact ⟨fun h => (Except.ok.inj h).symm, fun h => h ▸ rfl⟩

theorem serves_ofList (h : ofList key handlers = .ok r) : r.Serves key handlers := by
  obtain ⟨hregistrable, rfl⟩ := ofList_eq_ok.1 h
  have hkeys : (Registry.mk (handlers.map fun h => (key h, h)) true).keys = handlers.map key := by
    simp [keys]
  refine ⟨rfl, fun k handler => ?_⟩
  rw [route?_eq_some_iff (hkeys ▸ hregistrable.nodup), List.mem_map]
  constructor
  · rintro ⟨own, hmem, hroute⟩
    obtain ⟨rfl, rfl⟩ := Prod.mk.inj hroute
    exact ⟨hmem, rfl⟩
  · rintro ⟨hmem, rfl⟩
    exact ⟨handler, hmem, rfl⟩

/-- What is routed was registered, under its own identifier. -/
theorem route?_ofList (h : ofList key handlers = .ok r) {handler : ρ}
    (hroute : r.route? k = some handler) : handler ∈ handlers ∧ key handler = k :=
  ((serves_ofList h).route?_iff k handler).1 hroute

end TransferRouter.Registry
