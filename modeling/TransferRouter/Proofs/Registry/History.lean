import Mathlib.Data.List.Induction
import TransferRouter.Proofs.Registry

/-!
A registry over its history of requests. As long as it is not frozen, the first handler of each
identifier that may be routed is added, and it stays. All other requests to add are refused and
leave the registry as it was.
-/

namespace TransferRouter.Registry

/-- A request to a registry. -/
inductive Request (ρ : Type) where
  /-- To add a handler under the identifier that it reports. -/
  | add (handler : ρ)
  | freeze

section

variable {κ ρ : Type} {key : ρ → κ} {supported : List κ} {requests : List (Request ρ)}
  {request : Request ρ} {r : Registry κ ρ} {x y : ρ} {k : κ}

/-! ## First of their identifiers -/

/-- Nothing was frozen yet, and no handler of the identifier was to be added. -/
structure Vacant (key : ρ → κ) (requests : List (Request ρ)) (k : κ) : Prop where
  unfrozen : .freeze ∉ requests
  unclaimed : ∀ x, .add x ∈ requests → key x ≠ k

/-- The handler was the first of its identifier that was to be added, and in time. -/
def Foremost (key : ρ → κ) (requests : List (Request ρ)) (x : ρ) : Prop :=
  ∃ earlier later, requests = earlier ++ .add x :: later ∧ Vacant key earlier (key x)

theorem Foremost.mem (h : Foremost key requests x) : .add x ∈ requests := by
  obtain ⟨earlier, later, rfl, -⟩ := h
  simp

theorem Foremost.append (h : Foremost key requests x) (more : List (Request ρ)) :
    Foremost key (requests ++ more) x := by
  obtain ⟨earlier, later, rfl, hvacant⟩ := h
  exact ⟨earlier, later ++ more, by simp, hvacant⟩

theorem not_foremost_nil : ¬ Foremost key [] x := fun h => List.not_mem_nil h.mem

theorem foremost_concat : Foremost key (requests ++ [request]) x ↔
    Foremost key requests x ∨ request = .add x ∧ Vacant key requests (key x) := by
  constructor
  · rintro ⟨earlier, later, hsplit, hvacant⟩
    obtain rfl | ⟨init, last, rfl⟩ := List.eq_nil_or_concat later
    · obtain ⟨rfl, hlast⟩ := List.append_inj' hsplit rfl
      exact .inr ⟨(List.cons.inj hlast).1, hvacant⟩
    · rw [List.concat_eq_append, ← List.cons_append, ← List.append_assoc] at hsplit
      obtain ⟨rfl, -⟩ := List.append_inj' hsplit rfl
      exact .inl ⟨earlier, init, rfl, hvacant⟩
  · rintro (hfirst | ⟨rfl, hvacant⟩)
    · exact hfirst.append _
    · exact ⟨requests, [], rfl, hvacant⟩

/-- One of the handlers of an identifier is the first. -/
theorem exists_foremost (hopen : .freeze ∉ requests) (hx : .add x ∈ requests) :
    ∃ y, Foremost key requests y ∧ key y = key x := by
  induction requests using List.reverseRecOn generalizing x with
  | nil => simp at hx
  | append_singleton requests request ih =>
    simp only [List.mem_append, List.mem_singleton, not_or] at hopen hx
    by_cases hclaimed : ∃ y, .add y ∈ requests ∧ key y = key x
    · obtain ⟨y, hy, hkey⟩ := hclaimed
      obtain ⟨z, hz, hsame⟩ := ih hopen.1 hy
      exact ⟨z, hz.append _, hsame.trans hkey⟩
    · have hlast := hx.resolve_left fun hmem => hclaimed ⟨x, hmem, rfl⟩
      have hvacant : Vacant key requests (key x) :=
        ⟨hopen.1, fun y hy hkey => hclaimed ⟨y, hy, hkey⟩⟩
      exact ⟨x, foremost_concat.2 (.inr ⟨hlast.symm, hvacant⟩), rfl⟩

/-! ## What is held -/

/-- A registry holds the first handlers of supported identifiers, and it is sealed if it was to be
frozen. -/
structure Tracks (key : ρ → κ) (supported : List κ) (requests : List (Request ρ))
    (r : Registry κ ρ) : Prop where
  isSealed_iff : r.isSealed = true ↔ .freeze ∈ requests
  nodup : r.keys.Nodup
  mem_routes : ∀ k x, (k, x) ∈ r.routes ↔ (k ∈ supported ∧ Foremost key requests x) ∧ key x = k

theorem tracks_empty : Tracks key supported [] empty where
  isSealed_iff := by simp [empty]
  nodup := List.nodup_nil
  mem_routes k x := iff_of_false List.not_mem_nil fun h => not_foremost_nil h.1.2

theorem Tracks.unsealed (h : Tracks key supported requests r) (hopen : .freeze ∉ requests) :
    r.isSealed = false := by
  rw [Bool.eq_false_iff, ne_eq, h.isSealed_iff]
  exact hopen

theorem mem_keys_iff : k ∈ r.keys ↔ ∃ x, (k, x) ∈ r.routes := by simp [keys]

/-- A supported identifier is free in an open registry if no handler of it was to be added. -/
theorem Tracks.free_iff (h : Tracks key supported requests r) (hopen : .freeze ∉ requests)
    (hk : k ∈ supported) : k ∉ r.keys ↔ Vacant key requests k := by
  rw [mem_keys_iff]
  constructor
  · intro hfree
    refine ⟨hopen, fun x hx hkey => hfree ?_⟩
    obtain ⟨y, hy, hsame⟩ : ∃ y, Foremost key requests y ∧ key y = key x :=
      exists_foremost hopen hx
    exact ⟨y, (h.mem_routes k y).2 ⟨⟨hk, hy⟩, hsame.trans hkey⟩⟩
  · rintro hvacant ⟨x, hx⟩
    obtain ⟨⟨-, hfirst⟩, hkey⟩ := (h.mem_routes k x).1 hx
    exact hvacant.unclaimed x hfirst.mem hkey

/-- The first handler of a supported identifier is recorded behind the others. -/
theorem Tracks.add (h : Tracks key supported requests r) (hk : key x ∈ supported)
    (hvacant : Vacant key requests (key x)) :
    Tracks key supported (requests ++ [.add x]) ⟨r.routes ++ [(key x, x)], false⟩ where
  isSealed_iff := by simp [hvacant.unfrozen]
  nodup := by
    have hfree := (h.free_iff hvacant.unfrozen hk).2 hvacant
    have hkeys : (Registry.mk (r.routes ++ [(key x, x)]) false).keys = r.keys ++ [key x] := by
      simp [keys]
    rw [hkeys]
    exact List.nodup_append.2 ⟨h.nodup, by simp, by simpa [List.forall_mem_ne'] using hfree⟩
  mem_routes k y := by
    rw [List.mem_append, List.mem_singleton, h.mem_routes, foremost_concat]
    constructor
    · rintro (⟨⟨hsup, hfirst⟩, hkey⟩ | hadded)
      · exact ⟨⟨hsup, .inl hfirst⟩, hkey⟩
      · obtain ⟨rfl, rfl⟩ := Prod.mk.inj hadded
        exact ⟨⟨hk, .inr ⟨rfl, hvacant⟩⟩, rfl⟩
    · rintro ⟨⟨hsup, hfirst | ⟨hadded, -⟩⟩, rfl⟩
      · exact .inl ⟨⟨hsup, hfirst⟩, rfl⟩
      · obtain rfl := Request.add.inj hadded
        exact .inr rfl

end

variable {κ ρ : Type} [DecidableEq κ] [RouteKey κ] {key : ρ → κ} {supported : List κ}
  {requests : List (Request ρ)} {r r' : Registry κ ρ} {x y : ρ} {k : κ}

/-! ## Requests -/

/-- What a request makes of a registry, unless it is refused. -/
def answer (key : ρ → κ) (r : Registry κ ρ) : Request ρ → Except RouterError (Registry κ ρ)
  | .add handler => r.add (key handler) handler
  | .freeze => .ok r.freeze

/-- The registry after a request. One that is refused leaves it as it was. -/
def step (key : ρ → κ) (r : Registry κ ρ) (request : Request ρ) : Registry κ ρ :=
  match r.answer key request with
  | .ok r' => r'
  | .error _ => r

/-- A new registry after requests. -/
def after (key : ρ → κ) (requests : List (Request ρ)) : Registry κ ρ :=
  requests.foldl (step key) empty

theorem step_of_ok (h : r.add (key x) x = .ok r') : r.step key (.add x) = r' := by
  rw [step, answer, h]

theorem step_of_error {e : RouterError} (h : r.add (key x) x = .error e) :
    r.step key (.add x) = r := by
  rw [step, answer, h]

theorem add_of_sealed (h : r.isSealed = true) :
    r.add k x = .error (.validation (.sealedRegistry (RouteKey.number k))) := by
  rw [add, if_pos h]

theorem add_of_reserved (hr : r.isSealed = false) {cause : Invalid}
    (h : RouteKey.check k = .error cause) : r.add k x = .error (.validation cause) := by
  rw [add, hr, if_neg Bool.false_ne_true, h]

theorem add_of_taken (hr : r.isSealed = false) (hcheck : RouteKey.check k = .ok ())
    (h : r.route? k = some y) :
    r.add k x = .error (.alreadyExists (.route (RouteKey.number k))) := by
  have htaken : r.hasRoute k = true := by rw [hasRoute, h, Option.isSome_some]
  rw [add, hr, if_neg Bool.false_ne_true, hcheck]
  exact if_pos htaken

/-- A sealed registry never changes. -/
theorem foldl_step_of_sealed (h : r.isSealed = true) (later : List (Request ρ)) :
    later.foldl (step key) r = r := by
  induction later with
  | nil => rfl
  | cons request later ih =>
    have hstep : r.step key request = r := by
      cases request with
      | add x => exact step_of_error (add_of_sealed h)
      | freeze =>
        obtain ⟨routes, isSealed⟩ := r
        obtain rfl : isSealed = true := h
        rfl
    rw [List.foldl_cons, hstep, ih]

namespace Tracks

variable (hsupported : ∀ k : κ, RouteKey.check k = .ok () ↔ k ∈ supported)
include hsupported

/-- What is added is the first handler of a supported identifier, and in time. -/
theorem add_eq_ok (h : Tracks key supported requests r) : r.add (key x) x = .ok r' ↔
    (key x ∈ supported ∧ Vacant key requests (key x)) ∧
      r' = ⟨r.routes ++ [(key x, x)], false⟩ := by
  by_cases hopen : .freeze ∈ requests
  · rw [add_of_sealed (h.isSealed_iff.2 hopen)]
    exact iff_of_false nofun fun hok => hok.1.2.unfrozen hopen
  · rw [Registry.add_eq_ok (h.unsealed hopen), hsupported]
    exact and_congr_left' (and_congr_right fun hk => h.free_iff hopen hk)

/-- A request that is refused makes no difference to who was first. -/
theorem refuse (h : Tracks key supported requests r) {e : RouterError}
    (hadd : r.add (key x) x = .error e) : Tracks key supported (requests ++ [.add x]) r where
  isSealed_iff := by simp [h.isSealed_iff]
  nodup := h.nodup
  mem_routes k y := by
    rw [h.mem_routes, foremost_concat]
    constructor
    · exact fun ⟨⟨hsup, hfirst⟩, hkey⟩ => ⟨⟨hsup, .inl hfirst⟩, hkey⟩
    · rintro ⟨⟨hsup, hfirst | ⟨hadded, hvacant⟩⟩, rfl⟩
      · exact ⟨⟨hsup, hfirst⟩, rfl⟩
      · obtain rfl := Request.add.inj hadded
        rw [(h.add_eq_ok hsupported).2 ⟨⟨hsup, hvacant⟩, rfl⟩] at hadd
        exact absurd hadd nofun

theorem step (h : Tracks key supported requests r) (request : Request ρ) :
    Tracks key supported (requests ++ [request]) (r.step key request) := by
  cases request with
  | freeze =>
    refine ⟨by simp [Registry.step, answer, freeze], h.nodup, fun k x => ?_⟩
    rw [foremost_concat, or_iff_left (by simp)]
    exact h.mem_routes k x
  | add x =>
    cases hadd : r.add (key x) x with
    | error e =>
      rw [step_of_error hadd]
      exact h.refuse hsupported hadd
    | ok r' =>
      rw [step_of_ok hadd]
      obtain ⟨⟨hk, hvacant⟩, rfl⟩ := (h.add_eq_ok hsupported).1 hadd
      exact h.add hk hvacant

theorem run (h : Tracks key supported requests r) (later : List (Request ρ)) :
    Tracks key supported (requests ++ later) (later.foldl (Registry.step key) r) := by
  induction later generalizing requests r with
  | nil => simpa using h
  | cons request later ih =>
    rw [List.append_cons]
    exact ih (h.step hsupported request)

end Tracks

theorem tracks_after (hsupported : ∀ k : κ, RouteKey.check k = .ok () ↔ k ∈ supported)
    (requests : List (Request ρ)) : Tracks key supported requests (after key requests) :=
  tracks_empty.run hsupported requests

/-! ## First come, first served -/

/-- The handler was once added. -/
def Added (key : ρ → κ) (requests : List (Request ρ)) (x : ρ) : Prop :=
  ∃ earlier later r, requests = earlier ++ .add x :: later ∧
    (after key earlier).add (key x) x = .ok r

/-- A registry of which the identifiers that are listed may be routed. Whatever the history, it
routes each identifier to the handler of it that was added, and that is the first one, for only the
first handler of a supported identifier is added, and only before the registry is frozen. What was
added stays. Every other request to add is refused for the first reason that applies, and nothing
changes then, nor ever again in a registry that was frozen. -/
structure FirstCome (key : ρ → κ) (supported : List κ) : Prop where
  route?_iff : ∀ requests k x, (after key requests).route? k = some x ↔
    Added key requests x ∧ key x = k
  add_iff : ∀ requests x, (∃ r, (after key requests).add (key x) x = .ok r) ↔
    key x ∈ supported ∧ Vacant key requests (key x)
  stays : ∀ requests later k x, (after key requests).route? k = some x →
    (after key (requests ++ later)).route? k = some x
  hasRoute_iff : ∀ requests k, (after key requests).hasRoute k = true ↔
    ∃ x, (after key requests).route? k = some x
  require_iff : ∀ requests k x, (after key requests).require k = .ok x ↔
    (after key requests).route? k = some x
  require_missing : ∀ requests k, (after key requests).route? k = none →
    (after key requests).require k = .error (.notFound (.route (RouteKey.number k)))
  mem_keys : ∀ requests k, k ∈ (after key requests).keys ↔
    ∃ x, (after key requests).route? k = some x
  nodup_keys : ∀ requests, (after key requests).keys.Nodup
  size : ∀ requests, (after key requests).size = (after key requests).keys.length
  frozen : ∀ requests x, .freeze ∈ requests → (after key requests).add (key x) x =
    .error (.validation (.sealedRegistry (RouteKey.number (key x))))
  reserved : ∀ requests x, .freeze ∉ requests → key x ∉ supported →
    ∃ cause, (after key requests).add (key x) x = .error (.validation cause)
  taken : ∀ requests x y, .freeze ∉ requests → key x ∈ supported →
    (after key requests).route? (key x) = some y →
    (after key requests).add (key x) x = .error (.alreadyExists (.route (RouteKey.number (key x))))
  refused : ∀ requests x e, (after key requests).add (key x) x = .error e →
    after key (requests ++ [.add x]) = after key requests
  constant : ∀ requests later, .freeze ∈ requests →
    after key (requests ++ later) = after key requests

theorem after_append (requests later : List (Request ρ)) :
    after key (requests ++ later) = later.foldl (step key) (after key requests) :=
  List.foldl_append

theorem after_concat (requests : List (Request ρ)) (request : Request ρ) :
    after key (requests ++ [request]) = (after key requests).step key request :=
  after_append requests [request]

section

variable (hsupported : ∀ k : κ, RouteKey.check k = .ok () ↔ k ∈ supported)
include hsupported

theorem exists_add_iff : (∃ r, (after key requests).add (key x) x = .ok r) ↔
    key x ∈ supported ∧ Vacant key requests (key x) := by
  simp only [(tracks_after hsupported requests).add_eq_ok hsupported]
  exact ⟨fun ⟨_, h, _⟩ => h, fun h => ⟨_, h, rfl⟩⟩

theorem added_iff : Added key requests x ↔ key x ∈ supported ∧ Foremost key requests x := by
  constructor
  · rintro ⟨earlier, later, r, hsplit, hadd⟩
    obtain ⟨hk, hvacant⟩ := (exists_add_iff hsupported).1 ⟨r, hadd⟩
    exact ⟨hk, earlier, later, hsplit, hvacant⟩
  · rintro ⟨hk, earlier, later, hsplit, hvacant⟩
    obtain ⟨r, hadd⟩ := (exists_add_iff hsupported).2 ⟨hk, hvacant⟩
    exact ⟨earlier, later, r, hsplit, hadd⟩

theorem route?_after : (after key requests).route? k = some x ↔
    (k ∈ supported ∧ Foremost key requests x) ∧ key x = k := by
  have htracks : Tracks key supported requests (after key requests) :=
    tracks_after hsupported requests
  rw [route?_eq_some_iff htracks.nodup, htracks.mem_routes]

theorem firstCome (key : ρ → κ) : FirstCome key supported where
  route?_iff requests k x := by
    rw [route?_after hsupported, added_iff hsupported]
    exact ⟨fun ⟨h, hkey⟩ => ⟨hkey ▸ h, hkey⟩, fun ⟨h, hkey⟩ => ⟨hkey ▸ h, hkey⟩⟩
  add_iff _ _ := exists_add_iff hsupported
  stays requests later k x h := by
    rw [route?_after hsupported] at h ⊢
    exact ⟨⟨h.1.1, h.1.2.append later⟩, h.2⟩
  hasRoute_iff _ _ := Option.isSome_iff_exists
  require_iff _ _ _ := require_eq_ok
  require_missing requests k h := by rw [require, h]
  mem_keys requests k := by
    simp only [mem_keys_iff, route?_eq_some_iff (tracks_after hsupported requests).nodup]
  nodup_keys requests := (tracks_after hsupported requests).nodup
  size requests := by rw [size, keys, List.length_map]
  frozen requests x h := add_of_sealed ((tracks_after hsupported requests).isSealed_iff.2 h)
  reserved requests x hopen hk := by
    cases hcheck : RouteKey.check (key x) with
    | ok _ => exact absurd ((hsupported _).1 hcheck) hk
    | error cause =>
      exact ⟨cause, add_of_reserved ((tracks_after hsupported requests).unsealed hopen) hcheck⟩
  taken requests x y hopen hk hroute :=
    add_of_taken ((tracks_after hsupported requests).unsealed hopen) ((hsupported _).2 hk) hroute
  refused requests x e h := by rw [after_concat, step_of_error h]
  constant requests later h := by
    rw [after_append]
    exact foldl_step_of_sealed ((tracks_after hsupported requests).isSealed_iff.2 h) later

end

/-- Protocols and actions are served in the order of their registration. -/
theorem firstCome_of_requests :
    (∀ {ρ : Type} (key : ρ → ProtocolId), FirstCome key ProtocolId.supported) ∧
      ∀ {ρ : Type} (key : ρ → ActionId), FirstCome key ActionId.supported := by
  constructor
  · intro ρ key
    apply firstCome
    intro p
    cases p <;> simp [RouteKey.check, ProtocolId.check, ProtocolId.supported]
  · intro ρ key
    apply firstCome
    intro a
    cases a <;> simp [RouteKey.check, ActionId.check, ActionId.supported]

end TransferRouter.Registry
