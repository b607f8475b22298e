import Mathlib.Data.Finset.Image
import TransferRouter.Proofs.Administration
import TransferRouter.Proofs.Check
import TransferRouter.Proofs.Store.Naming
import TransferRouter.Proofs.Wiring

/-!
The breakers are three sets. A set of what is paused is kept as the keys of one family in the store;
questions look for one key and listings read the keys of the family back, and since a key names one
thing both tell the members of the set. A call turns the breakers of what it names and reports those
that it changed.
-/

namespace TransferRouter

/-! ## Calls and sets -/

/-- A call on the breakers. Without counterparties it is about a whole protocol, else about the
routes to them. -/
inductive Toggle where
  | action (id : ActionId) (paused : Bool)
  | traffic (protocol : ProtocolId) (counterparties : List String) (paused : Bool)

/-- What is paused. -/
structure Pauses where
  actions : Finset ActionId
  protocols : Finset ProtocolId
  routes : Finset CrossChainId
  deriving DecidableEq

section

variable {α : Type} [DecidableEq α]

/-- A set with the named things put into it, or taken out of it. -/
def turned (paused : Bool) (named : List α) (s : Finset α) : Finset α :=
  if paused then s ∪ named.toFinset else s \ named.toFinset

theorem mem_turned {paused : Bool} {named : List α} {s : Finset α} {a : α} :
    a ∈ turned paused named s ↔ if a ∈ named then paused = true else a ∈ s := by
  cases paused <;> by_cases h : a ∈ named <;> simp [turned, h]

/-- The named things that are in one of two sets but not in the other, in order of first mention. -/
def changed (s s' : Finset α) (named : List α) : List α :=
  named.eraseDups.filter fun a => decide (a ∈ s) != decide (a ∈ s')

theorem changed_self (s : Finset α) (named : List α) : changed s s named = [] := by
  simp [changed]

end

/-- The routes of a protocol to the given counterparties. -/
def routesOf (protocol : ProtocolId) (counterparties : List String) : List CrossChainId :=
  counterparties.map fun counterparty => ⟨protocol, counterparty⟩

/-- What is paused after a call that succeeds. -/
def Pauses.after (p : Pauses) : Toggle → Pauses
  | .action id paused => { p with actions := turned paused [id] p.actions }
  | .traffic protocol [] paused => { p with protocols := turned paused [protocol] p.protocols }
  | .traffic protocol counterparties paused =>
    { p with routes := turned paused (routesOf protocol counterparties) p.routes }

namespace Toggle

/-- What the router does on a call. -/
def perform : Toggle → RouterM Unit
  | action id paused => Breaker.setAction id paused
  | traffic protocol counterparties paused => Breaker.setTraffic protocol counterparties paused

/-- The texts of a call can be kept in the store. -/
def Fits : Toggle → Prop
  | action .. => True
  | traffic _ counterparties _ => ∀ counterparty ∈ counterparties, Storable.Fits counterparty

instance : DecidablePred Fits
  | action .. => .isTrue trivial
  | traffic _ counterparties _ =>
    inferInstanceAs (Decidable (∀ counterparty ∈ counterparties, Storable.Fits counterparty))

theorem fits_routesOf {protocol : ProtocolId} {counterparties : List String} {paused : Bool}
    (h : (traffic protocol counterparties paused).Fits) :
    ∀ route ∈ routesOf protocol counterparties, Storable.Fits (Breaker.routeKey route) := by
  intro route hroute
  obtain ⟨counterparty, hmem, rfl⟩ := List.mem_map.1 hroute
  exact h counterparty hmem

/-- What a call names may be routed. -/
def Valid : Toggle → Prop
  | action id _ => id.check = .ok ()
  | traffic protocol counterparties _ =>
    protocol.check = .ok () ∧ ∀ route ∈ routesOf protocol counterparties, route.check = .ok ()

/-- One report for everything that a call moved into a set or out of it. -/
def reports (p p' : Pauses) : Toggle → List Event
  | action id paused => (changed p.actions p'.actions [id]).map (Breaker.actionEvent paused)
  | traffic protocol [] paused =>
    (changed p.protocols p'.protocols [protocol]).map (Breaker.protocolEvent paused)
  | traffic protocol counterparties paused =>
    (changed p.routes p'.routes (routesOf protocol counterparties)).map (Breaker.routeEvent paused)

theorem reports_self (p : Pauses) (call : Toggle) : call.reports p p = [] := by
  unfold reports
  split <;> rw [changed_self, List.map_nil]

/-- The state after a call, and the sets, which only a call that succeeds changes. -/
def step (s : World × Pauses) (call : Toggle) : World × Pauses :=
  match call.perform s.1 with
  | .ok _ w => (w, s.2.after call)
  | .error _ w => (w, s.2)

/-- The state after some calls, and the sets that they make when nothing was paused before. -/
def run (w : World) (calls : List Toggle) : World × Pauses :=
  calls.foldl step (w, ⟨∅, ∅, ∅⟩)

end Toggle

/-! ## Families of breakers -/

/-- A family of breakers: where the breaker of each thing is kept, and how a change is reported. -/
structure Panel (α : Type) where
  key : α → Key
  event : Bool → α → Event
  /-- The byte in front of all keys of the family. -/
  front : UInt8
  family_key : ∀ a, (key a).family = front
  key_inj : ∀ {a b}, key a = key b → a = b

namespace Panel

def actions : Panel ActionId :=
  ⟨.pausedAction, Breaker.actionEvent, 0x10, fun _ => rfl, Key.pausedAction.inj⟩

def protocols : Panel ProtocolId :=
  ⟨.pausedProtocol, Breaker.protocolEvent, 0x20, fun _ => rfl, Key.pausedProtocol.inj⟩

def routes : Panel CrossChainId where
  key := Breaker.routeKey
  event := Breaker.routeEvent
  front := 0x21
  family_key _ := rfl
  key_inj {a b} h := by
    obtain ⟨hprotocol, hcounterparty⟩ := Key.pausedRoute.inj h
    cases a; cases b
    exact congr (congrArg _ hprotocol) hcounterparty

variable {α : Type} (panel : Panel α)

theorem head?_key (a : α) : (panel.key a).bytes.head? = some panel.front := by
  rw [Key.head?_bytes, panel.family_key]

/-- The write that opens or closes a breaker. -/
def write (paused : Bool) (a : α) : Write :=
  if paused then .put (panel.key a).bytes [] else .delete (panel.key a).bytes

/-- The open breakers of a family are those of a set. -/
structure Shows (s : Finset α) (store : Store) : Prop where
  fits : ∀ a ∈ s, Fits (panel.key a)
  contains_iff : ∀ key, key.head? = some panel.front →
    (store.contains key = true ↔ ∃ a ∈ s, (panel.key a).bytes = key)

variable [DecidableEq α]

/-- The breakers that are not as wanted, in order of first mention. -/
def toTurn (paused : Bool) (named : List α) (store : Store) : List α :=
  named.eraseDups.filter fun a => store.contains (panel.key a).bytes != paused

/-- The store after some breakers were turned. -/
def turnAll (paused : Bool) (named : List α) (store : Store) : Store :=
  store.applyAll ((panel.toTurn paused named store).map (panel.write paused))

/-- The world after some breakers were turned and the changes reported. -/
def turn (paused : Bool) (named : List α) (w : World) : World :=
  { w with
    disk := ⟨panel.turnAll paused named w.disk.store, w.disk.faults⟩
    books := { w.books with
      events := w.books.events ++
        (panel.toTurn paused named w.disk.store).map (panel.event paused) } }

end Panel

/-! ## What is in the store after a turn -/

theorem Store.contains_apply (s : Store) (w : Write) (key : Bytes) :
    (s.apply w).contains key = if w.key = key then w.value.isSome else s.contains key := by
  rw [OrderedMap.contains, get?_apply, apply_ite Option.isSome]
  rfl

namespace Panel

variable {α : Type} (panel : Panel α) {store : Store} {s : Finset α} {paused : Bool}
  {named : List α}

theorem contains_writes (as : List α) (key : Bytes) :
    (store.applyAll (as.map (panel.write paused))).contains key =
      if ∃ a ∈ as, (panel.key a).bytes = key then paused else store.contains key := by
  induction as generalizing store with
  | nil => simp [Store.applyAll_nil]
  | cons a as ih =>
    have hwrite : (panel.write paused a).key = (panel.key a).bytes ∧
        (panel.write paused a).value.isSome = paused := by
      cases paused <;> exact ⟨rfl, rfl⟩
    rw [List.map_cons, Store.applyAll_cons, ih, Store.contains_apply, hwrite.1, hwrite.2]
    by_cases htail : ∃ b ∈ as, (panel.key b).bytes = key
    · simp [htail]
    · simp [htail]

variable [DecidableEq α]

/-- To turn only the breakers that are not as wanted leaves all named breakers as wanted. -/
theorem contains_turnAll (key : Bytes) :
    (panel.turnAll paused named store).contains key =
      if ∃ a ∈ named, (panel.key a).bytes = key then paused else store.contains key := by
  rw [turnAll, contains_writes]
  by_cases hturned : ∃ a ∈ panel.toTurn paused named store, (panel.key a).bytes = key
  · obtain ⟨a, ha, hkey⟩ := hturned
    have hnamed : a ∈ named := List.mem_eraseDups.1 (List.mem_filter.1 ha).1
    rw [if_pos ⟨a, ha, hkey⟩, if_pos ⟨a, hnamed, hkey⟩]
  · rw [if_neg hturned]
    split
    next hnamed =>
      obtain ⟨a, ha, rfl⟩ := hnamed
      by_contra hne
      exact hturned ⟨a, List.mem_filter.2 ⟨List.mem_eraseDups.2 ha, by simpa using hne⟩, rfl⟩
    next => rfl

variable {panel}

namespace Shows

omit [DecidableEq α] in
theorem empty (h : ∀ key, key.head? = some panel.front → store.get? key = none) :
    panel.Shows ∅ store where
  fits a ha := absurd ha (Finset.notMem_empty a)
  contains_iff key hkey := by simp [OrderedMap.contains, h key hkey]

/-- The question about one thing is answered by the set. -/
theorem contains_eq (h : panel.Shows s store) {a : α} (ha : Fits (panel.key a)) :
    store.contains (panel.key a).bytes = decide (a ∈ s) := by
  rw [Bool.eq_iff_iff, h.contains_iff _ (panel.head?_key a), decide_eq_true_iff]
  constructor
  · rintro ⟨b, hb, hkey⟩
    exact panel.key_inj (Key.bytes_inj (h.fits b hb) ha hkey) ▸ hb
  · intro hmem
    exact ⟨a, hmem, rfl⟩

theorem toTurn_eq (h : panel.Shows s store) (hnamed : ∀ a ∈ named, Fits (panel.key a)) :
    panel.toTurn paused named store = changed s (turned paused named s) named := by
  refine List.filter_congr fun a ha => ?_
  have ha : a ∈ named := List.mem_eraseDups.1 ha
  rw [h.contains_eq (hnamed a ha)]
  congr 1
  rw [Bool.eq_iff_iff, decide_eq_true_iff, mem_turned, if_pos ha]

theorem turnAll (h : panel.Shows s store) (hnamed : ∀ a ∈ named, Fits (panel.key a)) :
    panel.Shows (turned paused named s) (panel.turnAll paused named store) where
  fits a ha := by
    rw [mem_turned] at ha
    split at ha
    next hmem => exact hnamed a hmem
    next => exact h.fits a ha
  contains_iff key hkey := by
    rw [contains_turnAll]
    split
    next hmem =>
      obtain ⟨a, ha, rfl⟩ := hmem
      constructor
      · intro hpaused
        exact ⟨a, mem_turned.2 (by rwa [if_pos ha]), rfl⟩
      · rintro ⟨b, hb, hsame⟩
        have hfits : Fits (panel.key b) := by
          rw [mem_turned] at hb
          split at hb
          next hmem => exact hnamed b hmem
          next => exact h.fits b hb
        obtain rfl := panel.key_inj (Key.bytes_inj hfits (hnamed a ha) hsame)
        rwa [mem_turned, if_pos ha] at hb
    next hmem =>
      rw [h.contains_iff key hkey]
      refine exists_congr fun a => and_congr_left fun ha => ?_
      rw [mem_turned, if_neg fun hnamed => hmem ⟨a, hnamed, ha⟩]

/-- A turn in one family is not seen in another. -/
theorem aside {β : Type} [DecidableEq β] {other : Panel β} {t : Finset β}
    (h : other.Shows t store) (hfront : other.front ≠ panel.front) :
    other.Shows t (panel.turnAll paused named store) where
  fits := h.fits
  contains_iff key hkey := by
    rw [contains_turnAll, if_neg]
    · exact h.contains_iff key hkey
    · rintro ⟨a, -, rfl⟩
      rw [head?_key] at hkey
      exact hfront (Option.some.inj hkey).symm

end Shows

end Panel

/-! ## What a call does -/

namespace Breaker

open Panel

section

variable {α : Type} [DecidableEq α] (panel : Panel α) {w : World}

theorem toTurn_singleton (paused : Bool) (a : α) (store : Store) :
    panel.toTurn paused [a] store =
      if store.contains (panel.key a).bytes != paused then [a] else [] := by
  rw [toTurn, List.eraseDups_cons, List.filter_cons]
  rfl

theorem set_run (hw : w.disk.Reliable) (a : α) (paused : Bool) :
    set (panel.key a) paused w = .ok (w.disk.store.contains (panel.key a).bytes != paused)
      { w with disk := ⟨panel.turnAll paused [a] w.disk.store, w.disk.faults⟩ } := by
  refine onDisk_run ?_
  rw [bind_of_ok (Disk.contains_run hw.readable _), turnAll, toTurn_singleton]
  cases w.disk.store.contains (panel.key a).bytes <;> cases paused
  case false.true => exact bind_of_ok (Disk.put_run (hw .put) _ _)
  case true.false => exact bind_of_ok (Disk.delete_run (hw .delete) _)
  all_goals rfl

/-- The breaker of one thing is set and, if that changed it, reported. -/
theorem set_then_emit_run (hw : w.disk.Reliable) (a : α) (paused : Bool) :
    (do if ← set (panel.key a) paused then RouterM.emit (panel.event paused a) : RouterM Unit) w =
      .ok () (panel.turn paused [a] w) := by
  rw [bind_of_ok (set_run panel hw a paused)]
  cases hturn : w.disk.store.contains (panel.key a).bytes != paused with
  | false => simp [turn, toTurn_singleton, hturn, pure, EStateM.pure]
  | true => simp [turn, toTurn_singleton, hturn, emit_run]

end

theorem routesTo_of_valid {protocol : ProtocolId} {counterparties : List String}
    (h : ∀ route ∈ routesOf protocol counterparties, route.check = .ok ())
    (seen : List CrossChainId) : routesTo protocol seen counterparties =
      .ok ((routesOf protocol counterparties).filter (· ∉ seen)).eraseDups := by
  induction counterparties generalizing seen with
  | nil => rfl
  | cons counterparty rest ih =>
    obtain ⟨hroute, hrest⟩ := List.forall_mem_cons.1 h
    have hmake : CrossChainId.make protocol counterparty = .ok ⟨protocol, counterparty⟩ :=
      CrossChainId.make_eq_ok hroute
    simp only [routesTo, hmake]
    by_cases hseen : ⟨protocol, counterparty⟩ ∈ seen
    · simp [hseen, ih hrest, routesOf]
    · -- What is filtered out of the rest by `eraseDups` is what is seen there.
      have hfilter : ((routesOf protocol rest).filter (· ∉ seen)).filter
          (fun route => !route == (⟨protocol, counterparty⟩ : CrossChainId)) =
          (routesOf protocol rest).filter
            (· ∉ (⟨protocol, counterparty⟩ : CrossChainId) :: seen) := by
        rw [List.filter_filter]
        refine List.filter_congr fun route _ => ?_
        simp [beq_eq_decide]
      rw [if_neg hseen, ih hrest, ← hfilter]
      simp [routesOf, hseen, Except.map, List.eraseDups_cons]

theorem routesTo_of_invalid {protocol : ProtocolId} {counterparties : List String}
    (h : ¬ ∀ route ∈ routesOf protocol counterparties, route.check = .ok ())
    (seen : List CrossChainId) : ∃ cause, routesTo protocol seen counterparties = .error cause := by
  induction counterparties generalizing seen with
  | nil => exact absurd (fun _ => nofun) h
  | cons counterparty rest ih =>
    rw [routesTo]
    cases hcheck : CrossChainId.check ⟨protocol, counterparty⟩ with
    | error cause =>
      have hmake : CrossChainId.make protocol counterparty = .error cause := by
        rw [CrossChainId.make, hcheck]
        rfl
      rw [hmake]
      exact ⟨_, rfl⟩
    | ok _ =>
      have hmake : CrossChainId.make protocol counterparty = .ok ⟨protocol, counterparty⟩ :=
        CrossChainId.make_eq_ok hcheck
      have hrest : ¬ ∀ route ∈ routesOf protocol rest, route.check = .ok () :=
        fun hrest => h (List.forall_mem_cons.2 ⟨hcheck, hrest⟩)
      simp only [hmake]
      split
      · exact ih hrest seen
      · obtain ⟨cause, hcause⟩ := ih hrest (⟨protocol, counterparty⟩ :: seen)
        exact ⟨cause, by rw [hcause]; rfl⟩

theorem routesToChange_run {d : Disk} (hd : d.Readable) (paused : Bool)
    (routes : List CrossChainId) : routesToChange paused routes d =
      .ok (routes.filter fun route => d.store.contains (routeKey route).bytes != paused) d := by
  induction routes with
  | nil => rfl
  | cons route rest ih =>
    rw [routesToChange, bind_of_ok (Disk.contains_run hd _), bind_of_ok ih, List.filter_cons]
    cases d.store.contains (routeKey route).bytes <;> cases paused <;> rfl

variable {w : World} {protocol : ProtocolId} {counterparties : List String}

theorem setRoutes_run (hw : w.disk.Reliable)
    (h : ∀ route ∈ routesOf protocol counterparties, route.check = .ok ()) (paused : Bool) :
    setRoutes protocol counterparties paused w =
      .ok () (Panel.routes.turn paused (routesOf protocol counterparties) w) := by
  have hroutes : routesTo protocol [] counterparties =
      .ok (routesOf protocol counterparties).eraseDups := by
    rw [routesTo_of_valid h, List.filter_eq_self.2 fun _ _ => by simp]
  rw [setRoutes, bind_of_ok (checked_run hroutes w)]
  refine (bind_of_ok (onDisk_run ?_)).trans (emits_run (routeEvent paused) _ _)
  rw [bind_of_ok (routesToChange_run hw.readable _ _)]
  split
  next hchanged => exact bind_of_ok (Disk.write_run (hw .batch) _)
  next hchanged =>
    have hnone : Panel.routes.toTurn paused (routesOf protocol counterparties) w.disk.store = [] :=
      Decidable.not_not.1 hchanged
    rw [turnAll, hnone]
    exact congrArg (EStateM.Result.ok · w.disk) hnone

end Breaker

namespace Toggle

/-- The world after a call that succeeds. -/
def turn (w : World) : Toggle → World
  | action id paused => Panel.actions.turn paused [id] w
  | traffic protocol [] paused => Panel.protocols.turn paused [protocol] w
  | traffic protocol counterparties paused =>
    Panel.routes.turn paused (routesOf protocol counterparties) w

variable {w : World} {call : Toggle}

theorem perform_of_valid (hw : w.disk.Reliable) (h : call.Valid) :
    call.perform w = .ok () (call.turn w) := by
  match call with
  | action id paused =>
    exact (bind_of_ok (checked_run h w)).trans
      (Breaker.set_then_emit_run Panel.actions hw id paused)
  | traffic protocol [] paused =>
    exact (bind_of_ok (checked_run h.1 w)).trans
      (Breaker.set_then_emit_run Panel.protocols hw protocol paused)
  | traffic protocol (counterparty :: rest) paused =>
    exact (bind_of_ok (checked_run h.1 w)).trans (Breaker.setRoutes_run hw h.2 paused)

/-- A call that names something that may not be routed fails before anything is done. -/
theorem perform_of_invalid (h : ¬ call.Valid) : ∃ e, call.perform w = .error e w := by
  have hrefused : ∀ {α β : Type} {x : Except Invalid α} {f : α → RouterM β} {cause : Invalid},
      x = .error cause → (checked x >>= f) w = .error (.validation cause) w := by
    rintro α β x f cause rfl
    rfl
  match call with
  | action id paused =>
    cases hcheck : id.check with
    | ok _ => exact absurd hcheck h
    | error cause => exact ⟨_, hrefused hcheck⟩
  | traffic protocol counterparties paused =>
    cases hcheck : protocol.check with
    | error cause => exact ⟨_, hrefused hcheck⟩
    | ok _ =>
      have hroutes := fun hroutes => h ⟨hcheck, hroutes⟩
      obtain ⟨cause, hcause⟩ := Breaker.routesTo_of_invalid hroutes []
      have hsome : counterparties ≠ [] := by
        rintro rfl
        exact hroutes fun _ => nofun
      refine ⟨.validation cause, (bind_of_ok (checked_run hcheck w)).trans ?_⟩
      split
      next => exact absurd rfl hsome
      next => exact hrefused hcause

end Toggle

/-! ## Three sets -/

/-- What is paused is kept in the store. -/
structure World.Mirrors (w : World) (p : Pauses) : Prop where
  reliable : w.disk.Reliable
  actions : Panel.actions.Shows p.actions w.disk.store
  protocols : Panel.protocols.Shows p.protocols w.disk.store
  routes : Panel.routes.Shows p.routes w.disk.store
  valid : ∀ route ∈ p.routes, route.check = .ok ()

namespace World.Mirrors

variable {w : World} {p : Pauses} {call : Toggle}

theorem turn (h : w.Mirrors p) (hfits : call.Fits) (hvalid : call.Valid) :
    (call.turn w).Mirrors (p.after call) := by
  have hfront : Panel.actions.front ≠ Panel.protocols.front ∧
      Panel.actions.front ≠ Panel.routes.front ∧
      Panel.protocols.front ≠ Panel.routes.front := by
    decide
  match call with
  | .action id paused =>
    exact ⟨h.reliable, h.actions.turnAll fun _ _ => trivial, h.protocols.aside hfront.1.symm,
      h.routes.aside hfront.2.1.symm, h.valid⟩
  | .traffic protocol [] paused =>
    exact ⟨h.reliable, h.actions.aside hfront.1, h.protocols.turnAll fun _ _ => trivial,
      h.routes.aside hfront.2.2.symm, h.valid⟩
  | .traffic protocol (counterparty :: rest) paused =>
    refine ⟨h.reliable, h.actions.aside hfront.2.1, h.protocols.aside hfront.2.2,
      h.routes.turnAll (Toggle.fits_routesOf hfits), fun route hroute => ?_⟩
    simp only [Pauses.after, mem_turned] at hroute
    split at hroute
    next hmem => exact hvalid.2 route hmem
    next => exact h.valid route hroute

/-- A call reports what it moved into a set or out of it. -/
theorem books_turn (h : w.Mirrors p) (hfits : call.Fits) :
    (call.turn w).books = { w.books with
      events := w.books.events ++ call.reports p (p.after call) } := by
  match call with
  | .action id paused =>
    simp only [Toggle.turn, Panel.turn, h.actions.toTurn_eq fun _ _ => trivial]
    rfl
  | .traffic protocol [] paused =>
    simp only [Toggle.turn, Panel.turn, h.protocols.toTurn_eq fun _ _ => trivial]
    rfl
  | .traffic protocol (counterparty :: rest) paused =>
    simp only [Toggle.turn, Panel.turn, h.routes.toTurn_eq (Toggle.fits_routesOf hfits)]
    rfl

end World.Mirrors

/-! ## Listings -/

/-- An action lists a set: every member once. -/
def Lists {α : Type} [DecidableEq α] (act : RouterM (List α)) (s : Finset α) (w : World) : Prop :=
  ∃ as, act w = .ok as w ∧ as.Nodup ∧ as.toFinset = s

namespace Breaker

open Codec LawfulCodec

section

variable {β : Type} [Codec β] [Storable β] [LawfulCodec β] {front : UInt8}

theorem decodeSuffixes_of_encoded {entries : List (Bytes × Bytes)}
    (h : ∀ e ∈ entries, ∃ b : β, Fits b ∧ front :: encode b = e.1) :
    ∃ bs : List β, decodeSuffixes β entries = .ok bs ∧ (∀ b ∈ bs, Fits b) ∧
      bs.map (fun b => front :: encode b) = entries.map (·.1) := by
  induction entries with
  | nil => exact ⟨[], rfl, nofun, rfl⟩
  | cons e entries ih =>
    obtain ⟨hhead, htail⟩ := List.forall_mem_cons.1 h
    obtain ⟨b, hfits, hkey⟩ := hhead
    obtain ⟨bs, hdecode, hall, hkeys⟩ := ih htail
    refine ⟨b :: bs, ?_, List.forall_mem_cons.2 ⟨hfits, hall⟩, by simp [hkey, hkeys]⟩
    rw [decodeSuffixes] at hdecode ⊢
    rw [List.mapM_cons, hdecode, ← hkey, List.drop_one, List.tail_cons, decodeAt_encode hfits]
    rfl

variable [DecidableEq β]

/-- A listing finds the members of a set when the keys in the store that start as asked are
theirs. -/
theorem listed_run (front : UInt8) {w : World} (hw : w.disk.Readable) {start : Bytes} {s : Finset β}
    (hfits : ∀ b ∈ s, Fits b) (hstart : ∀ b ∈ s, start.isPrefixOf (front :: encode b) = true)
    (hstore : ∀ key, start.isPrefixOf key = true →
      (w.disk.store.contains key = true ↔ ∃ b ∈ s, front :: encode b = key)) :
    Lists (listed β start) s w := by
  have hkey : ∀ key, key ∈ (w.disk.store.extensions start).map (·.1) ↔
      ∃ b ∈ s, front :: encode b = key := by
    intro key
    rw [Store.mem_extensions]
    constructor
    · rintro ⟨hunder, hcontains⟩
      exact (hstore key hunder).1 hcontains
    · rintro ⟨b, hb, rfl⟩
      exact ⟨hstart b hb, (hstore _ (hstart b hb)).2 ⟨b, hb, rfl⟩⟩
  obtain ⟨bs, hdecode, hall, hkeys⟩ : ∃ bs : List β, _ := decodeSuffixes_of_encoded
    fun e he => by
      obtain ⟨b, hb, hsame⟩ := (hkey e.1).1 (List.mem_map_of_mem he)
      exact ⟨b, hfits b hb, hsame⟩
  refine ⟨bs, onDisk_run ?_, ?_, Finset.ext fun b => ?_⟩
  · rw [bind_of_ok (Disk.extensions_run hw start), hdecode, settle_run]
  · have hnodup := w.disk.store.nodup_extensions start
    rw [← hkeys] at hnodup
    exact hnodup.of_map
  · rw [List.mem_toFinset]
    constructor
    · intro hb
      have hmem : front :: encode b ∈ bs.map fun b => front :: encode b := List.mem_map_of_mem hb
      obtain ⟨c, hc, hsame⟩ := (hkey _).1 (hkeys ▸ hmem)
      exact encode_inj (hfits c hc) (hall b hb) (List.cons.inj hsame).2 ▸ hc
    · intro hb
      have hmem := (hkey _).2 ⟨b, hb, rfl⟩
      rw [← hkeys] at hmem
      obtain ⟨c, hc, hsame⟩ := List.mem_map.1 hmem
      exact encode_inj (hall c hc) (hfits b hb) (List.cons.inj hsame).2 ▸ hc

end

variable {w : World} {p : Pauses}

/-- A family of breakers whose keys encode what they are for is listed by its byte in front. -/
theorem listed_panel {β : Type} [Codec β] [Storable β] [LawfulCodec β] [DecidableEq β]
    {panel : Panel β} {s : Finset β} (hw : w.disk.Readable) (h : panel.Shows s w.disk.store)
    (hfits : ∀ b : β, Fits b) (hkey : ∀ b, (panel.key b).bytes = panel.front :: encode b) :
    Lists (listed β [panel.front]) s w := by
  refine listed_run panel.front hw (fun b _ => hfits b)
    (fun b _ => Bytes.isPrefixOf_singleton.2 rfl) fun key hfront => ?_
  rw [h.contains_iff key (Bytes.isPrefixOf_singleton.1 hfront)]
  simp only [hkey]

theorem pausedActions_run (h : w.Mirrors p) : Lists pausedActions p.actions w := by
  have hlist := listed_panel h.reliable.readable h.actions (fun _ => trivial) fun _ => rfl
  exact hlist

theorem pausedProtocols_run (h : w.Mirrors p) : Lists pausedProtocols p.protocols w := by
  have hlist := listed_panel h.reliable.readable h.protocols (fun _ => trivial) fun _ => rfl
  exact hlist

theorem mapM_make {pairs : List (ProtocolId × String)}
    (h : ∀ pair ∈ pairs, CrossChainId.check ⟨pair.1, pair.2⟩ = .ok ()) :
    (pairs.mapM fun (protocol, counterparty) => CrossChainId.make protocol counterparty) =
      .ok (pairs.map fun pair => ⟨pair.1, pair.2⟩) := by
  induction pairs with
  | nil => rfl
  | cons pair pairs ih =>
    obtain ⟨hhead, htail⟩ := List.forall_mem_cons.1 h
    obtain ⟨protocol, counterparty⟩ := pair
    have hmake : CrossChainId.make protocol counterparty = .ok ⟨protocol, counterparty⟩ :=
      CrossChainId.make_eq_ok hhead
    simp only [List.mapM_cons, ih htail, hmake]
    rfl

/-- Where a listing of routes starts in the store. -/
theorem routesStart_isPrefixOf {asked : Option ProtocolId} {key : Bytes}
    (h : (asked.elim Key.pausedRoutes Key.pausedRoutesOf).isPrefixOf key = true) :
    key.head? = some 0x21 := by
  cases asked with
  | none => exact Bytes.head?_of_isPrefixOf h
  | some protocol => exact Bytes.head?_of_isPrefixOf h

theorem routesStart_isPrefixOf_routeKey {asked : Option ProtocolId} {route : CrossChainId} :
    (asked.elim Key.pausedRoutes Key.pausedRoutesOf).isPrefixOf (routeKey route).bytes = true ↔
      ∀ protocol ∈ asked, route.protocol = protocol := by
  cases asked with
  | none => exact iff_of_true (Bytes.isPrefixOf_singleton.2 rfl) nofun
  | some protocol =>
    refine Key.pausedRoutesOf_isPrefixOf.trans ?_
    simp

theorem pausedRoutes_run (h : w.Mirrors p) (asked : Option ProtocolId) :
    Lists (pausedRoutes asked)
      (p.routes.filter fun route => ∀ protocol ∈ asked, route.protocol = protocol) w := by
  have hlisted : Lists (listed (ProtocolId × String)
      (asked.elim Key.pausedRoutes Key.pausedRoutesOf))
      ((p.routes.filter fun route => ∀ protocol ∈ asked, route.protocol = protocol).image
        fun route => (route.protocol, route.counterparty)) w := by
    refine listed_run 0x21 h.reliable.readable ?_ ?_ fun key hstart => ?_
    · intro pair hpair
      obtain ⟨route, hroute, rfl⟩ := Finset.mem_image.1 hpair
      exact ⟨trivial, h.routes.fits route (Finset.mem_filter.1 hroute).1⟩
    · intro pair hpair
      obtain ⟨route, hroute, rfl⟩ := Finset.mem_image.1 hpair
      exact routesStart_isPrefixOf_routeKey.2 (Finset.mem_filter.1 hroute).2
    · rw [h.routes.contains_iff key (routesStart_isPrefixOf hstart)]
      constructor
      · rintro ⟨route, hroute, rfl⟩
        have hasked := routesStart_isPrefixOf_routeKey.1 hstart
        exact ⟨_, Finset.mem_image_of_mem _ (Finset.mem_filter.2 ⟨hroute, hasked⟩), rfl⟩
      · rintro ⟨pair, hpair, hkey⟩
        obtain ⟨route, hroute, rfl⟩ := Finset.mem_image.1 hpair
        exact ⟨route, (Finset.mem_filter.1 hroute).1, hkey⟩
  obtain ⟨pairs, hrun, hnodup, hset⟩ := hlisted
  have hvalid : ∀ pair ∈ pairs, CrossChainId.check ⟨pair.1, pair.2⟩ = .ok () := by
    intro pair hpair
    rw [← List.mem_toFinset, hset] at hpair
    obtain ⟨route, hroute, rfl⟩ := Finset.mem_image.1 hpair
    exact h.valid route (Finset.mem_filter.1 hroute).1
  refine ⟨pairs.map fun pair => ⟨pair.1, pair.2⟩, ?_, hnodup.map ?_, ?_⟩
  · exact (bind_of_ok hrun).trans (checked_run (mapM_make hvalid) w)
  · rintro ⟨p, c⟩ ⟨q, d⟩ hpq
    obtain ⟨rfl, rfl⟩ := CrossChainId.mk.inj hpq
    rfl
  · have hmem : ∀ pair, pair ∈ pairs ↔ ∃ route ∈ p.routes,
        (∀ protocol ∈ asked, route.protocol = protocol) ∧
          (route.protocol, route.counterparty) = pair := by
      intro pair
      rw [← List.mem_toFinset, hset]
      simp [and_assoc]
    ext route
    simp only [List.mem_toFinset, List.mem_map, hmem, Finset.mem_filter]
    constructor
    · rintro ⟨_, ⟨route, hroute, hasked, rfl⟩, rfl⟩
      exact ⟨hroute, hasked⟩
    · rintro ⟨hroute, hasked⟩
      exact ⟨_, ⟨route, hroute, hasked, rfl⟩, rfl⟩

end Breaker

/-! ## Answers -/

/-- Questions and listings about breakers answer what three sets tell. -/
structure World.Answers (w : World) (p : Pauses) : Prop where
  action : ∀ id, Breaker.isOpen (.pausedAction id) w = .ok (decide (id ∈ p.actions)) w
  protocol : ∀ id, Breaker.isOpen (.pausedProtocol id) w = .ok (decide (id ∈ p.protocols)) w
  route : ∀ protocol counterparty, Fits counterparty →
    Breaker.isOpen (.pausedRoute protocol counterparty) w =
      .ok (decide (⟨protocol, counterparty⟩ ∈ p.routes)) w
  actions : Lists Breaker.pausedActions p.actions w
  protocols : Lists Breaker.pausedProtocols p.protocols w
  routes : Lists (Breaker.pausedRoutes none) p.routes w
  routesOf : ∀ protocol, Lists (Breaker.pausedRoutes (some protocol))
    (p.routes.filter fun route => route.protocol = protocol) w

theorem Panel.Shows.isOpen_run {α : Type} [DecidableEq α] {panel : Panel α} {s : Finset α}
    {w : World} (h : panel.Shows s w.disk.store) (hw : w.disk.Readable) {a : α}
    (ha : Fits (panel.key a)) : Breaker.isOpen (panel.key a) w = .ok (decide (a ∈ s)) w :=
  h.contains_eq ha ▸ contains_run hw (panel.key a).bytes

theorem World.Mirrors.answers {w : World} {p : Pauses} (h : w.Mirrors p) : w.Answers p where
  action _ := h.actions.isOpen_run h.reliable.readable trivial
  protocol _ := h.protocols.isOpen_run h.reliable.readable trivial
  route protocol counterparty hfits :=
    h.routes.isOpen_run h.reliable.readable (a := ⟨protocol, counterparty⟩) hfits
  actions := Breaker.pausedActions_run h
  protocols := Breaker.pausedProtocols_run h
  routes := by
    have hlist := Breaker.pausedRoutes_run h none
    rwa [Finset.filter_true_of_mem fun _ _ => nofun] at hlist
  routesOf protocol := by
    simpa using Breaker.pausedRoutes_run h (some protocol)

/-! ## Runs -/

/-- The keys of breakers. -/
def Key.IsBreaker (key : Bytes) : Prop :=
  key.head? = some 0x10 ∨ key.head? = some 0x20 ∨ key.head? = some 0x21

/-- Nothing is paused when there are no keys of breakers. -/
theorem World.Mirrors.empty {w : World} (hw : w.disk.Reliable)
    (h : ∀ key, Key.IsBreaker key → w.disk.store.get? key = none) : w.Mirrors ⟨∅, ∅, ∅⟩ where
  reliable := hw
  actions := .empty fun key hkey => h key (.inl hkey)
  protocols := .empty fun key hkey => h key (.inr (.inl hkey))
  routes := .empty fun key hkey => h key (.inr (.inr hkey))
  valid route hroute := absurd hroute (Finset.notMem_empty route)

namespace Toggle

variable {w : World} {p : Pauses} {call : Toggle}

theorem step_of_valid (hw : w.disk.Reliable) (h : call.Valid) :
    step (w, p) call = (call.turn w, p.after call) := by
  simp only [step, perform_of_valid hw h]

theorem step_of_invalid (h : ¬ call.Valid) : step (w, p) call = (w, p) := by
  obtain ⟨e, he⟩ := perform_of_invalid (w := w) h
  simp only [step, he]

/-- A call keeps the store and the sets together, whether it succeeds or fails. -/
theorem mirrors_step (h : w.Mirrors p) (hfits : call.Fits) :
    (step (w, p) call).1.Mirrors (step (w, p) call).2 := by
  by_cases hvalid : call.Valid
  · rw [step_of_valid h.reliable hvalid]
    exact h.turn hfits hvalid
  · rw [step_of_invalid hvalid]
    exact h

theorem books_step (h : w.Mirrors p) (hfits : call.Fits) :
    (step (w, p) call).1.books = { w.books with
      events := w.books.events ++ call.reports p (step (w, p) call).2 } := by
  by_cases hvalid : call.Valid
  · rw [step_of_valid h.reliable hvalid]
    exact h.books_turn hfits
  · rw [step_of_invalid hvalid, reports_self, List.append_nil]

theorem mirrors_run {calls : List Toggle} (h : w.Mirrors p)
    (hfits : ∀ call ∈ calls, call.Fits) :
    (calls.foldl step (w, p)).1.Mirrors (calls.foldl step (w, p)).2 := by
  induction calls generalizing w p with
  | nil => exact h
  | cons call calls ih =>
    obtain ⟨hcall, hcalls⟩ := List.forall_mem_cons.1 hfits
    exact ih (mirrors_step h hcall) hcalls

end Toggle

/-- When nothing was paused before, all questions and listings after any calls answer what the three
sets tell that the successful ones among the calls make, and the next call reports exactly what it
moves into one of the sets or out of it, and changes nothing else in the books. -/
theorem mirrored_of_toggles {w : World} (hw : w.disk.Reliable)
    (hclosed : ∀ key, Key.IsBreaker key → w.disk.store.get? key = none) {calls : List Toggle}
    (hfits : ∀ call ∈ calls, call.Fits) :
    let s := Toggle.run w calls
    s.1.Answers s.2 ∧ ∀ call : Toggle, call.Fits →
      (Toggle.step s call).1.books = { s.1.books with
        events := s.1.books.events ++ call.reports s.2 (Toggle.step s call).2 } := by
  have hmirrors := Toggle.mirrors_run (.empty hw hclosed) hfits
  exact ⟨hmirrors.answers, fun call hcall => Toggle.books_step hmirrors hcall⟩

namespace Testbed

/-- Calls on the breakers with a counterparty twice, one with a colon, and a reserved action. -/
def toggles : List Toggle :=
  [.traffic .ibc ["channel-0", "a:b", "channel-0"] true, .action .unsupported true,
    .action .fee true, .traffic .ibc ["a:b", "c"] false, .traffic .cctp [] true]

theorem fits_toggles : ∀ call ∈ toggles, call.Fits := by
  decide +kernel

theorem run_toggles :
    (Toggle.run world toggles).2 = ⟨{.fee}, {.cctp}, {⟨.ibc, "channel-0"⟩}⟩ := by
  decide +kernel

theorem mirrored_toggles :
    (Toggle.run world toggles).1.Answers ⟨{.fee}, {.cctp}, {⟨.ibc, "channel-0"⟩}⟩ ∧
      (Toggle.step (Toggle.run world toggles)
        (.traffic .ibc ["b", "channel-0", "b"] true)).1.books.events =
          (Toggle.run world toggles).1.books.events ++ [.counterpartyPaused .ibc "b"] := by
  obtain ⟨hanswers, hreports⟩ :=
    mirrored_of_toggles reliable_world (fun key _ => get?_world key) fits_toggles
  rw [run_toggles] at hanswers
  have hreport := congrArg Books.events
    (hreports (.traffic .ibc ["b", "channel-0", "b"] true) (by decide +kernel))
  refine ⟨hanswers, hreport.trans (congrArg (_ ++ ·) ?_)⟩
  decide +kernel

end Testbed

end TransferRouter
