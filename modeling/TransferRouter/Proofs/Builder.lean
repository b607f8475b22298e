import TransferRouter.Proofs.Exchange
import TransferRouter.Proofs.Registry

/-!
Building a router. What is stored is checked before anything is written, so the only write of a
build puts parameters where there were none. Handlers are registered after that, and a list that is
refused leaves the parameters behind. A store that has parameters is never changed by a build.
-/

namespace TransferRouter

open Codec
open Registry (Registrable Serves)

/-! ## Parameters -/

/-- The store with parameters, if it has none. -/
def Store.founded (s : Store) (p : Params) : Store :=
  if s.contains Key.params.bytes then s else s.insert Key.params.bytes (encode p)

/-- There are no parameters in the store, or they can be read. -/
def Store.Startable (s : Store) : Prop :=
  ∀ value, s.get? Key.params.bytes = some value →
    ∃ p, decodeAt Params Key.params.bytes value = .ok p

def World.founded (w : World) (p : Params) : World :=
  { w with disk := ⟨w.disk.store.founded p, w.disk.faults⟩ }

namespace Store

variable {s : Store} {p : Params}

theorem founded_of_contains (h : s.contains Key.params.bytes = true) : s.founded p = s := if_pos h

theorem founded_of_absent (h : s.get? Key.params.bytes = none) :
    s.founded p = s.insert Key.params.bytes (encode p) :=
  if_neg (by simp [OrderedMap.contains, h])

theorem contains_founded : (s.founded p).contains Key.params.bytes = true := by
  unfold founded
  split
  next h => exact h
  next => rw [OrderedMap.contains, s.get?_insert_self]; rfl

/-- Nothing that is in the store is lost or replaced. -/
theorem get?_founded {key value : Bytes} (h : s.get? key = some value) :
    (s.founded p).get? key = some value := by
  unfold founded
  split
  next => exact h
  next habsent =>
    rwa [OrderedMap.get?_insert_ne]
    rintro rfl
    exact habsent (OrderedMap.contains_iff.2 ⟨value, h⟩)

end Store

namespace World

variable {w : World} {p : Params}

theorem founded_of_contains (h : w.disk.store.contains Key.params.bytes = true) :
    w.founded p = w := by
  rw [founded, Store.founded_of_contains h]

end World

/-- Nothing is paused in the state that a build stores. -/
theorem Genesis.valid_of_params {p : Params} (h : p.passthroughLimit ≠ 0) :
    Genesis.Valid { Genesis.initial with params := p } where
  params := h
  actions _ h := absurd h List.not_mem_nil
  protocols _ h := absurd h List.not_mem_nil
  routes _ h := absurd h List.not_mem_nil
  nodup_actions := List.nodup_nil
  nodup_protocols := List.nodup_nil
  nodup_routes := List.nodup_nil

namespace Blueprint

variable {b : Blueprint} {w w' : World} {r : Router}

theorem storeParams_of_startable (hw : w.disk.Reliable) (hconfig : b.config.check = .ok ())
    (h : w.disk.store.Startable) : b.storeParams w = .ok () (w.founded b.config.params) := by
  cases hvalue : w.disk.store.get? Key.params.bytes with
  | some value =>
    have hcontains := OrderedMap.contains_iff.2 ⟨value, hvalue⟩
    obtain ⟨p, hp⟩ := h value hvalue
    rw [World.founded_of_contains hcontains]
    have hread := read_of_present (α := Params) hw.readable hvalue
    rw [hp] at hread
    exact bind_of_ok hread
  | none =>
    have hread := read_of_absent (α := Params) hw.readable hvalue
    have hlimit := (Config.check_eq_ok.1 hconfig).2.2.2.2.1
    refine (bind_of_ok hread).trans
      ((Genesis.importState_eq_ok hw).2 ⟨Genesis.valid_of_params hlimit, ?_⟩)
    rw [World.founded, Store.founded_of_absent hvalue]
    rfl

theorem storeParams_of_not_startable (hw : w.disk.Reliable) (h : ¬ w.disk.store.Startable) :
    ∃ e, b.storeParams w = .error e w := by
  obtain ⟨value, hvalue⟩ := not_forall.1 h
  obtain ⟨hvalue, hbad⟩ := Classical.not_imp.1 hvalue
  have hread := read_of_present (α := Params) hw.readable hvalue
  cases hdecode : decodeAt Params Key.params.bytes value with
  | ok p => exact absurd ⟨p, hdecode⟩ hbad
  | error fault =>
    rw [hdecode] at hread
    exact ⟨_, bind_of_error hread⟩

/-! ## Handlers -/

/-- The router of the parts. -/
def assemble (b : Blueprint) : Except RouterError Router := do
  let actions ← Registry.ofList ActionController.id b.allActions
  let forwarders ← Registry.ofList ForwardingController.id b.forwarders
  let parsers ← Registry.ofList PacketParser.id b.parsers
  return {
    config := b.config
    authority := b.authority.getD b.config.authority
    parsers := parsers
    actions := actions
    forwarders := forwarders }

/-- The router that is made of three registries. -/
theorem assemble_eq_ok : b.assemble = .ok r ↔
    Registry.ofList ActionController.id b.allActions = .ok r.actions ∧
      Registry.ofList ForwardingController.id b.forwarders = .ok r.forwarders ∧
      Registry.ofList PacketParser.id b.parsers = .ok r.parsers ∧
      r.config = b.config ∧ r.authority = b.authority.getD b.config.authority := by
  unfold assemble
  simp only [except_bind_eq_ok]
  constructor
  · rintro ⟨actions, hactions, forwarders, hforwarders, parsers, hparsers, hr⟩
    obtain rfl := Except.ok.inj hr
    exact ⟨hactions, hforwarders, hparsers, rfl, rfl⟩
  · rintro ⟨hactions, hforwarders, hparsers, hconfig, hauthority⟩
    refine ⟨_, hactions, _, hforwarders, _, hparsers, ?_⟩
    obtain ⟨config, authority, parsers, actions, forwarders⟩ := r
    obtain rfl : config = b.config := hconfig
    obtain rfl : authority = _ := hauthority
    rfl

theorem settle_bind {α β : Type} (x : Except RouterError α) (f : α → Except RouterError β) :
    (settle id (x >>= f) : RouterM β) = settle id x >>= fun a => settle id (f a) := by
  cases x <;> rfl

/-- Nothing is written once the parameters are settled. -/
theorem build_eq : b.build = (do
    settle (.validation ∘ .config) b.config.check
    b.storeParams
    settle id b.assemble) := by
  unfold build assemble
  simp only [settle_bind]
  rfl

/-! ## Builds -/

/-- A build that fails before it registers handlers has done nothing. -/
theorem build_refused (hw : w.disk.Reliable)
    (h : b.config.check ≠ .ok () ∨ ¬ w.disk.store.Startable) : ∃ e, b.build w = .error e w := by
  rw [build_eq]
  cases hconfig : b.config.check with
  | error fault => exact ⟨_, bind_of_error rfl⟩
  | ok _ =>
    obtain ⟨e, he⟩ := storeParams_of_not_startable (b := b) hw
      (h.resolve_left fun hne => hne hconfig)
    exact ⟨e, (bind_of_ok (settle_run _ w)).trans (bind_of_error he)⟩

/-- Any other build stores the parameters and then registers the handlers. -/
theorem build_run (hw : w.disk.Reliable) (hconfig : b.config.check = .ok ())
    (h : w.disk.store.Startable) :
    b.build w = settle id b.assemble (w.founded b.config.params) := by
  rw [build_eq, hconfig, bind_of_ok (settle_run _ w),
    bind_of_ok (storeParams_of_startable hw hconfig h)]

theorem build_eq_ok (hw : w.disk.Reliable) : b.build w = .ok r w' ↔
    (b.config.check = .ok () ∧ w.disk.store.Startable) ∧ b.assemble = .ok r ∧
      w' = w.founded b.config.params := by
  by_cases h : b.config.check = .ok () ∧ w.disk.store.Startable
  · rw [build_run hw h.1 h.2, settle_eq_ok, and_iff_right h, eq_comm (b := w')]
  · obtain ⟨e, he⟩ := build_refused (b := b) hw (Decidable.not_and_iff_not_or_not.1 h)
    rw [he]
    exact iff_of_false nofun fun hok => h hok.1

/-- What a build of the parts needs: a configuration that is valid, parameters that can be read if
there are any, and handlers that can all be registered. -/
structure Buildable (b : Blueprint) (s : Store) : Prop where
  config : b.config.check = .ok ()
  store : s.Startable
  actions : Registrable ActionController.id b.allActions
  forwarders : Registrable ForwardingController.id b.forwarders
  parsers : Registrable PacketParser.id b.parsers

theorem exists_assemble_iff : (∃ r, b.assemble = .ok r) ↔
    Registrable ActionController.id b.allActions ∧
      Registrable ForwardingController.id b.forwarders ∧
      Registrable PacketParser.id b.parsers := by
  simp only [assemble_eq_ok, Registry.ofList_eq_ok]
  constructor
  · rintro ⟨r, ⟨hactions, -⟩, ⟨hforwarders, -⟩, ⟨hparsers, -⟩, -⟩
    exact ⟨hactions, hforwarders, hparsers⟩
  · rintro ⟨hactions, hforwarders, hparsers⟩
    exact ⟨⟨b.config, _, _, _, _⟩, ⟨hactions, rfl⟩, ⟨hforwarders, rfl⟩, ⟨hparsers, rfl⟩, rfl, rfl⟩

/-- Whether it succeeds or fails, a build does no more than to store parameters. -/
theorem leaves_build (b : Blueprint) (hw : w.disk.Reliable) :
    leaves b.build w = w ∨ leaves b.build w = w.founded b.config.params := by
  by_cases h : b.config.check = .ok () ∧ w.disk.store.Startable
  · right
    rw [leaves, build_run hw h.1 h.2]
    cases b.assemble <;> rfl
  · obtain ⟨e, he⟩ := build_refused (b := b) hw (Decidable.not_and_iff_not_or_not.1 h)
    exact .inl (leaves_of_error he)

theorem leaves_build_of_contains (b : Blueprint) (hw : w.disk.Reliable)
    (h : w.disk.store.contains Key.params.bytes = true) : leaves b.build w = w := by
  rcases leaves_build b hw with hleft | hleft
  · exact hleft
  · rw [hleft, World.founded_of_contains h]

/-- Any number of builds over parameters leave everything as it was. -/
theorem foldl_build_of_contains (bs : List Blueprint) (hw : w.disk.Reliable)
    (h : w.disk.store.contains Key.params.bytes = true) :
    bs.foldl (fun v b => leaves b.build v) w = w := by
  induction bs with
  | nil => rfl
  | cons b bs ih => rw [List.foldl_cons, leaves_build_of_contains b hw h, ih]

/-- What building does. It succeeds for parts that can be built and no others, and then the sealed
registries route to the handlers of the parts. The only thing it ever changes is that the store gets
parameters if it had none, also when handlers are refused, but not when the configuration or the
parameters of the store are. -/
structure Builds (b : Blueprint) (w : World) : Prop where
  succeeds_iff : (∃ r w', b.build w = .ok r w') ↔ b.Buildable w.disk.store
  routes : ∀ r w', b.build w = .ok r w' →
    r.actions.Serves ActionController.id b.allActions ∧
      r.forwarders.Serves ForwardingController.id b.forwarders ∧
      r.parsers.Serves PacketParser.id b.parsers
  stored : ∀ r w', b.build w = .ok r w' → w' = w.founded b.config.params
  refused_early : ∀ e w', b.build w = .error e w' →
    b.config.check ≠ .ok () ∨ ¬ w.disk.store.Startable → w' = w
  refused_late : ∀ e w', b.build w = .error e w' → b.config.check = .ok () →
    w.disk.store.Startable → w' = w.founded b.config.params
  kept : ∀ key value, w.disk.store.get? key = some value →
    (leaves b.build w).disk.store.get? key = some value
  /-- After a success the store that was left stays as it is in later builds of anything. -/
  again : ∀ r w', b.build w = .ok r w' → ∀ v : World, v.disk.Reliable →
    v.disk.store = w'.disk.store → ∀ bs : List Blueprint,
      bs.foldl (fun u c => leaves c.build u) v = v

theorem builds_of_parts (b : Blueprint) {w : World} (hw : w.disk.Reliable) : b.Builds w where
  succeeds_iff := by
    simp only [build_eq_ok hw]
    constructor
    · rintro ⟨r, w', ⟨hconfig, hstore⟩, hassemble, -⟩
      obtain ⟨hactions, hforwarders, hparsers⟩ := exists_assemble_iff.1 ⟨r, hassemble⟩
      exact ⟨hconfig, hstore, hactions, hforwarders, hparsers⟩
    · rintro ⟨hconfig, hstore, hactions, hforwarders, hparsers⟩
      obtain ⟨r, hr⟩ := exists_assemble_iff.2 ⟨hactions, hforwarders, hparsers⟩
      exact ⟨r, _, ⟨hconfig, hstore⟩, hr, rfl⟩
  routes r w' h := by
    have hmade := madeOf_of_build h
    exact ⟨Registry.serves_ofList hmade.actions, Registry.serves_ofList hmade.forwarders,
      Registry.serves_ofList hmade.parsers⟩
  stored r w' h := ((build_eq_ok hw).1 h).2.2
  refused_early e w' h hearly := by
    obtain ⟨e', he⟩ := build_refused (b := b) hw hearly
    rw [he] at h
    exact (EStateM.Result.error.inj h).2.symm
  refused_late e w' h hconfig hstore := by
    rw [build_run hw hconfig hstore] at h
    obtain ⟨_, -, -, rfl⟩ := settle_eq_error.1 h
    rfl
  kept key value hvalue := by
    rcases leaves_build b hw with hleft | hleft
    · rwa [hleft]
    · rw [hleft]
      exact Store.get?_founded hvalue
  again r w' h v hv hstore bs := by
    obtain ⟨-, -, rfl⟩ := (build_eq_ok hw).1 h
    refine foldl_build_of_contains bs hv ?_
    rw [hstore]
    exact Store.contains_founded

end Blueprint

namespace Testbed

/-- The parts of the testbed with a parser too many. -/
def crowded : Blueprint := { blueprint config with parsers := [jsonParser .ibc, jsonParser .ibc] }

theorem builds_blueprint : ∃ w, (blueprint config).build world = .ok router w ∧
    w = world.founded config.params ∧
      [crowded, blueprint Config.initial].foldl (fun u c => leaves c.build u) w = w ∧
      ∃ e, crowded.build world = .error e w := by
  have hbuilds := Blueprint.builds_of_parts (blueprint config) reliable_world
  obtain ⟨w, hbuild⟩ := build_router
  have hstored := hbuilds.stored router w hbuild
  have hreliable : w.disk.Reliable := by
    rw [hstored]
    exact reliable_world
  refine ⟨w, hbuild, hstored, hbuilds.again router w hbuild w hreliable rfl _, ?_⟩
  rw [hstored]
  exact ⟨_, rfl⟩

end Testbed

end TransferRouter
