import Mathlib.Data.Set.List
import TransferRouter.Proofs.Atomicity
import TransferRouter.Proofs.Ledger
import TransferRouter.Proofs.Operation

/-!
Import and export undo each other. The parameters and the breakers in a store are those of a state;
an import puts a state there, in whatever order its lists are, and an export finds it again. In a
store that a router was built on, or that a state was imported into, there always is such a state,
and it may be imported.
-/

namespace TransferRouter

open Codec LawfulCodec

theorem Key.MayHold.eq_nil {k : Key} {value : Bytes} (h : k.MayHold value)
    (hk : IsBreaker k.bytes) : value = [] := by
  simp only [IsBreaker, head?_bytes, Option.some.injEq] at hk
  cases k <;> try (simp [Key.family] at hk; done)
  case pausedAction => exact h.2
  case pausedProtocol => exact h.2
  case pausedRoute => exact h.2

/-! ## Breakers of a family -/

namespace Panel

theorem exists_action {k : Key} (h : k.family = actions.front) : ∃ a, actions.key a = k := by
  cases k <;> try (simp [Key.family, actions] at h; done)
  exact ⟨_, rfl⟩

theorem exists_protocol {k : Key} (h : k.family = protocols.front) : ∃ p, protocols.key p = k := by
  cases k <;> try (simp [Key.family, protocols] at h; done)
  exact ⟨_, rfl⟩

theorem exists_route {k : Key} (h : k.family = routes.front) : ∃ route, routes.key route = k := by
  cases k <;> try (simp [Key.family, routes] at h; done)
  exact ⟨⟨_, _⟩, rfl⟩

variable {α : Type} {panel : Panel α} {as bs : List α} {store : Store}

/-- The open breakers of a family are those of a list, in any order. -/
def Displays [DecidableEq α] (panel : Panel α) (as : List α) (store : Store) : Prop :=
  ∀ key, key.head? = some panel.front →
    store.get? key = if ∃ a ∈ as, (panel.key a).bytes = key then some [] else none

variable [DecidableEq α]

theorem Displays.shows (h : panel.Displays as store) (hfits : ∀ a ∈ as, Fits (panel.key a)) :
    panel.Shows as.toFinset store where
  fits a ha := hfits a (List.mem_toFinset.1 ha)
  contains_iff key hkey := by
    rw [OrderedMap.contains, h key hkey]
    simp only [List.mem_toFinset]
    split
    next hopen => exact iff_of_true rfl hopen
    next hclosed => exact iff_of_false Bool.false_ne_true hclosed

theorem Displays.perm (h : panel.Displays as store) (hperm : as.Perm bs) :
    panel.Displays bs store := by
  intro key hkey
  rw [h key hkey]
  simp only [hperm.mem_iff]

/-- A batch opens the breakers that it puts into a store where none was open. -/
theorem displays_batch {batch : List Write}
    (hall : ∀ a ∈ as, Write.put (panel.key a).bytes [] ∈ batch)
    (honly : ∀ w ∈ batch, w.key.head? = some panel.front →
      ∃ a ∈ as, w = .put (panel.key a).bytes [])
    (hclosed : ∀ key, key.head? = some panel.front → store.get? key = none) :
    panel.Displays as (store.applyAll batch) := by
  intro key hkey
  split
  next hopen =>
    obtain ⟨a, ha, rfl⟩ := hopen
    refine Store.get?_applyAll_of_mem (hall a ha) fun w hw hsame => ?_
    obtain ⟨b, -, rfl⟩ := honly w hw (hsame ▸ hkey)
    exact congrArg (Write.put · []) hsame
  next hno =>
    rw [Store.get?_applyAll_of_forall_ne, hclosed key hkey]
    rintro w hw rfl
    obtain ⟨a, ha, rfl⟩ := honly w hw hkey
    exact hno ⟨a, ha, rfl⟩

/-- The breakers that are open in an orderly store make a list. -/
theorem exists_displays (hfront : ∀ key, key.head? = some panel.front → Key.IsBreaker key)
    (hpanel : ∀ k : Key, k.family = panel.front → ∃ a, panel.key a = k) (h : store.Orderly) :
    ∃ as, panel.Displays as store ∧ as.Nodup ∧ ∀ a ∈ as, (panel.key a).MayHold [] := by
  let Holdable := { a : α // (panel.key a).MayHold [] }
  have hheld : ∀ {key value}, key.head? = some panel.front → store.get? key = some value →
      value = [] ∧ ∃ a : Holdable, (panel.key a.1).bytes = key := by
    intro key value hkey hvalue
    obtain ⟨k, hfamily, rfl, hk⟩ := h.family hkey hvalue
    obtain rfl := hk.eq_nil (hfront _ hkey)
    obtain ⟨a, rfl⟩ := hpanel k hfamily
    exact ⟨rfl, ⟨a, hk⟩, rfl⟩
  have hkeys : ∀ key ∈ (store.extensions [panel.front]).map (·.1),
      key ∈ Set.range fun a : Holdable => (panel.key a.1).bytes := by
    intro key hkey
    obtain ⟨hstart, hcontains⟩ := Store.mem_extensions.1 hkey
    obtain ⟨value, hvalue⟩ := OrderedMap.contains_iff.1 hcontains
    exact (hheld (Bytes.isPrefixOf_singleton.1 hstart) hvalue).2
  obtain ⟨held, hlist⟩ := (Set.range_list_map _).ge hkeys
  have hnodup := store.nodup_extensions [panel.front]
  rw [← hlist] at hnodup
  refine ⟨held.map (·.1), fun key hkey => ?_, ?_, fun a ha => ?_⟩
  · have hmem : (∃ a ∈ held.map (·.1), (panel.key a).bytes = key) ↔ store.contains key = true := by
      have hlisted : key ∈ (store.extensions [panel.front]).map (·.1) ↔
          store.contains key = true := by
        rw [Store.mem_extensions, and_iff_right (Bytes.isPrefixOf_singleton.2 hkey)]
      rw [← hlisted, ← hlist]
      simp only [List.mem_map, exists_exists_and_eq_and]
    split
    next hopen =>
      obtain ⟨value, hvalue⟩ := OrderedMap.contains_iff.1 (hmem.1 hopen)
      rw [hvalue, (hheld hkey hvalue).1]
    next hno => exact OrderedMap.contains_eq_false_iff.1 (Bool.eq_false_iff.2 (mt hmem.2 hno))
  · exact (hnodup.of_map _).map Subtype.val_injective
  · obtain ⟨b, -, rfl⟩ := List.mem_map.1 ha
    exact b.2

end Panel

/-! ## States in a store -/

namespace Genesis

/-- The same state up to the order of the lists. -/
structure Agrees (g g' : Genesis) : Prop where
  params : g.params = g'.params
  actions : g.pausedActions.Perm g'.pausedActions
  protocols : g.pausedProtocols.Perm g'.pausedProtocols
  routes : g.pausedRoutes.Perm g'.pausedRoutes

/-- The parameters and the breakers in a store are those of a state. -/
structure Depicts (g : Genesis) (store : Store) : Prop where
  params : store.get? Key.params.bytes = some (encode g.params)
  actions : Panel.actions.Displays g.pausedActions store
  protocols : Panel.protocols.Displays g.pausedProtocols store
  routes : Panel.routes.Displays g.pausedRoutes store

/-- The keys that an import writes. -/
def IsKey (key : Bytes) : Prop := key = Key.params.bytes ∨ Key.IsBreaker key

variable {g g' : Genesis} {s t : Store} {w w' : World}

namespace Agrees

theorem valid (h : g.Agrees g') (hg : g.Valid) : g'.Valid where
  params := h.params ▸ hg.params
  actions a ha := hg.actions a (h.actions.mem_iff.2 ha)
  protocols p hp := hg.protocols p (h.protocols.mem_iff.2 hp)
  routes route hroute := hg.routes route (h.routes.mem_iff.2 hroute)
  nodup_actions := h.actions.nodup_iff.1 hg.nodup_actions
  nodup_protocols := h.protocols.nodup_iff.1 hg.nodup_protocols
  nodup_routes := h.routes.nodup_iff.1 hg.nodup_routes

theorem depicts (h : g.Agrees g') (hg : g.Depicts s) : g'.Depicts s :=
  ⟨h.params ▸ hg.params, hg.actions.perm h.actions, hg.protocols.perm h.protocols,
    hg.routes.perm h.routes⟩

end Agrees

/-- A state determines what is under the keys that an import writes. -/
theorem Depicts.get?_eq (h : g.Depicts s) (h' : g.Depicts t) {key : Bytes} (hkey : IsKey key) :
    s.get? key = t.get? key := by
  rcases hkey with rfl | hkey | hkey | hkey
  · exact h.params.trans h'.params.symm
  · exact (h.actions key hkey).trans (h'.actions key hkey).symm
  · exact (h.protocols key hkey).trans (h'.protocols key hkey).symm
  · exact (h.routes key hkey).trans (h'.routes key hkey).symm

/-! ## Imports -/

theorem mem_writes {w : Write} : w ∈ g.writes ↔
    w = .put Key.params.bytes (encode g.params) ∨
      (∃ a ∈ g.pausedActions, w = .put (Panel.actions.key a).bytes []) ∨
      (∃ p ∈ g.pausedProtocols, w = .put (Panel.protocols.key p).bytes []) ∨
      ∃ route ∈ g.pausedRoutes, w = .put (Panel.routes.key route).bytes [] := by
  simp only [writes, List.mem_append, List.mem_cons, List.mem_map, or_assoc, eq_comm (a := w)]
  rfl

theorem isKey_writes {w : Write} (h : w ∈ g.writes) : IsKey w.key := by
  rcases mem_writes.1 h with rfl | ⟨a, -, rfl⟩ | ⟨p, -, rfl⟩ | ⟨route, -, rfl⟩
  · exact .inl rfl
  · exact .inr (.inl rfl)
  · exact .inr (.inr (.inl rfl))
  · exact .inr (.inr (.inr rfl))

theorem get?_writes_params :
    (s.applyAll g.writes).get? Key.params.bytes = some (encode g.params) := by
  refine Store.get?_applyAll_of_mem (mem_writes.2 (.inl rfl)) fun w hw hkey => ?_
  rcases mem_writes.1 hw with rfl | ⟨a, -, rfl⟩ | ⟨p, -, rfl⟩ | ⟨route, -, rfl⟩
  · rfl
  · exact absurd (List.cons.inj hkey).1 (by decide)
  · exact absurd (List.cons.inj hkey).1 (by decide)
  · exact absurd (List.cons.inj hkey).1 (by decide)

theorem depicts_writes (hclosed : ∀ key, Key.IsBreaker key → s.get? key = none) :
    g.Depicts (s.applyAll g.writes) where
  params := get?_writes_params
  actions := by
    refine Panel.displays_batch (fun a ha => mem_writes.2 (.inr (.inl ⟨a, ha, rfl⟩)))
      (fun w hw hkey => ?_) fun key hkey => hclosed key (.inl hkey)
    rcases mem_writes.1 hw with rfl | hopen | ⟨p, -, rfl⟩ | ⟨route, -, rfl⟩
    · exact absurd (Option.some.inj hkey) (by decide)
    · exact hopen
    · exact absurd (Option.some.inj hkey) (by decide)
    · exact absurd (Option.some.inj hkey) (by decide)
  protocols := by
    refine Panel.displays_batch (fun p hp => mem_writes.2 (.inr (.inr (.inl ⟨p, hp, rfl⟩))))
      (fun w hw hkey => ?_) fun key hkey => hclosed key (.inr (.inl hkey))
    rcases mem_writes.1 hw with rfl | ⟨a, -, rfl⟩ | hopen | ⟨route, -, rfl⟩
    · exact absurd (Option.some.inj hkey) (by decide)
    · exact absurd (Option.some.inj hkey) (by decide)
    · exact hopen
    · exact absurd (Option.some.inj hkey) (by decide)
  routes := by
    refine Panel.displays_batch (fun r hr => mem_writes.2 (.inr (.inr (.inr ⟨r, hr, rfl⟩))))
      (fun w hw hkey => ?_) fun key hkey => hclosed key (.inr (.inr hkey))
    rcases mem_writes.1 hw with rfl | ⟨a, -, rfl⟩ | ⟨p, -, rfl⟩ | hopen
    · exact absurd (Option.some.inj hkey) (by decide)
    · exact absurd (Option.some.inj hkey) (by decide)
    · exact absurd (Option.some.inj hkey) (by decide)
    · exact hopen

theorem get?_writes_of_not_isKey {key : Bytes} (h : ¬ IsKey key) :
    (s.applyAll g.writes).get? key = s.get? key :=
  Store.get?_applyAll_of_forall_ne fun _ hw hkey => h (hkey ▸ isKey_writes hw)

/-- The order of the lists does not matter. -/
theorem applyAll_writes_congr (h : g.Agrees g')
    (hclosed : ∀ key, Key.IsBreaker key → s.get? key = none) :
    s.applyAll g.writes = s.applyAll g'.writes := by
  refine OrderedMap.ext_get? fun key => ?_
  by_cases hkey : IsKey key
  · exact (h.depicts (depicts_writes hclosed)).get?_eq (depicts_writes hclosed) hkey
  · rw [get?_writes_of_not_isKey hkey, get?_writes_of_not_isKey hkey]

theorem importState_eq_ok (hw : w.disk.Reliable) : g.importState w = .ok () w' ↔
    g.Valid ∧ w' = { w with disk := ⟨w.disk.store.applyAll g.writes, w.disk.faults⟩ } := by
  by_cases h : g.Valid
  · have hcheck : checked g.check w = .ok () w := checked_run (check_eq_ok.2 h) w
    have hrun : g.importState w =
        .ok () { w with disk := ⟨w.disk.store.applyAll g.writes, w.disk.faults⟩ } :=
      (bind_of_ok hcheck).trans (onDisk_run (Disk.write_run (hw .batch) _))
    rw [hrun]
    simp [h, eq_comm]
  · obtain ⟨cause, hrun⟩ := importState_of_invalid h w
    simp [hrun, h]

/-! ## Exports -/

theorem Depicts.mirrors (h : g.Depicts w.disk.store) (hw : w.disk.Reliable) (hvalid : g.Valid)
    (hshort : g.Short) : w.Mirrors
      ⟨g.pausedActions.toFinset, g.pausedProtocols.toFinset, g.pausedRoutes.toFinset⟩ where
  reliable := hw
  actions := h.actions.shows fun _ _ => trivial
  protocols := h.protocols.shows fun _ _ => trivial
  routes := h.routes.shows hshort
  valid route hroute := by
    obtain ⟨hprotocol, hcounterparty⟩ := hvalid.routes route (List.mem_toFinset.1 hroute)
    exact CrossChainId.check_eq_ok.2 ⟨ProtocolId.check_eq_ok.2 hprotocol, hcounterparty⟩

/-- An export finds the state in the store. -/
theorem Depicts.exportState_run (h : g.Depicts w.disk.store) (hw : w.disk.Reliable)
    (hvalid : g.Valid) (hshort : g.Short) :
    ∃ g', exportState w = .ok g' w ∧ g.Agrees g' := by
  have hmirrors := h.mirrors hw hvalid hshort
  have hparams : loadParams w = .ok g.params w := by
    have hdecode : decodeAt Params Key.params.bytes (encode g.params) = .ok g.params :=
      decodeAt_encode trivial _
    exact bind_of_ok ((read_eq_ok_some hw.readable).2 ⟨⟨_, h.params, hdecode⟩, rfl⟩)
  have hanswers := hmirrors.answers
  obtain ⟨actions, hactions, hna, hsa⟩ := hanswers.actions
  obtain ⟨protocols, hprotocols, hnp, hsp⟩ := hanswers.protocols
  obtain ⟨routes, hroutes, hnr, hsr⟩ := hanswers.routes
  refine ⟨⟨g.params, actions, protocols, routes⟩, ?_, rfl, ?_, ?_, ?_⟩
  · rw [exportState, bind_of_ok hparams, bind_of_ok hactions, bind_of_ok hprotocols,
      bind_of_ok hroutes]
    rfl
  · exact List.perm_of_nodup_nodup_toFinset_eq hvalid.nodup_actions hna hsa.symm
  · exact List.perm_of_nodup_nodup_toFinset_eq hvalid.nodup_protocols hnp hsp.symm
  · exact List.perm_of_nodup_nodup_toFinset_eq hvalid.nodup_routes hnr hsr.symm

/-- In a sound store with parameters there is a state, and it may be imported. -/
theorem exists_depicts (h : w.Sound True) :
    ∃ g : Genesis, g.Depicts w.disk.store ∧ g.Valid ∧ g.Short := by
  obtain ⟨value, hvalue⟩ := OrderedMap.contains_iff.1 (h.founded trivial)
  obtain ⟨k, hfamily, -, hk⟩ := h.orderly.family (Key.head?_bytes .params) hvalue
  cases k <;> try (simp [Key.family] at hfamily; done)
  obtain ⟨p, hcheck, rfl⟩ := hk
  obtain ⟨actions, hactions, hna, hha⟩ :=
    Panel.exists_displays (fun _ => .inl) (fun _ => Panel.exists_action) h.orderly
  obtain ⟨protocols, hprotocols, hnp, hhp⟩ :=
    Panel.exists_displays (fun _ hkey => .inr (.inl hkey)) (fun _ => Panel.exists_protocol)
      h.orderly
  obtain ⟨routes, hroutes, hnr, hhr⟩ :=
    Panel.exists_displays (fun _ hkey => .inr (.inr hkey)) (fun _ => Panel.exists_route) h.orderly
  refine ⟨⟨p, actions, protocols, routes⟩, ⟨hvalue, hactions, hprotocols, hroutes⟩,
    ⟨Params.check_eq_ok.1 hcheck, fun a ha => ?_, fun q hq => ?_, fun r hr => ?_, hna, hnp, hnr⟩,
    fun r hr => (hhr r hr).1.2⟩
  · exact ActionId.check_eq_ok.1 (hha a ha).1
  · exact ProtocolId.check_eq_ok.1 (hhp q hq).1
  · obtain ⟨hprotocol, hcounterparty⟩ := CrossChainId.check_eq_ok.1 (hhr r hr).1.1
    exact ⟨ProtocolId.check_eq_ok.1 hprotocol, hcounterparty⟩

end Genesis

/-! ## Founding -/

section

variable {founded : Prop} {w w' : World}

/-- After an import there are parameters in the store. -/
theorem Genesis.sound_of_importState {g : Genesis} (hshort : g.Short) (hw : w.Sound founded)
    (h : g.importState w = .ok () w') : w'.Sound True := by
  have hsound := ((upholds_importState (E := fun _ => True) hshort).ok hw h).1
  obtain ⟨-, rfl⟩ := (importState_eq_ok hw.reliable).1 h
  exact ⟨hsound.reliable, hsound.orderly, fun _ =>
    OrderedMap.contains_iff.2 ⟨_, get?_writes_params⟩⟩

namespace Blueprint

variable {b : Blueprint}

theorem sound_of_storeParams (hw : w.Sound founded) (h : b.storeParams w = .ok () w') :
    w'.Sound True := by
  obtain ⟨found, u, hread, hrest⟩ := bind_eq_ok.1 h
  cases found with
  | some p =>
    obtain ⟨-, rfl⟩ := pure_eq_ok.1 hrest
    obtain ⟨⟨value, hvalue, -⟩, rfl⟩ := (read_eq_ok_some hw.reliable.readable).1 hread
    exact ⟨hw.reliable, hw.orderly, fun _ => OrderedMap.contains_iff.2 ⟨value, hvalue⟩⟩
  | none =>
    have hu : u.Sound founded := (upholds_readParams (E := fun _ => False)).ok hw hread |>.1
    exact Genesis.sound_of_importState (fun _ hroute => absurd hroute List.not_mem_nil) hu hrest

/-- After a build there are parameters in the store. -/
theorem sound_of_build {r : Router} (hw : w.Sound founded) (h : b.build w = .ok r w') :
    w'.Sound True := by
  obtain ⟨_, u₁, hconfig, h⟩ := bind_eq_ok.1 h
  obtain ⟨-, rfl⟩ := settle_eq_ok.1 hconfig
  obtain ⟨_, u₂, hparams, h⟩ := bind_eq_ok.1 h
  obtain ⟨_, u₃, hactions, h⟩ := bind_eq_ok.1 h
  obtain ⟨-, rfl⟩ := settle_eq_ok.1 hactions
  obtain ⟨_, u₄, hforwarders, h⟩ := bind_eq_ok.1 h
  obtain ⟨-, rfl⟩ := settle_eq_ok.1 hforwarders
  obtain ⟨_, u₅, hparsers, h⟩ := bind_eq_ok.1 h
  obtain ⟨-, rfl⟩ := settle_eq_ok.1 hparsers
  obtain ⟨-, rfl⟩ := pure_eq_ok.1 h
  exact sound_of_storeParams hw hparams

end Blueprint

/-- The operations that leave parameters in the store: builds and imports. -/
inductive Operation.Founds : Operation → Prop where
  | build (b : Blueprint) : Founds (.build b)
  | importState (r : Router) (g : Genesis) : Founds (.call r (.importState g))

theorem Operation.Founds.sound {E : RouterError → Prop} {op : Operation} (hop : op.Founds)
    (hproper : op.Proper E) (hw : w.Sound founded) (h : op.perform w = .ok () w') :
    w'.Sound True := by
  cases hop with
  | build b =>
    obtain ⟨r, u, hbuild, hrest⟩ := bind_eq_ok.1 h
    obtain ⟨-, rfl⟩ := pure_eq_ok.1 hrest
    exact Blueprint.sound_of_build hw hbuild
  | importState r g =>
    obtain ⟨answer, u, hperform, hrest⟩ := bind_eq_ok.1 h
    obtain ⟨-, rfl⟩ := pure_eq_ok.1 hrest
    obtain ⟨_, u', himport, hdone⟩ := bind_eq_ok.1 hperform
    obtain ⟨-, rfl⟩ := pure_eq_ok.1 hdone
    exact Genesis.sound_of_importState hproper hw himport

end

/-! ## There and back -/

/-- What an import of a state does: it succeeds exactly when the state is valid, and else nothing is
written. Where no breaker was open, an export finds the state again up to the order of its lists,
and in another order it makes the same store. -/
structure Genesis.Imports (g : Genesis) (w : World) : Prop where
  succeeds_iff : (∃ w', g.importState w = .ok () w') ↔ g.Valid
  unwritten : ∀ e w', g.importState w = .error e w' → w' = w
  found : ∀ w', g.importState w = .ok () w' →
    (∀ key, Key.IsBreaker key → w.disk.store.get? key = none) → g.Short →
      ∃ g', exportState w' = .ok g' w' ∧ g.Agrees g'
  reordered : ∀ w', g.importState w = .ok () w' →
    (∀ key, Key.IsBreaker key → w.disk.store.get? key = none) →
      ∀ g' : Genesis, g.Agrees g' → g'.importState w = .ok () w'

theorem Genesis.imports (g : Genesis) {w : World} (hw : w.disk.Reliable) : g.Imports w where
  succeeds_iff :=
    ⟨fun ⟨_, h⟩ => ((importState_eq_ok hw).1 h).1, fun h => ⟨_, (importState_eq_ok hw).2 ⟨h, rfl⟩⟩⟩
  unwritten e w' h := by
    by_cases hvalid : g.Valid
    · rw [(importState_eq_ok hw).2 ⟨hvalid, rfl⟩] at h
      exact absurd h nofun
    · obtain ⟨cause, hrun⟩ := importState_of_invalid hvalid w
      rw [hrun] at h
      exact (EStateM.Result.error.inj h).2.symm
  found w' h hclosed hshort := by
    obtain ⟨hvalid, rfl⟩ := (importState_eq_ok hw).1 h
    exact Depicts.exportState_run (depicts_writes hclosed) hw hvalid hshort
  reordered w' h hclosed g' hagrees := by
    obtain ⟨hvalid, rfl⟩ := (importState_eq_ok hw).1 h
    rw [applyAll_writes_congr hagrees hclosed]
    exact (importState_eq_ok hw).2 ⟨hagrees.valid hvalid, rfl⟩

/-- A state is what an export of a store gives. It passes its check, and makes of an empty store one
with the same parameters and breakers, byte for byte, and nothing else. -/
structure Genesis.Rebuilds (g : Genesis) (w : World) : Prop where
  exported : exportState w = .ok g w
  checked : g.check = .ok ()
  rebuilt : ∀ v : World, v.disk.Reliable → (∀ key, v.disk.store.get? key = none) →
    ∃ v', g.importState v = .ok () v' ∧
      (∀ key, IsKey key → v'.disk.store.get? key = w.disk.store.get? key) ∧
      ∀ key, ¬ IsKey key → v'.disk.store.get? key = none

theorem World.Sound.rebuilds {w : World} (hw : w.Sound True) : ∃ g : Genesis, g.Rebuilds w := by
  obtain ⟨g, hdepicts, hvalid, hshort⟩ := Genesis.exists_depicts hw
  obtain ⟨g', hexport, hagrees⟩ := hdepicts.exportState_run hw.reliable hvalid hshort
  have hvalid' := hagrees.valid hvalid
  refine ⟨g', hexport, Genesis.check_eq_ok.2 hvalid', fun v hv hempty => ?_⟩
  refine ⟨_, (Genesis.importState_eq_ok hv).2 ⟨hvalid', rfl⟩, fun key hkey => ?_,
    fun key hkey => ?_⟩
  · have hnew := Genesis.depicts_writes (g := g') (s := v.disk.store) fun key _ => hempty key
    exact hnew.get?_eq (hagrees.depicts hdepicts) hkey
  · exact (Genesis.get?_writes_of_not_isKey hkey).trans (hempty key)

/-- Import and export undo each other, for every state and every store that an import may meet. And
from an empty store on, once a build or an import has succeeded, the state that is exported after
any further operations rebuilds the parameters and the breakers of the store. -/
theorem exchange_of_run :
    (∀ (g : Genesis) (w : World), w.disk.Reliable → g.Imports w) ∧
    ∀ w : World, w.disk.Reliable → (∀ key, w.disk.store.get? key = none) →
      ∀ (before after : List (UInt64 × Operation)) (now : UInt64) (op : Operation) (u : World),
        (∀ step ∈ before, step.2.Proper fun _ => True) →
        (∀ step ∈ after, step.2.Proper fun _ => True) →
        (op.Proper fun _ => True) → op.Founds →
        op.perform { Operation.run w before with clock := now } = .ok () u →
        ∃ g : Genesis, g.Rebuilds (Operation.run u after) := by
  refine ⟨fun g w hw => g.imports hw, ?_⟩
  intro w hw hempty before after now op u hbefore hafter hop hfounds hrun
  have hstart : w.Sound False := ⟨hw, Store.orderly_of_absent hempty, False.elim⟩
  have hbuilt : World.Sound False { Operation.run w before with clock := now } :=
    Operation.sound_run hstart hbefore
  exact (Operation.sound_run (hfounds.sound hop hbuilt hrun) hafter).rebuilds

namespace Testbed

/-- A state with two routes, one of which has a colon in its name. -/
def closures : Genesis :=
  ⟨⟨2048⟩, [.swap], [.hyperlane], [⟨.ibc, "a:b"⟩, ⟨.cctp, "0"⟩]⟩

/-- The same with the routes the other way round. -/
def closuresReversed : Genesis :=
  { closures with pausedRoutes := [⟨.cctp, "0"⟩, ⟨.ibc, "a:b"⟩] }

theorem perform_build : (Operation.build (blueprint config)).perform world = .ok () built := by
  obtain ⟨w, hbuild⟩ := build_router
  have hbuilt : built = w := leaves_of_ok hbuild
  rw [hbuilt]
  exact bind_of_ok hbuild

theorem exchange_closures :
    (∃ w', closures.importState world = .ok () w' ∧
      (∃ g', Genesis.exportState w' = .ok g' w' ∧ closures.Agrees g') ∧
      closuresReversed.importState world = .ok () w') ∧
    ∃ g : Genesis, g.Rebuilds (Operation.run built chores) := by
  obtain ⟨himport, hexport⟩ := exchange_of_run
  refine ⟨?_, ?_⟩
  · have himports := himport closures world reliable_world
    obtain ⟨w', hrun⟩ := himports.succeeds_iff.2 (Genesis.check_eq_ok.1 (by decide))
    have hclosed : ∀ key, Key.IsBreaker key → world.disk.store.get? key = none :=
      fun key _ => get?_world key
    exact ⟨w', hrun, himports.found w' hrun hclosed (by decide +kernel),
      himports.reordered w' hrun hclosed _ ⟨rfl, .rfl, .rfl, .swap ..⟩⟩
  · exact hexport world reliable_world get?_world [] chores world.clock
      (.build (blueprint config)) _ (fun _ h => absurd h List.not_mem_nil) proper_chores trivial
      (.build _) perform_build

end Testbed

end TransferRouter
