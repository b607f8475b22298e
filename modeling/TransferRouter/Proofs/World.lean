import TransferRouter.Breaker
import TransferRouter.Pending.Record
import TransferRouter.Proofs.Store.Disk

/-!
Parts of the state. What an action changes at most is said by a relation for each part: one between
disks, one between books and one between transfers. Values are read from a readable disk without
changing anything.
-/

namespace TransferRouter

open Disk (AllowsReads)

/-- The relation that says nothing. -/
def Anything {σ : Type} (_ _ : σ) : Prop := True

instance {σ : Type} : IsPreorder σ Anything where
  refl _ := trivial
  trans _ _ _ _ _ := trivial

/-- Relations between books that hold when the ledger changes or dust is cleared. -/
class Books.AllowsArrival (B : Books → Books → Prop) : Prop extends IsPreorder Books B where
  ledger (b : Books) (l : Ledger) : B b { b with ledger := l }
  dust (b : Books) (coin : Coin) : B b { b with events := b.events ++ [.dustCleared coin] }

instance : Books.AllowsArrival Anything where
  ledger _ _ := trivial
  dust _ _ := trivial

open Books (AllowsArrival)

/-- Worlds at the same time, with related disks and books. -/
structure World.Within (D : Disk → Disk → Prop) (B : Books → Books → Prop) (w w' : World) :
    Prop where
  disk : D w.disk w'.disk
  books : B w.books w'.books
  clock : w'.clock = w.clock

structure Stage.Within (D : Disk → Disk → Prop) (B : Books → Books → Prop)
    (T : Transfer → Transfer → Prop) (s s' : Stage) : Prop where
  world : s.world.Within D B s'.world
  transfer : T s.transfer s'.transfer

structure Workbench.Within (B : Books → Books → Prop) (T : Transfer → Transfer → Prop)
    (s s' : Workbench) : Prop where
  books : B s.books s'.books
  transfer : T s.transfer s'.transfer

section

variable {D : Disk → Disk → Prop} {B : Books → Books → Prop} {T : Transfer → Transfer → Prop}
variable {α : Type}

instance [IsPreorder Disk D] [IsPreorder Books B] : IsPreorder World (World.Within D B) where
  refl w := ⟨refl_of D w.disk, refl_of B w.books, rfl⟩
  trans _ _ _ h h' :=
    ⟨trans_of D h.disk h'.disk, trans_of B h.books h'.books, h'.clock.trans h.clock⟩

instance [IsPreorder Disk D] [IsPreorder Books B] [IsPreorder Transfer T] :
    IsPreorder Stage (Stage.Within D B T) where
  refl s := ⟨refl_of (World.Within D B) s.world, refl_of T s.transfer⟩
  trans _ _ _ h h' :=
    ⟨trans_of (World.Within D B) h.world h'.world, trans_of T h.transfer h'.transfer⟩

instance [IsPreorder Books B] [IsPreorder Transfer T] :
    IsPreorder Workbench (Workbench.Within B T) where
  refl s := ⟨refl_of B s.books, refl_of T s.transfer⟩
  trans _ _ _ h h' := ⟨trans_of B h.books h'.books, trans_of T h.transfer h'.transfer⟩

/-! ## Parts of the state -/

theorem keeps_onDisk [IsPreorder Books B] {act : DiskM α} (h : Keeps D act) :
    Keeps (World.Within D B) (RouterM.onDisk act) :=
  h.zoom fun w _ hd => ⟨hd, refl_of B w.books, rfl⟩

theorem keeps_onBooks [IsPreorder Disk D] {act : BooksM α} (h : Keeps B act) :
    Keeps (World.Within D B) (RouterM.onBooks act) :=
  h.zoom fun w _ hb => ⟨refl_of D w.disk, hb, rfl⟩

theorem keeps_emit [IsPreorder Disk D] {event : Event}
    (h : ∀ b : Books, B b { b with events := b.events ++ [event] }) :
    Keeps (World.Within D B) (RouterM.emit event) :=
  keeps_onBooks (Keeps.modify h)

theorem keeps_onLedger [IsPreorder Disk D] [AllowsArrival B] (act : LedgerM α) :
    Keeps (World.Within D B) (RouterM.onLedger act) := by
  refine keeps_onBooks (Keeps.zoom (S := Anything) (fun _ => trivial) ?_)
  exact fun b l _ => AllowsArrival.ledger b l

theorem keeps_onWorld [IsPreorder Transfer T] {act : RouterM α}
    (h : Keeps (World.Within D B) act) : Keeps (Stage.Within D B T) (StageM.onWorld act) :=
  h.zoom fun s _ hw => ⟨hw, refl_of T s.transfer⟩

theorem keeps_onWorkbench [IsPreorder Disk D] {act : WorkbenchM α}
    (h : Keeps (Workbench.Within B T) act) :
    Keeps (Stage.Within D B T) (StageM.onWorkbench act) :=
  h.zoom fun s _ hs => ⟨⟨refl_of D s.world.disk, hs.books, rfl⟩, hs.transfer⟩

variable [AllowsReads D]

theorem keeps_read [IsPreorder Books B] [Codec α] (key : Key) :
    Keeps (World.Within D B) (RouterM.read α key) := by
  refine (keeps_onDisk (Disk.keeps_get? key.bytes)).bind fun found => ?_
  cases found with
  | none => exact Keeps.pure none
  | some s => exact (Keeps.settle _ _).bind fun _ => Keeps.pure _

theorem keeps_isOpen [IsPreorder Books B] (key : Key) :
    Keeps (World.Within D B) (Breaker.isOpen key) :=
  keeps_onDisk (Disk.keeps_contains key.bytes)

theorem keeps_loadParams [IsPreorder Books B] : Keeps (World.Within D B) loadParams :=
  (keeps_read .params).bind fun _ => Keeps.pure _

end

/-- Nothing changed on a readable disk when nothing but its calls were counted. -/
theorem World.Within.eq {w w' : World} (h : World.Within Disk.Still Eq w w')
    (hw : w.disk.Readable) : w' = w := by
  obtain ⟨disk, books, clock⟩ := w
  obtain ⟨disk', books', clock'⟩ := w'
  obtain ⟨hdisk, hbooks, hclock⟩ := h
  obtain rfl : disk' = disk := hdisk hw
  obtain rfl : books = books' := hbooks
  obtain rfl : clock' = clock := hclock
  rfl

/-! ## Reading values -/

section

variable {w w' : World} {α : Type}

theorem onDisk_eq_ok {act : DiskM α} {a : α} :
    RouterM.onDisk act w = .ok a w' ↔
      ∃ d, act w.disk = .ok a d ∧ { w with disk := d } = w' :=
  zoom_eq_ok

theorem onDisk_eq_error {act : DiskM α} {e : RouterError} :
    RouterM.onDisk act w = .error e w' ↔
      ∃ fault d, act w.disk = .error fault d ∧ .storage (.store fault) = e ∧
        { w with disk := d } = w' :=
  zoom_eq_error

theorem onDisk_run {act : DiskM α} {a : α} {d : Disk} (h : act w.disk = .ok a d) :
    RouterM.onDisk act w = .ok a { w with disk := d } :=
  onDisk_eq_ok.2 ⟨d, h, rfl⟩

theorem contains_run (hw : w.disk.Readable) (key : Bytes) :
    RouterM.onDisk (Disk.contains key) w = .ok (w.disk.store.contains key) w :=
  onDisk_run (Disk.contains_run hw key)

/-- An answer about a breaker is the truth, and nothing is changed by it. -/
theorem isOpen_ok {key : Key} {found : Bool} (h : Breaker.isOpen key w = .ok found w') :
    found = w.disk.store.contains key.bytes ∧ w'.disk.store = w.disk.store ∧
      w'.books = w.books := by
  obtain ⟨d, hcontains, rfl⟩ := onDisk_eq_ok.1 h
  obtain ⟨hfound, hstore⟩ := Disk.contains_ok hcontains
  exact ⟨hfound, hstore, rfl⟩

variable [Codec α] {key : Key}

theorem read_of_absent (hw : w.disk.Readable) (h : w.disk.store.get? key.bytes = none) :
    RouterM.read α key w = .ok none w := by
  rw [RouterM.read, bind_of_ok (onDisk_run (Disk.get?_run hw key.bytes)), h]
  rfl

theorem read_of_present (hw : w.disk.Readable) {s : Bytes}
    (h : w.disk.store.get? key.bytes = some s) :
    RouterM.read α key w =
      match Codec.decodeAt α key.bytes s with
      | .ok a => .ok (some a) w
      | .error fault => .error (.storage (.store fault)) w := by
  rw [RouterM.read, bind_of_ok (onDisk_run (Disk.get?_run hw key.bytes)), h]
  cases hs : Codec.decodeAt α key.bytes s with
  | ok a => simp only [hs]; rfl
  | error fault => simp only [hs]; rfl

theorem read_eq_ok_some (hw : w.disk.Readable) {a : α} :
    RouterM.read α key w = .ok (some a) w' ↔
      (∃ s, w.disk.store.get? key.bytes = some s ∧ Codec.decodeAt α key.bytes s = .ok a) ∧
        w' = w := by
  cases h : w.disk.store.get? key.bytes with
  | none => simp [read_of_absent hw h]
  | some s =>
    rw [read_of_present hw h]
    cases hs : Codec.decodeAt α key.bytes s with
    | ok b => simp [hs, eq_comm]
    | error fault => simp [hs]

end

/-! ## What was written and reported -/

theorem emit_run (event : Event) (w : World) :
    RouterM.emit event w =
      .ok () { w with books := { w.books with events := w.books.events ++ [event] } } := rfl

theorem emits_run {α : Type} (event : α → Event) (as : List α) (w : World) :
    (as.forM fun a => RouterM.emit (event a)) w =
      .ok () { w with books := { w.books with events := w.books.events ++ as.map event } } := by
  induction as generalizing w with
  | nil =>
    rw [List.map_nil, List.append_nil]
    rfl
  | cons a as ih =>
    refine (bind_of_ok (emit_run (event a) w)).trans ((ih _).trans ?_)
    rw [List.append_assoc]
    rfl

/-- A world after a batch of writes and some reports. -/
structure World.Wrote (batch : List Write) (reports : List Event) (w w' : World) : Prop where
  store : w'.disk.store = w.disk.store.applyAll batch
  later : Disk.Later w.disk.faults w'.disk.faults
  books : w'.books = { w.books with events := w.books.events ++ reports }
  clock : w'.clock = w.clock

namespace World.Wrote

variable {w u v : World} {batch : List Write} {reports : List Event}

theorem nothing (w : World) : Wrote [] [] w w :=
  ⟨rfl, .refl _, by rw [List.append_nil], rfl⟩

theorem trans {batch' : List Write} {reports' : List Event} (h : Wrote batch reports w u)
    (h' : Wrote batch' reports' u v) : Wrote (batch ++ batch') (reports ++ reports') w v where
  store := by rw [h'.store, h.store, Store.applyAll, Store.applyAll, Store.applyAll,
    List.foldl_append]
  later := h.later.trans h'.later
  books := by rw [h'.books, h.books, List.append_assoc]
  clock := h'.clock.trans h.clock

theorem of_write_ok {d : Disk} (h : Disk.write batch w.disk = .ok () d) :
    Wrote batch [] w { w with disk := d } :=
  ⟨(Disk.write_ok h).1, (Disk.write_ok h).2, by rw [List.append_nil], rfl⟩

theorem of_write_error {d : Disk} {fault : StoreFault}
    (h : Disk.write batch w.disk = .error fault d) : Wrote [] [] w { w with disk := d } :=
  ⟨(Disk.write_error h).1, (Disk.write_error h).2, by rw [List.append_nil], rfl⟩

theorem of_emit {event : Event} (h : RouterM.emit event w = .ok () u) : Wrote [] [event] w u := by
  rw [emit_run] at h
  cases h
  exact ⟨rfl, .refl _, rfl, rfl⟩

theorem of_emits {α : Type} {event : α → Event} {as : List α}
    (h : (as.forM fun a => RouterM.emit (event a)) w = .ok () u) :
    Wrote [] (as.map event) w u := by
  induction as generalizing w with
  | nil =>
    obtain ⟨-, rfl⟩ := pure_eq_ok.1 h
    exact nothing w
  | cons a as ih =>
    obtain ⟨_, v, hv, h⟩ := bind_eq_ok.1 h
    exact (of_emit hv).trans (ih h)

end World.Wrote

theorem emit_ne_error {event : Event} {w w' : World} {e : RouterError} :
    ¬ RouterM.emit event w = .error e w' := by
  rw [emit_run]
  nofun

theorem emits_ne_error {α : Type} {event : α → Event} {as : List α} {w w' : World}
    {e : RouterError} : ¬ (as.forM fun a => RouterM.emit (event a)) w = .error e w' := by
  induction as generalizing w with
  | nil => exact pure_ne_error
  | cons a as ih =>
    intro h
    rcases bind_eq_error.1 h with h | ⟨_, _, -, h⟩
    · exact emit_ne_error h
    · exact ih h

end TransferRouter
