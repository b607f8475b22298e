import TransferRouter.Proofs.Action
import TransferRouter.Proofs.Store
import TransferRouter.Store.Disk

/-!
Calls on a store that sits on a medium. A medium that refuses nothing but batches answers every
question about the content. Whatever is refused, a call that writes only under some keys leaves
everything under the others.
-/

namespace TransferRouter.Disk

variable {d d' : Disk}

def Reliable (d : Disk) : Prop := ∀ call, d.faults.concerns call = false

/-- No call but a batch of writes is refused. -/
def Readable (d : Disk) : Prop := ∀ call, call ≠ .batch → d.faults.concerns call = false

theorem Reliable.readable (h : d.Reliable) : d.Readable := fun call _ => h call

/-! ## Calls that are not refused -/

theorem permit_run {call : StoreCall} (h : d.faults.concerns call = false) :
    permit call d = .ok () d := by
  rw [permit, h]
  rfl

theorem get?_run (h : d.Readable) (key : Bytes) : get? key d = .ok (d.store.get? key) d := by
  rw [get?, bind_of_ok (permit_run (h .get nofun))]
  rfl

theorem contains_run (h : d.Readable) (key : Bytes) :
    contains key d = .ok (d.store.contains key) d := by
  rw [contains, bind_of_ok (permit_run (h .contains nofun))]
  rfl

theorem extensions_run (h : d.Readable) (start : Bytes) :
    extensions start d = .ok (d.store.extensions start) d := by
  rw [extensions, bind_of_ok (permit_run (h .extensions nofun))]
  rfl

theorem range_run (h : d.Readable) (start stop : Bytes) (limit : Nat) :
    range start stop limit d = .ok (d.store.range start stop limit) d := by
  rw [range, bind_of_ok (permit_run (h .range nofun))]
  rfl

theorem put_run (h : d.faults.concerns .put = false) (key value : Bytes) :
    put key value d = .ok () ⟨d.store.insert key value, d.faults⟩ := by
  rw [put, bind_of_ok (permit_run h)]
  rfl

theorem delete_run (h : d.faults.concerns .delete = false) (key : Bytes) :
    delete key d = .ok () ⟨d.store.erase key, d.faults⟩ := by
  rw [delete, bind_of_ok (permit_run h)]
  rfl

theorem write_run (h : d.faults.concerns .batch = false) (batch : List Write) :
    write batch d = .ok () ⟨d.store.applyAll batch, d.faults⟩ := by
  rw [write, bind_of_ok (permit_run h)]
  rfl

/-! ## Batches -/

/-- A batch that the plan concerns is settled by the verdict on its number. -/
theorem write_of_concerned (h : d.faults.concerns .batch = true) (batch : List Write) :
    write batch d =
      match d.faults.verdict d.faults.made with
      | none => .ok () ⟨d.store.applyAll batch, { d.faults with made := d.faults.made + 1 }⟩
      | some fault => .error fault ⟨d.store, { d.faults with made := d.faults.made + 1 }⟩ := by
  cases hv : d.faults.verdict d.faults.made with
  | none =>
    have hp : permit .batch d =
        .ok () ⟨d.store, { d.faults with made := d.faults.made + 1 }⟩ := by
      simp only [permit, h, hv, if_true]
    rw [write, bind_of_ok hp]
    rfl
  | some fault =>
    have hp : permit .batch d =
        .error fault ⟨d.store, { d.faults with made := d.faults.made + 1 }⟩ := by
      simp only [permit, h, hv, if_true]
    rw [write, bind_of_error hp]

/-- A batch that is refused was the next one to be counted. -/
theorem concerned_of_write_error {batch : List Write} {fault : StoreFault}
    (h : write batch d = .error fault d') :
    d.faults.verdict d.faults.made = some fault ∧ d'.faults.made = d.faults.made + 1 := by
  cases hc : d.faults.concerns .batch with
  | false =>
    rw [write_run hc] at h
    exact absurd h nofun
  | true =>
    rw [write_of_concerned hc] at h
    cases hv : d.faults.verdict d.faults.made with
    | none =>
      rw [hv] at h
      exact absurd h nofun
    | some fault' =>
      rw [hv] at h
      obtain ⟨rfl, rfl⟩ := EStateM.Result.error.inj h
      exact ⟨rfl, rfl⟩

/-! ## What a call changes at most -/

/-- The same plan after some more calls. -/
structure Later (p q : FaultPlan) : Prop where
  concerns : q.concerns = p.concerns
  verdict : q.verdict = p.verdict
  made : p.made ≤ q.made

theorem Later.refl (p : FaultPlan) : Later p p := ⟨rfl, rfl, Nat.le_refl _⟩

theorem Later.trans {p q r : FaultPlan} (h : Later p q) (h' : Later q r) : Later p r :=
  ⟨h'.concerns.trans h.concerns, h'.verdict.trans h.verdict, Nat.le_trans h.made h'.made⟩

theorem permit_keeps (call : StoreCall) :
    Keeps (fun d d' => d'.store = d.store ∧ Later d.faults d'.faults) (permit call) := by
  intro d
  unfold leaves permit
  cases d.faults.concerns call with
  | false => exact ⟨rfl, .refl _⟩
  | true =>
    have h : Later d.faults { d.faults with made := d.faults.made + 1 } := ⟨rfl, rfl, Nat.le_succ _⟩
    cases d.faults.verdict d.faults.made with
    | none => exact ⟨rfl, h⟩
    | some fault => exact ⟨rfl, h⟩

/-- The same medium at a later time, with the same values under the keys that satisfy `P`. -/
structure Apart (P : Bytes → Prop) (d d' : Disk) : Prop where
  later : Later d.faults d'.faults
  get? : ∀ key, P key → d'.store.get? key = d.store.get? key

variable {P : Bytes → Prop}

instance : IsPreorder Disk (Apart P) where
  refl _ := ⟨.refl _, fun _ _ => rfl⟩
  trans _ _ _ h h' :=
    ⟨h.later.trans h'.later, fun key hkey => (h'.get? key hkey).trans (h.get? key hkey)⟩

theorem Apart.readable (h : Apart P d d') (hd : d.Readable) : d'.Readable :=
  fun call hcall => h.later.concerns ▸ hd call hcall

theorem Apart.reliable (h : Apart P d d') (hd : d.Reliable) : d'.Reliable :=
  fun call => h.later.concerns ▸ hd call

/-- The same disk, unless calls other than batches may be refused. -/
def Still (d d' : Disk) : Prop := d.Readable → d' = d

instance : IsPreorder Disk Still where
  refl _ _ := rfl
  trans d e f h h' hd := by
    obtain rfl := h hd
    exact h' hd

/-- Relations between disks that hold when a call is counted and nothing is changed. -/
class AllowsReads (D : Disk → Disk → Prop) : Prop extends IsPreorder Disk D where
  permit (call : StoreCall) : call ≠ .batch → Keeps D (permit call)

theorem apart_permit (call : StoreCall) : Keeps (Apart P) (permit call) :=
  (permit_keeps call).mono fun _ _ h => ⟨h.2, fun _ _ => h.1 ▸ rfl⟩

instance : AllowsReads (Apart P) where
  permit call _ := apart_permit call

instance : AllowsReads Still where
  permit _ hcall _ hd := leaves_of_ok (permit_run (hd _ hcall))

section Reads

variable {D : Disk → Disk → Prop} [AllowsReads D]

theorem keeps_get? (key : Bytes) : Keeps D (get? key) :=
  (AllowsReads.permit .get nofun).bind fun _ => Keeps.get.bind fun _ => Keeps.pure _

theorem keeps_contains (key : Bytes) : Keeps D (contains key) :=
  (AllowsReads.permit .contains nofun).bind fun _ => Keeps.get.bind fun _ => Keeps.pure _

theorem keeps_range (start stop : Bytes) (limit : Nat) : Keeps D (range start stop limit) :=
  (AllowsReads.permit .range nofun).bind fun _ => Keeps.get.bind fun _ => Keeps.pure _

end Reads

theorem keeps_put {key value : Bytes} (h : ¬ P key) : Keeps (Apart P) (put key value) := by
  refine (apart_permit .put).bind fun _ => Keeps.modify fun _ => ?_
  refine ⟨.refl _, fun k hk => OrderedMap.get?_insert_ne ?_⟩
  rintro rfl
  exact h hk

theorem keeps_delete {key : Bytes} (h : ¬ P key) : Keeps (Apart P) (delete key) := by
  refine (apart_permit .delete).bind fun _ => Keeps.modify fun _ => ?_
  refine ⟨.refl _, fun k hk => OrderedMap.get?_erase_ne ?_⟩
  rintro rfl
  exact h hk

theorem keeps_write {batch : List Write} (h : ∀ w ∈ batch, ¬ P w.key) :
    Keeps (Apart P) (write batch) := by
  refine (apart_permit .batch).bind fun _ => Keeps.modify fun _ => ?_
  refine ⟨.refl _, fun k hk => Store.get?_applyAll_of_forall_ne fun w hw => ?_⟩
  rintro rfl
  exact h w hw hk

theorem write_ok {batch : List Write} (h : write batch d = .ok () d') :
    d'.store = d.store.applyAll batch ∧ Later d.faults d'.faults := by
  obtain ⟨_, e, hpermit, h⟩ := bind_eq_ok.1 h
  obtain rfl := modify_eq_ok.1 h
  obtain ⟨hstore, hlater⟩ := (permit_keeps .batch).ok hpermit
  exact ⟨congrArg (Store.applyAll · batch) hstore, hlater⟩

theorem write_error {batch : List Write} {fault : StoreFault}
    (h : write batch d = .error fault d') : d'.store = d.store ∧ Later d.faults d'.faults := by
  rcases bind_eq_error.1 h with h | ⟨_, _, _, h⟩
  · exact (permit_keeps .batch).error h
  · exact (modify_ne_error h).elim

theorem range_ok {start stop : Bytes} {limit : Nat} {entries : List (Bytes × Bytes)}
    (h : range start stop limit d = .ok entries d') : entries = d.store.range start stop limit := by
  obtain ⟨_, e, hpermit, h⟩ := bind_eq_ok.1 h
  obtain ⟨_, _, hget, h⟩ := bind_eq_ok.1 h
  obtain ⟨rfl, rfl⟩ := get_eq_ok.1 hget
  obtain ⟨rfl, -⟩ := pure_eq_ok.1 h
  obtain ⟨hstore, -⟩ := (permit_keeps .range).ok hpermit
  exact congrArg (Store.range · start stop limit) hstore

theorem contains_ok {key : Bytes} {found : Bool} (h : contains key d = .ok found d') :
    found = d.store.contains key ∧ d'.store = d.store := by
  obtain ⟨_, e, hpermit, h⟩ := bind_eq_ok.1 h
  obtain ⟨_, _, hget, h⟩ := bind_eq_ok.1 h
  obtain ⟨rfl, rfl⟩ := get_eq_ok.1 hget
  obtain ⟨rfl, rfl⟩ := pure_eq_ok.1 h
  obtain ⟨hstore, -⟩ := (permit_keeps .contains).ok hpermit
  exact ⟨congrArg (OrderedMap.contains · key) hstore, hstore⟩

end TransferRouter.Disk
