import DebugSession.BreakpointStore
import DebugSession.Proofs.Keyed

namespace DebugSession

theorem BreakEvent.withLine_id (e : BreakEvent) (line : Nat) : (e.withLine line).id = e.id := by
  simp only [withLine]
  cases e.kind <;> rfl

abbrev StoreView := BreakEventId → Option BreakEvent

namespace StoreView

def put (m : StoreView) (e : BreakEvent) : StoreView := fun id =>
  if id = e.id then some e else m id

def erase (m : StoreView) (id : BreakEventId) : StoreView := fun id' =>
  if id' = id then none else m id'

def modify (m : StoreView) (id : BreakEventId) (f : BreakEvent → BreakEvent) : StoreView :=
  fun id' => if id' = id then (m id').map f else m id'

def told (m : StoreView) (a : Announcement) : StoreView :=
  match a.change with
  | .added => m.put a.event
  | .removed => m.erase a.event.id
  | .modified => m.modify a.event.id fun _ => a.event
  | .enableChanged => m.modify a.event.id ({ · with enabled := a.event.enabled })
  | .statusChanged => m

def toldAll (m : StoreView) (as : List Announcement) : StoreView := as.foldl told m

theorem toldAll_added_of_not_mem (m : StoreView) {es : List BreakEvent} {id : BreakEventId}
    (hid : id ∉ es.map (·.id)) : m.toldAll (es.map (⟨.added, ·⟩)) id = m id := by
  induction es generalizing m with
  | nil => rfl
  | cons e rest ih =>
      rw [List.map_cons, List.mem_cons, not_or] at hid
      change (m.put e).toldAll (rest.map (⟨.added, ·⟩)) id = m id
      rw [ih _ hid.2]
      simp [put, hid.1]

theorem toldAll_added_of_mem (m : StoreView) {es : List BreakEvent}
    (hdistinct : (es.map (·.id)).Nodup) {e : BreakEvent} (he : e ∈ es) :
    m.toldAll (es.map (⟨.added, ·⟩)) e.id = some e := by
  induction es generalizing m with
  | nil => cases he
  | cons e' rest ih =>
      rw [List.map_cons, List.nodup_cons] at hdistinct
      change (m.put e').toldAll (rest.map (⟨.added, ·⟩)) e.id = some e
      rcases List.mem_cons.mp he with rfl | hmem
      · rw [toldAll_added_of_not_mem _ hdistinct.1]
        simp [put]
      · exact ih _ hdistinct.2 hmem

/-- The announcement is of an event that is there to be changed. -/
def Fits (m : StoreView) (a : Announcement) : Prop :=
  match a.change with
  | .modified | .enableChanged => (m a.event.id).isSome
  | _ => True

def FitsAll (m : StoreView) : List Announcement → Prop
  | [] => True
  | a :: as => m.Fits a ∧ (m.told a).FitsAll as

end StoreView

def Change.inPlace : Change → Bool
  | .modified | .enableChanged => true
  | _ => false

def Edit.inPlace : Edit → Bool
  | .enable _ _ | .condition _ _ | .move _ _ => true
  | _ => false

namespace BreakpointStore

variable {κ : Type} {x y : BreakpointStore κ}

def Distinct (x : BreakpointStore κ) : Prop := (x.events.map (·.id)).Nodup

theorem id_of_get? {e : BreakEvent} {id : BreakEventId} (he : x.get? id = some e) : e.id = id := by
  have hid := List.find?_some he
  simpa using hid

theorem mem_of_get? {e : BreakEvent} {id : BreakEventId} (he : x.get? id = some e) :
    e ∈ x.events := List.mem_of_find?_eq_some he

theorem get?_of_mem (hdistinct : x.Distinct) {e : BreakEvent} (he : e ∈ x.events) :
    x.get? e.id = some e := Keyed.find?_of_mem _ hdistinct he

def view (x : BreakpointStore κ) : StoreView := x.get?

def replaced (e old : BreakEvent) : BreakEvent := if old.id == e.id then e else old

theorem replaced_id (e old : BreakEvent) : (replaced e old).id = old.id := by
  simp only [replaced]
  split
  · rename_i hid
    exact (eq_of_beq hid).symm
  · rfl

theorem view_replace (x : BreakpointStore κ) (e : BreakEvent) :
    (x.replace e).view = x.view.modify e.id fun _ => e := by
  funext id
  change (x.events.map (replaced e)).find? (·.id == id) = _
  rw [Keyed.find?_map _ (replaced_id e)]
  change (x.get? id).map (replaced e) = if id = e.id then (x.get? id).map (fun _ => e) else x.get? id
  cases hold : x.get? id with
  | none => simp
  | some old =>
      have hid := id_of_get? hold
      by_cases he : id = e.id
      · simp [replaced, hid, he]
      · simp [replaced, hid, he]

theorem view_put (x : BreakpointStore κ) (e : BreakEvent) : (x.put e).view = x.view.put e := by
  simp only [put]
  cases hold : x.get? e.id with
  | some old =>
      rw [if_pos (Option.isSome_some), view_replace]
      funext id
      by_cases hid : id = e.id
      · subst hid
        simp [StoreView.modify, StoreView.put, view, hold]
      · simp [StoreView.modify, StoreView.put, hid]
  | none =>
      funext id
      change (x.events ++ [e]).find? (·.id == id) = if id = e.id then some e else x.get? id
      rw [List.find?_append]
      by_cases hid : id = e.id
      · subst hid
        change (x.get? e.id).or _ = _
        simp [hold]
      · change (x.get? id).or _ = _
        simp [hid, Ne.symm hid]

theorem view_erase (x : BreakpointStore κ) (id : BreakEventId) :
    (x.erase id).view = x.view.erase id :=
  funext fun id' => Keyed.find?_filter_ne _ x.events id id'

theorem distinct_replace (hx : x.Distinct) (e : BreakEvent) : (x.replace e).Distinct := by
  change ((x.events.map (replaced e)).map (·.id)).Nodup
  rw [Keyed.map_key_map _ (replaced_id e)]
  exact hx

theorem distinct_put (hx : x.Distinct) (e : BreakEvent) : (x.put e).Distinct := by
  simp only [put]
  cases hold : x.get? e.id with
  | some old => exact distinct_replace hx e
  | none =>
      change ((x.events ++ [e]).map (·.id)).Nodup
      rw [List.map_append, List.nodup_append]
      refine ⟨hx, by simp, ?_⟩
      intro id hid id' hid' heq
      obtain ⟨e', he', rfl⟩ := List.mem_map.mp hid
      rw [List.mem_singleton.mp hid'] at heq
      simpa [heq] using List.find?_eq_none.mp hold e' he'

theorem distinct_erase (hx : x.Distinct) (id : BreakEventId) : (x.erase id).Distinct :=
  Keyed.nodup_filter _ hx _

theorem distinct_apply {e : Edit} {as : List Announcement} (hx : x.Distinct)
    (he : x.apply e = .ok (y, as)) : y.Distinct := by
  cases e with
  | add e =>
      cases he
      exact distinct_put hx e
  | clear =>
      cases he
      exact List.nodup_nil
  | remove id =>
      simp only [apply] at he
      split at he
      · cases he
      · cases he
        exact distinct_erase hx id
  | enable id on | condition id text | move id line =>
      simp only [apply] at he
      split at he
      · cases he
      · cases he
        exact distinct_replace hx _

/-- The three outcomes of a move by an engine that is not refused. -/
theorem adjust_cases {id : BreakEventId} {line : Nat} {a : Option LineAdjustment}
    (ha : x.adjust id line = .ok (y, a)) :
    y = x ∧ a = none ∨ ∃ e before, x.get? id = some e ∧ e.line = some before ∧ before ≠ line ∧
      y = (x.remember id before).replace (e.withLine line) ∧ a = some ⟨e, e.withLine line⟩ := by
  simp only [adjust] at ha
  split at ha
  · cases ha
  · rename_i e he
    split at ha
    · cases ha
      exact .inl ⟨rfl, rfl⟩
    · rename_i before hbefore
      split at ha
      · cases ha
        exact .inl ⟨rfl, rfl⟩
      · rename_i hne
        cases ha
        exact .inr ⟨e, before, he, hbefore, hne, rfl, rfl⟩

theorem adjust_none {id : BreakEventId} {line : Nat} (ha : x.adjust id line = .ok (y, none)) :
    y = x := by
  rcases adjust_cases ha with ⟨hx, -⟩ | ⟨_, _, -, -, -, -, hsome⟩
  · exact hx
  · cases hsome

theorem remember_events (x : BreakpointStore κ) (id : BreakEventId) (line : Nat) :
    (x.remember id line).events = x.events := by
  simp only [remember]
  split <;> rfl

theorem remember_listeners (x : BreakpointStore κ) (id : BreakEventId) (line : Nat) :
    (x.remember id line).listeners = x.listeners := by
  simp only [remember]
  split <;> rfl

theorem view_remember (x : BreakpointStore κ) (id : BreakEventId) (line : Nat) :
    (x.remember id line).view = x.view := by
  funext id'
  simp only [view, get?, remember_events]

theorem distinct_adjust {id : BreakEventId} {line : Nat} {a : Option LineAdjustment}
    (hx : x.Distinct) (ha : x.adjust id line = .ok (y, a)) : y.Distinct := by
  rcases adjust_cases ha with ⟨rfl, -⟩ | ⟨e, before, -, -, -, rfl, -⟩
  · exact hx
  · refine distinct_replace ?_ _
    simp only [Distinct]
    rw [remember_events]
    exact hx

theorem distinct_restore (hx : x.Distinct) (id : BreakEventId) (line : Nat) :
    (x.restore id line).1.Distinct := by
  simp only [restore]
  cases x.get? id with
  | none => exact hx
  | some e => exact distinct_replace hx _

theorem listeners_apply {e : Edit} {as : List Announcement} (he : x.apply e = .ok (y, as)) :
    y.listeners = x.listeners := by
  cases e with
  | add e =>
      cases he
      simp only [put]
      split <;> rfl
  | clear =>
      cases he
      rfl
  | remove id | enable id on | condition id text | move id line =>
      simp only [apply] at he
      split at he
      · cases he
      · cases he
        rfl

theorem listeners_adjust {id : BreakEventId} {line : Nat} {a : Option LineAdjustment}
    (ha : x.adjust id line = .ok (y, a)) : y.listeners = x.listeners := by
  rcases adjust_cases ha with ⟨rfl, -⟩ | ⟨e, before, -, -, -, rfl, -⟩
  · rfl
  · exact remember_listeners x id before

theorem listeners_restore (x : BreakpointStore κ) (id : BreakEventId) (line : Nat) :
    (x.restore id line).1.listeners = x.listeners := by
  simp only [restore]
  cases x.get? id <;> rfl

theorem toldAll_removed (m : StoreView) (es : List BreakEvent) (id : BreakEventId) :
    StoreView.toldAll m (es.map (⟨.removed, ·⟩)) id = if id ∈ es.map (·.id) then none else m id := by
  induction es generalizing m with
  | nil => rfl
  | cons e rest ih =>
      change StoreView.toldAll (m.erase e.id) (rest.map (⟨.removed, ·⟩)) id = _
      rw [ih]
      by_cases hid : id = e.id
      · simp [StoreView.erase, hid]
      · simp [StoreView.erase, hid]

/-- An edit announces the difference that it makes. -/
theorem replay_edit (x : BreakpointStore κ) (change : Change) (old new : BreakEvent)
    (hold : x.get? new.id = some old)
    (hchange : StoreView.told x.view ⟨change, new⟩ = x.view.modify new.id fun _ => new) :
    (x.edit change old new).1.view = StoreView.toldAll x.view (x.edit change old new).2 := by
  simp only [edit]
  rw [view_replace, ← hchange]
  split
  · rename_i hsame
    subst hsame
    rw [hchange]
    funext id
    by_cases hid : id = old.id
    · subst hid
      simp [StoreView.modify, StoreView.toldAll, view, hold]
    · simp [StoreView.modify, StoreView.toldAll, hid]
  · rfl

theorem replay_apply {e : Edit} {as : List Announcement} (he : x.apply e = .ok (y, as)) :
    y.view = StoreView.toldAll x.view as := by
  cases e with
  | add e =>
      cases he
      exact view_put x e
  | clear =>
      cases he
      funext id
      rw [toldAll_removed]
      by_cases hid : id ∈ x.events.map (·.id)
      · rw [if_pos hid]
        rfl
      · rw [if_neg hid]
        refine (List.find?_eq_none.mpr fun e he heq => hid ?_).symm
        exact List.mem_map.mpr ⟨e, he, eq_of_beq heq⟩
  | remove id =>
      simp only [apply] at he
      split at he
      · cases he
      · rename_i e hold
        cases he
        have hid := id_of_get? hold
        change (x.erase id).view = x.view.erase e.id
        rw [view_erase, hid]
  | enable id on =>
      simp only [apply] at he
      split at he
      · cases he
      · rename_i e hold
        cases he
        obtain rfl := id_of_get? hold
        apply replay_edit x .enableChanged e { e with enabled := on } hold
        funext id
        by_cases hid : id = e.id
        · subst hid
          simp [StoreView.told, StoreView.modify, view, hold]
        · simp [StoreView.told, StoreView.modify, hid]
  | condition id text =>
      simp only [apply] at he
      split at he
      · cases he
      · rename_i e hold
        cases he
        obtain rfl := id_of_get? hold
        exact replay_edit x .modified e { e with condition := text } hold rfl
  | move id line =>
      simp only [apply] at he
      split at he
      · cases he
      · rename_i e hold
        cases he
        obtain rfl := id_of_get? hold
        rw [← e.withLine_id line] at hold
        exact replay_edit (x.forget e.id) .modified e (e.withLine line) hold rfl

theorem replay_adjust {id : BreakEventId} {line : Nat} {a : LineAdjustment}
    (ha : x.adjust id line = .ok (y, some a)) :
    y.view = StoreView.toldAll x.view a.announcements := by
  rcases adjust_cases ha with ⟨-, hnone⟩ | ⟨e, before, hold, -, -, rfl, hsome⟩
  · cases hnone
  · cases hsome
    obtain rfl := id_of_get? hold
    rw [view_replace, view_remember]
    change _ = (x.view.erase e.id).put (e.withLine line)
    funext id
    by_cases hid : id = e.id
    · subst hid
      simp [StoreView.modify, StoreView.put, view, hold, BreakEvent.withLine_id]
    · simp [StoreView.modify, StoreView.put, StoreView.erase, hid, BreakEvent.withLine_id]

theorem replay_restore (x : BreakpointStore κ) (id : BreakEventId) (line : Nat) :
    (x.restore id line).1.view = StoreView.toldAll x.view (x.restore id line).2 := by
  simp only [restore]
  cases x.get? id with
  | none => rfl
  | some e => exact view_replace x _

theorem fitsAll_removed (m : StoreView) (es : List BreakEvent) :
    m.FitsAll (es.map (⟨.removed, ·⟩)) := by
  induction es generalizing m with
  | nil => trivial
  | cons e rest ih => exact ⟨trivial, ih _⟩

theorem fits_edit {change : Change} {old new : BreakEvent} (hnew : (x.view new.id).isSome) :
    x.view.FitsAll (x.edit change old new).2 := by
  simp only [edit]
  split
  · trivial
  · refine ⟨?_, trivial⟩
    cases change <;> first | exact hnew | trivial

theorem fits_apply {e : Edit} {as : List Announcement} (he : x.apply e = .ok (y, as)) :
    x.view.FitsAll as := by
  cases e with
  | add e =>
      cases he
      exact ⟨trivial, trivial⟩
  | clear =>
      cases he
      exact fitsAll_removed _ _
  | remove id =>
      simp only [apply] at he
      split at he
      · cases he
      · cases he
        exact ⟨trivial, trivial⟩
  | enable id on | condition id text | move id line =>
      simp only [apply] at he
      split at he
      · cases he
      · rename_i e hold
        cases he
        obtain rfl := id_of_get? hold
        apply fits_edit
        simp [view, hold, BreakEvent.withLine_id]

theorem fits_restore (x : BreakpointStore κ) (id : BreakEventId) (line : Nat) :
    x.view.FitsAll (x.restore id line).2 := by
  simp only [restore]
  cases hold : x.get? id with
  | none => trivial
  | some e =>
      obtain rfl := id_of_get? hold
      refine ⟨?_, trivial⟩
      simp [StoreView.Fits, view, hold, BreakEvent.withLine_id]

structure Told (x : BreakpointStore κ) (inPlace : Bool)
    (y : BreakpointStore κ × List Announcement) : Prop where
  listeners : y.1.listeners = x.listeners
  distinct : x.Distinct → y.1.Distinct
  replay : y.1.view = x.view.toldAll y.2
  fits : x.view.FitsAll y.2
  inPlace : ∀ a ∈ y.2, a.change.inPlace = inPlace

theorem inPlace_edit (x : BreakpointStore κ) {change : Change} {old new : BreakEvent}
    {a : Announcement} (ha : a ∈ (x.edit change old new).2) : a.change = change := by
  change a ∈ (if old = new then [] else [⟨change, new⟩]) at ha
  split at ha
  · cases ha
  · rw [List.mem_singleton.mp ha]

theorem inPlace_apply {e : Edit} {as : List Announcement} (he : x.apply e = .ok (y, as))
    {a : Announcement} (ha : a ∈ as) : a.change.inPlace = e.inPlace := by
  cases e with
  | add e =>
      cases he
      rw [List.mem_singleton.mp ha]
      rfl
  | clear =>
      cases he
      obtain ⟨e, -, rfl⟩ := List.mem_map.mp ha
      rfl
  | remove id =>
      simp only [apply] at he
      split at he
      · cases he
      · cases he
        rw [List.mem_singleton.mp ha]
        rfl
  | enable id on | condition id text | move id line =>
      simp only [apply] at he
      split at he
      · cases he
      · cases he
        exact congrArg Change.inPlace (inPlace_edit x ha)

theorem added_of_apply {e : Edit} {as : List Announcement} (he : x.apply e = .ok (y, as))
    {a : Announcement} (ha : a ∈ as) (hadded : a.change = .added) : e = .add a.event := by
  have hplace := inPlace_apply he ha
  rw [hadded] at hplace
  cases e with
  | add e =>
      cases he
      rw [List.mem_singleton.mp ha]
  | clear =>
      cases he
      obtain ⟨e, -, rfl⟩ := List.mem_map.mp ha
      cases hadded
  | remove id =>
      simp only [apply] at he
      split at he
      · cases he
      · cases he
        rw [List.mem_singleton.mp ha] at hadded
        cases hadded
  | enable id on | condition id text | move id line => cases hplace

theorem told_apply {e : Edit} {z : BreakpointStore κ × List Announcement}
    (he : x.apply e = .ok z) : x.Told e.inPlace z :=
  ⟨listeners_apply he, fun hx => distinct_apply hx he, replay_apply he, fits_apply he,
    fun _ => inPlace_apply he⟩

theorem told_adjust {id : BreakEventId} {line : Nat} {a : LineAdjustment}
    (ha : x.adjust id line = .ok (y, some a)) : x.Told false (y, a.announcements) := by
  refine ⟨listeners_adjust ha, fun hx => distinct_adjust hx ha, replay_adjust ha,
    ⟨trivial, trivial, trivial⟩, ?_⟩
  intro a' ha'
  simp only [LineAdjustment.announcements] at ha'
  rcases List.mem_cons.mp ha' with rfl | ha'
  · rfl
  · rw [List.mem_singleton.mp ha']
    rfl

theorem told_restore (x : BreakpointStore κ) (id : BreakEventId) (line : Nat) :
    x.Told true (x.restore id line) := by
  refine ⟨listeners_restore x id line, fun hx => distinct_restore hx id line,
    replay_restore x id line, fits_restore x id line, fun a ha => ?_⟩
  simp only [restore] at ha
  cases hold : x.get? id with
  | none =>
      rw [hold] at ha
      cases ha
  | some e =>
      rw [hold] at ha
      rw [List.mem_singleton.mp ha]
      rfl

/-- It is no news that the lines of moved events are forgotten. -/
theorem told_forgotten (x : BreakpointStore κ) (inPlace : Bool) :
    x.Told inPlace ({ x with adjusted := [] }, []) :=
  ⟨rfl, id, rfl, trivial, fun _ ha => by cases ha⟩

end BreakpointStore

end DebugSession
