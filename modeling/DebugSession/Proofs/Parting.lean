import DebugSession.Proofs.Logbook
import Mathlib.Data.List.Nodup

namespace DebugSession

def BindingRecord.outlives (r : BindingRecord) (x : Except EngineError Unit) : Bool :=
  r.handle.isSome && !x.isOk

def BreakEvent.backOn (e : BreakEvent) (a : BreakEventId × Nat) : BreakEvent :=
  if a.1 = e.id then e.withLine a.2 else e

def BreakEvent.takenBack (adjusted : List (BreakEventId × Nat)) (e : BreakEvent) : BreakEvent :=
  adjusted.foldl BreakEvent.backOn e

namespace BreakpointStore

variable (x : BreakpointStore Listener)

def unbinding (st : StoreId) (t : BindingTable) (freed : BreakEventId → Except EngineError Unit)
    (e : BreakEvent) : List Remark :=
  (t.handleOf e.id).toList.map (.asked ⟨.remove ·, freed e.id⟩) ++ x.news st ⟨.statusChanged, e⟩

def takenBack (adjusted : List (BreakEventId × Nat)) : BreakpointStore Listener :=
  { x with events := x.events.map (·.takenBack adjusted) }

def restored : BreakpointStore Listener := { x.takenBack x.adjusted with adjusted := [] }

def restoring (st : StoreId) (adjusted : List (BreakEventId × Nat)) : List Remark :=
  adjusted.flatMap fun a =>
    (x.get? a.1).toList.flatMap fun e => x.news st ⟨.modified, e.withLine a.2⟩

end BreakpointStore

namespace Session

variable (x : Session) (stores : StoreId → BreakpointStore Listener)

def attachedEvents : List BreakEvent :=
  match x.store with
  | none => []
  | some st => (stores st).events

def leaving (y : BreakpointStore Listener) : BreakpointStore Listener :=
  match x.subscription with
  | none => y
  | some l => y.unsubscribe l

def left (st : StoreId) : BreakpointStore Listener :=
  if x.store = some st then (x.leaving (stores st)).restored else stores st

def releasing (freed : BreakEventId → Except EngineError Unit) : List Remark :=
  match x.store with
  | none => []
  | some st => (stores st).events.flatMap ((stores st).unbinding st x.bindings freed) ++
      (x.leaving (stores st)).restoring st (stores st).adjusted

end Session

namespace Standing

variable {v : Standing}

/-- The unbinding of an event asks for one removal at most. -/
theorem unbound_answered (id : BreakEventId) (m : Mood) (v : Standing) :
    ∃ x : Except EngineError Unit,
      (v.unbound id m).exchanges =
        v.exchanges ++ (v.bindings.handleOf id).toList.map (⟨.remove ·, x⟩) ∧
      ∀ id', (v.unbound id m).bindings.get? id' =
        if id' = id then (v.bindings.get? id).filter (·.outlives x) else v.bindings.get? id' := by
  have hforgotten := v.bindings.get?_remove id
  have hsame {r : Option BindingRecord} (hr : v.bindings.get? id = r) (id' : BreakEventId) :
      v.bindings.get? id' = if id' = id then r else v.bindings.get? id' := by
    split
    · rename_i hid
      rw [hid, hr]
    · rfl
  simp only [BindingTable.handleOf]
  cases hr : v.bindings.get? id with
  | none =>
      simp only [unbound, hr]
      exact ⟨.ok (), (List.append_nil _).symm, hsame hr⟩
  | some r =>
      obtain ⟨e, handle, status, message⟩ := r
      cases handle with
      | none =>
          simp only [unbound, hr]
          exact ⟨.ok (), (List.append_nil _).symm, hforgotten⟩
      | some handle =>
          simp only [unbound, hr, complied]
          cases m (.remove handle) with
          | ok x => exact ⟨.ok x, rfl, hforgotten⟩
          | error err => exact ⟨.error err, rfl, hsame hr⟩

theorem putStore_putStore (v : Standing) (st : StoreId) (x y : BreakpointStore Listener) :
    (v.putStore st x).putStore st y = v.putStore st y := by
  simp only [putStore, Array.setIfInBounds_setIfInBounds]

theorem unsubscribe_of_size_le (v : Standing) {st : StoreId} (hst : v.stores.size ≤ st.index)
    (l : ListenerId) : (v.store st).unsubscribe l = ({} : BreakpointStore Listener) := by
  rw [store_of_size_le v hst]
  rfl

/-- A store that is not there stays empty. -/
theorem store_putStore_of_empty {st : StoreId} {x : BreakpointStore Listener}
    (hx : v.stores.size ≤ st.index → x = {}) (st' : StoreId) :
    (v.putStore st x).store st' = if st' = st then x else v.store st' := by
  rw [store_putStore]
  by_cases hst : st.index < v.stores.size
  · simp only [hst, and_true]
  · have hle := Nat.le_of_not_lt hst
    rw [if_neg fun h => hst h.2]
    split
    · rename_i heq
      rw [heq, store_of_size_le v hle, hx hle]
    · rfl

end Standing

theorem BreakEvent.withLine_withLine (e : BreakEvent) (line line' : Nat) :
    (e.withLine line).withLine line' = e.withLine line' := by
  obtain ⟨id, kind, enabled, condition, hitAction, trace, customAction⟩ := e
  cases kind <;> rfl

theorem BreakEvent.backOn_withLine (e : BreakEvent) (a : BreakEventId × Nat) (line : Nat) :
    (e.backOn a).withLine line = e.withLine line := by
  simp only [backOn]
  split
  · exact e.withLine_withLine a.2 line
  · rfl

theorem BreakEvent.takenBack_id (adjusted : List (BreakEventId × Nat)) (e : BreakEvent) :
    (e.takenBack adjusted).id = e.id := by
  induction adjusted generalizing e with
  | nil => rfl
  | cons a rest ih =>
      refine (ih (e.backOn a)).trans ?_
      simp only [backOn]
      split
      · exact e.withLine_id a.2
      · rfl

namespace BreakpointStore

variable {x : BreakpointStore Listener}

theorem takenBack_nil (x : BreakpointStore Listener) : x.takenBack [] = x := by
  simp only [takenBack, BreakEvent.takenBack, List.foldl_nil, List.map_id']

theorem takenBack_cons (a : BreakEventId × Nat) (adjusted : List (BreakEventId × Nat)) :
    (x.takenBack [a]).takenBack adjusted = x.takenBack (a :: adjusted) := by
  simp only [takenBack, List.map_map]
  rfl

theorem get?_takenBack (x : BreakpointStore Listener) (adjusted : List (BreakEventId × Nat))
    (id : BreakEventId) : (x.takenBack adjusted).get? id = (x.get? id).map (·.takenBack adjusted) :=
  Keyed.find?_map _ (BreakEvent.takenBack_id adjusted) id

theorem distinct_takenBack (hdistinct : x.Distinct) (adjusted : List (BreakEventId × Nat)) :
    (x.takenBack adjusted).Distinct := by
  change ((x.events.map _).map _).Nodup
  rw [Keyed.map_key_map _ (BreakEvent.takenBack_id adjusted)]
  exact hdistinct

/-- No other event is on a line that is remembered of one. -/
theorem restore_eq (hdistinct : x.Distinct) (id : BreakEventId) (line : Nat) :
    x.restore id line =
      (x.takenBack [(id, line)], (x.get? id).toList.map fun e => ⟨.modified, e.withLine line⟩) := by
  simp only [restore]
  cases he : x.get? id with
  | none =>
      have hsame : x.events.map (·.backOn (id, line)) = x.events := by
        refine (List.map_congr_left fun e he' => ?_).trans (List.map_id _)
        have hid := List.find?_eq_none.mp he e he'
        exact if_neg fun h => hid (beq_iff_eq.mpr h.symm)
      change (x, []) = ({ x with events := x.events.map (·.backOn (id, line)) }, [])
      rw [hsame]
  | some e =>
      obtain rfl := id_of_get? he
      have hreplaced : (x.replace (e.withLine line)).events =
          x.events.map (·.backOn (e.id, line)) := by
        refine List.map_congr_left fun e' he' => ?_
        rw [e.withLine_id, BreakEvent.backOn]
        by_cases hid : e.id = e'.id
        · have hsame := get?_of_mem hdistinct he'
          rw [← hid, he] at hsame
          rw [Option.some.inj hsame]
          simp
        · simp [hid, Ne.symm hid]
      change (x.replace (e.withLine line), [_]) =
        ({ x with events := x.events.map (·.backOn (e.id, line)) }, [_])
      rw [← hreplaced]
      rfl

theorem restoring_cons (x : BreakpointStore Listener) (st : StoreId) (a : BreakEventId × Nat)
    (adjusted : List (BreakEventId × Nat)) :
    x.restoring st (a :: adjusted) = x.restoring st [a] ++ x.restoring st adjusted := by
  simp only [restoring, List.flatMap_cons, List.flatMap_nil, List.append_nil]

theorem restoring_takenBack (st : StoreId) (a : BreakEventId × Nat)
    (adjusted : List (BreakEventId × Nat)) :
    (x.takenBack [a]).restoring st adjusted = x.restoring st adjusted := by
  simp only [restoring, get?_takenBack]
  refine congrArg adjusted.flatMap (funext fun a' => ?_)
  cases x.get? a'.1 with
  | none => rfl
  | some e =>
      change List.flatMap _ [e.backOn a] = List.flatMap _ [e]
      simp only [List.flatMap_cons, List.flatMap_nil, BreakEvent.backOn_withLine]
      rfl

end BreakpointStore

namespace Session

variable (x : Session) {stores : StoreId → BreakpointStore Listener} {st : StoreId}

theorem leaving_events (y : BreakpointStore Listener) : (x.leaving y).events = y.events := by
  simp only [leaving]
  split <;> rfl

theorem leaving_adjusted (y : BreakpointStore Listener) : (x.leaving y).adjusted = y.adjusted := by
  simp only [leaving]
  split <;> rfl

theorem events_left : (x.left stores st).events = if x.store = some st then
    (stores st).events.map (·.takenBack (stores st).adjusted) else (stores st).events := by
  simp only [left]
  split
  · simp only [BreakpointStore.restored, BreakpointStore.takenBack, leaving_events,
      leaving_adjusted]
  · rfl

theorem adjusted_left : (x.left stores st).adjusted =
    if x.store = some st then [] else (stores st).adjusted := by
  simp only [left]
  split <;> rfl

theorem distinct_left {x : Session} (hdistinct : (stores st).Distinct) :
    (x.left stores st).Distinct := by
  simp only [left]
  split
  · refine BreakpointStore.distinct_takenBack ?_ _
    rw [BreakpointStore.Distinct, leaving_events]
    exact hdistinct
  · exact hdistinct

end Session

namespace Standing

variable {s : SessionId} {v : Standing}

/-- Only the session's own subscription has the number that it goes by. -/
theorem Hooked.others_leaving (hv : Hooked s v) {st : StoreId} (hst : v.session.store = some st)
    (hnumbered : ((v.store st).listeners.map (·.1)).Nodup) :
    (v.session.leaving (v.store st)).listeners.filter (·.2 != .session s) =
      (v.store st).listeners.filter (·.2 != .session s) := by
  simp only [Session.leaving]
  cases hl : v.session.subscription with
  | none => rfl
  | some l =>
      simp only [BreakpointStore.unsubscribe, List.filter_filter]
      refine List.filter_congr fun p hp => ?_
      by_cases hself : p.2 = .session s
      · simp [hself]
      · have hlt : st.index < v.stores.size := Nat.lt_of_not_le fun hle => by
          rw [store_of_size_le v hle] at hp
          cases hp
        have hmem : l ∈ hooks s (v.store st) := by
          rw [hv.attached st ⟨hst, hlt⟩, hl]
          exact List.mem_singleton.mpr rfl
        obtain ⟨q, hq, rfl⟩ := List.mem_map.mp hmem
        obtain ⟨hq, hqself⟩ := List.mem_filter.mp hq
        have hne : p.1 ≠ q.1 := fun heq => hself (by
          rw [List.inj_on_of_nodup_map hnumbered hp hq heq]
          exact eq_of_beq hqself)
        simp [hself, hne]

theorem Hooked.others_left (hv : Hooked s v) {st : StoreId}
    (hnumbered : ((v.store st).listeners.map (·.1)).Nodup) :
    (v.session.left v.store st).listeners.filter (·.2 != .session s) =
      (v.store st).listeners.filter (·.2 != .session s) := by
  simp only [Session.left]
  split
  · rename_i hst
    exact hv.others_leaving hst hnumbered
  · rfl

end Standing

namespace Logbook

open Act Standing

variable {σ : Type} {B : Logbook σ} {h : Host σ} {c : Scope} {v : Standing}

variable (kept : B.KeptBy h)
include kept

theorem KeptBy.removeBreakEvent (id : BreakEventId) :
    B.Notes (B.session.removeBreakEvent h id) c v fun _ v' rs => Dealt v v' ∧
      ∃ x : Except EngineError Unit,
        rs = (v.bindings.handleOf id).toList.map (.asked ⟨.remove ·, x⟩) ∧
        ∀ id', v'.bindings.get? id' =
          if id' = id then (v.bindings.get? id).filter (·.outlives x) else v.bindings.get? id' := by
  refine (Notes.of_leads (kept.quiet.removeBreakEvent id)
    (kept.grown.removeBreakEvent B.session id)).mono ?_
  rintro _ v' rs ⟨⟨m, rfl⟩, xs, hxs, rfl⟩
  obtain ⟨x, hexchanges, hget⟩ := v.unbound_answered id m
  obtain rfl := List.append_cancel_left (hxs.symm.trans hexchanges)
  exact ⟨Dealt.unbound id m v, x, by rw [List.map_map]; rfl, hget⟩

theorem KeptBy.unbindEvent (st : StoreId) {e : BreakEvent}
    (he : (v.store st).get? e.id = some e) :
    B.Notes (do
      B.session.removeBreakEvent h e.id
      st.announceStatus h e.id) c v fun _ v' rs => Dealt v v' ∧
        ∃ x, rs = (v.store st).unbinding st v.bindings (fun _ => x) e ∧
          ∀ id, v'.bindings.get? id = if id = e.id then
            (v.bindings.get? id).filter (·.outlives x) else v.bindings.get? id := by
  refine (kept.removeBreakEvent e.id).bind ?_
  rintro _ v' rs ⟨hdealt, x, rfl, hget⟩
  refine (kept.announceStatus st (by rwa [hdealt.store])).mono ?_
  rintro _ v'' rs ⟨rfl, rfl⟩
  refine ⟨hdealt, x, by rw [hdealt.store]; rfl, fun id => ?_⟩
  rw [hget]
  split
  · rename_i hid
    rw [hid]
  · rfl

/-- Each event is unbound before its news, and all that before the next one. -/
theorem KeptBy.unbindAll (st : StoreId) {es : List BreakEvent}
    (hes : ∀ e ∈ es, (v.store st).get? e.id = some e) (hdistinct : (es.map (·.id)).Nodup) :
    B.Notes (es.forM fun e => do
      B.session.removeBreakEvent h e.id
      st.announceStatus h e.id) c v fun _ v' rs => Dealt v v' ∧
        ∃ freed, rs = es.flatMap ((v.store st).unbinding st v.bindings freed) ∧
          ∀ id, v'.bindings.get? id = if id ∈ es.map (·.id) then
            (v.bindings.get? id).filter (·.outlives (freed id)) else v.bindings.get? id := by
  induction es generalizing v with
  | nil => exact Notes.pure ⟨Dealt.refl v, fun _ => .ok (), rfl, fun _ => by simp⟩
  | cons e rest ih =>
      rw [List.map_cons, List.nodup_cons] at hdistinct
      refine (kept.unbindEvent st (hes e List.mem_cons_self)).bind ?_
      rintro _ v' rs ⟨hdealt, x, rfl, hget⟩
      have hrest : ∀ e' ∈ rest, (v'.store st).get? e'.id = some e' := fun e' he' => by
        rw [hdealt.store]
        exact hes e' (List.mem_cons_of_mem e he')
      refine (ih hrest hdistinct.2).mono ?_
      rintro _ v'' rs ⟨hdealt', freed, rfl, hget'⟩
      -- What the engine answers for the first event is no answer for the rest.
      have hother {e' : BreakEvent} (he' : e' ∈ rest) : e'.id ≠ e.id := fun hid =>
        hdistinct.1 (List.mem_map.mpr ⟨e', he', hid⟩)
      refine ⟨hdealt.trans hdealt', Function.update freed e.id x, ?_, fun id => ?_⟩
      · rw [List.flatMap_cons]
        congr 1
        · simp only [BreakpointStore.unbinding, Function.update_self]
        · refine List.flatMap_congr fun e' he' => ?_
          simp only [BreakpointStore.unbinding, BindingTable.handleOf, hget, if_neg (hother he'),
            Function.update_of_ne (hother he'), hdealt.store]
      · rw [hget', hget]
        by_cases hid : id = e.id
        · rw [if_neg (hid ▸ hdistinct.1), if_pos hid, hid]
          simp
        · simp [hid]

theorem KeptBy.putBackOne (st : StoreId) (hst : st.index < v.stores.size)
    (hdistinct : (v.store st).Distinct) (hdeaf : hooks B.session (v.store st) = [])
    (a : BreakEventId × Nat) :
    B.Notes (do
      let (y, as) := (← Act.store st).restore a.1 a.2
      Act.setStore st y
      st.announceAll h as) c v fun _ v' rs =>
        v' = v.putStore st ((v.store st).takenBack [a]) ∧ rs = (v.store st).restoring st [a] := by
  have hput (x : BreakpointStore Listener) : (v.putStore st x).store st = x := by
    rw [store_putStore, if_pos ⟨rfl, hst⟩]
  refine Notes.store ?_
  rw [BreakpointStore.restore_eq hdistinct]
  refine Notes.setStore ((kept.announceAll st _ (by rw [hput]; exact hdeaf)).mono ?_)
  rintro _ v' rs ⟨rfl, rfl⟩
  refine ⟨rfl, ?_⟩
  rw [hput]
  simp only [BreakpointStore.restoring, List.flatMap_cons, List.flatMap_nil, List.append_nil,
    List.flatMap_map]
  rfl

theorem KeptBy.putBack (st : StoreId) (hst : st.index < v.stores.size)
    (hdistinct : (v.store st).Distinct) (hdeaf : hooks B.session (v.store st) = [])
    (adjusted : List (BreakEventId × Nat)) :
    B.Notes (adjusted.forM fun (id, line) => do
      let (y, as) := (← Act.store st).restore id line
      Act.setStore st y
      st.announceAll h as) c v fun _ v' rs =>
        v' = v.putStore st ((v.store st).takenBack adjusted) ∧
          rs = (v.store st).restoring st adjusted := by
  induction adjusted generalizing v with
  | nil =>
      refine Notes.pure ⟨?_, rfl⟩
      rw [BreakpointStore.takenBack_nil, putStore_self]
  | cons a rest ih =>
      refine (kept.putBackOne st hst hdistinct hdeaf a).bind ?_
      rintro _ v' rs ⟨rfl, rfl⟩
      have hput : (v.putStore st ((v.store st).takenBack [a])).store st =
          (v.store st).takenBack [a] := by
        rw [store_putStore, if_pos ⟨rfl, hst⟩]
      have hrest := ih (v := v.putStore st ((v.store st).takenBack [a]))
        (by simpa [putStore] using hst)
        (by rw [hput]; exact BreakpointStore.distinct_takenBack hdistinct [a])
        (by rw [hput]; exact hdeaf)
      rw [hput] at hrest
      refine hrest.mono ?_
      rintro _ v'' rs ⟨rfl, rfl⟩
      rw [putStore_putStore, BreakpointStore.takenBack_cons, BreakpointStore.restoring_takenBack,
        ← BreakpointStore.restoring_cons]
      exact ⟨rfl, rfl⟩

theorem KeptBy.resetAdjusted (st : StoreId) (hdistinct : (v.store st).Distinct)
    (hdeaf : hooks B.session (v.store st) = []) : B.Notes (st.resetAdjusted h) c v fun _ v' rs =>
      v' = v.putStore st (v.store st).restored ∧
        rs = (v.store st).restoring st (v.store st).adjusted := by
  refine Notes.store (Notes.setStore ?_)
  by_cases hst : st.index < v.stores.size
  · have hput (x : BreakpointStore Listener) : (v.putStore st x).store st = x := by
      rw [store_putStore, if_pos ⟨rfl, hst⟩]
    refine (kept.putBack st (by simpa [putStore] using hst) (by rw [hput]; exact hdistinct)
      (by rw [hput]; exact hdeaf) _).mono ?_
    rintro _ v' rs ⟨rfl, rfl⟩
    rw [hput, putStore_putStore]
    exact ⟨rfl, rfl⟩
  · rw [store_of_size_le v (Nat.le_of_not_lt hst)]
    exact Notes.pure ⟨rfl, rfl⟩

theorem KeptBy.release (st : StoreId) (l : ListenerId) (hdistinct : (v.store st).Distinct)
    (hdeaf : hooks B.session ((v.store st).unsubscribe l) = []) :
    B.Notes (B.session.release h st (some l)) c v fun _ v' rs => ∃ v₁ freed, Dealt v v₁ ∧
      v' = v₁.putStore st ((v.store st).unsubscribe l).restored ∧
      rs = (v.store st).events.flatMap ((v.store st).unbinding st v.bindings freed) ++
        ((v.store st).unsubscribe l).restoring st (v.store st).adjusted ∧
      ∀ id, v₁.bindings.get? id = if id ∈ (v.store st).events.map (·.id) then
        (v.bindings.get? id).filter (·.outlives (freed id)) else v.bindings.get? id := by
  refine Notes.store ?_
  have hes : ∀ e ∈ (v.store st).events, (v.store st).get? e.id = some e := fun e he =>
    BreakpointStore.get?_of_mem hdistinct he
  refine (kept.unbindAll st hes hdistinct).bind ?_
  rintro _ v₁ rs ⟨hdealt, freed, rfl, hget⟩
  refine Notes.bind (P := fun _ v₂ rs =>
    v₂ = v₁.putStore st ((v.store st).unsubscribe l) ∧ rs = []) ?_ ?_
  · refine (Notes.still (Ledger.Leads.unsubscribe st l) fun _ => rfl).mono ?_
    rintro _ v₂ rs ⟨rfl, rfl⟩
    rw [hdealt.store]
    exact ⟨rfl, rfl⟩
  · rintro _ v₂ rs ⟨rfl, rfl⟩
    have hput : (v₁.putStore st ((v.store st).unsubscribe l)).store st =
        (v.store st).unsubscribe l := by
      rw [store_putStore_of_empty, if_pos rfl]
      intro hle
      rw [hdealt.stores] at hle
      exact unsubscribe_of_size_le v hle l
    refine (kept.resetAdjusted st (by rw [hput]; exact hdistinct)
      (by rw [hput]; exact hdeaf)).mono ?_
    rintro _ v₃ rs ⟨rfl, rfl⟩
    rw [hput, putStore_putStore]
    exact ⟨v₁, freed, hdealt, rfl, rfl, hget⟩

structure Parted (freed : BreakEventId → Except EngineError Unit) (v v' : Standing)
    (rs : List Remark) : Prop where
  session : v'.session =
    { v.session with store := none, subscription := none, bindings := v'.session.bindings }
  size : v'.stores.size = v.stores.size
  stores : ∀ st, v'.store st = v.session.left v.store st
  remarks : rs = v.session.releasing v.store freed
  records : ∀ id, v'.bindings.get? id = if id ∈ (v.session.attachedEvents v.store).map (·.id) then
    (v.bindings.get? id).filter (·.outlives (freed id)) else v.bindings.get? id

theorem KeptBy.part (sound : Sound B.session v) {old : StoreId}
    (hold : v.session.store = some old) :
    B.Notes (B.session.release h old v.session.subscription) c v.detached fun _ v' rs =>
      ∃ freed, Parted freed v v' rs := by
  obtain ⟨l, hl⟩ := Option.isSome_iff_exists.mp (sound.subscribed (by simp [hold]))
  have hleaving (y : BreakpointStore Listener) : v.session.leaving y = y.unsubscribe l := by
    simp only [Session.leaving, hl]
  have hdeaf : hooks B.session ((v.store old).unsubscribe l) = [] := by
    by_cases hlt : old.index < v.stores.size
    · rw [hooks_unsubscribe, sound.attached old ⟨hold, hlt⟩, hl]
      simp
    · rw [unsubscribe_of_size_le v (Nat.le_of_not_lt hlt)]
      rfl
  rw [hl]
  refine (kept.release (v := v.detached) old l (sound.unique old) hdeaf).mono ?_
  rintro _ v' rs ⟨v₁, freed, hdealt, rfl, rfl, hget⟩
  refine ⟨freed, ?_, ?_, fun st => ?_, ?_, fun id => ?_⟩
  · change v₁.session = _
    rw [hdealt.session]
    rfl
  · simp only [putStore, Array.size_setIfInBounds, hdealt.stores]
    rfl
  · rw [store_putStore_of_empty, hdealt.store]
    · simp only [Session.left, hold, hleaving, Option.some.injEq]
      by_cases hst : old = st
      · subst hst
        rw [if_pos rfl, if_pos rfl]
        rfl
      · rw [if_neg (Ne.symm hst), if_neg hst]
        rfl
    · intro hle
      rw [hdealt.stores] at hle
      change ((v.store old).unsubscribe l).restored = {}
      rw [unsubscribe_of_size_le v hle]
      rfl
  · simp only [Session.releasing, hold, hleaving]
    rfl
  · simp only [Session.attachedEvents, hold]
    exact hget id

omit kept in
theorem Parted.of_none (hnone : v.session.store = none)
    (freed : BreakEventId → Except EngineError Unit) : Parted freed v v.detached [] where
  session := rfl
  size := rfl
  stores := fun st => by
    simp only [Session.left, hnone]
    rfl
  remarks := by simp only [Session.releasing, hnone]
  records := fun id => by simp [Session.attachedEvents, hnone, detached, Standing.bindings]

end Logbook

end DebugSession
