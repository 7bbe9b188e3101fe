import DebugSession.Proofs.Conduct
import DebugSession.Proofs.Parting
import DebugSession.Proofs.Scripted

namespace DebugSession

def Session.duties (x : Session) (stores : StoreId → BreakpointStore Listener) : List BreakEvent :=
  if x.lifecycle.started then x.attachedEvents stores else []

/-- What becomes of a session that attaches a store in place of another, or none, and of all stores,
and what is heard. The engine answers to removals as `freed` says, to insertions as `taken`. -/
structure Swap (s : SessionId) (new : Option StoreId)
    (freed : BreakEventId → Except EngineError Unit)
    (taken : BreakEventId → Except EngineError Binding) (x x' : Session)
    (stores stores' : StoreId → BreakpointStore Listener) (rs : List Remark) : Prop where
  session : x' =
    { x with
      store := new
      ownsStore := false
      subscription := x'.subscription
      bindings := x'.bindings }
  remarks : rs = x.releasing stores freed ++
    (x'.duties stores').map fun e => .asked ⟨.insert e, taken e.id⟩
  records : ∀ id, x'.bindings.get? id =
    (((x'.duties stores').find? (·.id == id)).map fun e => BindingRecord.ofAnswer e (taken id)).or
      (if id ∈ (x.attachedEvents stores).map (·.id) then
        (x.bindings.get? id).filter (·.outlives (freed id)) else x.bindings.get? id)
  events : ∀ st, (stores' st).events = if x.store = some st then
    (stores st).events.map (·.takenBack (stores st).adjusted) else (stores st).events
  adjusted : ∀ st, (stores' st).adjusted = if x.store = some st then [] else (stores st).adjusted
  hooks : ∀ st, (Standing.hooks s (stores' st)).length = if new = some st then 1 else 0
  others : ∀ st, ((stores st).listeners.map (·.1)).Nodup →
    (stores' st).listeners.filter (·.2 != .session s) =
      (stores st).listeners.filter (·.2 != .session s)

namespace Standing

variable {s : SessionId} {v v' : Standing}

theorem get?_bound (e : BreakEvent) (m : Mood) (v : Standing) (id : BreakEventId) :
    (v.bound e m).bindings.get? id =
      if id = e.id then some (.ofAnswer e (m (.insert e))) else v.bindings.get? id := by
  change (v.bindings.insert _).get? id = _
  rw [BindingTable.get?_insert, BindingRecord.id, BindingRecord.ofAnswer_breakEvent]

/-- The binding of events asks for an insertion of each. -/
theorem BoundAll.answered {es : List BreakEvent} (hbound : BoundAll es v v')
    (hdistinct : (es.map (·.id)).Nodup) : ∃ taken : BreakEventId → Except EngineError Binding,
      v'.exchanges = v.exchanges ++ es.map (fun e => ⟨.insert e, taken e.id⟩) ∧
      ∀ id, v'.bindings.get? id = ((es.find? (·.id == id)).map fun e =>
        BindingRecord.ofAnswer e (taken id)).or (v.bindings.get? id) := by
  simp only [BoundAll] at hbound
  induction hbound with
  | nil v => exact ⟨fun _ => .error .notRunning, (List.append_nil _).symm, fun _ => rfl⟩
  | @cons e rest v v' v'' hx hrest ih =>
      obtain ⟨m, rfl⟩ := hx
      rw [List.map_cons, List.nodup_cons] at hdistinct
      obtain ⟨taken, hexchanges, hget⟩ := ih hdistinct.2
      refine ⟨Function.update taken e.id (m (.insert e)), ?_, fun id => ?_⟩
      · have hothers : rest.map (fun e' => (⟨.insert e', taken e'.id⟩ : Exchange)) =
            rest.map fun e' => ⟨.insert e', Function.update taken e.id (m (.insert e)) e'.id⟩ := by
          refine List.map_congr_left fun e' he' => ?_
          have hid : e'.id ≠ e.id := fun hid => hdistinct.1 (List.mem_map.mpr ⟨e', he', hid⟩)
          rw [Function.update_of_ne hid]
        rw [hexchanges, hothers, List.map_cons, Function.update_self]
        exact List.append_assoc v.exchanges [_] _
      · rw [hget, get?_bound]
        by_cases hid : id = e.id
        · have hnone : rest.find? (·.id == id) = none := by
            refine List.find?_eq_none.mpr fun e' he' heq => hdistinct.1 ?_
            exact List.mem_map.mpr ⟨e', he', (eq_of_beq heq).trans hid⟩
          rw [hnone]
          simp [hid]
        · simp [hid, Ne.symm hid]

theorem Hooked.count (hv : Hooked s v) (st : StoreId) : (hooks s (v.store st)).length =
    if v.session.store = some st ∧ st.index < v.stores.size then 1 else 0 := by
  split
  · rename_i hst
    obtain ⟨l, hl⟩ := Option.isSome_iff_exists.mp (hv.subscribed (by rw [hst.1]; rfl))
    rw [hv.attached st hst, hl]
    rfl
  · rename_i hst
    rw [hv.others st hst]
    rfl

end Standing

namespace Logbook

open Act Standing

variable {σ : Type} {B : Logbook σ} {h : Host σ} {c : Scope} {v : Standing}

variable (kept : B.KeptBy h)
include kept

theorem KeptBy.bindEvents (st : StoreId) (hdistinct : (v.store st).Distinct) :
    B.Notes (B.session.bindEvents h st) c v fun _ v' rs => Dealt v v' ∧
      ∃ taken : BreakEventId → Except EngineError Binding,
        rs = (v.store st).events.map (fun e => .asked ⟨.insert e, taken e.id⟩) ∧
        ∀ id, v'.bindings.get? id = (((v.store st).get? id).map fun e =>
          BindingRecord.ofAnswer e (taken id)).or (v.bindings.get? id) := by
  refine (Notes.of_leads (kept.quiet.bindEvents st) (kept.grown.bindEvents B.session st)).mono ?_
  rintro _ v' rs ⟨hbound, xs, hxs, rfl⟩
  obtain ⟨taken, hexchanges, hget⟩ := hbound.answered hdistinct
  obtain rfl := List.append_cancel_left (hxs.symm.trans hexchanges)
  exact ⟨BoundAll.dealt hbound, taken, by rw [List.map_map]; rfl, hget⟩

structure TakenUp (s : SessionId) (new : Option StoreId)
    (taken : BreakEventId → Except EngineError Binding) (v v' : Standing) (rs : List Remark) :
    Prop where
  session : v'.session =
    { v.session with
      store := new
      ownsStore := false
      subscription := v'.session.subscription
      bindings := v'.session.bindings }
  size : v'.stores.size = v.stores.size
  stores : ∀ st, v'.store st = v.store st ∨ v'.store st = ((v.store st).subscribe (.session s)).2
  remarks : rs = (v'.session.duties v'.store).map fun e => .asked ⟨.insert e, taken e.id⟩
  records : ∀ id, v'.bindings.get? id = (((v'.session.duties v'.store).find? (·.id == id)).map
    fun e => BindingRecord.ofAnswer e (taken id)).or (v.bindings.get? id)

omit kept in
/-- Whether or not something was bound, the session subscribes last. -/
theorem TakenUp.subscribed {s : SessionId} {st : StoreId} {v₁ : Standing}
    {taken : BreakEventId → Except EngineError Binding} {rs : List Remark}
    (hdealt : Dealt (v.pointedAt (some st)) v₁) {es : List BreakEvent}
    (hes : es = if v.started then (v.store st).events else [])
    (hrs : rs = es.map fun e => .asked ⟨.insert e, taken e.id⟩)
    (hget : ∀ id, v₁.bindings.get? id = ((es.find? (·.id == id)).map
      fun e => BindingRecord.ofAnswer e (taken id)).or (v.bindings.get? id)) :
    TakenUp s (some st) taken v (v₁.subscribed s st) rs := by
  have hstores (st' : StoreId) : (v₁.subscribed s st).store st' = v.store st' ∨
      (v₁.subscribed s st).store st' = ((v.store st').subscribe (.session s)).2 := by
    rw [store_subscribed, hdealt.store, hdealt.store]
    split
    · rename_i hst
      exact .inr (by rw [hst.1]; rfl)
    · exact .inl rfl
  have hsession : (v₁.subscribed s st).session =
      { v₁.session with subscription := (v₁.subscribed s st).session.subscription } := rfl
  have hduties : (v₁.subscribed s st).session.duties (v₁.subscribed s st).store = es := by
    have hevents : ((v₁.subscribed s st).store st).events = (v.store st).events := by
      rcases hstores st with h | h
      · rw [h]
      · rw [h]
        rfl
    simp only [Session.duties, Session.attachedEvents]
    rw [hsession, hdealt.session]
    simp only [Standing.pointedAt, hevents]
    exact hes.symm
  refine ⟨?_, ?_, hstores, by rw [hduties]; exact hrs, by rw [hduties]; exact hget⟩
  · refine hsession.trans ?_
    rw [hdealt.session]
    rfl
  · simp only [Standing.subscribed, putStore, Array.size_setIfInBounds, hdealt.stores]
    rfl

theorem KeptBy.pointAt (new : Option StoreId) (hdistinct : ∀ st, (v.store st).Distinct) :
    B.Notes (B.session.pointAt h new) c v fun _ v' rs =>
      ∃ taken, TakenUp B.session new taken v v' rs := by
  refine Notes.modifySession ?_
  cases new with
  | none =>
      have hnothing : (v.pointedAt none).session.duties v.store = [] := ite_self []
      refine Notes.pure ⟨fun _ => .error .notRunning, rfl, rfl, fun _ => .inl rfl, ?_, fun id => ?_⟩
      · change [] = ((v.pointedAt none).session.duties v.store).map _
        rw [hnothing]
        rfl
      · change _ = ((((v.pointedAt none).session.duties v.store).find? _).map _).or _
        rw [hnothing]
        rfl
  | some st =>
      have hsubscribe (v₁ : Standing) : B.Notes (do
          let l ← st.subscribe (.session B.session)
          Act.modifySession B.session ({ · with subscription := some l })) c v₁ fun _ v' rs =>
          v' = v₁.subscribed B.session st ∧ rs = [] := by
        refine (Notes.still (Ledger.Leads.subscribe st) fun _ => rfl).bind ?_
        rintro l v₂ rs ⟨⟨rfl, rfl⟩, rfl⟩
        refine (Notes.still (Ledger.Leads.modifySession _) fun _ => rfl).mono ?_
        rintro _ v₃ rs ⟨rfl, rfl⟩
        exact ⟨rfl, rfl⟩
      refine (Notes.still Ledger.Leads.isStarted fun _ => rfl).bind ?_
      rintro started v₁ rs ⟨⟨hstarted, rfl⟩, rfl⟩
      have hes : (if started then (v.store st).events else []) =
          if v.started then (v.store st).events else [] := by rw [hstarted]
      cases started with
      | true =>
          have hbind := kept.bindEvents (c := c) (v := v.pointedAt (some st)) st (hdistinct st)
          apply hbind.bind
          rintro _ v₁ rs ⟨hdealt, taken, rfl, hget⟩
          refine (hsubscribe v₁).mono ?_
          rintro _ v₂ rs ⟨rfl, rfl⟩
          exact ⟨taken, TakenUp.subscribed hdealt hes (List.append_nil _) hget⟩
      | false =>
          refine (hsubscribe _).mono ?_
          rintro _ v₂ rs ⟨rfl, rfl⟩
          exact ⟨fun _ => .error .notRunning,
            TakenUp.subscribed (Dealt.refl _) hes rfl fun _ => rfl⟩

omit kept in
theorem Parted.swap {s : SessionId} {new : Option StoreId} {v₁ v' : Standing}
    {freed : BreakEventId → Except EngineError Unit}
    {taken : BreakEventId → Except EngineError Binding} {rs rs' : List Remark}
    (hparted : Parted freed v v₁ rs) (htaken : TakenUp s new taken v₁ v' rs')
    (hv : Hooked s v) (hv' : Hooked s v') (hnew : ∀ st, new = some st → st.index < v.stores.size) :
    Swap s new freed taken v.session v'.session v.store v'.store (rs ++ rs') where
  session := by rw [htaken.session, hparted.session]
  remarks := by rw [hparted.remarks, htaken.remarks]
  records := fun id => by
    rw [← hparted.records]
    exact htaken.records id
  events := fun st => by
    rw [← v.session.events_left, ← hparted.stores]
    rcases htaken.stores st with h | h
    · rw [h]
    · rw [h]
      rfl
  adjusted := fun st => by
    rw [← v.session.adjusted_left, ← hparted.stores]
    rcases htaken.stores st with h | h
    · rw [h]
    · rw [h]
      rfl
  hooks := fun st => by
    have hstore : v'.session.store = new := by rw [htaken.session]
    rw [hv'.count, hstore, htaken.size, hparted.size]
    by_cases hst : new = some st
    · rw [if_pos hst, if_pos ⟨hst, hnew st hst⟩]
    · rw [if_neg hst, if_neg fun h => hst h.1]
  others := fun st hnumbered => by
    rw [← hv.others_left hnumbered, ← hparted.stores]
    rcases htaken.stores st with h | h
    · rw [h]
    · rw [h]
      simp [BreakpointStore.subscribe]

theorem KeptBy.setStore (sound : Sound B.session v) {new : Option StoreId}
    (hnew : ∀ st, new = some st → st.index < v.stores.size) :
    B.Notes (B.session.setStore h new) c v fun _ v' rs => ∃ freed taken,
      Swap B.session new freed taken v.session v'.session v.store v'.store rs := by
  have hphases : B.Notes (B.session.setStore h new) c v fun _ v' rs =>
      ∃ freed v₁ rs₁ taken rs₂, Parted freed v v₁ rs₁ ∧ TakenUp B.session new taken v₁ v' rs₂ ∧
        rs = rs₁ ++ rs₂ := by
    refine Notes.keeping fun c' => Notes.locked fun c'' => Notes.session (Notes.modifySession ?_)
    have hpoint {freed : BreakEventId → Except EngineError Unit} {v₁ : Standing} {rs₁ : List Remark}
        (hparted : Parted freed v v₁ rs₁) :
        B.Notes (B.session.pointAt h new) c'' v₁ fun _ v' rs => ∃ freed v₁ rs₁' taken rs₂,
          Parted freed v v₁ rs₁' ∧ TakenUp B.session new taken v₁ v' rs₂ ∧
            rs₁ ++ rs = rs₁' ++ rs₂ := by
      have hdistinct (st : StoreId) : (v₁.store st).Distinct := by
        rw [hparted.stores]
        exact Session.distinct_left (sound.unique st)
      refine (kept.pointAt new hdistinct).mono ?_
      rintro _ v' rs ⟨taken, htaken⟩
      exact ⟨freed, v₁, rs₁, taken, rs, hparted, htaken, rfl⟩
    cases hstore : v.session.store with
    | none => exact hpoint (Parted.of_none hstore fun _ => .ok ())
    | some old =>
        refine (kept.part sound hstore).bind ?_
        rintro _ v₁ rs₁ ⟨freed, hparted⟩
        exact hpoint hparted
  -- The phases do not say that the session ends up sound; what is known of swaps already does.
  refine (hphases.and (kept.quiet.setStore sound.wired new)).mono ?_
  rintro _ v' rs ⟨⟨freed, v₁, rs₁, taken, rs₂, hparted, htaken, rfl⟩, hswapped⟩
  exact ⟨freed, taken,
    hparted.swap htaken sound.toHooked (sound.swapped hswapped).toHooked hnew⟩

end Logbook

namespace World

variable {σ : Type}

/-- A session listens once to the store that it is attached to, and to no other. -/
def ListensOnce (w : World σ) (s : SessionId) : Prop :=
  ∀ st, (Standing.hooks s (w.store st)).length =
    if (w.session s).store = some st ∧ st.index < w.stores.size then 1 else 0

structure Apart (s : SessionId) (w w' : World σ) : Prop where
  session : w'.sessions[s.index]? = w.sessions[s.index]?
  attached : ∀ st, (w.session s).store = some st →
    (st.index < w'.stores.size ↔ st.index < w.stores.size)
  hooks : ∀ st, Standing.hooks s (w'.store st) = Standing.hooks s (w.store st)
  distinct : (∀ st, (w.store st).Distinct) → ∀ st, (w'.store st).Distinct

end World

structure Session.Setting (m : Session → Session) : Prop where
  held : ∀ x, (m x).held = x.held := by intro; rfl
  lifecycle : ∀ x, (m x).lifecycle = x.lifecycle := by intro; rfl
  store : ∀ x, (m x).store = x.store := by intro; rfl
  subscription : ∀ x, (m x).subscription = x.subscription := by intro; rfl
  bindings : ∀ x, (m x).bindings = x.bindings := by intro; rfl

namespace World

variable {σ : Type} {h : Host σ} {s : SessionId} {w : World σ}

/-- The worlds of a session since it was opened. Between its turns users set what they like of it,
and others do as they please. -/
inductive InUse (h : Host σ) (s : SessionId) : World σ → Prop
  | opened {w : World σ} {config : SessionConfig} (hopened : w.Opened s config) : InUse h s w
  | turn {w : World σ} (hw : InUse h s w) (turn : Turn) : InUse h s (turn.after h s w)
  | set {w : World σ} (hw : InUse h s w) {m : Session → Session} (hm : Session.Setting m) :
      InUse h s (w.withSession s m)
  | apart {w w' : World σ} (hw : InUse h s w) (hapart : w.Apart s w') : InUse h s w'

theorem InUse.turns (hw : w.InUse h s) (turns : List Turn) :
    (Turn.afterAll h s w turns).InUse h s := by
  induction turns generalizing w with
  | nil => exact hw
  | cons turn rest ih => exact ih (hw.turn turn)

end World

theorem Standing.Sound.set {s : SessionId} {v : Standing} (hv : Sound s v) {m : Session → Session}
    (hm : Session.Setting m) : Sound s { v with session := m v.session } where
  attached := fun st hst => by
    rw [hm.subscription]
    exact hv.attached st ⟨hm.store v.session ▸ hst.1, hst.2⟩
  others := fun st hst => hv.others st fun h => hst ⟨(hm.store v.session).trans h.1, h.2⟩
  subscribed := by
    rw [hm.store, hm.subscription]
    exact hv.subscribed
  held := (hm.held v.session).trans hv.held
  idle := (congrArg BindingTable.openEdits (hm.bindings v.session)).trans hv.idle
  distinct := by
    rw [Standing.bindings, hm.bindings]
    exact hv.distinct
  unique := hv.unique

namespace Ledger

variable {σ : Type} {L : Ledger σ} {h : Host σ} {w w' : World σ} {v : Standing}

theorem Shows.listensOnce (hw : L.Shows w v) (hv : Standing.Hooked L.session v) :
    w.ListensOnce L.session := by
  intro st
  rw [hw.world_store, hw.world_session, hw.stores]
  exact hv.count st

theorem Shows.apart (hw : L.Shows w v) (hv : Standing.Sound L.session v)
    (hapart : w.Apart L.session w') : ∃ v', L.Shows w' v' ∧ Standing.Sound L.session v' := by
  have hattached {st : StoreId} (hst : v.session.store = some st) :
      st.index < w'.stores.size ↔ st.index < v.stores.size := by
    rw [← hw.stores]
    exact hapart.attached st (hw.world_session ▸ hst)
  have hhooks (st : StoreId) :
      Standing.hooks L.session (w'.store st) = Standing.hooks L.session (v.store st) := by
    rw [hapart.hooks, hw.world_store]
  have hunique (st : StoreId) : (w.store st).Distinct := by
    rw [hw.world_store]
    exact hv.unique st
  refine ⟨⟨v.session, w'.stores, w'.directory, L.entries w'.host⟩,
    ⟨hapart.session.trans hw.session, rfl, rfl, rfl⟩,
    ⟨fun st hst => ?_, fun st hst => ?_, hv.subscribed⟩, hv.held, hv.idle, hv.distinct,
    hapart.distinct hunique⟩
  · exact (hhooks st).trans (hv.attached st ⟨hst.1, (hattached hst.1).mp hst.2⟩)
  · exact (hhooks st).trans (hv.others st fun h => hst ⟨h.1, (hattached h.1).mpr h.2⟩)

/-- Whatever went before, a session is sound. -/
theorem Quiet.inUse (quiet : L.Quiet h) (hw : w.InUse h L.session) :
    ∃ v, L.Shows w v ∧ Standing.Sound L.session v := by
  induction hw with
  | opened hopened =>
      obtain ⟨v, output, hv, -⟩ := L.knows_of_opened hopened
      exact ⟨v, hv.seen, hv.sound⟩
  | turn hw turn ih =>
      obtain ⟨v, hw, hv⟩ := ih
      obtain ⟨v', hw', hturn⟩ := quiet.turn hw hv turn
      exact ⟨v', hw', hv.turn hturn⟩
  | @set w hw m hm ih =>
      obtain ⟨v, hw, hv⟩ := ih
      exact ⟨_, hw.withSession m, hv.set hm⟩
  | apart hw hapart ih =>
      obtain ⟨v, hw, hv⟩ := ih
      exact hw.apart hv hapart

/-- An edit of a store that the session is not attached to does not reach its engine. -/
theorem Shows.unasked (quiet : L.Quiet h) (hw : L.Shows w v)
    (hv : Standing.Sound L.session v) {turn : Turn} {st : StoreId} {inPlace : Bool}
    (hturn : turn.edits = some (st, inPlace)) (hst : (w.session L.session).store ≠ some st) :
    L.entries (turn.after h L.session w).host = L.entries w.host := by
  obtain ⟨v', hw', heffect⟩ := quiet.turn hw hv turn
  cases turn with
  | work | choose m hm => cases hturn
  | perform t o =>
      have hdeaf : Standing.hooks L.session (v.store st) = [] :=
        hv.others st fun hattached => hst (hw.world_session ▸ hattached.1)
      obtain ⟨-, hexchanges⟩ := (Standing.Effect.revisions hturn heffect).unheard hdeaf
      rw [hw'.exchanges, hexchanges, hw.exchanges]

end Ledger

namespace Logbook

open Act

variable {σ : Type} {B : Logbook σ} {h : Host σ} {w : World σ}

/-- However a session came by its store, it listens to no other, and edits of others do not concern
its engine. When another store takes its place, the events of the first are unbound and the moved
ones put back, and then those of the other are bound. -/
theorem swaps_stores (kept : B.KeptBy h) (hw : w.InUse h B.session) :
    w.ListensOnce B.session ∧
    (∀ (turn : Turn) (st : StoreId) (inPlace : Bool), turn.edits = some (st, inPlace) →
      (w.session B.session).store ≠ some st →
      B.ledger.entries (turn.after h B.session w).host = B.ledger.entries w.host) ∧
    ∀ c new, (∀ st, new = some st → st.index < w.stores.size) → ∃ w' freed taken rs,
      run (B.session.setStore h new) c w = (.ok (), w') ∧
      B.remarks w'.host = B.remarks w.host ++ rs ∧
      Swap B.session new freed taken (w.session B.session) (w'.session B.session) w.store w'.store
        rs := by
  obtain ⟨v, hw, sound⟩ := kept.quiet.inUse hw
  refine ⟨hw.listensOnce sound.toHooked, fun turn st inPlace hturn hst =>
    hw.unasked kept.quiet sound hturn hst, fun c new hnew => ?_⟩
  rw [hw.stores] at hnew
  obtain ⟨x, w', v', rs, hrun, hw', hrs, freed, taken, hswap⟩ := kept.setStore sound hnew w hw
  refine ⟨w', freed, taken, rs, hrun, hrs, ?_⟩
  rw [hw.world_session, hw'.world_session, funext hw.world_store, funext hw'.world_store]
  exact hswap

end Logbook

def Remark.subject : Remark → EngineRequest ⊕ CallbackId × StoreId × Announcement
  | asked x => .inl x.request
  | told k st a => .inr (k, st, a)

def Contact.isHeard : Contact → Bool
  | answer _ _ | storeChanged _ _ _ => true
  | _ => false

section Calling

variable {σ : Type} (B : Logbook σ) (rest : Host σ)
  (call : (x : Contact) → (String → Act σ (Option String)) → Act σ x.Answer)
  (hanswer : ∀ t q types c w, ∃ x f, Act.run (call (.answer t q) types) c w =
    (.ok x, { w with host := f }) ∧
      B.remarks f = B.remarks w.host ++ if t = B.session then [.asked ⟨q, x⟩] else [])
  (htold : ∀ k st a types c w, ∃ f, Act.run (call (.storeChanged k st a) types) c w =
    (.ok (), { w with host := f }) ∧ B.remarks f = B.remarks w.host ++ [.told k st a])
  (hrest : ∀ x types, x.isHeard = false → ∃ y, call x types = pure y)
include hanswer htold hrest

theorem Logbook.quiet_of_calling : B.ledger.Quiet (rest.calling call) := by
  have hsilent (x : Contact) (types) (hx : x.isHeard = false) : B.ledger.Silent (call x types) := by
    obtain ⟨y, hy⟩ := hrest x types hx
    rw [hy]
    exact B.ledger.silent_pure y
  exact {
    answer := fun t q c w => by
      obtain ⟨x, f, hrun, hf⟩ := hanswer t q (fun _ => pure none) c w
      refine ⟨x, _, hrun, rfl, rfl, rfl, ?_⟩
      change (B.remarks f).filterMap _ = _
      rw [hf, List.filterMap_append]
      split <;> rfl
    storeChanged := fun k st a c w => by
      obtain ⟨f, hrun, hf⟩ := htold k st a (fun _ => pure none) c w
      refine ⟨(), _, hrun, rfl, rfl, rfl, ?_⟩
      change (B.remarks f).filterMap _ = _
      rw [hf, List.filterMap_append]
      rfl
    allowsChanges := fun t => hsilent (.allowsChanges t) _ rfl
    resolveExpression := fun t expression l ask _ =>
      hsilent (.resolveExpression t expression l) ask rfl
    observe := fun t k e => hsilent (.observe t k e) _ rfl
    vetoes := fun k st => hsilent (.vetoes k st) _ rfl
    write := fun k isError text => hsilent (.write k isError text) _ rfl
    handleFault := fun k e => hsilent (.handleFault k e) _ rfl
    trace := fun k e text => hsilent (.trace k e text) _ rfl
    customHit := fun k action e => hsilent (.customHit k action e) _ rfl
    resolveType := fun k name l => hsilent (.resolveType k name l) _ rfl
    provideEvaluator := fun k extension => hsilent (.provideEvaluator k extension) _ rfl }

/-- Logs are kept where requests and news are written down and all other calls come to nothing. -/
theorem Logbook.kept_by_calling : B.KeptBy (rest.calling call) := by
  let quietly : (x : Contact) → (String → Act σ (Option String)) → Act σ x.Answer
    | .storeChanged _ _ _, _ => pure ()
    | x, types => call x types
  have hmuted : (rest.calling call).muted = rest.calling quietly := rfl
  refine ⟨B.quiet_of_calling rest call hanswer htold hrest, ?_, fun k st a c w => ?_⟩
  · rw [hmuted]
    refine rest.calling_abides fun x types _ => ?_
    have hother (hx : x.isHeard = false) : Act.Obeys (Grown.course B).law (call x types) := by
      obtain ⟨y, hy⟩ := hrest x types hx
      rw [hy]
      exact Act.Obeys.pure y
    cases x with
    | answer t q =>
        intro c w
        obtain ⟨x, f, hrun, hf⟩ := hanswer t q types c w
        change B.Grown w (Act.run (call (.answer t q) types) c w).2
        rw [hrun]
        refine ⟨if t = B.session then [⟨q, x⟩] else [], hf.trans ?_⟩
        split <;> rfl
    | storeChanged k st a => exact Act.Obeys.pure ()
    | _ => exact hother rfl
  · obtain ⟨f, hrun, hf⟩ := htold k st a (fun _ => pure none) c w
    change B.remarks (Act.run (call (.storeChanged k st a) _) c w).2.host = _
    rw [hrun]
    exact hf

end Calling

namespace Scripted

open Act Ledger

abbrev Heard := Simulation.Memory × List Remark

def logbook : Logbook Heard := ⟨self, (·.2)⟩

def converse (script : List Exchange → Mood) :
    (x : Contact) → (String → Act Heard (Option String)) → Act Heard x.Answer
  | .answer s q, _ => do
    let past := logbook.ledger.entries (← Act.host)
    modifyHost fun x => (x.1, x.2 ++ if s = self then [.asked ⟨q, script past q⟩] else [])
    return script past q
  | .storeChanged k st a, _ => modifyHost fun x => (x.1, x.2 ++ [.told k st a])
  | .allowsChanges _, _ => return true
  | .vetoes _ _, _ | .handleFault _ _, _ | .customHit _ _ _, _ => return false
  | .resolveExpression _ _ _, _ => return .ok none
  | .resolveType _ _ _, _ | .provideEvaluator _ _, _ => return none
  | .observe _ _ _, _ | .write _ _ _, _ | .trace _ _ _, _ => return

def conversing (script : List Exchange → Mood) : Host Heard :=
  (Simulation.host default).calling (converse script)

theorem logbook_kept (script : List Exchange → Mood) : logbook.KeptBy (conversing script) :=
  logbook.kept_by_calling (Simulation.host default) (converse script)
    (fun t q _ _ w => ⟨script (logbook.ledger.entries w.host) q, _, rfl, rfl⟩)
    (fun _ _ _ _ _ _ => ⟨_, rfl, rfl⟩)
    (fun x _ hx => by cases x <;> first | exact ⟨_, rfl⟩ | cases hx)

def twoStores : World Heard :=
  { host := (default, [])
    sessions := #[Session.new {} ⟨0⟩]
    routers := #[{}]
    stores := #[
      { events := [breakpoint 1 10, breakpoint 2 20], listeners := [(⟨0⟩, .external ⟨7⟩)]
        nextListener := 1 },
      { events := [breakpoint 3 30] }] }

theorem twoStores_self : twoStores.Opened self {} where
  session := ⟨⟨0⟩, rfl⟩
  unknown := fun ⟨i⟩ l hl => by
    match i with
    | 0 =>
        rw [List.mem_singleton.mp hl]
        exact fun h => by cases h
    | 1 | _ + 2 => cases hl
  distinct := fun ⟨i⟩ => by
    match i with
    | 0 | 1 =>
        rw [BreakpointStore.Distinct]
        decide
    | _ + 2 => exact List.nodup_nil

def fussy : List Exchange → Mood := complying fun past => past.length == 3

def movedInRun : World Heard := Turn.afterAll (conversing fussy) self twoStores
  (calls [.attach (some ⟨0⟩), .started none, .adjust ⟨1⟩ 12])

def swapped : Except Panic Unit × World Heard :=
  run (self.setStore (conversing fussy) (some ⟨1⟩)) ⟨.caller 0, [], []⟩ movedInRun

end Scripted

namespace Logbook

/-- The engine does not let go of the second event. -/
theorem swapped_by_script :
    (∃ w' freed taken rs, Scripted.swapped = (.ok (), w') ∧
      w'.host.2 = Scripted.movedInRun.host.2 ++ rs ∧
      Swap Scripted.self (some ⟨1⟩) freed taken (Scripted.movedInRun.session Scripted.self)
        (w'.session Scripted.self) Scripted.movedInRun.store w'.store rs) ∧
    (Scripted.swapped.2.host.2.drop Scripted.movedInRun.host.2.length).map Remark.subject =
      [.inl (.remove ⟨0⟩),
        .inr (⟨7⟩, ⟨0⟩, ⟨.statusChanged, Scripted.breakpoint 1 12⟩),
        .inl (.remove ⟨1⟩),
        .inr (⟨7⟩, ⟨0⟩, ⟨.statusChanged, Scripted.breakpoint 2 20⟩),
        .inr (⟨7⟩, ⟨0⟩, ⟨.modified, Scripted.breakpoint 1 10⟩),
        .inl (.insert (Scripted.breakpoint 3 30))] :=
  ⟨(swaps_stores (Scripted.logbook_kept Scripted.fussy)
      ((World.InUse.opened Scripted.twoStores_self).turns _)).2.2 _ _ (by decide +kernel),
    by decide +kernel⟩

end Logbook

end DebugSession
