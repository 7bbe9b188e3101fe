import DebugSession.Proofs.Reload
import DebugSession.Proofs.Swap

namespace DebugSession

def Session.status (x : Session) (id : BreakEventId) : BindingStatus :=
  if x.lifecycle.started then ((x.bindings.get? id).map (·.status)).getD .notBound else .notBound

theorem SessionId.run_status {σ : Type} (h : Host σ) (s : SessionId) (id : BreakEventId) (c : Scope)
    (w : World σ) : Act.run (Operation.perform h s (.status id)) c w =
      (.ok ((w.session s).status id), w) := by
  change Act.run (s.breakEventStatus id) c w = _
  rw [SessionId.breakEventStatus, SessionId.run_session_bind, Session.status]
  cases (w.session s).lifecycle.started <;> rfl

def Operation.reportsStatus : Operation → Bool
  | fileLoaded _ | fileUnloaded _ | setStatus _ _ _ => true
  | _ => false

namespace BindingTable

theorem get?_retried_of_not_mem (t : BindingTable) {ys : List Retrial} {id : BreakEventId}
    (hid : id ∉ ys.map (·.record.id)) : (t.retried ys).get? id = t.get? id := by
  induction ys generalizing t with
  | nil => rfl
  | cons y rest ih =>
      rw [List.map_cons, List.mem_cons, not_or] at hid
      refine (ih _ hid.2).trans ?_
      rw [get?_insert, y.outcome_id, if_neg hid.1]

theorem get?_retried_of_mem (t : BindingTable) {ys : List Retrial}
    (hdistinct : (ys.map (·.record.id)).Nodup) {y : Retrial} (hy : y ∈ ys) :
    (t.retried ys).get? y.record.id = some y.outcome := by
  induction ys generalizing t with
  | nil => cases hy
  | cons y' rest ih =>
      rw [List.map_cons, List.nodup_cons] at hdistinct
      rcases List.mem_cons.mp hy with rfl | hy
      · refine (get?_retried_of_not_mem _ hdistinct.1).trans ?_
        rw [get?_insert, y.outcome_id, if_pos rfl]
      · exact ih _ hdistinct.2 hy

theorem get?_forgetting (t : BindingTable) (rs : List BindingRecord) (id : BreakEventId) :
    (t.forgetting rs).get? id = if id ∈ rs.map (·.id) then none else t.get? id := by
  induction rs generalizing t with
  | nil => rfl
  | cons r rest ih =>
      refine (ih (t.remove r.id)).trans ?_
      rw [get?_remove, List.map_cons]
      by_cases hid : id = r.id
      · simp [hid]
      · simp [hid]

end BindingTable

def newsOf (is : List Observation) (id : BreakEventId) :
    List (CallbackId × StoreId × Announcement) :=
  (is.filterMap Observation.news?).filter (·.2.2.event.id == id)

theorem Observation.asked_mem_iff {is : List Observation} {x : Exchange} :
    .asked x ∈ is ↔ x ∈ is.filterMap Observation.exchange? := by
  rw [List.mem_filterMap]
  constructor
  · exact fun hx => ⟨_, hx, rfl⟩
  · rintro ⟨i, hi, hx⟩
    cases i with
    | asked y => exact Option.some.inj hx ▸ hi
    | _ => cases hx

def BindingTable.Rejected (t : BindingTable) (is : List Observation) (id : BreakEventId) : Prop :=
  ∃ r err, t.get? id = some r ∧ .asked ⟨.insert r.breakEvent, .error err⟩ ∈ is

namespace Session

variable (x : Session) (stores : StoreId → BreakpointStore Listener)

theorem filter_round (id id' : BreakEventId) : (x.round stores id).filter (·.2.2.event.id == id') =
    if id = id' then x.round stores id else [] := by
  have hround {n : CallbackId × StoreId × Announcement} (hn : n ∈ x.round stores id) :
      n.2.2.event.id = id := by
    obtain ⟨st, -, hn⟩ := List.mem_flatMap.mp hn
    obtain ⟨e, he, hn⟩ := List.mem_flatMap.mp hn
    obtain ⟨k, -, rfl⟩ := List.mem_map.mp hn
    exact BreakpointStore.id_of_get? (Option.mem_toList.mp he)
  split
  · next hid =>
      refine List.filter_eq_self.mpr fun n hn => ?_
      rw [hround hn, hid, beq_self_eq_true]
  · next hid =>
      refine List.filter_eq_nil_iff.mpr fun n hn => ?_
      rwa [hround hn, beq_iff_eq]

/-- Of rounds for different events, one concerns the event. -/
theorem filter_rounds {ids : List BreakEventId} (hdistinct : ids.Nodup) (id : BreakEventId) :
    (ids.flatMap (x.round stores)).filter (·.2.2.event.id == id) =
      if id ∈ ids then x.round stores id else [] := by
  induction ids with
  | nil => rfl
  | cons id' rest ih =>
      rw [List.nodup_cons] at hdistinct
      rw [List.flatMap_cons, List.filter_append, filter_round, ih hdistinct.2]
      by_cases hid : id' = id
      · subst hid
        simp [hdistinct.1]
      · simp [hid, Ne.symm hid]

theorem round_of_mem {st : StoreId} {e : BreakEvent} (hst : x.store = some st)
    (hdistinct : (stores st).Distinct) (he : e ∈ (stores st).events) :
    x.round stores e.id = (stores st).outside.map (·, st, ⟨.statusChanged, e⟩) := by
  rw [round, hst, Option.toList_some, List.flatMap_singleton,
    BreakpointStore.get?_of_mem hdistinct he, Option.toList_some, List.flatMap_singleton]

variable (d : Desk) {ys : List Retrial} (hdistinct : (ys.map (·.record.id)).Nodup) {y : Retrial}
variable (hy : y ∈ ys)
include hdistinct hy

/-- Of an event that is tried again, news come if it is bound. -/
theorem newsOf_retrying : newsOf (retrying stores d x ys) y.record.id =
    if y.answer.isOk then x.round stores y.record.id else [] := by
  have hbound : y.record.id ∈ (ys.filter (·.answer.isOk)).map (·.record.id) ↔
      y.answer.isOk = true := by
    rw [List.mem_map]
    constructor
    · rintro ⟨y', hy', hid⟩
      obtain ⟨hy', hok⟩ := List.mem_filter.mp hy'
      rwa [← List.inj_on_of_nodup_map hdistinct hy' hy hid]
    · exact fun hok => ⟨y, List.mem_filter.mpr ⟨hy, hok⟩, rfl⟩
  have hrounds := x.filter_rounds stores (Keyed.nodup_filter _ hdistinct (·.answer.isOk)) y.record.id
  rw [List.flatMap_map] at hrounds
  rw [newsOf, news_retrying]
  simp only [hrounds, hbound]

theorem rejected_retrying (hrecord : x.bindings.get? y.record.id = some y.record) :
    x.bindings.Rejected (retrying stores d x ys) y.record.id ↔ y.answer.isOk = false := by
  have hasked (err : EngineError) : .asked ⟨.insert y.record.breakEvent, .error err⟩ ∈
      retrying stores d x ys ↔ y.answer = .error err := by
    rw [Observation.asked_mem_iff, exchanges_retrying, List.mem_map]
    constructor
    · rintro ⟨y', hy', heq⟩
      obtain ⟨hevent, hanswer⟩ : y'.record.breakEvent = y.record.breakEvent ∧
          y'.answer = .error err := by simpa [Retrial.exchange] using heq
      have hid : y'.record.id = y.record.id := congrArg BreakEvent.id hevent
      rwa [← List.inj_on_of_nodup_map hdistinct hy' hy hid]
    · exact fun hanswer => ⟨y, hy, by rw [Retrial.exchange, hanswer]⟩
  simp only [BindingTable.Rejected, hrecord, Option.some.injEq, exists_and_left, exists_eq_left',
    hasked]
  cases y.answer <;> simp [Except.isOk, Except.toBool]

end Session

/-- Of a change of status, all who listen hear once, when the session says the new one already. -/
structure Noticed (st : StoreId) (listeners : List CallbackId) (e : BreakEvent) (x' : Session)
    (is : List Observation) : Prop where
  once : newsOf is e.id = listeners.map (·, st, ⟨.statusChanged, e⟩)
  current : ∀ k st' a y, .told k st' a y ∈ is → a.event.id = e.id →
    y.status e.id = x'.status e.id

structure Unnoticed (e : BreakEvent) (x x' : Session) (is : List Observation) : Prop where
  before : x.status e.id = .notBound
  after : x'.status e.id = .bindError
  silent : newsOf is e.id = []

/-- Of all changes of status of stored events, just those are missed that come of a refusal. -/
def Watched (stores : StoreId → BreakpointStore Listener) (x x' : Session) (is : List Observation) :
    Prop :=
  ∀ st e, x.store = some st → e ∈ (stores st).events → x.status e.id ≠ x'.status e.id →
    (x.bindings.Rejected is e.id → Unnoticed e x x' is) ∧
    (¬ x.bindings.Rejected is e.id → Noticed st (stores st).outside e x' is)

namespace Watched

variable {stores : StoreId → BreakpointStore Listener} {x : Session}

theorem unchanged (is : List Observation) : Watched stores x x is :=
  fun _ _ _ _ hne => absurd rfl hne

/-- A session that has not started says the same of all events. -/
theorem of_started {x' : Session} {is : List Observation}
    (hstarted : x'.lifecycle.started = x.lifecycle.started)
    (hwatched : x.lifecycle.started = true → Watched stores x x' is) : Watched stores x x' is := by
  cases hx : x.lifecycle.started with
  | true => exact hwatched hx
  | false =>
      intro _ _ _ _ hne
      rw [hx] at hstarted
      simp [Session.status, hx, hstarted] at hne

theorem not_rejected {is : List Observation} (his : is.filterMap Observation.exchange? = [])
    (id : BreakEventId) : ¬ x.bindings.Rejected is id := by
  rintro ⟨r, err, -, hasked⟩
  cases List.filterMap_eq_nil_iff.mp his _ hasked

theorem status_of_get? (hstarted : x.lifecycle.started = true) {r : Option BindingRecord}
    {id : BreakEventId} (hr : x.bindings.get? id = r) :
    x.status id = (r.map (·.status)).getD .notBound := by
  rw [Session.status, hstarted, if_pos rfl, hr]

theorem retried (hunique : ∀ st, (stores st).Distinct) (hx : x.bindings.Distinct)
    {directory file : String} {ys : List Retrial}
    (hys : ys.map (·.record) = x.bindings.records.filter (·.awaits directory file)) (d : Desk) :
    Watched stores x { x with bindings := x.bindings.retried ys }
      (Session.retrying stores d x ys) := by
  refine of_started rfl fun hstarted st e hst he hne => ?_
  have hdistinct : (ys.map (·.record.id)).Nodup := by
    have hids := Keyed.nodup_filter _ hx (·.awaits directory file)
    rwa [← hys, List.map_map] at hids
  -- An event of another status is one that was tried again.
  have hmem : e.id ∈ ys.map (·.record.id) := by
    by_contra hmem
    refine hne ?_
    simp only [Session.status, BindingTable.get?_retried_of_not_mem _ hmem]
  obtain ⟨y, hy, hid⟩ := List.mem_map.mp hmem
  have hrecord : y.record ∈ x.bindings.records.filter (·.awaits directory file) :=
    hys ▸ List.mem_map_of_mem hy
  obtain ⟨hrecord, hawaits⟩ := List.mem_filter.mp hrecord
  have hget : x.bindings.get? e.id = some y.record := hid ▸ BindingTable.get?_of_mem hx hrecord
  have hbefore : x.status e.id = y.record.status := status_of_get? hstarted hget
  have hafter {x' : Session} (hx' : x' = { x with bindings := x'.bindings })
      (hget : x'.bindings.get? e.id = some y.outcome) : x'.status e.id = y.outcome.status := by
    refine status_of_get? ?_ hget
    rw [hx']
    exact hstarted
  have houtcome : (x.bindings.retried ys).get? e.id = some y.outcome :=
    hid ▸ BindingTable.get?_retried_of_mem _ hdistinct hy
  have hnews := x.newsOf_retrying stores d hdistinct hy
  have hrejected := x.rejected_retrying stores d hdistinct hy (hid ▸ hget)
  rw [hid] at hnews hrejected
  rw [hrejected]
  rw [hbefore, hafter rfl houtcome] at hne
  constructor
  · intro hrefused
    rw [hrefused] at hnews
    have hfailed : y.outcome.status = .bindError := by
      cases hanswer : y.answer with
      | ok b =>
          rw [hanswer] at hrefused
          cases hrefused
      | error err => rw [Retrial.outcome, hanswer]; rfl
    have hwaiting : y.record.status = .notBound ∨ y.record.status = .bindError := by
      simpa using (Bool.and_eq_true_iff.mp hawaits).1
    rw [hfailed] at hne
    exact ⟨hbefore.trans (hwaiting.resolve_right hne), (hafter rfl houtcome).trans hfailed, hnews⟩
  · intro hok
    rw [Bool.not_eq_false] at hok
    rw [hok, if_pos rfl, x.round_of_mem stores hst (hunique st) he] at hnews
    refine ⟨hnews, fun k st' a x' htold ha => ?_⟩
    obtain ⟨hx', y', hy', hid', hget'⟩ := Session.mem_retrying stores htold
    obtain rfl : y' = y :=
      List.inj_on_of_nodup_map hdistinct hy' hy (hid'.symm.trans (ha.trans hid.symm))
    rw [hid] at hget'
    rw [hafter hx' hget', hafter rfl houtcome]

theorem forgotten (hunique : ∀ st, (stores st).Distinct) (hx : x.bindings.Distinct)
    (p : BindingRecord → Bool) :
    Watched stores x { x with bindings := x.bindings.forgetting (x.bindings.records.filter p) }
      (Session.forgetting stores x (x.bindings.records.filter p)) := by
  refine of_started rfl fun hstarted st e hst he hne => ?_
  have hmem : e.id ∈ (x.bindings.records.filter p).map (·.id) := by
    by_contra hmem
    refine hne ?_
    simp only [Session.status, BindingTable.get?_forgetting, hmem, if_false]
  have hafter {x' : Session} (hx' : x' = { x with bindings := x'.bindings })
      (hget : x'.bindings.get? e.id = none) : x'.status e.id = .notBound := by
    refine status_of_get? ?_ hget
    rw [hx']
    exact hstarted
  refine ⟨fun hrejected => ?_, fun _ => ⟨?_, fun k st' a x' htold ha => ?_⟩⟩
  · obtain ⟨r, err, -, hasked⟩ := hrejected
    obtain ⟨k, st', a, x', h, -⟩ := Session.mem_forgetting stores hasked
    cases h
  · have hrounds := x.filter_rounds stores (Keyed.nodup_filter _ hx p) e.id
    rw [if_pos hmem, x.round_of_mem stores hst (hunique st) he, List.flatMap_map] at hrounds
    rw [newsOf, Session.news_forgetting]
    exact hrounds
  · obtain ⟨k', st'', a', y, heq, hy, hget⟩ := Session.mem_forgetting stores htold
    cases heq
    rw [hafter hy (ha ▸ hget), hafter rfl]
    exact (BindingTable.get?_forgetting _ _ _).trans (if_pos hmem)

/-- A new status by a handle is one for a single event. -/
theorem reported (hunique : ∀ st, (stores st).Distinct) {handle : BindingHandle}
    {id : BreakEventId} (howner : x.bindings.owner? handle = some id) (status : BindingStatus)
    (message : Option String) :
    let x' := { x with bindings := x.bindings.setStatus handle status message }
    Watched stores x x' (x'.tidings stores id) := by
  intro x'
  refine of_started rfl fun hstarted st e hst he hne => ?_
  obtain rfl : e.id = id := by
    by_contra hid
    refine hne ?_
    have hother : x'.bindings.get? e.id = x.bindings.get? e.id := by
      refine (BindingTable.get?_setStatus _ _ _ _ _).trans ?_
      cases hr : x.bindings.get? e.id with
      | none => rfl
      | some r =>
          rw [howner, Option.map_some, if_neg]
          rw [BindingTable.id_of_get? hr]
          exact fun h => hid (Option.some.inj h).symm
    rw [Session.status, Session.status, hother]
  refine ⟨fun hrejected => absurd hrejected
    (not_rejected (Session.exchanges_tidings stores e.id) e.id), fun _ => ⟨?_, ?_⟩⟩
  · rw [newsOf, Session.news_tidings, Session.filter_round, if_pos rfl]
    exact x'.round_of_mem stores hst (hunique st) he
  · intro k st' a y htold _
    obtain ⟨_, _, _, heq, -⟩ := Session.mem_tidings stores htold
    cases heq
    rfl

end Watched

namespace Monitor

open Act Standing

variable {σ : Type} {M : Monitor σ} {h : Host σ} {R : Array (OutputRouter CallbackId)} {c : Scope}
variable {v : Standing}

variable (kept : M.KeptBy h)
include kept

theorem KeptBy.setStatus (handle : BindingHandle) (status : BindingStatus)
    (message : Option String) : M.Notes R (M.session.setStatus h handle status message) c v
      fun _ v' is => v'.stores = v.stores ∧
        (v' = v ∧ is = [] ∨ ∃ id, v.bindings.owner? handle = some id ∧
          v'.session = { v.session with bindings := v.bindings.setStatus handle status message } ∧
          is = v'.session.tidings v.store id) := by
  refine Notes.bindings ?_
  cases howner : v.bindings.owner? handle with
  | none => exact Notes.pure ⟨rfl, .inl ⟨rfl, rfl⟩⟩
  | some id =>
      refine Notes.modifyBindings ((kept.announcesStatus id).mono ?_)
      rintro _ v' is ⟨rfl, rfl⟩
      exact ⟨rfl, .inr ⟨id, rfl, rfl, rfl⟩⟩

theorem KeptBy.watched (sound : Sound M.session v) {o : Operation} (ho : o.reportsStatus = true) :
    M.Notes R (o.perform h M.session) c v
      fun _ v' is => v'.stores = v.stores ∧ Watched v.store v.session v'.session is := by
  have hlive : v.session.livesIn M.session c = true := by
    simp only [Session.livesIn, sound.held, Bool.true_or]
  cases o with
  | fileLoaded file =>
      refine Notes.entering hlive fun c' hc => ?_
      cases hretry : v.session.config.autoRetry with
      | false =>
          refine Notes.session ?_
          rw [hretry]
          exact Notes.pure ⟨rfl, Watched.unchanged []⟩
      | true =>
          refine (kept.reload hc hretry file).mono ?_
          rintro _ v' is ⟨ys, hys, hstores, hsession, rfl⟩
          rw [hsession]
          exact ⟨hstores, Watched.retried sound.unique sound.distinct hys _⟩
  | fileUnloaded file =>
      refine Notes.entering hlive fun c' _ => ?_
      cases hretry : v.session.config.autoRetry with
      | false =>
          refine Notes.session ?_
          rw [hretry]
          exact Notes.pure ⟨rfl, Watched.unchanged []⟩
      | true =>
          refine (kept.unload hretry file).mono ?_
          rintro _ v' is ⟨hstores, hsession, rfl⟩
          rw [hsession]
          exact ⟨hstores, Watched.forgotten sound.unique sound.distinct _⟩
  | setStatus handle status message =>
      refine Notes.entering hlive fun c' _ => (kept.setStatus handle status message).mono ?_
      rintro _ v' is ⟨hstores, ⟨rfl, rfl⟩ | ⟨id, howner, hsession, rfl⟩⟩
      · exact ⟨rfl, Watched.unchanged []⟩
      · rw [hsession]
        exact ⟨hstores, Watched.reported sound.unique howner status message⟩
  | _ => cases ho

variable {w : World σ}

/-- When the engine reports something, and a stored event changes its status by that, all who listen
to the store hear so once, and by then the session says the new one. Just when the engine has
refused to bind the event again nobody hears of it. -/
theorem changes_heard_unless_refused (hw : w.InUse h M.session) {o : Operation}
    (ho : o.reportsStatus = true) (c : Scope) :
    (∀ w' : World σ, ∀ id, run (Operation.perform h M.session (.status id)) c w' =
      (.ok ((w'.session M.session).status id), w')) ∧
    ∃ x w' is, run (o.perform h M.session) c w = (.ok x, w') ∧
      M.items w'.host = M.items w.host ++ is ∧ w'.stores = w.stores ∧
      Watched w.store (w.session M.session) (w'.session M.session) is := by
  refine ⟨fun w' id => M.session.run_status h id c w', ?_⟩
  obtain ⟨v, hw, sound⟩ := kept.quiet.inUse hw
  obtain ⟨x, w', v', is, hrun, hw', -, his, hstores, hwatched⟩ := kept.watched sound ho w hw rfl
  refine ⟨x, w', is, hrun, his, ?_, ?_⟩
  · rw [hw'.stores, hstores, hw.stores]
  · rwa [hw.world_session, hw'.world_session, funext hw.world_store]

end Monitor

namespace Scripted

open Act

def fickle : List Exchange → Mood := complying fun past => past.length == 2

def retrying : World Monitored :=
  { host := (default, [])
    sessions := #[Session.new { autoRetry := true } ⟨0⟩]
    routers := #[{}]
    stores := #[{
      events := [breakpoint 1 10, breakpoint 2 20]
      listeners := [(⟨0⟩, .external ⟨7⟩)]
      nextListener := 1 }] }

theorem retrying_self : retrying.Opened self { autoRetry := true } where
  session := ⟨⟨0⟩, rfl⟩
  unknown := fun ⟨i⟩ l hl => by
    match i with
    | 0 =>
        rw [List.mem_singleton.mp hl]
        exact fun h => by cases h
    | _ + 1 => cases hl
  distinct := fun ⟨i⟩ => by
    match i with
    | 0 =>
        rw [BreakpointStore.Distinct]
        decide
    | _ + 1 => exact List.nodup_nil

def unlocated : World Monitored := Turn.afterAll (monitored fickle) self retrying
  (calls [.attach (some ⟨0⟩), .started none, .setStatus ⟨0⟩ .notBound none,
    .setStatus ⟨1⟩ .notBound none])

theorem unlocated_inUse : unlocated.InUse (monitored fickle) self :=
  (World.InUse.opened retrying_self).turns _

def located : World Monitored :=
  (run (Operation.perform (monitored fickle) self (.fileLoaded "/src/foo.cs")) ⟨.caller 0, [], []⟩
    unlocated).2

def heard : List Observation := located.host.2.drop unlocated.host.2.length

end Scripted

namespace Monitor

open Act Scripted

/-- The first event is refused, and the second is bound. -/
theorem changes_heard_unless_refused_by_script :
    (∃ x w' is, run (Operation.perform (monitored fickle) self (.fileLoaded "/src/foo.cs"))
        ⟨.caller 0, [], []⟩ unlocated = (.ok x, w') ∧
      monitor.items w'.host = monitor.items unlocated.host ++ is ∧
      w'.stores = unlocated.stores ∧
      Watched unlocated.store (unlocated.session self) (w'.session self) is) ∧
    (unlocated.session self).status ⟨2⟩ = .notBound ∧ (located.session self).status ⟨2⟩ = .bound ∧
    newsOf heard ⟨2⟩ = [(⟨7⟩, ⟨0⟩, ⟨.statusChanged, breakpoint 2 20⟩)] :=
  ⟨(changes_heard_unless_refused (monitor_kept fickle) unlocated_inUse rfl _).2,
    by decide +kernel, by decide +kernel, by decide +kernel⟩

/-- What is said of a stored event changes, and who listens to the store is not told. -/
theorem change_unheard_when_refused :
    unlocated.InUse (monitored fickle) self ∧ (unlocated.session self).lifecycle.started = true ∧
    (unlocated.session self).store = some ⟨0⟩ ∧ breakpoint 1 10 ∈ (unlocated.store ⟨0⟩).events ∧
    (unlocated.store ⟨0⟩).outside = [⟨7⟩] ∧
    run (Operation.perform (monitored fickle) self (.status ⟨1⟩)) ⟨.caller 0, [], []⟩ unlocated =
      (.ok .notBound, unlocated) ∧
    run (Operation.perform (monitored fickle) self (.status ⟨1⟩)) ⟨.caller 0, [], []⟩ located =
      (.ok .bindError, located) ∧
    newsOf heard ⟨1⟩ = [] := by
  have hbefore : (unlocated.session self).status ⟨1⟩ = .notBound := by decide +kernel
  have hafter : (located.session self).status ⟨1⟩ = .bindError := by decide +kernel
  rw [SessionId.run_status, SessionId.run_status, hbefore, hafter]
  exact ⟨unlocated_inUse, by decide +kernel, by decide +kernel, by decide +kernel, by decide +kernel,
    rfl, rfl, by decide +kernel⟩

end Monitor

end DebugSession
