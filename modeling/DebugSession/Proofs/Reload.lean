import DebugSession.Proofs.Monitor
import DebugSession.Proofs.Provenance

namespace DebugSession

namespace BindingRecord

variable (directory file : String) (r : BindingRecord)

def awaits : Bool :=
  (r.status == .notBound || r.status == .bindError) && SessionId.isIn directory file r

def goesWith : Bool := r.status == .bound && SessionId.isIn directory file r

end BindingRecord

structure Retrial where
  record : BindingRecord
  answer : Except EngineError Binding

namespace Retrial

def exchange (y : Retrial) : Exchange := ⟨.insert y.record.breakEvent, y.answer⟩

def outcome (y : Retrial) : BindingRecord := .ofAnswer y.record.breakEvent y.answer

theorem outcome_id (y : Retrial) : y.outcome.id = y.record.id := by
  rw [BindingRecord.id, outcome, BindingRecord.ofAnswer_breakEvent]
  rfl

end Retrial

theorem Keyed.filter_notMem_cons {α κ : Type} [DecidableEq κ] (key : α → κ) (xs : List α) (k : κ)
    (ks : List κ) : (xs.filter (key · != k)).filter (fun x => key x ∉ ks) =
      xs.filter (fun x => key x ∉ k :: ks) := by
  rw [List.filter_filter]
  refine List.filter_congr fun x _ => ?_
  by_cases hx : key x = k <;> simp [hx]

namespace BindingTable

def retried (t : BindingTable) (ys : List Retrial) : BindingTable :=
  ys.foldl (fun t y => t.insert y.outcome) t

def forgetting (t : BindingTable) (rs : List BindingRecord) : BindingTable :=
  rs.foldl (fun t r => t.remove r.id) t

variable {t : BindingTable}

theorem openEdits_retried (t : BindingTable) (ys : List Retrial) :
    (t.retried ys).openEdits = t.openEdits := by
  induction ys generalizing t with
  | nil => rfl
  | cons y rest ih => exact (ih _).trans (insert_openEdits t y.outcome)

theorem openEdits_forgetting (t : BindingTable) (rs : List BindingRecord) :
    (t.forgetting rs).openEdits = t.openEdits := by
  induction rs generalizing t with
  | nil => rfl
  | cons r rest ih => exact (ih _).trans (remove_openEdits t r.id)

theorem records_retried (t : BindingTable) {ys : List Retrial}
    (hdistinct : (ys.map (·.record.id)).Nodup) : (t.retried ys).records =
      t.records.filter (fun r => r.id ∉ ys.map (·.record.id)) ++ ys.map (·.outcome) := by
  induction ys generalizing t with
  | nil => simp [retried]
  | cons y rest ih =>
      rw [List.map_cons, List.nodup_cons] at hdistinct
      have hrest := ih (t.insert y.outcome) hdistinct.2
      have hkept : [y.outcome].filter (fun r => r.id ∉ rest.map (·.record.id)) = [y.outcome] := by
        refine List.filter_eq_self.mpr fun r hr => ?_
        rw [List.mem_singleton.mp hr, y.outcome_id]
        exact decide_eq_true hdistinct.1
      rw [insert_records, List.filter_append, hkept, y.outcome_id,
        Keyed.filter_notMem_cons BindingRecord.id, List.append_assoc] at hrest
      exact hrest

theorem records_forgetting (t : BindingTable) (rs : List BindingRecord) :
    (t.forgetting rs).records = t.records.filter (fun r => r.id ∉ rs.map (·.id)) := by
  induction rs generalizing t with
  | nil => simp [forgetting]
  | cons r rest ih =>
      refine (ih (t.remove r.id)).trans ?_
      rw [remove_records, Keyed.filter_notMem_cons BindingRecord.id]
      rfl

/-- What is left out are the entries of the record that is removed. -/
theorem Indexed.owners_remove (ht : t.Indexed) (id : BreakEventId) :
    (t.remove id).owners = t.owners.filter (·.2 != id) := by
  simp only [remove]
  cases hr : t.get? id with
  | none =>
      refine (List.filter_eq_self.mpr fun o ho => ?_).symm
      obtain ⟨r, hget, -⟩ := ht.backed o ho
      refine bne_iff_ne.mpr fun h => ?_
      rw [h, hr] at hget
      cases hget
  | some r =>
      refine List.filter_congr fun o ho => ?_
      obtain rfl := id_of_get? hr
      by_cases hid : o.2 = r.id
      · obtain ⟨r', hget, hhandle⟩ := ht.backed o ho
        rw [hid, hr] at hget
        cases hget
        simp [hid, hhandle]
      · rw [beq_eq_false_iff_ne.mpr hid, Bool.and_false]
        exact (bne_iff_ne.mpr hid).symm

theorem Indexed.owners_forgetting (ht : t.Indexed) (rs : List BindingRecord) :
    (t.forgetting rs).owners = t.owners.filter (fun o => o.2 ∉ rs.map (·.id)) := by
  induction rs generalizing t with
  | nil => simp [forgetting]
  | cons r rest ih =>
      refine (ih (ht.apply (.remove r.id))).trans ?_
      change (t.remove r.id).owners.filter _ = _
      rw [ht.owners_remove, Keyed.filter_notMem_cons Prod.snd]
      rfl

/-- Where events are told apart, it is the same to look for a record or for its event. -/
theorem Distinct.mem_filter_ids (hdistinct : t.Distinct) {r : BindingRecord} (hr : r ∈ t.records)
    (p : BindingRecord → Bool) : r.id ∈ (t.records.filter p).map (·.id) ↔ p r = true := by
  constructor
  · intro hmem
    obtain ⟨r', hr', hid⟩ := List.mem_map.mp hmem
    obtain ⟨hr', hp⟩ := List.mem_filter.mp hr'
    rwa [← List.inj_on_of_nodup_map hdistinct hr' hr hid]
  · exact fun hp => List.mem_map.mpr ⟨r, List.mem_filter.mpr ⟨hr, hp⟩, rfl⟩

theorem Distinct.filter_ids (hdistinct : t.Distinct) (p : BindingRecord → Bool) :
    t.records.filter (fun r => r.id ∉ (t.records.filter p).map (·.id)) =
      t.records.filter (!p ·) := by
  refine List.filter_congr fun r hr => ?_
  simp only [hdistinct.mem_filter_ids hr]
  cases p r <;> rfl

end BindingTable

def Observation.news? : Observation → Option (CallbackId × StoreId × Announcement)
  | told k st a _ => some (k, st, a)
  | _ => none

namespace Desk

variable (d : Desk) (e : BreakEvent) (answer : Except EngineError Binding)

theorem exchanges_ofBinding : (d.ofBinding e answer).filterMap Observation.exchange? = [] := by
  cases answer with
  | ok b => rfl
  | error err =>
      simp [ofBinding, logged, offered, List.filterMap_map, Function.comp_def,
        Observation.exchange?]

theorem news_ofBinding : (d.ofBinding e answer).filterMap Observation.news? = [] := by
  cases answer with
  | ok b => rfl
  | error err =>
      simp [ofBinding, logged, offered, List.filterMap_map, Function.comp_def, Observation.news?]

theorem not_mem_ofBinding {k : CallbackId} {st : StoreId} {a : Announcement} {x : Session} :
    .told k st a x ∉ d.ofBinding e answer := fun hi => by
  have hnews : some (k, st, a) = none :=
    List.filterMap_eq_nil_iff.mp (d.news_ofBinding e answer) _ hi
  cases hnews

end Desk

namespace Session

variable (x : Session) (stores : StoreId → BreakpointStore Listener)

def round (id : BreakEventId) : List (CallbackId × StoreId × Announcement) :=
  x.store.toList.flatMap fun st => ((stores st).get? id).toList.flatMap fun e =>
    (stores st).outside.map (·, st, ⟨.statusChanged, e⟩)

def retrying (d : Desk) (x : Session) : List Retrial → List Observation
  | [] => []
  | y :: rest =>
    let x' := { x with bindings := x.bindings.insert y.outcome }
    .asked y.exchange :: (d.ofBinding y.record.breakEvent y.answer ++
      (if y.answer.isOk then x'.tidings stores y.record.id else []) ++ retrying d x' rest)

def forgetting (x : Session) : List BindingRecord → List Observation
  | [] => []
  | r :: rest =>
    let x' := { x with bindings := x.bindings.remove r.id }
    x'.tidings stores r.id ++ forgetting x' rest

variable {x}

theorem mem_tidings {id : BreakEventId} {i : Observation} (hi : i ∈ x.tidings stores id) :
    ∃ k st a, i = .told k st a x ∧ a.event.id = id := by
  obtain ⟨st, -, hi⟩ := List.mem_flatMap.mp hi
  obtain ⟨e, he, hi⟩ := List.mem_flatMap.mp hi
  obtain ⟨k, -, rfl⟩ := List.mem_map.mp hi
  exact ⟨k, st, _, rfl, BreakpointStore.id_of_get? (Option.mem_toList.mp he)⟩

theorem exchanges_tidings (id : BreakEventId) :
    (x.tidings stores id).filterMap Observation.exchange? = [] := by
  refine List.filterMap_eq_nil_iff.mpr fun i hi => ?_
  obtain ⟨k, st, a, rfl, -⟩ := mem_tidings stores hi
  rfl

theorem news_tidings (id : BreakEventId) :
    (x.tidings stores id).filterMap Observation.news? = x.round stores id := by
  simp only [tidings, round, List.filterMap_flatMap, BreakpointStore.tidings, List.filterMap_map]
  refine List.flatMap_congr fun st _ => List.flatMap_congr fun e _ => ?_
  exact congrFun List.filterMap_eq_map' _

theorem exchanges_retrying (d : Desk) (x : Session) (ys : List Retrial) :
    (retrying stores d x ys).filterMap Observation.exchange? = ys.map (·.exchange) := by
  induction ys generalizing x with
  | nil => rfl
  | cons y rest ih =>
      have hreport :
          (d.ofBinding y.record.breakEvent y.answer).filterMap Observation.exchange? = [] :=
        d.exchanges_ofBinding _ _
      have htold (x' : Session) : (if y.answer.isOk then x'.tidings stores y.record.id
          else []).filterMap Observation.exchange? = [] := by
        split
        · exact exchanges_tidings stores _
        · rfl
      simp only [retrying, List.filterMap_cons, Observation.exchange?, List.filterMap_append,
        hreport, htold, ih, List.nil_append, List.map_cons]

theorem news_retrying (d : Desk) (x : Session) (ys : List Retrial) :
    (retrying stores d x ys).filterMap Observation.news? =
      (ys.filter (·.answer.isOk)).flatMap fun y => x.round stores y.record.id := by
  induction ys generalizing x with
  | nil => rfl
  | cons y rest ih =>
      have hreport : (d.ofBinding y.record.breakEvent y.answer).filterMap Observation.news? = [] :=
        d.news_ofBinding _ _
      have hround (t : BindingTable) (id : BreakEventId) :
          ({ x with bindings := t } : Session).round stores id = x.round stores id := rfl
      simp only [retrying, List.filterMap_cons, Observation.news?, List.filterMap_append, hreport,
        ih, List.nil_append]
      cases hok : y.answer.isOk with
      | true =>
          simp only [if_true, news_tidings, hround, List.filter_cons, hok, List.flatMap_cons]
      | false => simp [hround, hok]

/-- The news of a record comes when that is there. -/
theorem mem_retrying {d : Desk} {x : Session} {ys : List Retrial} {k : CallbackId} {st : StoreId}
    {a : Announcement} {x' : Session} (hi : .told k st a x' ∈ retrying stores d x ys) :
    x' = { x with bindings := x'.bindings } ∧
      ∃ y ∈ ys, a.event.id = y.record.id ∧ x'.bindings.get? y.record.id = some y.outcome := by
  induction ys generalizing x with
  | nil => cases hi
  | cons y rest ih =>
      simp only [retrying, List.mem_cons, List.mem_append, reduceCtorEq, false_or] at hi
      rcases hi with (hreport | htold) | hrest
      · exact absurd hreport (d.not_mem_ofBinding _ _)
      · split at htold
        · obtain ⟨_, _, _, heq, hid⟩ := mem_tidings stores htold
          cases heq
          refine ⟨rfl, y, List.mem_cons_self, hid, ?_⟩
          rw [BindingTable.get?_insert, y.outcome_id, if_pos rfl]
        · cases htold
      · obtain ⟨hx', y', hy', hid, hget⟩ := ih hrest
        exact ⟨hx', y', List.mem_cons_of_mem y hy', hid, hget⟩

theorem news_forgetting (x : Session) (rs : List BindingRecord) :
    (forgetting stores x rs).filterMap Observation.news? =
      rs.flatMap fun r => x.round stores r.id := by
  induction rs generalizing x with
  | nil => rfl
  | cons r rest ih =>
      simp only [forgetting, List.filterMap_append, news_tidings, ih, List.flatMap_cons]
      rfl

/-- The news of a record comes when that is gone, and nothing else does. -/
theorem mem_forgetting {x : Session} {rs : List BindingRecord} {i : Observation}
    (hi : i ∈ forgetting stores x rs) : ∃ k st a x', i = .told k st a x' ∧
      x' = { x with bindings := x'.bindings } ∧ x'.bindings.get? a.event.id = none := by
  induction rs generalizing x with
  | nil => cases hi
  | cons r rest ih =>
      rcases List.mem_append.mp hi with htold | hrest
      · obtain ⟨k, st, a, rfl, hid⟩ := mem_tidings stores htold
        refine ⟨k, st, a, _, rfl, rfl, ?_⟩
        rw [hid]
        exact (BindingTable.get?_remove _ _ _).trans (if_pos rfl)
      · obtain ⟨k, st, a, x', rfl, hx', hget⟩ := ih hrest
        exact ⟨k, st, a, x', rfl, hx', hget⟩

end Session

structure Reloaded (directory file : String) (stores : StoreId → BreakpointStore Listener)
    (x x' : Session) (ys : List Retrial) (is : List Observation) : Prop where
  session : x' = { x with bindings := x'.bindings }
  openEdits : x'.bindings.openEdits = x.bindings.openEdits
  retried : ys.map (·.record) = x.bindings.records.filter (·.awaits directory file)
  asked : is.filterMap Observation.exchange? = ys.map (·.exchange)
  records : x'.bindings.records =
    x.bindings.records.filter (!·.awaits directory file) ++ ys.map (·.outcome)
  told : is.filterMap Observation.news? =
    (ys.filter (·.answer.isOk)).flatMap fun y => x.round stores y.record.id

structure Unloaded (directory file : String) (stores : StoreId → BreakpointStore Listener)
    (x x' : Session) (is : List Observation) : Prop where
  session : x' = { x with bindings := x'.bindings }
  openEdits : x'.bindings.openEdits = x.bindings.openEdits
  records : x'.bindings.records = x.bindings.records.filter (!·.goesWith directory file)
  owners : x'.bindings.owners = x.bindings.owners.filter fun o =>
    o.2 ∉ (x.bindings.records.filter (·.goesWith directory file)).map (·.id)
  told : is.filterMap Observation.news? =
    (x.bindings.records.filter (·.goesWith directory file)).flatMap fun r => x.round stores r.id
  gone : ∀ i ∈ is, ∃ k st a y, i = .told k st a y ∧ y.bindings.get? a.event.id = none

namespace Monitor

open Act Standing

variable {σ : Type} {M : Monitor σ} {h : Host σ} {R : Array (OutputRouter CallbackId)} {c : Scope}
variable {v : Standing}

variable (kept : M.KeptBy h)
include kept

theorem KeptBy.retry (hc : c.isOf M.session = true) (rs : List BindingRecord) :
    M.Notes R (rs.forM fun r => do
      if ← M.session.addBreakEvent h r.breakEvent then M.session.announceStatus h r.id) c v
      fun _ v' is => ∃ ys : List Retrial, ys.map (·.record) = rs ∧ v'.stores = v.stores ∧
        v'.session = { v.session with bindings := v.bindings.retried ys } ∧
        is = Session.retrying v.store (v.session.desk R) v.session ys := by
  induction rs generalizing v with
  | nil => exact Notes.pure ⟨[], rfl, rfl, rfl, rfl⟩
  | cons r rest ih =>
      refine Notes.bind (P := fun _ v₁ is => ∃ y : Retrial, y.record = r ∧ v₁.stores = v.stores ∧
        v₁.session = { v.session with bindings := v.bindings.insert y.outcome } ∧
        is = .asked y.exchange :: ((v.session.desk R).ofBinding y.record.breakEvent y.answer ++
          if y.answer.isOk then v₁.session.tidings v.store y.record.id else [])) ?_ ?_
      · refine (kept.addBreakEvent hc r.breakEvent).bind ?_
        rintro _ v₁ is ⟨answer, rfl, rfl, rfl⟩
        cases answer with
        | error err => exact Notes.pure ⟨⟨r, .error err⟩, rfl, rfl, rfl, rfl⟩
        | ok b =>
            refine (kept.announcesStatus r.id).mono ?_
            rintro _ v₂ is ⟨rfl, rfl⟩
            exact ⟨⟨r, .ok b⟩, rfl, rfl, rfl, rfl⟩
      · rintro _ v₁ is ⟨y, rfl, hstores, hsession, rfl⟩
        refine ih.mono ?_
        rintro _ v₂ is ⟨ys, rfl, hstores', hsession', rfl⟩
        refine ⟨y :: ys, rfl, hstores'.trans hstores, ?_, ?_⟩
        · rw [hsession', Standing.bindings, hsession]
          rfl
        · have hstore : v₁.store = v.store := by
            funext st
            rw [Standing.store, hstores]
            rfl
          rw [hstore, hsession]
          rfl

theorem KeptBy.forget (st : Option StoreId) (hst : v.session.store = st) (rs : List BindingRecord) :
    M.Notes R (rs.forM fun r => do
      M.session.modifyBindings (·.remove r.id)
      if let some st := st then st.announceStatus h r.id) c v
      fun _ v' is => v'.stores = v.stores ∧
        v'.session = { v.session with bindings := v.bindings.forgetting rs } ∧
        is = Session.forgetting v.store v.session rs := by
  induction rs generalizing v with
  | nil => exact Notes.pure ⟨rfl, rfl, rfl⟩
  | cons r rest ih =>
      let v₁ := v.rebind (v.bindings.remove r.id)
      refine Notes.bind (P := fun _ v' is => v' = v₁ ∧ is = v₁.session.tidings v.store r.id) ?_ ?_
      · refine Notes.modifyBindings ?_
        have hst₁ : v₁.session.store = st := hst
        cases st with
        | none =>
            refine Notes.pure ⟨rfl, ?_⟩
            rw [Session.tidings, hst₁]
            rfl
        | some st =>
            refine (kept.announceStatus st r.id).mono ?_
            rintro _ v' is ⟨rfl, rfl⟩
            refine ⟨rfl, ?_⟩
            rw [Session.tidings, hst₁, Option.toList_some, List.flatMap_singleton]
            rfl
      · rintro _ _ _ ⟨rfl, rfl⟩
        refine (ih (v := v₁) hst).mono ?_
        rintro _ v₂ is ⟨hstores, hsession, rfl⟩
        exact ⟨hstores, hsession, rfl⟩

theorem KeptBy.reload (hc : c.isOf M.session = true) (hretry : v.session.config.autoRetry = true)
    (file : String) : M.Notes R (M.session.fileLoaded h file) c v fun _ v' is =>
      ∃ ys : List Retrial, ys.map (·.record) = v.bindings.records.filter (·.awaits v.directory file) ∧
        v'.stores = v.stores ∧
        v'.session = { v.session with bindings := v.bindings.retried ys } ∧
        is = Session.retrying v.store (v.session.desk R) v.session ys := by
  refine Notes.session ?_
  rw [hretry]
  exact Notes.get fun w hw => hw.directory ▸ kept.retry hc _

theorem KeptBy.unload (hretry : v.session.config.autoRetry = true) (file : String) :
    M.Notes R (M.session.fileUnloaded h file) c v fun _ v' is =>
      v'.stores = v.stores ∧
      v'.session = { v.session with
        bindings := v.bindings.forgetting
          (v.bindings.records.filter (·.goesWith v.directory file)) } ∧
      is = Session.forgetting v.store v.session
        (v.bindings.records.filter (·.goesWith v.directory file)) := by
  refine Notes.session ?_
  rw [hretry]
  exact Notes.get fun w hw => hw.directory ▸ kept.forget v.session.store rfl _

omit kept in
theorem Reloaded.of_retried {directory file : String} {stores : StoreId → BreakpointStore Listener}
    {x : Session} (hdistinct : x.bindings.Distinct) (d : Desk) {ys : List Retrial}
    (hys : ys.map (·.record) = x.bindings.records.filter (·.awaits directory file)) :
    Reloaded directory file stores x { x with bindings := x.bindings.retried ys } ys
      (Session.retrying stores d x ys) where
  session := rfl
  openEdits := BindingTable.openEdits_retried _ _
  retried := hys
  asked := Session.exchanges_retrying stores d x ys
  records := by
    have hids : ys.map (·.record.id) = (x.bindings.records.filter (·.awaits directory file)).map
        (·.id) := by rw [← hys, List.map_map]; rfl
    change (x.bindings.retried ys).records = _
    rw [BindingTable.records_retried, hids, hdistinct.filter_ids]
    rw [hids]
    exact Keyed.nodup_filter _ hdistinct _
  told := Session.news_retrying stores d x ys

omit kept in
theorem Unloaded.of_forgotten {directory file : String}
    {stores : StoreId → BreakpointStore Listener} {x : Session} (hx : x.bindings.Indexed) :
    Unloaded directory file stores x
      { x with
        bindings := x.bindings.forgetting (x.bindings.records.filter (·.goesWith directory file)) }
      (Session.forgetting stores x (x.bindings.records.filter (·.goesWith directory file))) where
  session := rfl
  openEdits := BindingTable.openEdits_forgetting _ _
  records := (BindingTable.records_forgetting _ _).trans (hx.distinct.filter_ids _)
  owners := hx.owners_forgetting _
  told := Session.news_forgetting stores x _
  gone := fun i hi => by
    obtain ⟨k, st, a, y, rfl, -, hget⟩ := Session.mem_forgetting stores hi
    exact ⟨k, st, a, y, rfl, hget⟩

/-- Loading and unloading a file concerns just the breakpoints in it that wait for it, or are bound
in it, one after another in the order of the table, and nothing if the session is not to retry. -/
theorem reloads_exactly {w : World σ} {x : Session} (hx : w.sessions[M.session.index]? = some x)
    {past : List TableEdit} {opened : List Thread}
    (htable : x.bindings = { BindingTable.ofEdits past with openEdits := opened })
    (hlive : w.isLive M.session c = true) (file : String) :
    (x.config.autoRetry = false →
      run (Operation.perform h M.session (.fileLoaded file)) c w = (.ok (), w) ∧
      run (Operation.perform h M.session (.fileUnloaded file)) c w = (.ok (), w)) ∧
    (x.config.autoRetry = true →
      (∃ w' ys is, run (Operation.perform h M.session (.fileLoaded file)) c w = (.ok (), w') ∧
        M.items w'.host = M.items w.host ++ is ∧ w'.stores = w.stores ∧
        Reloaded w.directory file w.store x (w'.session M.session) ys is) ∧
      ∃ w' is, run (Operation.perform h M.session (.fileUnloaded file)) c w = (.ok (), w') ∧
        M.items w'.host = M.items w.host ++ is ∧ w'.stores = w.stores ∧
        Unloaded w.directory file w.store x (w'.session M.session) is) ∧
    ∀ r : BindingRecord, r.breakEvent.file = none →
      r.awaits w.directory file = false ∧ r.goesWith w.directory file = false := by
  have hindexed : x.bindings.Indexed := by
    obtain ⟨hdistinct, hhandles, hbacked⟩ := BindingTable.indexed_ofEdits past
    rw [htable]
    exact ⟨hdistinct, hhandles, hbacked⟩
  let v : Standing := ⟨x, w.stores, w.directory, M.ledger.entries w.host⟩
  have hw : M.ledger.Shows w v := ⟨hx, rfl, rfl, rfl⟩
  have hsession : w.session M.session = x := hw.world_session
  have hlive' : v.session.livesIn M.session c = true := by
    rw [← hlive, World.isLive, hsession]
    rfl
  refine ⟨fun hretry => ?_, fun hretry => ⟨?_, ?_⟩, fun r hr => ?_⟩
  · constructor
    · refine (M.session.run_entering_of_live _ hlive).trans ?_
      change run (M.session.fileLoaded h file) _ w = _
      rw [SessionId.fileLoaded, SessionId.run_session_bind, hsession, hretry]
      rfl
    · refine (M.session.run_entering_of_live _ hlive).trans ?_
      change run (M.session.fileUnloaded h file) _ w = _
      rw [SessionId.fileUnloaded, SessionId.run_session_bind, hsession, hretry]
      rfl
  · have hnotes : M.Notes w.routers (Operation.perform h M.session (.fileLoaded file)) c v _ :=
      Notes.entering hlive' fun c' hc => kept.reload hc hretry file
    obtain ⟨_, w', v', is, hrun, hw', -, his, ys, hys, hstores, hsession', rfl⟩ := hnotes w hw rfl
    refine ⟨w', ys, _, hrun, his, hw'.stores.trans hstores, ?_⟩
    rw [hw'.world_session, hsession']
    exact Reloaded.of_retried hindexed.distinct _ hys
  · have hnotes : M.Notes w.routers (Operation.perform h M.session (.fileUnloaded file)) c v _ :=
      Notes.entering hlive' fun c' _ => kept.unload hretry file
    obtain ⟨_, w', v', is, hrun, hw', -, his, hstores, hsession', rfl⟩ := hnotes w hw rfl
    refine ⟨w', _, hrun, his, hw'.stores.trans hstores, ?_⟩
    rw [hw'.world_session, hsession']
    exact Unloaded.of_forgotten hindexed
  · have hout : SessionId.isIn w.directory file r = false := by
      rw [SessionId.isIn, hr]
      rfl
    exact ⟨by rw [BindingRecord.awaits, hout, Bool.and_false],
      by rw [BindingRecord.goesWith, hout, Bool.and_false]⟩

end Monitor

namespace Scripted

open Act

def stock : List TableEdit :=
  [.insert { breakEvent := breakpoint 1 10 },
    .insert { breakEvent := breakpoint 2 20, handle := some ⟨7⟩, status := .bound },
    .insert (.failed (.breakpoint ⟨3⟩ "/src/bar.cs" 30) "no such file"),
    .insert { breakEvent := breakpoint 4 40, handle := some ⟨7⟩, status := .bound },
    .insert (.failed (.catchpoint ⟨5⟩ "System.Exception") "no such type"),
    .insert (.failed (breakpoint 6 60) "no code there")]

def stocked : World Monitored :=
  { host := (default, [])
    sessions := #[{ Session.new { autoRetry := true } ⟨0⟩ with
      store := some ⟨0⟩
      bindings := .ofEdits stock }]
    routers := #[{}]
    stores := #[{
      events := [breakpoint 1 10, breakpoint 2 20, breakpoint 6 60]
      listeners := [(⟨0⟩, .session self), (⟨1⟩, .external ⟨3⟩)] }] }

def stockedAfter (o : Operation) : World Monitored :=
  (run (Operation.perform (monitored reluctant) self o) ⟨.caller 0, [], []⟩ stocked).2

end Scripted

open Act Scripted in
/-- The first event is refused once more, and the sixth is bound with the engine's second handle. -/
theorem Monitor.reloads_exactly_by_script :
    (∃ w' ys is, run (Operation.perform (monitored reluctant) self (.fileLoaded "/src/foo.cs"))
        ⟨.caller 0, [], []⟩ stocked = (.ok (), w') ∧
      monitor.items w'.host = monitor.items stocked.host ++ is ∧ w'.stores = stocked.stores ∧
      Reloaded stocked.directory "/src/foo.cs" stocked.store (stocked.session self)
        (w'.session self) ys is) ∧
    (∃ w' is, run (Operation.perform (monitored reluctant) self (.fileUnloaded "/src/foo.cs"))
        ⟨.caller 0, [], []⟩ stocked = (.ok (), w') ∧
      monitor.items w'.host = monitor.items stocked.host ++ is ∧ w'.stores = stocked.stores ∧
      Unloaded stocked.directory "/src/foo.cs" stocked.store (stocked.session self)
        (w'.session self) is) ∧
    ((stockedAfter (.fileLoaded "/src/foo.cs")).session self).bindings.records.map
        (fun r => (r.id.raw, r.status)) =
      [(2, .bound), (3, .bindError), (4, .bound), (5, .bindError), (1, .bindError), (6, .bound)] ∧
    ((stockedAfter (.fileUnloaded "/src/foo.cs")).session self).bindings.records.map (·.id.raw) =
      [1, 3, 5, 6] ∧
    (stocked.session self).bindings.owners = [(⟨7⟩, ⟨4⟩)] ∧
    ((stockedAfter (.fileUnloaded "/src/foo.cs")).session self).bindings.owners = [] := by
  have hlive : stocked.isLive self ⟨.caller 0, [], []⟩ = true := by decide +kernel
  have htable : (stocked.session self).bindings =
      { BindingTable.ofEdits stock with openEdits := [] } := rfl
  obtain ⟨hloaded, hunloaded⟩ :=
    (reloads_exactly (monitor_kept reluctant) rfl htable hlive "/src/foo.cs").2.1 rfl
  exact ⟨hloaded, hunloaded, by decide +kernel, by decide +kernel, by decide +kernel,
    by decide +kernel⟩

end DebugSession
