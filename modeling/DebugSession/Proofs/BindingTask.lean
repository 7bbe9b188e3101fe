import DebugSession.Proofs.Monitor

namespace DebugSession

/-- What a session has its engine do for one break event. -/
inductive BindingTask
  | bind (e : BreakEvent)
  | unbind (id : BreakEventId)
  /-- Changes what is bound. `record` is what becomes of the event in its record. -/
  | change (e : BreakEvent) (request : BindingHandle → EngineRequest)
    (record : BreakEvent → BreakEvent)

def BindingTable.revised (t : BindingTable) (id : BreakEventId) (record : BreakEvent → BreakEvent) :
    BindingTable :=
  match (t.get? id).filter (·.handle.isSome) with
  | none => t
  | some r => t.insert { r with breakEvent := record r.breakEvent }

namespace BindingTask

def update (e : BreakEvent) : BindingTask := change e (.update · e) fun _ => e

def enable (e : BreakEvent) : BindingTask :=
  change e (.enable · e.enabled) ({ · with enabled := e.enabled })

def request? (t : BindingTable) : BindingTask → Option EngineRequest
  | bind e => some (.insert e)
  | unbind id => (t.handleOf id).map .remove
  | change e request _ => (t.handleOf e.id).map request

def settled (t : BindingTable) : BindingTask → BindingTable
  | bind _ => t
  | unbind id => t.remove id
  | change e _ record => t.revised e.id record

def refused (t : BindingTable) (err : EngineError) : BindingTask → BindingTable
  | bind e => t.insert (.failed e err.message)
  | unbind _ | change _ _ _ => t

def report (d : Desk) (t : BindingTable) (err : EngineError) : BindingTask → List Observation
  | bind e => d.ofBinding e (.error err)
  | unbind id => (t.get? id).toList.flatMap fun r => d.ofEdit r.breakEvent err
  | change e _ _ => d.ofEdit e err

end BindingTask

/-- How tasks are carried out, from one state of the bindings to another, with what is heard of it.
News of stores may come in between. -/
inductive Carried (d : Desk) :
    List BindingTask → BindingTable → BindingTable → List Observation → Prop
  | nil (t : BindingTable) : Carried d [] t t []
  | news {es : List BindingTask} {t t' : BindingTable} {is : List Observation} (k : CallbackId)
      (st : StoreId) (a : Announcement) (x : Session) (hrest : Carried d es t t' is) :
      Carried d es t t' (.told k st a x :: is)
  | idle {e : BindingTask} {es : List BindingTask} {t t' : BindingTable} {is : List Observation}
      (hnone : e.request? t = none) (hrest : Carried d es (e.settled t) t' is) :
      Carried d (e :: es) t t' is
  | bound {e : BreakEvent} {es : List BindingTask} {t t' : BindingTable} {is : List Observation}
      (b : Binding) (hrest : Carried d es (t.insert (.ofBinding e b)) t' is) :
      Carried d (.bind e :: es) t t' (.asked ⟨.insert e, .ok b⟩ :: is)
  | complied {e : BindingTask} {es : List BindingTask} {t t' : BindingTable} {is : List Observation}
      {q : EngineRequest} (hq : e.request? t = some q) (hother : ∀ e', e ≠ .bind e') (x : q.Answer)
      (hrest : Carried d es (e.settled t) t' is) :
      Carried d (e :: es) t t' (.asked ⟨q, .ok x⟩ :: is)
  | refused {e : BindingTask} {es : List BindingTask} {t t' : BindingTable} {is : List Observation}
      {q : EngineRequest} (hq : e.request? t = some q) (err : EngineError)
      (hrest : Carried d es (e.refused t err) t' is) :
      Carried d (e :: es) t t' (.asked ⟨q, .error err⟩ :: (e.report d t err ++ is))

namespace Carried

variable {d : Desk} {es es' : List BindingTask} {t t' t'' : BindingTable}
variable {is is' : List Observation}

theorem append (h : Carried d es t t' is) (h' : Carried d es' t' t'' is') :
    Carried d (es ++ es') t t'' (is ++ is') := by
  induction h with
  | nil t => exact h'
  | news k st a x _ ih => exact news k st a x (ih h')
  | idle hnone _ ih => exact idle hnone (ih h')
  | bound b _ ih => exact bound b (ih h')
  | complied hq hother x _ ih => exact complied hq hother x (ih h')
  | refused hq err _ ih =>
      have hrefused := refused hq err (ih h')
      rwa [← List.append_assoc] at hrefused

theorem tidings (x : BreakpointStore Listener) (st : StoreId) (a : Announcement) (y : Session)
    (t : BindingTable) : Carried d [] t t (x.tidings st a y) := by
  simp only [BreakpointStore.tidings]
  induction x.outside with
  | nil => exact nil t
  | cons k rest ih => exact news k st a y ih

theorem statusNews (x : BreakpointStore Listener) (st : StoreId) (id : BreakEventId) (y : Session)
    (t : BindingTable) : Carried d [] t t
      ((x.get? id).toList.flatMap fun e => x.tidings st ⟨.statusChanged, e⟩ y) := by
  cases x.get? id with
  | none => exact nil t
  | some e =>
      rw [Option.toList_some, List.flatMap_singleton]
      exact tidings x st _ y t

end Carried

def Announcement.tasks (a : Announcement) : List BindingTask :=
  match a.change with
  | .added => [.bind a.event]
  | .removed => [.unbind a.event.id]
  | .modified => [.update a.event]
  | .enableChanged => [.enable a.event]
  | .statusChanged => []

def BreakpointStore.restorations (x : BreakpointStore Listener)
    (adjusted : List (BreakEventId × Nat)) : List Announcement :=
  adjusted.flatMap fun a => (x.get? a.1).toList.map fun e => ⟨.modified, e.withLine a.2⟩

theorem BreakpointStore.restorations_takenBack (x : BreakpointStore Listener)
    (a : BreakEventId × Nat) (adjusted : List (BreakEventId × Nat)) :
    (x.takenBack [a]).restorations adjusted = x.restorations adjusted := by
  simp only [restorations, get?_takenBack]
  refine congrArg adjusted.flatMap (funext fun a' => ?_)
  cases x.get? a'.1 with
  | none => rfl
  | some e =>
      change [(⟨.modified, (e.backOn a).withLine a'.2⟩ : Announcement)] = _
      rw [BreakEvent.backOn_withLine]
      rfl

namespace Standing

def chores (s : SessionId) (st : StoreId) (as : List Announcement) (v : Standing) :
    List BindingTask :=
  if hooks s (v.store st) ≠ [] ∧ v.started = true then as.flatMap (·.tasks) else []

structure Ready (s : SessionId) (v : Standing) : Prop extends Wired s v where
  idle : v.bindings.openEdits = []

structure Runs (R : Array (OutputRouter CallbackId)) (es : List BindingTask) (v v' : Standing)
    (is : List Observation) : Prop where
  dealt : Dealt v v'
  carried : Carried (v.session.desk R) es v.bindings v'.bindings is

variable {R : Array (OutputRouter CallbackId)} {s : SessionId} {st : StoreId}
variable {v v' v'' : Standing} {es es' : List BindingTask} {is is' : List Observation}

theorem Sound.ready (hv : Sound s v) : Ready s v := ⟨hv.wired, hv.idle⟩

theorem Ready.of_dealt (hv : Ready s v) (hdealt : Dealt v v') : Ready s v' :=
  ⟨hv.toWired.of_dealt hdealt, hdealt.openEdits.trans hv.idle⟩

theorem Ready.putStore (hv : Ready s v) {x : BreakpointStore Listener}
    (hx : x.listeners = (v.store st).listeners) : Ready s (v.putStore st x) :=
  ⟨hv.toWired.putStore hx, hv.idle⟩

theorem Ready.follows (hv : Ready s v) (c : Scope) : v.session.follows s c = v.started := by
  have hediting : v.session.bindings.isEditing c.thread = false := by
    simp only [BindingTable.isEditing]
    rw [hv.idle]
    rfl
  simp only [Session.follows, Session.livesIn, hv.held, hediting, Bool.true_or, Bool.true_and,
    Bool.not_false, Bool.and_true]

theorem Dealt.chores (hdealt : Dealt v v') (as : List Announcement) :
    v'.chores s st as = v.chores s st as := by
  simp only [Standing.chores, hdealt.store, hdealt.started]

theorem chores_putStore {x : BreakpointStore Listener}
    (hx : x.listeners = (v.store st).listeners) (as : List Announcement) :
    (v.putStore st x).chores s st as = v.chores s st as := by
  simp only [chores, hooks_putStore hx]
  rfl

theorem chores_nil (v : Standing) : v.chores s st [] = [] := by
  rw [chores, List.flatMap_nil, ite_self]

theorem chores_append (v : Standing) (as as' : List Announcement) :
    v.chores s st (as ++ as') = v.chores s st as ++ v.chores s st as' := by
  simp only [chores, List.flatMap_append]
  split <;> rfl

namespace Runs

theorem refl (R : Array (OutputRouter CallbackId)) (v : Standing) : Runs R [] v v [] :=
  ⟨Dealt.refl v, Carried.nil v.bindings⟩

theorem trans (h : Runs R es v v' is) (h' : Runs R es' v' v'' is') :
    Runs R (es ++ es') v v'' (is ++ is') :=
  ⟨h.dealt.trans h'.dealt, h.carried.append (h.dealt.desk R ▸ h'.carried)⟩

theorem told (k : CallbackId) (st : StoreId) (a : Announcement) (x : Session) (v : Standing) :
    Runs R [] v v [.told k st a x] :=
  ⟨Dealt.refl v, Carried.news k st a x (Carried.nil v.bindings)⟩

/-- What is in the stores does not matter to tasks. -/
theorem putStore (h : Runs R es v v' is) (st : StoreId) (x : BreakpointStore Listener) :
    Runs R es (v.putStore st x) (v'.putStore st x) is where
  dealt := {
    stores := congrArg (·.setIfInBounds st.index x) h.dealt.stores
    directory := h.dealt.directory
    session := h.dealt.session
    openEdits := h.dealt.openEdits
    distinct := h.dealt.distinct
    grown := h.dealt.grown }
  carried := h.carried

theorem asked {q : EngineRequest} {x : Except EngineError q.Answer} {t : BindingTable}
    (hdealt : Dealt v (v.rebind t)) (hcarried : Carried (v.session.desk R) es v.bindings t is) :
    Runs R es v ((v.asked q x).rebind t) is where
  dealt := ⟨rfl, rfl, rfl, hdealt.openEdits, hdealt.distinct, List.prefix_append _ _⟩
  carried := hcarried

theorem unasked {e : BindingTask} (hnone : e.request? v.bindings = none)
    (hdealt : Dealt v (v.rebind (e.settled v.bindings))) :
    Runs R [e] v (v.rebind (e.settled v.bindings)) [] :=
  ⟨hdealt, .idle hnone (.nil _)⟩

end Runs

theorem Dealt.revised (v : Standing) (id : BreakEventId) (record : BreakEvent → BreakEvent) :
    Dealt v (v.rebind (v.bindings.revised id record)) := by
  simp only [BindingTable.revised]
  split
  · exact refl v
  · exact insert v _

end Standing

namespace Monitor

open Act Standing

variable {σ : Type} {M : Monitor σ} {h : Host σ} {R : Array (OutputRouter CallbackId)} {c : Scope}
variable {v : Standing}

variable (kept : M.KeptBy h)
include kept

theorem KeptBy.bindEvent (hc : c.isOf M.session = true) (e : BreakEvent) :
    M.Notes R (M.session.addBreakEvent h e) c v fun _ v' is => Runs R [.bind e] v v' is := by
  refine (kept.addBreakEvent hc e).mono ?_
  rintro _ v' is ⟨x, -, rfl, rfl⟩
  refine Runs.asked (Dealt.insert v _) ?_
  cases x with
  | ok b => exact .bound b (.nil _)
  | error err =>
      have hcarried := Carried.refused (d := v.session.desk R) (e := .bind e) rfl err
        (.nil ((BindingTask.bind e).refused v.bindings err))
      rwa [List.append_nil] at hcarried

/-- A task other than a binding, when the engine is asked. -/
theorem KeptBy.asks (hc : c.isOf M.session = true) {e : BindingTask} {subject : BreakEvent}
    {q : EngineRequest} {f : Except EngineError q.Answer → Act σ Unit}
    {g : BindingTable → BindingTable} (hother : ∀ e', e ≠ .bind e')
    (hok : ∀ x, f (.ok x) = M.session.modifyBindings g)
    (herror : ∀ err, f (.error err) = M.session.reportEditFailure h subject err)
    (hq : e.request? v.bindings = some q) (hsettled : e.settled v.bindings = g v.bindings)
    (hrefused : ∀ err, e.refused v.bindings err = v.bindings)
    (hreport : ∀ err, e.report (v.session.desk R) v.bindings err =
      (v.session.desk R).ofEdit subject err)
    (hdealt : Dealt v (v.rebind (e.settled v.bindings))) :
    M.Notes R (((h.engine M.session).answer q).run >>= f) c v fun _ v' is =>
      Runs R [e] v v' is := by
  refine (kept.asked q).bind ?_
  rintro x v' is ⟨rfl, rfl⟩
  cases x with
  | ok x =>
      rw [hok]
      refine (Notes.still (Ledger.Leads.modifyBindings g) (fun _ => rfl) fun _ => rfl).mono ?_
      rintro _ v' is ⟨rfl, rfl⟩
      have hbindings : g (v.asked q (.ok x)).bindings = e.settled v.bindings := hsettled.symm
      rw [hbindings]
      exact Runs.asked hdealt (.complied hq hother x (.nil _))
  | error err =>
      rw [herror]
      refine (kept.reportEditFailure hc subject err).mono ?_
      rintro _ v' is ⟨rfl, rfl⟩
      have hcarried := Carried.refused (d := v.session.desk R) hq err
        (.nil (e.refused v.bindings err))
      rw [List.append_nil, hreport, hrefused] at hcarried
      exact Runs.asked (Dealt.refl v) hcarried

theorem KeptBy.unbindEvent (hc : c.isOf M.session = true) (id : BreakEventId) :
    M.Notes R (M.session.removeBreakEvent h id) c v fun _ v' is =>
      Runs R [.unbind id] v v' is := by
  refine Notes.bindings ?_
  have hforgotten (hnone : v.bindings.handleOf id = none) :
      Runs R [.unbind id] v (v.rebind (v.bindings.remove id)) [] :=
    Runs.unasked (e := .unbind id) (by simp only [BindingTask.request?, hnone, Option.map_none])
      (Dealt.remove v id)
  cases hr : v.bindings.get? id with
  | none =>
      have hsame : v.rebind (v.bindings.remove id) = v := by
        simp only [BindingTable.remove, hr]
        rfl
      rw [hsame] at hforgotten
      exact Notes.pure (hforgotten (by simp only [BindingTable.handleOf, hr]; rfl))
  | some r =>
      obtain ⟨e, handle, status, message⟩ := r
      cases handle with
      | none =>
          refine (Notes.still (Ledger.Leads.modifyBindings _) (fun _ => rfl) fun _ => rfl).mono ?_
          rintro _ v' is ⟨rfl, rfl⟩
          exact hforgotten (by simp only [BindingTable.handleOf, hr]; rfl)
      | some handle =>
          refine kept.asks (e := .unbind id) hc (fun _ h => by cases h) (fun _ => rfl)
            (fun _ => rfl) ?_ rfl (fun _ => rfl) (fun err => ?_) (Dealt.remove v id)
          · simp only [BindingTask.request?, BindingTable.handleOf, hr]
            rfl
          · simp only [BindingTask.report, hr]
            exact List.append_nil _

theorem KeptBy.changeEvent (hc : c.isOf M.session = true) (e : BreakEvent)
    (request : BindingHandle → EngineRequest) (record : BreakEvent → BreakEvent) :
    M.Notes R (M.session.changeBreakEvent h e request record) c v fun _ v' is =>
      Runs R [.change e request record] v v' is := by
  refine Notes.bindings ?_
  have hleft (hnone : (v.bindings.get? e.id).filter (·.handle.isSome) = none)
      (hhandle : v.bindings.handleOf e.id = none) :
      Runs R [.change e request record] v v [] := by
    have hidle := Runs.unasked (R := R) (v := v) (e := .change e request record)
      (by simp only [BindingTask.request?, hhandle, Option.map_none]) (Dealt.revised v e.id record)
    have hsame : (BindingTask.change e request record).settled v.bindings = v.bindings := by
      simp only [BindingTask.settled, BindingTable.revised, hnone]
    rwa [hsame] at hidle
  cases hr : v.bindings.get? e.id with
  | none => exact Notes.pure (hleft (by rw [hr]; rfl) (by simp only [BindingTable.handleOf, hr]; rfl))
  | some r =>
      obtain ⟨e', handle, status, message⟩ := r
      cases handle with
      | none =>
          exact Notes.pure (hleft (by rw [hr]; rfl) (by simp only [BindingTable.handleOf, hr]; rfl))
      | some handle =>
          refine kept.asks (e := .change e request record) hc (fun _ h => by cases h)
            (fun _ => rfl) (fun _ => rfl) ?_ ?_ (fun _ => rfl) (fun _ => rfl)
            (Dealt.revised v e.id record)
          · simp only [BindingTask.request?, BindingTable.handleOf, hr]
            rfl
          · simp only [BindingTask.settled, BindingTable.revised, hr]
            rfl

theorem KeptBy.follow (hv : Ready M.session v) (a : Announcement) :
    M.Notes R (M.session.follow h a) c v fun _ v' is =>
      Runs R (if v.started then a.tasks else []) v v' is := by
  have hinside := c.isOf_inside M.session
  have hwhen {b : Act σ Unit} {es : List BindingTask}
      (hb : M.Notes R b (c.inside M.session) v fun _ v' is => Runs R es v v' is) :
      M.Notes R (M.session.whenStarted b) c v fun _ v' is =>
        Runs R (if v.started then es else []) v v' is := by
    have hrun (w : World σ) (hw : M.ledger.Shows w v) : run (M.session.whenStarted b) c w =
        run (if v.started then b else pure ()) (c.inside M.session) w := by
      have hlive : w.isLive M.session c = true := by
        rw [World.isLive, hw.world_session, hv.held]
        rfl
      rw [M.session.run_whenStarted, hlive, hw.world_session]
      change (if (true && v.started) = true then _ else _) = _
      cases v.started <;> rfl
    refine Notes.of_run hrun ?_
    cases v.started with
    | true => exact hb
    | false => exact Notes.pure (Runs.refl R v)
  have hunless {b : Act σ Unit} {es : List BindingTask}
      (hb : M.Notes R b (c.inside M.session) v fun _ v' is => Runs R es v v' is) :
      M.Notes R (do unless ← M.session.isAdjusting do M.session.whenStarted b) c v
        fun _ v' is => Runs R (if v.started then es else []) v v' is := by
    have hrun (w : World σ) (hw : M.ledger.Shows w v) :
        run (do unless ← M.session.isAdjusting do M.session.whenStarted b) c w =
          run (if v.started then b else pure ()) (c.inside M.session) w := by
      rw [M.session.run_unlessAdjusting, hw.world_session, hv.follows]
      cases v.started <;> rfl
    refine Notes.of_run hrun ?_
    cases v.started with
    | true => exact hb
    | false => exact Notes.pure (Runs.refl R v)
  simp only [SessionId.follow, Announcement.tasks]
  cases a.change with
  | added => exact hunless (kept.bindEvent hinside a.event).discard
  | removed => exact hunless (kept.unbindEvent hinside a.event.id)
  | modified => exact hwhen (kept.changeEvent hinside a.event _ _)
  | enableChanged => exact hwhen (kept.changeEvent hinside a.event _ _)
  | statusChanged =>
      rw [ite_self]
      exact Notes.pure (Runs.refl R v)

/-- The session listens at most once. -/
theorem KeptBy.round (hv : Ready M.session v) (st : StoreId) (a : Announcement)
    {ls : List (ListenerId × Listener)}
    (honce : (ls.filter (·.2 == .session M.session)).length ≤ 1) :
    M.Notes R (ls.forM fun (_, listener) => match listener with
        | .session t => t.follow h a
        | .external k => h.storeChanged k st a) c v fun _ v' is =>
      Runs R (if ls.filter (·.2 == .session M.session) ≠ [] ∧ v.started = true then a.tasks
        else []) v v' is := by
  induction ls generalizing v with
  | nil => exact Notes.pure (Runs.refl R v)
  | cons l rest ih =>
      obtain ⟨i, listener⟩ := l
      by_cases hself : listener = .session M.session
      · subst hself
        have hrest : rest.filter (·.2 == .session M.session) = [] := by simpa using honce
        refine (kept.follow hv a).bind ?_
        intro _ v' is hv'
        refine (ih (hv.of_dealt hv'.dealt) (by rw [hrest]; exact Nat.zero_le 1)).mono ?_
        intro _ v'' is' hv''
        rw [if_neg fun hne => hne.1 hrest] at hv''
        have hboth := hv'.trans hv''
        rw [List.append_nil] at hboth
        simpa using hboth
      · have hskip : ((i, listener) :: rest).filter (·.2 == .session M.session) =
            rest.filter (·.2 == .session M.session) :=
          List.filter_cons_of_neg (by simpa using hself)
        rw [hskip] at honce ⊢
        cases listener with
        | session t =>
            refine (kept.follow_other (fun ht => hself (congrArg Listener.session ht)) a).bind ?_
            rintro _ v' is ⟨rfl, rfl⟩
            exact ih hv honce
        | external k =>
            refine ((kept.storeChanged k st a).aside _ (fun _ => rfl) rfl).bind ?_
            rintro _ v' is ⟨rfl, rfl⟩
            refine (ih hv honce).mono ?_
            intro _ v'' is hv''
            exact (Runs.told k st a v'.session v').trans hv''

theorem KeptBy.announce (hv : Ready M.session v) (st : StoreId) (a : Announcement) :
    M.Notes R (st.announce h a) c v fun _ v' is =>
      Runs R (v.chores M.session st [a]) v v' is := by
  have honce := hv.once st
  rw [hooks, List.length_map] at honce
  refine Notes.store ((kept.round hv st a honce).mono ?_)
  intro _ v' is hv'
  simpa only [chores, hooks, ne_eq, List.map_eq_nil_iff, List.flatMap_singleton] using hv'

theorem KeptBy.announceAll (hv : Ready M.session v) (st : StoreId) (as : List Announcement) :
    M.Notes R (st.announceAll h as) c v fun _ v' is =>
      Runs R (v.chores M.session st as) v v' is := by
  induction as generalizing v with
  | nil =>
      rw [chores_nil]
      exact Notes.pure (Runs.refl R v)
  | cons a rest ih =>
      refine (kept.announce hv st a).bind ?_
      intro _ v' is hv'
      refine (ih (hv.of_dealt hv'.dealt)).mono ?_
      intro _ v'' is' hv''
      rw [hv'.dealt.chores] at hv''
      rw [← List.singleton_append, chores_append]
      exact hv'.trans hv''

theorem KeptBy.isReadOnly (st : StoreId) : M.Notes R (st.isReadOnly h) c v fun _ v' is =>
    v' = v ∧ is = [] := by
  refine Notes.of_inert (kept.quiet.isReadOnly st) ?_
  refine Mute.bind (fun _ => ⟨rfl, rfl⟩) fun x => Mute.anyM fun l => ?_
  obtain ⟨i, listener⟩ := l
  cases listener with
  | external k => exact (kept.vetoes k st).mute fun _ _ => rfl
  | session t =>
      refine Mute.entering fun c' _ => Mute.bind (fun _ => ⟨rfl, rfl⟩) fun _ => ?_
      refine Mute.ite (Mute.pure true) ?_
      change M.Mute (do return !(← (h.engine t).allowsChanges))
        { c' with locks := (t, c'.thread) :: c'.locks }
      exact ((kept.allowsChanges t).mute fun _ _ => rfl).bind fun x => Mute.pure (!x)

/-- A user's edit fails only for a veto or because there is no such event. -/
theorem KeptBy.edit (hv : Ready M.session v) (st : StoreId) (e : Edit) :
    M.Notes R (st.edit h e) c v fun r v' is =>
      match r with
      | .error err =>
        (err = .readOnly ∨ (v.store st).apply e = .error err) ∧ v' = v ∧ is = []
      | .ok as => ∃ y, (v.store st).apply e = .ok (y, as) ∧
        Runs R (v.chores M.session st as) (v.putStore st y) v' is := by
  refine (kept.isReadOnly st).bind ?_
  rintro readOnly v' is ⟨rfl, rfl⟩
  cases readOnly with
  | true => exact Notes.pure ⟨.inl rfl, rfl, rfl⟩
  | false =>
      refine Notes.store ?_
      cases happly : (v'.store st).apply e with
      | error err => exact Notes.pure ⟨.inr rfl, rfl, rfl⟩
      | ok x =>
          obtain ⟨y, as⟩ := x
          have hlisteners := BreakpointStore.listeners_apply happly
          refine Notes.setStore ((kept.announceAll (hv.putStore hlisteners) st as).bind ?_)
          intro _ v'' is hv''
          rw [chores_putStore hlisteners] at hv''
          exact Notes.pure ⟨y, rfl, by rwa [List.append_nil]⟩

/-- A move for an engine, against which no veto stands. -/
theorem KeptBy.adjustLine (hv : Ready M.session v) (st : StoreId) (id : BreakEventId)
    (line : Nat) : M.Notes R (st.adjust h id line) c v fun r v' is =>
      match (v.store st).adjust id line with
      | .error err => r = .error err ∧ v' = v ∧ is = []
      | .ok (x, a) => r = .ok () ∧
        Runs R (v.chores M.session st (a.toList.flatMap (·.announcements))) (v.putStore st x) v'
          is := by
  have hmove : M.Notes R (st.move id line) c v fun r v' is => is = [] ∧
      match (v.store st).adjust id line with
      | .error err => r = .error err ∧ v' = v
      | .ok (x, a) => r = .ok a ∧ v' = v.putStore st x := by
    refine Notes.store ?_
    cases (v.store st).adjust id line with
    | error err => exact Notes.pure ⟨rfl, rfl, rfl⟩
    | ok xa => exact Notes.setStore (Notes.pure ⟨rfl, rfl, rfl⟩)
  refine hmove.bind ?_
  rintro r v' is ⟨rfl, hr⟩
  cases hadjust : (v.store st).adjust id line with
  | error err =>
      rw [hadjust] at hr
      obtain ⟨rfl, rfl⟩ := hr
      exact Notes.pure ⟨rfl, rfl, rfl⟩
  | ok xa =>
      obtain ⟨x, a⟩ := xa
      rw [hadjust] at hr
      obtain ⟨rfl, rfl⟩ := hr
      have hlisteners := BreakpointStore.listeners_adjust hadjust
      cases a with
      | none =>
          refine Notes.pure ⟨rfl, ?_⟩
          rw [Option.toList_none, List.flatMap_nil, chores_nil]
          exact Runs.refl R _
      | some a =>
          refine (kept.announceAll (hv.putStore hlisteners) st a.announcements).bind ?_
          intro _ v'' is hv''
          rw [chores_putStore hlisteners] at hv''
          refine Notes.pure ⟨rfl, ?_⟩
          rwa [Option.toList_some, List.flatMap_singleton, List.append_nil]

theorem KeptBy.putBack (hv : Ready M.session v) (st : StoreId) (hst : st.index < v.stores.size)
    (hdistinct : (v.store st).Distinct) (adjusted : List (BreakEventId × Nat)) :
    M.Notes R (adjusted.forM fun (id, line) => do
      let (y, as) := (← Act.store st).restore id line
      Act.setStore st y
      st.announceAll h as) c v fun _ v' is =>
        Runs R (v.chores M.session st ((v.store st).restorations adjusted))
          (v.putStore st ((v.store st).takenBack adjusted)) v' is := by
  induction adjusted generalizing v with
  | nil =>
      rw [BreakpointStore.takenBack_nil, putStore_self, BreakpointStore.restorations,
        List.flatMap_nil, chores_nil]
      exact Notes.pure (Runs.refl R v)
  | cons a rest ih =>
      let x := (v.store st).takenBack [a]
      have hlisteners : x.listeners = (v.store st).listeners := rfl
      have hready : Ready M.session (v.putStore st x) := hv.putStore hlisteners
      refine Notes.bind (P := fun _ v' is =>
        Runs R (v.chores M.session st ((v.store st).restorations [a])) (v.putStore st x) v' is) ?_ ?_
      · refine Notes.store ?_
        rw [BreakpointStore.restore_eq hdistinct]
        refine Notes.setStore ((kept.announceAll hready st _).mono ?_)
        intro _ v' is hv'
        rw [chores_putStore hlisteners] at hv'
        rwa [BreakpointStore.restorations, List.flatMap_singleton]
      · intro _ v₁ is hv₁
        have hput : (v.putStore st x).store st = x := by rw [store_putStore, if_pos ⟨rfl, hst⟩]
        have hstore : v₁.store st = x := (hv₁.dealt.store st).trans hput
        have hsize : v₁.stores.size = v.stores.size := by
          rw [hv₁.dealt.stores]
          exact Array.size_setIfInBounds
        refine (ih (hready.of_dealt hv₁.dealt) (by rwa [hsize]) ?_).mono ?_
        · rw [hstore]
          exact BreakpointStore.distinct_takenBack hdistinct [a]
        · intro _ v₂ is' hv₂
          rw [hstore, hv₁.dealt.chores, chores_putStore hlisteners, BreakpointStore.takenBack_cons,
            BreakpointStore.restorations_takenBack] at hv₂
          have hfirst := hv₁.putStore st ((v.store st).takenBack (a :: rest))
          rw [putStore_putStore] at hfirst
          have hcons : (v.store st).restorations (a :: rest) =
              (v.store st).restorations [a] ++ (v.store st).restorations rest := by
            simp only [BreakpointStore.restorations, List.flatMap_cons, List.flatMap_nil,
              List.append_nil]
          rw [hcons, chores_append]
          exact hfirst.trans hv₂

theorem KeptBy.resetAdjusted (hv : Ready M.session v) (st : StoreId)
    (hdistinct : (v.store st).Distinct) : M.Notes R (st.resetAdjusted h) c v fun _ v' is =>
      Runs R (v.chores M.session st ((v.store st).restorations (v.store st).adjusted))
        (v.putStore st (v.store st).restored) v' is := by
  refine Notes.store (Notes.setStore ?_)
  by_cases hst : st.index < v.stores.size
  · let x : BreakpointStore Listener := { v.store st with adjusted := [] }
    have hlisteners : x.listeners = (v.store st).listeners := rfl
    have hput : (v.putStore st x).store st = x := by rw [store_putStore, if_pos ⟨rfl, hst⟩]
    have hready : Ready M.session (v.putStore st x) := hv.putStore hlisteners
    refine (kept.putBack hready st (by simpa [putStore] using hst) (by rw [hput]; exact hdistinct)
      _).mono ?_
    intro _ v' is hv'
    rw [hput, putStore_putStore, chores_putStore hlisteners] at hv'
    exact hv'
  · rw [store_of_size_le v (Nat.le_of_not_lt hst), BreakpointStore.restorations, List.flatMap_nil,
      chores_nil]
    exact Notes.pure (Runs.refl R (v.putStore st {}))

end Monitor

end DebugSession
