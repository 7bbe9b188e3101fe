import DebugSession.Proofs.Oblivious
import DebugSession.Proofs.Table

namespace DebugSession

/-- A change of a session that leaves alone what is hidden of it, its configuration and its history,
and does not depend on what is hidden. -/
structure Session.Inner (m : Session → Session) : Prop where
  bare : ∀ x, (m x).bare = (m x.bare).bare := by intro; rfl
  hidden : ∀ x, (m x).hidden = x.hidden := by intro; rfl
  config : ∀ x, (m x).config = x.config := by intro; rfl
  lifecycle : ∀ x, (m x).lifecycle = x.lifecycle := by intro; rfl

structure Session.Minor (m : Session → Session) : Prop extends Session.Inner m where
  processes : ∀ x, (m x).processes = x.processes := by intro; rfl

/-- A property of programs that the smallest steps of sessions and stores have, and that stays when
programs are put together. -/
structure Act.Rule (σ : Type) where
  Holds : {α : Type} → Act σ α → Prop
  pure : ∀ {α : Type} (x : α), Holds (Pure.pure x : Act σ α)
  throw : ∀ {α : Type} (p : Panic), Holds (MonadExcept.throw p : Act σ α)
  bind : ∀ {α β : Type} {a : Act σ α} {f : α → Act σ β}, Holds a → (∀ x, Holds (f x)) →
    Holds (a >>= f)
  locked : ∀ {α : Type} (s : SessionId) {a : Act σ α}, Holds a → Holds (Act.locked s a)
  keeping : ∀ {α : Type} (s : SessionId) {a : Act σ α}, Holds a → Holds (Act.keeping s a)
  editing : ∀ {α : Type} (s : SessionId) {a : Act σ α}, Holds a → Holds (s.editing a)
  isLive : ∀ s : SessionId, Holds (Act.isLive s : Act σ Bool)
  lockedElsewhere : ∀ s : SessionId, Holds (Act.lockedElsewhere s : Act σ Bool)
  isAdjusting : ∀ s : SessionId, Holds (s.isAdjusting : Act σ Bool)
  get : ∀ {β : Type} {f : World σ → Act σ β}, (∀ w, f w.bare = f w) → (∀ w, Holds (f w)) →
    Holds (MonadState.get >>= f)
  modifySession : ∀ (s : SessionId) {m : Session → Session}, Session.Minor m →
    Holds (Act.modifySession s m : Act σ Unit)
  setStore : ∀ (st : StoreId) (x : BreakpointStore Listener), Holds (Act.setStore st x : Act σ Unit)
  newStore : Holds (Act.newStore : Act σ StoreId)

structure Act.Rule.Lively {σ : Type} (R : Act.Rule σ) : Prop where
  transition : ∀ (s : SessionId) (t : Transition), R.Holds (Act.transition s t : Act σ Unit)

def Operation.isEventful : Operation → Bool
  | command _ | targetEvent _ | started _ => true
  | _ => false

def Act.Satisfies {σ α : Type} (R : Act.Rule σ) (a : Act σ α) : Prop := R.Holds a

namespace Act.Satisfies

variable {σ α β : Type} {R : Act.Rule σ} {a b : Act σ α} {f : α → Act σ β}

theorem pure (x : α) : Satisfies R (Pure.pure x : Act σ α) := R.pure x

theorem throw (p : Panic) : Satisfies R (MonadExcept.throw p : Act σ α) := R.throw p

theorem bind (ha : Satisfies R a) (hf : ∀ x, Satisfies R (f x)) : Satisfies R (a >>= f) :=
  R.bind ha hf

theorem discard (ha : Satisfies R a) : Satisfies R (discard a) := by
  change Satisfies R ((fun _ => ()) <$> a)
  rw [map_eq_pure_bind]
  exact ha.bind fun _ => pure ()

theorem ite {p : Prop} [Decidable p] (ha : Satisfies R a) (hb : Satisfies R b) :
    Satisfies R (if p then a else b) := by
  split
  · exact ha
  · exact hb

theorem forM {xs : List α} {f : α → Act σ Unit} (hf : ∀ x, Satisfies R (f x)) :
    Satisfies R (xs.forM f) := by
  induction xs with
  | nil => exact pure ()
  | cons x rest ih => exact (hf x).bind fun _ => ih

theorem anyM {xs : List α} {p : α → Act σ Bool} (hp : ∀ x, Satisfies R (p x)) :
    Satisfies R (xs.anyM p) := by
  induction xs with
  | nil => exact pure false
  | cons x rest ih =>
      refine (hp x).bind fun found => ?_
      cases found with
      | true => exact pure true
      | false => exact ih

theorem locked (s : SessionId) (ha : Satisfies R a) : Satisfies R (Act.locked s a) := R.locked s ha

theorem keeping (s : SessionId) (ha : Satisfies R a) : Satisfies R (Act.keeping s a) :=
  R.keeping s ha

theorem editing {s : SessionId} (ha : Satisfies R a) : Satisfies R (s.editing a) := R.editing s ha

theorem lockedElsewhere (s : SessionId) : Satisfies R (Act.lockedElsewhere s : Act σ Bool) :=
  R.lockedElsewhere s

theorem isAdjusting (s : SessionId) : Satisfies R (s.isAdjusting : Act σ Bool) := R.isAdjusting s

theorem entering {s : SessionId} {otherwise : α} (ha : Satisfies R a) :
    Satisfies R (Act.entering s otherwise a) :=
  bind (R.isLive s) fun _ => ite (keeping s ha) (pure otherwise)

theorem get {f : World σ → Act σ β} (hf : ∀ w, f w.bare = f w) (ha : ∀ w, Satisfies R (f w)) :
    Satisfies R (MonadState.get >>= f) := R.get hf ha

theorem session {s : SessionId} {f : Session → Act σ β} (hf : ∀ x, f x.bare = f x)
    (ha : ∀ x, Satisfies R (f x)) : Satisfies R (Act.session s >>= f) := by
  refine get (f := fun w => f (w.sessions.getD s.index default)) ?_ fun w => ha _
  intro w
  rw [← hf (w.sessions.getD s.index default)]
  simp only [World.bare, Array.getD_eq_getD_getElem?, Array.getElem?_map]
  cases w.sessions[s.index]? <;> rfl

theorem store (st : StoreId) : Satisfies R (Act.store st : Act σ (BreakpointStore Listener)) :=
  get (fun _ => rfl) fun w => pure (w.stores.getD st.index {})

theorem router (r : RouterId) : Satisfies R (Act.router r : Act σ (OutputRouter CallbackId)) :=
  get (fun _ => rfl) fun w => pure (w.routers.getD r.index {})

theorem bindings {s : SessionId} {f : BindingTable → Act σ β}
    (hf : ∀ t, f { t with openEdits := [] } = f t) (ha : ∀ t, Satisfies R (f t)) :
    Satisfies R (s.bindings >>= f) := by
  change Satisfies R (Act.session s >>= fun x => f x.bindings)
  exact session (fun x => hf x.bindings) fun x => ha x.bindings

theorem modifySession {s : SessionId} {m : Session → Session} (hm : Session.Minor m) :
    Satisfies R (Act.modifySession s m : Act σ Unit) := R.modifySession s hm

theorem setStore (st : StoreId) (x : BreakpointStore Listener) :
    Satisfies R (Act.setStore st x : Act σ Unit) := R.setStore st x

theorem newStore : Satisfies R (Act.newStore : Act σ StoreId) := R.newStore

theorem modifyBindings (s : SessionId) {f : BindingTable → BindingTable}
    (hf : ∀ t es, f { t with openEdits := es } = { f t with openEdits := es }) :
    Satisfies R (s.modifyBindings f : Act σ Unit) := by
  have hopen (t : BindingTable) : (f t).openEdits = t.openEdits := by
    have ht := congrArg BindingTable.openEdits (hf t t.openEdits)
    exact ht
  have hbare (x : Session) : ({ x with bindings := f x.bindings } : Session).bare =
      ({ x.bare with bindings := f x.bare.bindings } : Session).bare :=
    congrArg (fun t => { x.bare with bindings := { t with openEdits := [] } })
      (hf x.bindings []).symm
  have hhidden (x : Session) :
      ({ x with bindings := f x.bindings } : Session).hidden = x.hidden := by
    simp only [Session.hidden, hopen]
  exact modifySession { bare := hbare, hidden := hhidden }

end Act.Satisfies

namespace Act.Makes

variable {σ : Type} {R : World σ → World σ → Prop}

theorem locked {α : Type} (s : SessionId) {a : Act σ α} (ha : ∀ c w, R w (run a c w).2) (c : Scope)
    (w : World σ) : R w (run (Act.locked s a) c w).2 := ha _ w

theorem keeping {α : Type} (s : SessionId) {a : Act σ α} (ha : ∀ c w, R w (run a c w).2) (c : Scope)
    (w : World σ) : R w (run (Act.keeping s a) c w).2 := ha _ w

variable {α β : Type} {a : Act σ α}

theorem bind (trans : ∀ {w w' w''}, R w w' → R w' w'' → R w w'') {f : α → Act σ β}
    (ha : ∀ c w, R w (run a c w).2) (hf : ∀ x c w, R w (run (f x) c w).2) (c : Scope)
    (w : World σ) : R w (run (a >>= f) c w).2 := by
  have hfirst := ha c w
  rw [run_bind]
  rcases hrun : run a c w with ⟨p | x, w'⟩ <;> rw [hrun] at hfirst
  · exact hfirst
  · exact trans hfirst (hf x c w')

theorem editing (trans : ∀ {w w' w''}, R w w' → R w' w'' → R w w'')
    (hbegin : ∀ w s t, R w (w.beginEdit s t)) (hend : ∀ w s t, R w (w.endEdit s t))
    (s : SessionId) (ha : ∀ c w, R w (run a c w).2) (c : Scope) (w : World σ) :
    R w (run (s.editing a) c w).2 := by
  rw [Oblivious.run_editing]
  exact trans (trans (hbegin w s c.thread) (ha c _)) (hend _ s c.thread)

theorem isAdjusting (same : ∀ w, R w w) (s : SessionId) (c : Scope) (w : World σ) :
    R w (run (s.isAdjusting : Act σ Bool) c w).2 := by
  simp only [SessionId.isAdjusting, Act.entering]
  rw [run_bind]
  change R w (run (if _ then _ else _) c w).2
  split <;> exact same w

end Act.Makes

structure Host.Respects {σ : Type} (h : Host σ) (R : Act.Rule σ) : Prop where
  answer : ∀ t q, Act.Satisfies R ((h.engine t).answer q).run
  allowsChanges : ∀ t, Act.Satisfies R (h.engine t).allowsChanges
  resolveExpression : ∀ t expression location ask, (∀ name, Act.Satisfies R (ask name)) →
    Act.Satisfies R ((h.engine t).resolveExpression expression location ask).run
  observe : ∀ t k e, Act.Satisfies R (h.observe t k e)
  storeChanged : ∀ k st a, Act.Satisfies R (h.storeChanged k st a)
  vetoes : ∀ k st, Act.Satisfies R (h.vetoes k st)
  write : ∀ k isError text, Act.Satisfies R (h.write k isError text)
  handleFault : ∀ k e, Act.Satisfies R (h.handleFault k e)
  trace : ∀ k e text, Act.Satisfies R (h.trace k e text)
  customHit : ∀ k action e, Act.Satisfies R (h.customHit k action e)
  resolveType : ∀ k name l, Act.Satisfies R (h.resolveType k name l)
  provideEvaluator : ∀ k extension, Act.Satisfies R (h.provideEvaluator k extension)

namespace Host.Respects

open Act Act.Satisfies

variable {σ : Type} {R : Act.Rule σ} {h : Host σ} (respects : h.Respects R)

theorem isStarted (s : SessionId) : Satisfies R (s.isStarted : Act σ Bool) :=
  Satisfies.session (fun _ => rfl) fun x => Satisfies.pure x.lifecycle.started

include respects

theorem offerFault (s : SessionId) (e : SessionError) : Satisfies R (s.offerFault h e) := by
  refine Satisfies.session (fun _ => rfl) fun x => ?_
  cases x.handlers.fault with
  | none => exact Satisfies.pure false
  | some k => exact respects.handleFault k e

theorem writeTo (r : RouterId) (sink : Sink) (isError : Bool) (text : String) :
    Satisfies R (h.writeTo r sink isError text) := by
  refine (Satisfies.router r).bind fun x => ?_
  simp only [OutputRouter.write]
  cases x.writer sink with
  | none => exact Satisfies.pure ()
  | some k => exact respects.write k isError text

theorem log (s : SessionId) (isError : Bool) (text : String) : Satisfies R (h.log s isError text) :=
  Satisfies.session (fun _ => rfl) fun x => respects.writeTo x.output .log isError text

theorem recordBindFailure (s : SessionId) (e : BreakEvent) (err : EngineError) :
    Satisfies R (s.recordBindFailure h e err) := by
  refine (respects.log s false _).bind fun _ => ?_
  refine (modifyBindings s fun t es => t.insert_with es _).bind fun _ => ?_
  exact (respects.offerFault s _).discard

theorem addBreakEvent (s : SessionId) (e : BreakEvent) : Satisfies R (s.addBreakEvent h e) := by
  refine (respects.answer s (.insert e)).bind fun x => ?_
  cases x with
  | ok b =>
      exact (modifyBindings s fun t es => t.insert_with es _).bind fun _ => Satisfies.pure true
  | error err => exact (respects.recordBindFailure s e err).bind fun _ => Satisfies.pure false

theorem reportEditFailure (s : SessionId) (e : BreakEvent) (err : EngineError) :
    Satisfies R (s.reportEditFailure h e err) := by
  refine (isStarted s).bind fun started => ?_
  have hoffer := (respects.offerFault s (.breakEvent e.text err)).discard
  cases started with
  | true => exact (respects.log s false _).bind fun _ => hoffer
  | false => exact hoffer

theorem removeBreakEvent (s : SessionId) (id : BreakEventId) :
    Satisfies R (s.removeBreakEvent h id) := by
  refine Satisfies.bindings (fun _ => rfl) fun t => ?_
  have hforget : Satisfies R (s.modifyBindings (·.remove id) : Act σ Unit) :=
    modifyBindings s fun t es => t.remove_with es id
  cases t.get? id with
  | none => exact Satisfies.pure ()
  | some r =>
      cases hhandle : r.handle with
      | none =>
          simp only [hhandle]
          exact hforget
      | some handle =>
          simp only [hhandle]
          refine (respects.answer s (.remove handle)).bind fun x => ?_
          cases x with
          | ok _ => exact hforget
          | error err => exact respects.reportEditFailure s r.breakEvent err

theorem changeBreakEvent (s : SessionId) (e : BreakEvent) (change : BindingHandle → EngineRequest)
    (record : BreakEvent → BreakEvent) : Satisfies R (s.changeBreakEvent h e change record) := by
  refine Satisfies.bindings (fun _ => rfl) fun t => ?_
  cases t.get? e.id with
  | none => exact Satisfies.pure ()
  | some r =>
      cases hhandle : r.handle with
      | none =>
          simp only [hhandle]
          exact Satisfies.pure ()
      | some handle =>
          simp only [hhandle]
          refine (respects.answer s (change handle)).bind fun x => ?_
          cases x with
          | ok _ => exact modifyBindings s fun t es => t.insert_with es _
          | error err => exact respects.reportEditFailure s e err

theorem isReadOnly (s : SessionId) : Satisfies R (s.isReadOnly h) := by
  refine (Satisfies.lockedElsewhere s).bind fun _ => ite (Satisfies.pure true) ?_
  exact locked s ((respects.allowsChanges s).bind fun x => Satisfies.pure (!x))

omit respects in
theorem whenStarted (s : SessionId) {a : Act σ Unit} (ha : Satisfies R a) :
    Satisfies R (s.whenStarted a) :=
  entering (locked s ((isStarted s).bind fun _ => ite ha (Satisfies.pure ())))

theorem follow (s : SessionId) (a : Announcement) : Satisfies R (s.follow h a) := by
  have hunless {b : Act σ Unit} (hb : Satisfies R b) :
      Satisfies R (do unless ← s.isAdjusting do s.whenStarted b : Act σ Unit) :=
    (isAdjusting s).bind fun _ => ite (Satisfies.pure ()) (whenStarted s hb)
  simp only [SessionId.follow]
  cases a.change with
  | added => exact hunless (respects.addBreakEvent s a.event).discard
  | removed => exact hunless (respects.removeBreakEvent s a.event.id)
  | modified => exact whenStarted s (respects.changeBreakEvent s a.event _ _)
  | enableChanged => exact whenStarted s (respects.changeBreakEvent s a.event _ _)
  | statusChanged => exact Satisfies.pure ()

theorem announce (st : StoreId) (a : Announcement) : Satisfies R (st.announce h a) := by
  refine (Satisfies.store st).bind fun x => Satisfies.forM fun l => ?_
  obtain ⟨id, listener⟩ := l
  cases listener with
  | session s => exact respects.follow s a
  | external k => exact respects.storeChanged k st a

theorem announceAll (st : StoreId) (as : List Announcement) : Satisfies R (st.announceAll h as) :=
  Satisfies.forM fun a => respects.announce st a

theorem storeIsReadOnly (st : StoreId) : Satisfies R (st.isReadOnly h) := by
  refine (Satisfies.store st).bind fun x => Satisfies.anyM fun l => ?_
  obtain ⟨id, listener⟩ := l
  cases listener with
  | session s => exact entering (respects.isReadOnly s)
  | external k => exact respects.vetoes k st

theorem edit (st : StoreId) (e : Edit) : Satisfies R (st.edit h e) := by
  refine (respects.storeIsReadOnly st).bind fun _ => ite (Satisfies.pure _) ?_
  refine (Satisfies.store st).bind fun x => ?_
  cases x.apply e with
  | error err => exact Satisfies.pure _
  | ok r =>
      refine (Satisfies.setStore st r.1).bind fun _ => ?_
      exact (respects.announceAll st r.2).bind fun _ => Satisfies.pure _

omit respects in
theorem moveIn (st : StoreId) (id : BreakEventId) (line : Nat) :
    Satisfies R (st.move id line : Act σ _) := by
  refine (Satisfies.store st).bind fun x => ?_
  cases x.adjust id line with
  | error err => exact Satisfies.pure _
  | ok r => exact (Satisfies.setStore st r.1).bind fun _ => Satisfies.pure _

theorem adjustLine (st : StoreId) (id : BreakEventId) (line : Nat) :
    Satisfies R (st.adjust h id line) := by
  refine (moveIn st id line).bind fun r => ?_
  rcases r with err | (_ | a)
  · exact Satisfies.pure _
  · exact Satisfies.pure _
  · exact (respects.announceAll st a.announcements).bind fun _ => Satisfies.pure _

theorem resetAdjusted (st : StoreId) : Satisfies R (st.resetAdjusted h) := by
  refine (Satisfies.store st).bind fun x => (Satisfies.setStore st _).bind fun _ => ?_
  refine Satisfies.forM fun a => (Satisfies.store st).bind fun y => ?_
  exact (Satisfies.setStore st _).bind fun _ => respects.announceAll st _

theorem announceStatus (st : StoreId) (id : BreakEventId) :
    Satisfies R (st.announceStatus h id) := by
  refine (Satisfies.store st).bind fun x => ?_
  cases x.get? id with
  | none => exact Satisfies.pure ()
  | some e => exact respects.announce st ⟨.statusChanged, e⟩

omit respects in
theorem subscribe (st : StoreId) (l : Listener) : Satisfies R (st.subscribe l : Act σ _) :=
  (Satisfies.store st).bind fun _ => (Satisfies.setStore st _).bind fun _ => Satisfies.pure _

omit respects in
theorem unsubscribe (st : StoreId) (id : ListenerId) : Satisfies R (st.unsubscribe id : Act σ _) :=
  (Satisfies.store st).bind fun _ => Satisfies.setStore st _

theorem release (s : SessionId) (st : StoreId) (subscription : Option ListenerId) :
    Satisfies R (s.release h st subscription) := by
  refine (Satisfies.store st).bind fun x => Satisfies.bind (Satisfies.forM fun e => ?_) fun _ => ?_
  · exact (respects.removeBreakEvent s e.id).bind fun _ => respects.announceStatus st e.id
  · cases subscription with
    | none => exact respects.resetAdjusted st
    | some l => exact (unsubscribe st l).bind fun _ => respects.resetAdjusted st

theorem bindEvents (s : SessionId) (st : StoreId) : Satisfies R (s.bindEvents h st) :=
  (Satisfies.store st).bind fun _ => Satisfies.forM fun e => (respects.addBreakEvent s e).discard

theorem pointAt (s : SessionId) (new : Option StoreId) : Satisfies R (s.pointAt h new) := by
  have hsubscribe (st : StoreId) :
      Satisfies R (do
        let l ← st.subscribe (.session s)
        Act.modifySession s ({ · with subscription := some l }) : Act σ Unit) :=
    (subscribe st (.session s)).bind fun _ => modifySession {}
  refine Satisfies.bind (modifySession {}) fun _ => ?_
  cases new with
  | none => exact Satisfies.pure ()
  | some st =>
      refine (isStarted s).bind fun started => ?_
      cases started with
      | true => exact (respects.bindEvents s st).bind fun _ => hsubscribe st
      | false => exact hsubscribe st

theorem setStore (s : SessionId) (new : Option StoreId) : Satisfies R (s.setStore h new) := by
  refine keeping s (locked s (Satisfies.session (fun _ => rfl) fun x => ?_))
  refine Satisfies.bind (modifySession {}) fun _ => ?_
  cases x.store with
  | none => exact respects.pointAt s new
  | some old => exact (respects.release s old x.subscription).bind fun _ => respects.pointAt s new

theorem breakpoints (s : SessionId) : Satisfies R (s.breakpoints h) := by
  refine locked s (Satisfies.session (fun _ => rfl) fun x => ?_)
  cases x.store with
  | some st => exact Satisfies.pure st
  | none =>
      refine Satisfies.newStore.bind fun st => ?_
      cases x.lifecycle.disposed with
      | true => exact Satisfies.pure st
      | false =>
          refine (respects.setStore s (some st)).bind fun _ => ?_
          refine Satisfies.bind (modifySession {}) fun _ => ?_
          exact Satisfies.pure st

theorem announceAttached (s : SessionId) (id : BreakEventId) :
    Satisfies R (s.announceStatus h id) := by
  refine Satisfies.session (fun _ => rfl) fun x => ?_
  cases x.store with
  | none => exact Satisfies.pure ()
  | some st => exact respects.announceStatus st id

theorem setStatus (s : SessionId) (handle : BindingHandle) (status : BindingStatus)
    (message : Option String) : Satisfies R (s.setStatus h handle status message) := by
  refine Satisfies.bindings (fun _ => rfl) fun t => ?_
  cases t.owner? handle with
  | none => exact Satisfies.pure ()
  | some id =>
      refine (modifyBindings s fun t es => t.setStatus_with es _ _ _).bind fun _ => ?_
      exact respects.announceAttached s id

omit respects in
theorem move (s : SessionId) (st : StoreId) (id : BreakEventId) (line : Nat) :
    Satisfies R (s.move st id line : Act σ _) := by
  refine locked s ((moveIn st id line).bind fun r => ?_)
  rcases r with err | (_ | a)
  · exact Satisfies.pure _
  · exact Satisfies.pure _
  · refine Satisfies.bind (Satisfies.bindings (fun _ => rfl) fun t => ?_) fun _ => Satisfies.pure _
    cases t.get? a.new.id with
    | none => exact Satisfies.pure ()
    | some r => exact modifyBindings s fun t es => t.insert_with es _

theorem adjust (s : SessionId) (id : BreakEventId) (line : Nat) :
    Satisfies R (s.adjust h id line) := by
  refine Satisfies.session (fun _ => rfl) fun x => ?_
  cases x.store with
  | none => exact Satisfies.pure _
  | some st =>
      apply Satisfies.editing (s := s)
      refine (move s st id line).bind fun r => ?_
      rcases r with err | (_ | a)
      · exact Satisfies.pure _
      · exact Satisfies.pure _
      · exact (respects.announceAll st a.announcements).bind fun _ => Satisfies.pure _

theorem fileLoaded (s : SessionId) (file : String) : Satisfies R (s.fileLoaded h file) := by
  refine Satisfies.session (fun _ => rfl) fun x => ite ?_ (Satisfies.pure ())
  refine Satisfies.get (fun _ => rfl) fun w => Satisfies.forM fun r => ?_
  refine (respects.addBreakEvent s r.breakEvent).bind fun _ => ite ?_ (Satisfies.pure ())
  exact respects.announceAttached s r.id

theorem fileUnloaded (s : SessionId) (file : String) : Satisfies R (s.fileUnloaded h file) := by
  refine Satisfies.session (fun _ => rfl) fun x => ite ?_ (Satisfies.pure ())
  refine Satisfies.get (fun _ => rfl) fun w => Satisfies.forM fun r => ?_
  refine (modifyBindings s fun t es => t.remove_with es r.id).bind fun _ => ?_
  cases x.store with
  | none => exact Satisfies.pure ()
  | some st => exact respects.announceStatus st r.id

theorem ask (s : SessionId) (q : EngineRequest) : Satisfies R (s.ask h q) := by
  refine entering (locked s ((respects.answer s q).bind fun x => ?_))
  cases x with
  | ok x => exact Satisfies.pure _
  | error err => exact Satisfies.pure _

theorem setActiveThread (s : SessionId) (t : ThreadInfo) : Satisfies R (s.setActiveThread h t) := by
  refine entering (locked s ?_)
  refine Satisfies.bind (modifySession {}) fun _ => ?_
  refine (respects.ask s _).bind fun x => ?_
  cases x with
  | ok _ => exact Satisfies.pure _
  | error fault => exact (respects.offerFault s fault).bind fun _ => Satisfies.pure _

theorem processes (s : SessionId)
    (hlisting : ∀ ps, Satisfies R (Act.modifySession s ({ · with processes := some ps }))) :
    Satisfies R (s.processes h) := by
  refine entering (locked s (Satisfies.session (fun _ => rfl) fun x => ?_))
  cases x.processes with
  | some ps => exact Satisfies.pure _
  | none =>
      refine (respects.ask s .processes).bind fun answer => ?_
      cases answer with
      | error fault => exact Satisfies.pure _
      | ok ps => exact (hlisting _).bind fun _ => Satisfies.pure _

theorem askExpression (s : SessionId) (resolver : CallbackId) (expression : String)
    (l : SourceLocation) : Satisfies R (s.askExpression h resolver expression l) := by
  refine Satisfies.bind (respects.resolveExpression s expression l _
    (respects.resolveType resolver · l)) fun x => ?_
  cases x with
  | ok answer => exact Satisfies.pure answer
  | error err => exact (respects.log s true _).bind fun _ => Satisfies.pure none

theorem resolvesExpression (s : SessionId) (expression : String) (l : SourceLocation) :
    Satisfies R (s.resolveExpression h expression l) := by
  refine keeping s (Satisfies.session (fun _ => rfl) fun x => ?_)
  cases x.handlers.typeNames with
  | none => exact Satisfies.pure expression
  | some resolver =>
      dsimp only
      cases x.expressions.find? (SessionId.expressionKey expression l) with
      | some known => exact Satisfies.pure _
      | none =>
          refine (respects.askExpression s resolver expression l).bind fun answer => ?_
          refine Satisfies.bind (modifySession {}) fun _ => ?_
          exact Satisfies.session (fun _ => rfl) fun _ => Satisfies.pure _

theorem evaluatorFor (s : SessionId) (extension : Option String) :
    Satisfies R (s.evaluatorFor h extension) := by
  refine Satisfies.bind (keeping s (Satisfies.session (fun _ => rfl) fun x => ?_))
    fun _ => Satisfies.pure _
  split
  · rename_i provider ext hprovider hext
    cases x.evaluators.known.find? ext with
    | some known => exact Satisfies.pure known
    | none =>
        refine (respects.provideEvaluator provider ext).bind fun answer => ?_
        refine Satisfies.bind (modifySession {}) fun _ => ?_
        exact Satisfies.session (fun _ => rfl) fun _ => Satisfies.pure _
  · exact Satisfies.pure none

theorem traces (s : SessionId) (handle : BindingHandle) (text : String) :
    Satisfies R (s.reporter.trace h handle text) := by
  refine entering (Satisfies.bindings (fun _ => rfl) fun t => ?_)
  cases t.byHandle? handle with
  | none => exact Satisfies.pure ()
  | some record =>
      refine Satisfies.session (fun _ => rfl) fun x => ?_
      cases x.handlers.trace with
      | none => exact respects.log s false _
      | some k => exact respects.trace k _ text

theorem asksCustomHit (s : SessionId) (action : String) (handle : BindingHandle) :
    Satisfies R (s.reporter.customHit h action handle) := by
  refine entering (Satisfies.bindings (fun _ => rfl) fun t => ?_)
  cases t.byHandle? handle with
  | none => exact Satisfies.pure true
  | some record =>
      refine Satisfies.session (fun _ => rfl) fun x => ?_
      cases x.handlers.customHit with
      | none => exact Satisfies.pure true
      | some k => exact respects.customHit k action _

theorem emitTo (s : SessionId) (e : SessionEvent) :
    Satisfies R (Observers.emit s.observers (h.observe s) e) := by
  have hobservers : Satisfies R (s.observers : Act σ _) :=
    Satisfies.session (fun _ => rfl) fun x => Satisfies.pure x.observers
  exact hobservers.bind fun o => Satisfies.forM fun k => respects.observe s k e

/-- Most of what can be asked of a session leaves its life and its list of processes alone. -/
theorem perform_uneventful (s : SessionId) {o : Operation} (ho : o.isEventful = false)
    (hlist : o ≠ .processes) : Satisfies R (o.perform h s) := by
  have hread {α : Type} {f : Session → α} (hf : ∀ x, f x.bare = f x) :
      Satisfies R (do return f (← Act.session s) : Act σ α) :=
    Satisfies.session (fun x => congrArg _ (hf x)) fun x => Satisfies.pure (f x)
  cases o with
  | command k | targetEvent e | started t => cases ho
  | write sink isError text =>
      exact entering (Satisfies.session (fun _ => rfl) fun x => respects.writeTo x.output _ _ _)
  | fileLoaded file => exact entering (respects.fileLoaded s file)
  | fileUnloaded file => exact entering (respects.fileUnloaded s file)
  | busy state => exact entering (respects.emitTo s _)
  | setStatus handle status message => exact entering (respects.setStatus s handle status message)
  | recordFor handle =>
      exact entering (Satisfies.bindings (fun _ => rfl) fun t => Satisfies.pure _)
  | trace handle text => exact respects.traces s handle text
  | customHit action handle => exact respects.asksCustomHit s action handle
  | adjust id line => exact entering (respects.adjust s id line)
  | attach st => exact respects.setStore s st
  | breakpoints => exact respects.breakpoints s
  | edit st e => exact respects.edit st e
  | adjustLine st id line => exact respects.adjustLine st id line
  | resetAdjusted st => exact respects.resetAdjusted st
  | announceStatus st id => exact respects.announceStatus st id
  | isReadOnly st => exact respects.storeIsReadOnly st
  | phase => exact hread fun _ => rfl
  | status id =>
      exact Satisfies.session (fun _ => rfl) fun x => ite (Satisfies.pure _) (Satisfies.pure _)
  | message id =>
      exact Satisfies.session (fun _ => rfl) fun x => ite (Satisfies.pure _) (Satisfies.pure _)
  | activeThread => exact hread fun _ => rfl
  | setActiveThread t => exact respects.setActiveThread s t
  | options => exact hread fun _ => rfl
  | processes => exact absurd rfl hlist
  | threads process => exact (respects.ask s _).bind fun _ => Satisfies.pure _
  | backtrace process thread => exact (respects.ask s _).bind fun _ => Satisfies.pure _
  | disassembleFile file => exact respects.ask s _
  | resolveExpression expression l => exact respects.resolvesExpression s expression l
  | evaluatorFor extension => exact respects.evaluatorFor s extension

section Events

variable {s : SessionId}
  (hnoting : ∀ e, Satisfies R (Act.modifySession s (SessionId.noting · e) : Act σ Unit))

include hnoting

theorem targetEvent (e : TargetEvent) : Satisfies R (s.targetEvent h e) := by
  refine (hnoting (SessionId.attachEvent s e)).bind fun _ => ?_
  exact (respects.emitTo s _).bind fun _ => respects.emitTo s _

theorem recover (k : Command) (err : EngineError) : Satisfies R (s.recover h k err) := by
  have hfault : Satisfies R (do
      return if ← s.offerFault h (.command k.name err) then Except.ok ()
        else Except.error (SessionError.command k.name err) : Act σ _) :=
    (respects.offerFault s _).bind fun _ => Satisfies.pure _
  simp only [SessionId.recover]
  cases k.recovery with
  | none => exact hfault
  | some kind => exact (respects.targetEvent hnoting _).bind fun _ => hfault

end Events

omit respects in
theorem takeOptions (s : SessionId) (k : Command) : Satisfies R (s.takeOptions k : Act σ Unit) := by
  simp only [SessionId.takeOptions]
  cases k.options? with
  | none => exact Satisfies.pure ()
  | some options =>
      refine modifySession ⟨⟨fun x => ?_, fun x => ?_, fun x => ?_, fun x => ?_⟩, fun x => ?_⟩
      · cases hx : x.lifecycle.disposed <;> simp [Session.bare, hx]
      all_goals split <;> rfl

variable (lively : R.Lively)

include lively

theorem tearDown (s : SessionId) : Satisfies R (s.tearDown h) := by
  refine Satisfies.session (fun _ => rfl) fun x => ite (Satisfies.pure ()) ?_
  refine Satisfies.bind (lively.transition s .disposed) fun _ => ite (Satisfies.pure ()) ?_
  exact respects.setStore s none

omit respects in
theorem settle (s : SessionId) (k : Command) : Satisfies R (s.settle k : Act σ Unit) := by
  cases k with
  | attach process options => exact lively.transition s .attached
  | detach => exact lively.transition s .detached
  | _ => exact Satisfies.pure ()

theorem body (s : SessionId) (k : Command) : Satisfies R (s.body h k).run := by
  by_cases hk : k = .dispose
  · subst hk
    rw [SessionId.run_body_dispose]
    exact (respects.tearDown lively s).bind fun _ => Satisfies.pure _
  · rw [SessionId.run_body h s hk]
    refine (respects.answer s (.command k)).bind fun x => ?_
    cases x with
    | ok _ => exact (settle lively s k).bind fun _ => Satisfies.pure _
    | error err => exact Satisfies.pure _

theorem announceStart (s : SessionId) : Satisfies R (s.announceStart h) :=
  Satisfies.bind (lively.transition s .resumed) fun _ => respects.emitTo s .started

/-- The engine takes break events from now on, and what is in the store is bound. -/
theorem getReady (s : SessionId) : Satisfies R (s.getReady h) := by
  refine Satisfies.locked s (Satisfies.bind (lively.transition s .initialized) fun _ => ?_)
  exact (respects.breakpoints s).bind fun st => respects.bindEvents s st

variable {s : SessionId}
  (hnoting : ∀ e, Satisfies R (Act.modifySession s (SessionId.noting · e) : Act σ Unit))

include hnoting

theorem engineStarted (t : Option ThreadInfo) : Satisfies R (s.engineStarted h t) :=
  (respects.targetEvent hnoting _).bind fun _ => respects.getReady lively s

theorem execute (k : Command) : Satisfies R (s.execute h k) := by
  refine locked s ((respects.body lively s k).bind fun x => ?_)
  cases x with
  | ok _ => exact Satisfies.pure _
  | error err => exact respects.recover hnoting k err

end Host.Respects

end DebugSession
