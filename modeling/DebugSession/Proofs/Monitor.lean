import DebugSession.Proofs.StoreNews

namespace DebugSession

inductive Observation
  | asked (x : Exchange)
  | wrote (k : CallbackId) (isError : Bool) (text : String)
  | offered (k : CallbackId) (e : SessionError)
  | told (k : CallbackId) (st : StoreId) (a : Announcement) (x : Session)

def Observation.exchange? : Observation → Option Exchange
  | asked x => some x
  | _ => none

def Scope.isOf (c : Scope) (s : SessionId) : Bool := c.entered.head? == some s

theorem Scope.isOf_of_ne {c : Scope} {s t : SessionId} (hc : c.isOf t = true) (ht : t ≠ s) :
    c.isOf s = false := by
  rw [isOf, beq_iff_eq] at hc
  rw [isOf, hc, beq_eq_false_iff_ne]
  exact fun h => ht (Option.some.inj h)

theorem Scope.isOf_inside (c : Scope) (s : SessionId) : (c.inside s).isOf s = true :=
  beq_self_eq_true (some s)

def BreakpointStore.tidings (x : BreakpointStore Listener) (st : StoreId) (a : Announcement)
    (y : Session) : List Observation := x.outside.map (.told · st a y)

def Session.tidings (x : Session) (stores : StoreId → BreakpointStore Listener)
    (id : BreakEventId) : List Observation :=
  x.store.toList.flatMap fun st => ((stores st).get? id).toList.flatMap fun e =>
    (stores st).tidings st ⟨.statusChanged, e⟩ x

structure Desk where
  log : Option CallbackId
  handler : Option CallbackId
  started : Bool

def Session.desk (x : Session) (routers : Array (OutputRouter CallbackId)) : Desk where
  log := (routers.getD x.output.index {}).writer .log
  handler := x.handlers.fault
  started := x.lifecycle.started

theorem Standing.Dealt.desk {v v' : Standing} (hv : Dealt v v')
    (routers : Array (OutputRouter CallbackId)) :
    v'.session.desk routers = v.session.desk routers := by rw [hv.session]; rfl

namespace Desk

variable (d : Desk)

def logged (text : String) : List Observation := d.log.toList.map (.wrote · false text)

def offered (e : SessionError) : List Observation := d.handler.toList.map (.offered · e)

def ofBinding (e : BreakEvent) : Except EngineError Binding → List Observation
  | .ok _ => []
  | .error err => d.logged (e.bindFailureMessage err.message) ++ d.offered (.breakEvent e.text err)

def ofEdit (e : BreakEvent) (err : EngineError) : List Observation :=
  (if d.started then d.logged (err.message ++ "\n") else []) ++ d.offered (.breakEvent e.text err)

end Desk

/-- Where a host writes down what it hears of one session. Sessions share stores, sinks and
handlers, so what is heard is put down to the session that is at work. -/
structure Monitor (σ : Type) where
  session : SessionId
  items : σ → List Observation

namespace Monitor

open Act Standing

variable {σ α β : Type} (M : Monitor σ) {h : Host σ}

abbrev ledger : Ledger σ := ⟨M.session, fun x => (M.items x).filterMap Observation.exchange?⟩

def Keeps (added : Scope → Session → α → List Observation) (a : Act σ α) : Prop :=
  ∀ c w, ∃ x w', run a c w = (.ok x, w') ∧ w'.sessions = w.sessions ∧ w'.stores = w.stores ∧
    w'.directory = w.directory ∧ w'.routers = w.routers ∧
    M.items w'.host = M.items w.host ++ added c (w.session M.session) x

/-- The log is kept by a host that does not call back. -/
structure KeptBy (h : Host σ) : Prop where
  quiet : M.ledger.Quiet h
  answer : ∀ t q, M.Keeps (fun _ _ x => if t = M.session then [.asked ⟨q, x⟩] else [])
    ((h.engine t).answer q).run
  allowsChanges : ∀ t, M.Keeps (fun _ _ _ => []) (h.engine t).allowsChanges
  observe : ∀ t k e, M.Keeps (fun _ _ _ => []) (h.observe t k e)
  storeChanged : ∀ k st a, M.Keeps (fun _ x _ => [.told k st a x]) (h.storeChanged k st a)
  vetoes : ∀ k st, M.Keeps (fun _ _ _ => []) (h.vetoes k st)
  write : ∀ k isError text, M.Keeps
    (fun c _ _ => if c.isOf M.session then [.wrote k isError text] else []) (h.write k isError text)
  handleFault : ∀ k e, M.Keeps
    (fun c _ _ => if c.isOf M.session then [.offered k e] else []) (h.handleFault k e)

def Notes (R : Array (OutputRouter CallbackId)) (a : Act σ α) (c : Scope) (v : Standing)
    (Q : α → Standing → List Observation → Prop) : Prop :=
  ∀ w, M.ledger.Shows w v → w.routers = R → ∃ x w' v' is, run a c w = (.ok x, w') ∧
    M.ledger.Shows w' v' ∧ w'.routers = R ∧ M.items w'.host = M.items w.host ++ is ∧ Q x v' is

variable {M} {R : Array (OutputRouter CallbackId)} {c : Scope} {v : Standing} {a : Act σ α}
variable {f : α → Act σ β} {P Q : α → Standing → List Observation → Prop}
variable {Q' : β → Standing → List Observation → Prop}

namespace Notes

theorem mono (ha : M.Notes R a c v P) (hPQ : ∀ x v' is, P x v' is → Q x v' is) :
    M.Notes R a c v Q := by
  intro w hw hR
  obtain ⟨x, w', v', is, hrun, hw', hR', his, hx⟩ := ha w hw hR
  exact ⟨x, w', v', is, hrun, hw', hR', his, hPQ x v' is hx⟩

theorem pure {x : α} (hx : Q x v []) : M.Notes R (Pure.pure x) c v Q :=
  fun w hw hR => ⟨x, w, v, [], rfl, hw, hR, (List.append_nil _).symm, hx⟩

theorem bind (ha : M.Notes R a c v P)
    (hf : ∀ x v' is, P x v' is → M.Notes R (f x) c v' fun y v'' is' => Q' y v'' (is ++ is')) :
    M.Notes R (a >>= f) c v Q' := by
  intro w hw hR
  obtain ⟨x, w', v', is, hrun, hw', hR', his, hx⟩ := ha w hw hR
  obtain ⟨y, w'', v'', is', hrun', hw'', hR'', his', hy⟩ := hf x v' is hx w' hw' hR'
  refine ⟨y, w'', v'', is ++ is', ?_, hw'', hR'', ?_, hy⟩
  · rw [run_bind, hrun]
    exact hrun'
  · rw [his', his, List.append_assoc]

theorem discard {Q : Standing → List Observation → Prop} (ha : M.Notes R a c v fun _ => Q) :
    M.Notes R (discard a) c v fun _ => Q := by
  change M.Notes R ((fun _ => ()) <$> a) c v fun _ => Q
  rw [map_eq_pure_bind]
  exact ha.bind fun _ v' is hx => pure (by rwa [List.append_nil])

/-- What is known of both. -/
theorem and {Q : α → Standing → Prop} (ha : M.Notes R a c v P) (hQ : M.ledger.Leads a c v Q) :
    M.Notes R a c v fun x v' is => P x v' is ∧ Q x v' := by
  intro w hw hR
  obtain ⟨x, w', v', is, hrun, hw', hR', his, hx⟩ := ha w hw hR
  obtain ⟨y, w'', v'', hrun', hw'', hy⟩ := hQ w hw
  rw [hrun] at hrun'
  cases hrun'
  obtain rfl := hw'.unique hw''
  exact ⟨x, w', v', is, hrun, hw', hR', his, hx, hy⟩

theorem of_run {b : Act σ α} {d : Scope}
    (hrun : ∀ w, M.ledger.Shows w v → run a c w = run b d w) (hb : M.Notes R b d v Q) :
    M.Notes R a c v Q := by
  intro w hw
  rw [hrun w hw]
  exact hb w hw

/-- Reading and changing add nothing. -/
theorem still {Q : α → Standing → Prop} (ha : M.ledger.Leads a c v Q)
    (hhost : ∀ w, (run a c w).2.host = w.host) (hrouters : ∀ w, (run a c w).2.routers = w.routers) :
    M.Notes R a c v fun x v' is => Q x v' ∧ is = [] := by
  intro w hw hR
  obtain ⟨x, w', v', hrun, hw', hx⟩ := ha w hw
  have hsame := hhost w
  have hsinks := hrouters w
  rw [hrun] at hsame hsinks
  exact ⟨x, w', v', [], hrun, hw', hsinks.trans hR, by rw [hsame, List.append_nil], hx, rfl⟩

theorem session {f : Session → Act σ β} (hf : M.Notes R (f v.session) c v Q') :
    M.Notes R (Act.session M.session >>= f) c v Q' := by
  refine (still Ledger.Leads.session (fun _ => rfl) fun _ => rfl).bind ?_
  rintro x v' is ⟨⟨rfl, rfl⟩, rfl⟩
  exact hf

theorem store {st : StoreId} {f : BreakpointStore Listener → Act σ β}
    (hf : M.Notes R (f (v.store st)) c v Q') : M.Notes R (Act.store st >>= f) c v Q' := by
  refine (still (Ledger.Leads.store st) (fun _ => rfl) fun _ => rfl).bind ?_
  rintro x v' is ⟨⟨rfl, rfl⟩, rfl⟩
  exact hf

theorem modifySession {g : Session → Session} {f : Unit → Act σ β}
    (hf : M.Notes R (f ()) c { v with session := g v.session } Q') :
    M.Notes R (Act.modifySession M.session g >>= f) c v Q' := by
  refine (still (Ledger.Leads.modifySession g) (fun _ => rfl) fun _ => rfl).bind ?_
  rintro x v' is ⟨rfl, rfl⟩
  exact hf

theorem modifyBindings {g : BindingTable → BindingTable} {f : Unit → Act σ β}
    (hf : M.Notes R (f ()) c (v.rebind (g v.bindings)) Q') :
    M.Notes R (M.session.modifyBindings g >>= f) c v Q' := modifySession hf

theorem setStore {st : StoreId} {x : BreakpointStore Listener} {f : Unit → Act σ β}
    (hf : M.Notes R (f ()) c (v.putStore st x) Q') : M.Notes R (Act.setStore st x >>= f) c v Q' := by
  refine (still (Ledger.Leads.setStore st x) (fun _ => rfl) fun _ => rfl).bind ?_
  rintro y v' is ⟨rfl, rfl⟩
  exact hf

theorem bindings {f : BindingTable → Act σ β} (hf : M.Notes R (f v.bindings) c v Q') :
    M.Notes R (M.session.bindings >>= f) c v Q' := by
  change M.Notes R (Act.session M.session >>= fun x => f x.bindings) c v Q'
  exact session hf

theorem locked {s : SessionId} (ha : ∀ c', c'.entered = c.entered → M.Notes R a c' v Q) :
    M.Notes R (Act.locked s a) c v Q := ha _ rfl

theorem keeping (ha : ∀ c', c'.isOf M.session = true → M.Notes R a c' v Q) :
    M.Notes R (Act.keeping M.session a) c v Q := ha _ (beq_self_eq_true (some M.session))

theorem entering {otherwise : α} (hlive : v.session.livesIn M.session c = true)
    (ha : ∀ c', c'.isOf M.session = true → M.Notes R a c' v Q) :
    M.Notes R (Act.entering M.session otherwise a) c v Q := by
  refine of_run (fun w hw => M.session.run_entering_of_live a ?_)
    (ha _ (beq_self_eq_true (some M.session)))
  rw [← hlive, ← hw.world_session]
  rfl

theorem get {f : World σ → Act σ β}
    (hf : ∀ w, M.ledger.Shows w v → M.Notes R (f w) c v Q') :
    M.Notes R (MonadState.get >>= f) c v Q' := fun w hw hR => hf w hw w hw hR

end Notes

theorem Keeps.notes {added : Scope → Session → α → List Observation} (ha : M.Keeps added a) :
    M.Notes R a c v fun x v' is => is = added c v.session x ∧
      v' = { v with exchanges := v.exchanges ++ is.filterMap Observation.exchange? } := by
  intro w hw hR
  obtain ⟨x, w', hrun, hsessions, hstores, hdirectory, hrouters, hitems⟩ := ha c w
  rw [hw.world_session] at hitems
  refine ⟨x, w', _, _, hrun, ⟨?_, ?_, ?_, ?_⟩, hrouters.trans hR, hitems, rfl, rfl⟩
  · rw [hsessions, hw.session]
  · rw [hstores, hw.stores]
  · rw [hdirectory, hw.directory]
  · rw [← hw.exchanges]
    change (M.items w'.host).filterMap Observation.exchange? = _
    rw [hitems, List.filterMap_append]

theorem Keeps.ledger {added : Scope → Session → α → List Observation} {dealt : α → List Exchange}
    (ha : M.Keeps added a)
    (hdealt : ∀ c x y, (added c x y).filterMap Observation.exchange? = dealt y) :
    M.ledger.Keeps dealt a := by
  intro c w
  obtain ⟨x, w', hrun, hsessions, hstores, hdirectory, -, hitems⟩ := ha c w
  refine ⟨x, w', hrun, hsessions, hstores, hdirectory, ?_⟩
  change (M.items w'.host).filterMap Observation.exchange? = _
  rw [hitems, List.filterMap_append, hdealt]

/-- Only the engine's answers change what the session deals with. -/
theorem Keeps.aside {added : Scope → Session → α → List Observation} (ha : M.Keeps added a)
    (is : List Observation) (hadded : ∀ x, added c v.session x = is)
    (his : is.filterMap Observation.exchange? = []) :
    M.Notes R a c v fun _ v' is' => v' = v ∧ is' = is := by
  refine ha.notes.mono ?_
  rintro x v' _ ⟨rfl, rfl⟩
  rw [hadded, his, List.append_nil]
  exact ⟨rfl, rfl⟩

variable (M) in
def Mute (a : Act σ α) (c : Scope) : Prop :=
  ∀ w, M.items (run a c w).2.host = M.items w.host ∧ (run a c w).2.routers = w.routers

theorem Notes.of_inert (ha : M.ledger.Inert a c) (hmute : M.Mute a c) :
    M.Notes R a c v fun _ v' is => v' = v ∧ is = [] := by
  intro w hw hR
  obtain ⟨x, w', v', hrun, hw', rfl⟩ := ha v w hw
  have hsame := hmute w
  rw [hrun] at hsame
  exact ⟨x, w', v', [], hrun, hw', hsame.2.trans hR, by rw [hsame.1, List.append_nil], rfl, rfl⟩

namespace Mute

theorem pure (x : α) : M.Mute (Pure.pure x) c := fun _ => ⟨rfl, rfl⟩

theorem bind (ha : M.Mute a c) (hf : ∀ x, M.Mute (f x) c) : M.Mute (a >>= f) c := by
  intro w
  have hfirst := ha w
  rw [run_bind]
  rcases hrun : run a c w with ⟨p | x, w'⟩
  · rw [hrun] at hfirst
    exact hfirst
  · rw [hrun] at hfirst
    have hsecond := hf x w'
    exact ⟨hsecond.1.trans hfirst.1, hsecond.2.trans hfirst.2⟩

theorem discard (ha : M.Mute a c) : M.Mute (discard a) c := by
  change M.Mute ((fun _ => ()) <$> a) c
  rw [map_eq_pure_bind]
  exact ha.bind fun _ => pure ()

theorem ite {p : Prop} [Decidable p] {a b : Act σ α} (ha : M.Mute a c) (hb : M.Mute b c) :
    M.Mute (if p then a else b) c := by
  split
  · exact ha
  · exact hb

theorem session {t : SessionId} {f : Session → Act σ α} (hf : ∀ x, M.Mute (f x) c) :
    M.Mute (Act.session t >>= f) c := bind (fun _ => ⟨rfl, rfl⟩) hf

theorem modifySession (t : SessionId) (g : Session → Session) :
    M.Mute (Act.modifySession t g) c := fun _ => ⟨rfl, rfl⟩

theorem entering {t : SessionId} {otherwise : α}
    (ha : ∀ c', c'.isOf t = true → M.Mute a c') : M.Mute (Act.entering t otherwise a) c :=
  bind (fun _ => ⟨rfl, rfl⟩) fun _ => ite (ha _ (beq_self_eq_true (some t))) (pure otherwise)

theorem anyM {xs : List α} {p : α → Act σ Bool} (hp : ∀ x, M.Mute (p x) c) :
    M.Mute (xs.anyM p) c := by
  induction xs with
  | nil => exact pure false
  | cons x rest ih =>
      refine (hp x).bind fun found => ?_
      cases found with
      | true => exact pure true
      | false => exact ih

theorem forM {xs : List α} {f : α → Act σ Unit} (hf : ∀ x, M.Mute (f x) c) :
    M.Mute (xs.forM f) c := by
  induction xs with
  | nil => exact pure ()
  | cons x rest ih => exact (hf x).bind fun _ => ih

end Mute

theorem Keeps.mute {added : Scope → Session → α → List Observation} (ha : M.Keeps added a)
    (hadded : ∀ x y, added c x y = []) : M.Mute a c := by
  intro w
  obtain ⟨x, w', hrun, -, -, -, hrouters, hitems⟩ := ha c w
  rw [hrun]
  exact ⟨by rw [hitems, hadded, List.append_nil], hrouters⟩

section Others

variable (kept : M.KeptBy h) {t : SessionId} (ht : t ≠ M.session)
include kept ht

theorem KeptBy.mute_answer (q : EngineRequest) : M.Mute ((h.engine t).answer q).run c :=
  (kept.answer t q).mute fun _ _ => if_neg ht

theorem KeptBy.mute_log (hc : c.isOf t = true) (isError : Bool) (text : String) :
    M.Mute (h.log t isError text) c := by
  refine Mute.session fun x => Mute.bind (fun _ => ⟨rfl, rfl⟩) fun r => ?_
  simp only [OutputRouter.write]
  cases r.writer .log with
  | none => exact Mute.pure ()
  | some k =>
      refine (kept.write k isError text).mute fun _ _ => ?_
      rw [Scope.isOf_of_ne hc ht]
      rfl

theorem KeptBy.mute_offerFault (hc : c.isOf t = true) (e : SessionError) :
    M.Mute (t.offerFault h e) c := by
  refine Mute.session fun x => ?_
  cases x.handlers.fault with
  | none => exact Mute.pure false
  | some k =>
      refine (kept.handleFault k e).mute fun _ _ => ?_
      rw [Scope.isOf_of_ne hc ht]
      rfl

theorem KeptBy.mute_addBreakEvent (hc : c.isOf t = true) (e : BreakEvent) :
    M.Mute (t.addBreakEvent h e) c := by
  refine (kept.mute_answer ht (.insert e)).bind fun x => ?_
  cases x with
  | ok b => exact (Mute.modifySession t _).bind fun _ => Mute.pure true
  | error err =>
      refine Mute.bind ?_ fun _ => Mute.pure false
      refine (kept.mute_log ht hc false _).bind fun _ => (Mute.modifySession t _).bind fun _ => ?_
      exact (kept.mute_offerFault ht hc _).discard

theorem KeptBy.mute_reportEditFailure (hc : c.isOf t = true) (e : BreakEvent) (err : EngineError) :
    M.Mute (t.reportEditFailure h e err) c := by
  have hoffer := (kept.mute_offerFault ht hc (.breakEvent e.text err)).discard
  refine (Mute.session fun x => Mute.pure x.lifecycle.started).bind fun started => ?_
  exact Mute.ite ((kept.mute_log ht hc false _).bind fun _ => hoffer) hoffer

theorem KeptBy.mute_removeBreakEvent (hc : c.isOf t = true) (id : BreakEventId) :
    M.Mute (t.removeBreakEvent h id) c := by
  refine (Mute.session fun x => Mute.pure x.bindings).bind fun b => ?_
  cases b.get? id with
  | none => exact Mute.pure ()
  | some r =>
      obtain ⟨e, handle, status, message⟩ := r
      cases handle with
      | none => exact Mute.modifySession t _
      | some handle =>
          refine (kept.mute_answer ht (.remove handle)).bind fun x => ?_
          cases x with
          | ok _ => exact Mute.modifySession t _
          | error err => exact kept.mute_reportEditFailure ht hc e err

theorem KeptBy.mute_changeBreakEvent (hc : c.isOf t = true) (e : BreakEvent)
    (change : BindingHandle → EngineRequest) (record : BreakEvent → BreakEvent) :
    M.Mute (t.changeBreakEvent h e change record) c := by
  refine (Mute.session fun x => Mute.pure x.bindings).bind fun b => ?_
  cases b.get? e.id with
  | none => exact Mute.pure ()
  | some r =>
      obtain ⟨e', handle, status, message⟩ := r
      cases handle with
      | none => exact Mute.pure ()
      | some handle =>
          refine (kept.mute_answer ht (change handle)).bind fun x => ?_
          cases x with
          | ok _ => exact Mute.modifySession t _
          | error err => exact kept.mute_reportEditFailure ht hc e err

theorem KeptBy.follow_other (a : Announcement) :
    M.Notes R (t.follow h a) c v fun _ v' is => v' = v ∧ is = [] := by
  refine Notes.of_inert (kept.quiet.follow_other ht a) ?_
  have hwhen {b : Act σ Unit} (hb : ∀ c', c'.isOf t = true → M.Mute b c') :
      M.Mute (t.whenStarted b) c := by
    refine Mute.entering fun c' hc' => ?_
    change M.Mute (do if ← t.isStarted then b) { c' with locks := (t, c'.thread) :: c'.locks }
    exact (Mute.session fun x => Mute.pure x.lifecycle.started).bind fun _ =>
      Mute.ite (hb _ hc') (Mute.pure ())
  have hunless {b : Act σ Unit} (hb : ∀ c', c'.isOf t = true → M.Mute b c') :
      M.Mute (do unless ← t.isAdjusting do t.whenStarted b) c :=
    (Mute.entering fun _ _ _ => ⟨rfl, rfl⟩).bind fun _ => Mute.ite (Mute.pure ()) (hwhen hb)
  simp only [SessionId.follow]
  cases a.change with
  | added => exact hunless fun _ hc => (kept.mute_addBreakEvent ht hc a.event).discard
  | removed => exact hunless fun _ hc => kept.mute_removeBreakEvent ht hc a.event.id
  | modified => exact hwhen fun _ hc => kept.mute_changeBreakEvent ht hc a.event _ _
  | enableChanged => exact hwhen fun _ hc => kept.mute_changeBreakEvent ht hc a.event _ _
  | statusChanged => exact Mute.pure ()

end Others

section Own

variable (kept : M.KeptBy h)
include kept

theorem KeptBy.asked (q : EngineRequest) :
    M.Notes R ((h.engine M.session).answer q).run c v fun x v' is =>
      v' = v.asked q x ∧ is = [.asked ⟨q, x⟩] := by
  refine (kept.answer M.session q).notes.mono ?_
  rintro x v' is ⟨rfl, rfl⟩
  simp only [if_true]
  exact ⟨rfl, trivial⟩

theorem KeptBy.log (hc : c.isOf M.session = true) (text : String) :
    M.Notes R (h.log M.session false text) c v fun _ v' is =>
      v' = v ∧ is = (v.session.desk R).logged text := by
  refine Notes.session ?_
  intro w hw hR
  have hwriter : (w.routers.getD v.session.output.index {}).writer .log =
      (v.session.desk R).log := by rw [hR]; rfl
  have hrun : run (h.writeTo v.session.output .log false text) c w =
      run ((w.routers.getD v.session.output.index {}).write h.write .log false text) c w := rfl
  rw [hrun]
  simp only [OutputRouter.write, Desk.logged, hwriter]
  cases (v.session.desk R).log with
  | none => exact Notes.pure ⟨rfl, rfl⟩ w hw hR
  | some k =>
      exact (kept.write k false text).aside [.wrote k false text]
        (fun _ => if_pos hc) rfl w hw hR

theorem KeptBy.offerFault (hc : c.isOf M.session = true) (e : SessionError) :
    M.Notes R (M.session.offerFault h e) c v fun _ v' is =>
      v' = v ∧ is = (v.session.desk R).offered e := by
  refine Notes.session ?_
  simp only [Desk.offered, Session.desk]
  cases v.session.handlers.fault with
  | none => exact Notes.pure ⟨rfl, rfl⟩
  | some k =>
      exact (kept.handleFault k e).aside [.offered k e] (fun _ => if_pos hc) rfl

theorem KeptBy.reportEditFailure (hc : c.isOf M.session = true) (e : BreakEvent)
    (err : EngineError) : M.Notes R (M.session.reportEditFailure h e err) c v fun _ v' is =>
      v' = v ∧ is = (v.session.desk R).ofEdit e err := by
  have hoffer := (kept.offerFault (R := R) (v := v) hc (.breakEvent e.text err)).discard
  refine (Notes.still Ledger.Leads.isStarted (fun _ => rfl) fun _ => rfl).bind ?_
  rintro started v' is ⟨⟨rfl, rfl⟩, rfl⟩
  have hstarted : (v'.session.desk R).started = v'.started := rfl
  simp only [Desk.ofEdit, hstarted]
  cases v'.started with
  | false => exact hoffer
  | true =>
      refine (kept.log hc _).bind ?_
      rintro _ v'' is ⟨rfl, rfl⟩
      refine hoffer.mono ?_
      rintro _ v' is ⟨rfl, rfl⟩
      exact ⟨rfl, rfl⟩

theorem KeptBy.addBreakEvent (hc : c.isOf M.session = true) (e : BreakEvent) :
    M.Notes R (M.session.addBreakEvent h e) c v fun bound v' is =>
      ∃ x : Except EngineError Binding, bound = x.isOk ∧
        v' = (v.asked (.insert e) x).rebind (v.bindings.insert (.ofAnswer e x)) ∧
        is = .asked ⟨.insert e, x⟩ :: (v.session.desk R).ofBinding e x := by
  refine (kept.asked (.insert e)).bind ?_
  rintro x v' is ⟨rfl, rfl⟩
  cases x with
  | ok b => exact Notes.modifyBindings (Notes.pure ⟨.ok b, rfl, rfl, rfl⟩)
  | error err =>
      refine Notes.bind (P := fun _ v' is =>
        v' = (v.asked (.insert e) (.error err)).rebind
          (v.bindings.insert (.failed e err.message)) ∧
        is = (v.session.desk R).ofBinding e (.error err)) ?_ ?_
      · refine (kept.log hc _).bind ?_
        rintro _ v' is ⟨rfl, rfl⟩
        refine Notes.modifyBindings ((kept.offerFault hc _).discard.mono ?_)
        rintro _ v' is ⟨rfl, rfl⟩
        exact ⟨rfl, rfl⟩
      · rintro _ v' is ⟨rfl, rfl⟩
        refine Notes.pure ⟨.error err, rfl, rfl, ?_⟩
        rw [List.append_nil]
        rfl

/-- News of a status is no matter for sessions. -/
theorem KeptBy.announceStatus (st : StoreId) (id : BreakEventId) :
    M.Notes R (st.announceStatus h id) c v fun _ v' is => v' = v ∧
      is = ((v.store st).get? id).toList.flatMap
        fun e => (v.store st).tidings st ⟨.statusChanged, e⟩ v.session := by
  refine Notes.store ?_
  cases (v.store st).get? id with
  | none => exact Notes.pure ⟨rfl, rfl⟩
  | some e =>
      refine Notes.store ?_
      simp only [Option.toList_some, List.flatMap_singleton, BreakpointStore.tidings,
        BreakpointStore.outside]
      induction (v.store st).listeners with
      | nil => exact Notes.pure ⟨rfl, rfl⟩
      | cons l rest ih =>
          obtain ⟨i, listener⟩ := l
          cases listener with
          | session t => exact ih
          | external k =>
              refine ((kept.storeChanged k st _).aside _ (fun _ => rfl) rfl).bind ?_
              rintro _ v' is ⟨rfl, rfl⟩
              refine ih.mono ?_
              rintro _ v' is ⟨rfl, rfl⟩
              exact ⟨rfl, rfl⟩

theorem KeptBy.announcesStatus (id : BreakEventId) :
    M.Notes R (M.session.announceStatus h id) c v fun _ v' is =>
      v' = v ∧ is = v.session.tidings v.store id := by
  refine Notes.session ?_
  simp only [Session.tidings]
  cases v.session.store with
  | none => exact Notes.pure ⟨rfl, rfl⟩
  | some st =>
      rw [Option.toList_some, List.flatMap_singleton]
      exact kept.announceStatus st id

end Own

end Monitor

namespace Scripted

open Act

abbrev Monitored := Simulation.Memory × List Observation

def monitor : Monitor Monitored := ⟨self, (·.2)⟩

def writeDown (is : List Observation) : Act Monitored Unit := modifyHost fun x => (x.1, x.2 ++ is)

def monitoring (script : List Exchange → Mood) :
    (x : Contact) → (String → Act Monitored (Option String)) → Act Monitored x.Answer
  | .answer t q, _ => do
    let past := monitor.ledger.entries (← Act.host)
    writeDown (if t = self then [.asked ⟨q, script past q⟩] else [])
    return script past q
  | .storeChanged k st a, _ => do writeDown [.told k st a (← session self)]
  | .write k isError text, _ => do
    writeDown (if (← read).isOf self then [.wrote k isError text] else [])
  | .handleFault k e, _ => do
    writeDown (if (← read).isOf self then [.offered k e] else [])
    return true
  | .allowsChanges _, _ | .customHit _ _ _, _ => return true
  | .vetoes _ _, _ => return false
  | .resolveExpression _ _ _, _ => return .ok none
  | .resolveType _ _ _, _ | .provideEvaluator _ _, _ => return none
  | .observe _ _ _, _ | .trace _ _ _, _ => return

def monitored (script : List Exchange → Mood) : Host Monitored :=
  (Simulation.host default).calling (monitoring script)

theorem monitor_kept (script : List Exchange → Mood) : monitor.KeptBy (monitored script) := by
  have hsilent {α : Type} (x : α) : monitor.Keeps (fun _ _ _ => []) (pure x : Act Monitored α) :=
    fun _ w => ⟨x, w, rfl, rfl, rfl, rfl, rfl, (List.append_nil _).symm⟩
  have hpure {α : Type} (x : α) : monitor.ledger.Silent (pure x : Act Monitored α) :=
    (hsilent x).ledger fun _ _ _ => rfl
  have hanswer (t : SessionId) (q : EngineRequest) : monitor.Keeps
      (fun _ _ x => if t = self then [.asked ⟨q, x⟩] else [])
      (((monitored script).engine t).answer q).run :=
    fun _ w => ⟨script (monitor.ledger.entries w.host) q, _, rfl, rfl, rfl, rfl, rfl, rfl⟩
  have htold (k : CallbackId) (st : StoreId) (a : Announcement) : monitor.Keeps
      (fun _ x _ => [.told k st a x]) ((monitored script).storeChanged k st a) :=
    fun _ w => ⟨(), _, rfl, rfl, rfl, rfl, rfl, rfl⟩
  have hwrote (k : CallbackId) (isError : Bool) (text : String) : monitor.Keeps
      (fun c _ _ => if c.isOf self then [.wrote k isError text] else [])
      ((monitored script).write k isError text) :=
    fun _ w => ⟨(), _, rfl, rfl, rfl, rfl, rfl, rfl⟩
  have hoffered (k : CallbackId) (e : SessionError) : monitor.Keeps
      (fun c _ _ => if c.isOf self then [.offered k e] else [])
      ((monitored script).handleFault k e) :=
    fun _ w => ⟨true, _, rfl, rfl, rfl, rfl, rfl, rfl⟩
  exact {
    quiet := {
      answer := fun t q => (hanswer t q).ledger fun _ _ _ => by
        change List.filterMap _ (if t = self then _ else _) = if t = self then _ else _
        split <;> rfl
      allowsChanges := fun _ => hpure true
      resolveExpression := fun _ _ _ _ _ => hpure (Except.ok none)
      observe := fun _ _ _ => hpure ()
      storeChanged := fun k st a => (htold k st a).ledger fun _ _ _ => rfl
      vetoes := fun _ _ => hpure false
      write := fun k isError text => (hwrote k isError text).ledger fun c _ _ => by split <;> rfl
      handleFault := fun k e => (hoffered k e).ledger fun c _ _ => by split <;> rfl
      trace := fun _ _ _ => hpure ()
      customHit := fun _ _ _ => hpure true
      resolveType := fun _ _ _ => hpure none
      provideEvaluator := fun _ _ => hpure none }
    answer := hanswer
    allowsChanges := fun _ => hsilent true
    observe := fun _ _ _ => hsilent ()
    storeChanged := htold
    vetoes := fun _ _ => hsilent false
    write := hwrote
    handleFault := hoffered }

end Scripted

end DebugSession
