import DebugSession.Proofs.HiddenState
import DebugSession.Proofs.Sound

namespace DebugSession

open Act

variable {σ α β : Type}

namespace World

def putStore (w : World σ) (st : StoreId) (x : BreakpointStore Listener) : World σ :=
  { w with stores := w.stores.setIfInBounds st.index x }

theorem store_putStore (w : World σ) (st st' : StoreId) (x : BreakpointStore Listener) :
    (w.putStore st x).store st' =
      if st' = st ∧ st.index < w.stores.size then x else w.store st' :=
  Standing.store_putStore ⟨default, w.stores, w.directory, []⟩ st st' x

theorem store_putStore_self {w : World σ} {st : StoreId} (hst : st.index < w.stores.size)
    (x : BreakpointStore Listener) : (w.putStore st x).store st = x := by
  rw [store_putStore, if_pos ⟨rfl, hst⟩]

theorem size_putStore (w : World σ) (st : StoreId) (x : BreakpointStore Listener) :
    (w.putStore st x).stores.size = w.stores.size := Array.size_setIfInBounds

theorem putStore_self (w : World σ) (st : StoreId) : w.putStore st (w.store st) = w := by
  have hstores : w.stores.setIfInBounds st.index (w.store st) = w.stores :=
    congrArg Standing.stores (Standing.putStore_self ⟨default, w.stores, w.directory, []⟩ st)
  simp only [putStore, hstores]

theorem lt_size_of_listener {w : World σ} {st : StoreId} {l : ListenerId × Listener}
    (hl : l ∈ (w.store st).listeners) : st.index < w.stores.size := by
  refine Nat.lt_of_not_le fun hle => ?_
  rw [store, Array.getD_eq_getD_getElem?, Array.getElem?_eq_none hle] at hl
  cases hl

end World

/-- A program that ends, with what `Q` allows. -/
def Act.Yields (a : Act σ α) (c : Scope) (w : World σ) (Q : α → World σ → Prop) : Prop :=
  ∃ x w', run a c w = (.ok x, w') ∧ Q x w'

namespace Act.Yields

variable {a : Act σ α} {f : α → Act σ β} {c : Scope} {w : World σ}
variable {P Q : α → World σ → Prop} {R : β → World σ → Prop}

theorem mono (ha : Yields a c w P) (hPQ : ∀ x w', P x w' → Q x w') : Yields a c w Q := by
  obtain ⟨x, w', hrun, hx⟩ := ha
  exact ⟨x, w', hrun, hPQ x w' hx⟩

theorem pure {x : α} (hx : Q x w) : Yields (Pure.pure x) c w Q := ⟨x, w, rfl, hx⟩

theorem step {x : α} {w' : World σ} (hrun : run a c w = (.ok x, w')) (hf : Yields (f x) c w' R) :
    Yields (a >>= f) c w R := by
  obtain ⟨y, w'', hrun', hy⟩ := hf
  refine ⟨y, w'', ?_, hy⟩
  rw [run_bind, hrun]
  exact hrun'

theorem bind (ha : Yields a c w P) (hf : ∀ x w', P x w' → Yields (f x) c w' R) :
    Yields (a >>= f) c w R := by
  obtain ⟨x, w', hrun, hx⟩ := ha
  exact step hrun (hf x w' hx)

theorem discard {Q : Unit → World σ → Prop} (ha : Yields a c w fun _ w' => Q () w') :
    Yields (discard a) c w Q := by
  change Yields ((fun _ => ()) <$> a) c w Q
  rw [map_eq_pure_bind]
  exact ha.bind fun _ _ hx => pure hx

theorem followedBy {last : Act σ Unit} (ha : Yields a c w P)
    (hlast : ∀ x w', P x w' → Yields last c w' fun _ w'' => Q x w'') :
    Yields (Act.followedBy a last) c w Q := by
  obtain ⟨x, w', hrun, hx⟩ := ha
  obtain ⟨⟨⟩, w'', hrun', hy⟩ := hlast x w' hx
  refine ⟨x, w'', ?_, hy⟩
  rw [Act.followedBy, run_bind, run_outcome, hrun]
  dsimp only
  rw [run_bind, hrun']
  rfl

theorem session {s : SessionId} {f : Session → Act σ β} (hf : Yields (f (w.session s)) c w R) :
    Yields (Act.session s >>= f) c w R :=
  step rfl hf

theorem store {st : StoreId} {f : BreakpointStore Listener → Act σ β}
    (hf : Yields (f (w.store st)) c w R) : Yields (Act.store st >>= f) c w R :=
  step rfl hf

theorem thread {f : Thread → Act σ β} (hf : Yields (f c.thread) c w R) :
    Yields (Act.thread >>= f) c w R :=
  step rfl hf

theorem setStore {st : StoreId} {x : BreakpointStore Listener} {f : Unit → Act σ β}
    (hf : Yields (f ()) c (w.putStore st x) R) : Yields (Act.setStore st x >>= f) c w R :=
  step rfl hf

/-- A loop, with what holds when only some of its items are left. -/
theorem forM {xs : List α} {f : α → Act σ Unit} (I : List α → World σ → Prop) (hI : I xs w)
    (hf : ∀ x rest w', I (x :: rest) w' → Yields (f x) c w' fun _ w'' => I rest w'') :
    Yields (xs.forM f) c w fun _ w' => I [] w' := by
  induction xs generalizing w with
  | nil => exact pure hI
  | cons x rest ih => exact (hf x rest w hI).bind fun _ _ hw' => ih hw'

/-- A move of an event, which nobody is told yet. -/
theorem moved (st : StoreId) (id : BreakEventId) (line : Nat) (c : Scope) (w : World σ) :
    Yields (st.move id line) c w fun r w' => match r with
      | .error err => (w.store st).adjust id line = .error err ∧ w' = w
      | .ok none => (w.store st).adjust id line = .ok (w.store st, none) ∧ w' = w
      | .ok (some a) => ∃ y, (w.store st).adjust id line = .ok (y, some a) ∧
          w' = w.putStore st y := by
  refine Yields.store ?_
  cases hadjust : (w.store st).adjust id line with
  | error err => exact Yields.pure ⟨rfl, rfl⟩
  | ok y =>
      obtain ⟨y, _ | a⟩ := y
      · obtain rfl := BreakpointStore.adjust_none hadjust
        exact Yields.setStore (Yields.pure ⟨rfl, World.putStore_self w st⟩)
      · exact Yields.setStore (Yields.pure ⟨y, rfl, rfl⟩)

end Act.Yields

structure World.Frame (σ : Type) where
  rel : World σ → World σ → Prop
  refl : ∀ w, rel w w
  trans : ∀ {w w' w''}, rel w w' → rel w' w'' → rel w w''
  session : ∀ w s m, rel w (w.withSession s m)

def Act.Within (F : World.Frame σ) (a : Act σ α) : Prop :=
  ∀ c w, Yields a c w fun _ w' => F.rel w w'

namespace Act.Within

variable {F : World.Frame σ} {a b : Act σ α} {f : α → Act σ β}

theorem pure (x : α) : Within F (Pure.pure x : Act σ α) := fun _ w => Yields.pure (F.refl w)

theorem bind (ha : Within F a) (hf : ∀ x, Within F (f x)) : Within F (a >>= f) := fun c w =>
  (ha c w).bind fun x w' hx => (hf x c w').mono fun _ _ hy => F.trans hx hy

theorem discard (ha : Within F a) : Within F (discard a) := fun c w => (ha c w).discard

theorem ite {p : Prop} [Decidable p] (ha : Within F a) (hb : Within F b) :
    Within F (if p then a else b) := by
  split
  · exact ha
  · exact hb

theorem forM {xs : List α} {f : α → Act σ Unit} (hf : ∀ x, Within F (f x)) :
    Within F (xs.forM f) := by
  induction xs with
  | nil => exact pure ()
  | cons x rest ih => exact (hf x).bind fun _ => ih

theorem anyM {xs : List α} {p : α → Act σ Bool} (hp : ∀ x, Within F (p x)) :
    Within F (xs.anyM p) := by
  induction xs with
  | nil => exact pure false
  | cons x rest ih =>
      refine (hp x).bind fun found => ?_
      cases found with
      | true => exact pure true
      | false => exact ih

theorem read {f : World σ → Act σ α} (hf : ∀ w, Within F (f w)) : Within F (MonadState.get >>= f) :=
  fun c w => Yields.step rfl (hf w c w)

theorem session {s : SessionId} {f : Session → Act σ α} (hf : ∀ x, Within F (f x)) :
    Within F (Act.session s >>= f) := fun c w => Yields.session (hf _ c w)

theorem bindings {s : SessionId} {f : BindingTable → Act σ α} (hf : ∀ t, Within F (f t)) :
    Within F (s.bindings >>= f) := fun c w => Yields.step rfl (hf _ c w)

theorem store {st : StoreId} {f : BreakpointStore Listener → Act σ α} (hf : ∀ x, Within F (f x)) :
    Within F (Act.store st >>= f) := fun c w => Yields.store (hf _ c w)

theorem modifySession (s : SessionId) (m : Session → Session) :
    Within F (Act.modifySession s m : Act σ Unit) := fun _ w => ⟨(), _, rfl, F.session w s m⟩

theorem locked {s : SessionId} (ha : Within F a) : Within F (Act.locked s a) := fun _ w => ha _ w

theorem entering {s : SessionId} {otherwise : α} (ha : Within F a) :
    Within F (Act.entering s otherwise a) := by
  have hkeeping : Within F (Act.keeping s a) := fun _ w => ha _ w
  exact bind (fun _ w => ⟨_, w, rfl, F.refl w⟩) fun _ => ite hkeeping (pure otherwise)

theorem whenStarted {s : SessionId} {a : Act σ Unit} (ha : Within F a) :
    Within F (s.whenStarted a) :=
  entering (locked (bind (session fun _ => pure _) fun _ => ite ha (pure ())))

theorem isAdjusting (s : SessionId) : Within F (s.isAdjusting : Act σ Bool) :=
  entering (bindings fun t => fun c w => ⟨t.isEditing c.thread, w, rfl, F.refl w⟩)

theorem recordMove (s : SessionId) (e : BreakEvent) : Within F (s.recordMove e : Act σ Unit) := by
  refine bindings fun t => ?_
  cases t.get? e.id with
  | none => exact pure ()
  | some r => exact modifySession s _

theorem isReadOnly {h : Host σ} {s : SessionId} (hallows : Within F (h.engine s).allowsChanges) :
    Within F (s.isReadOnly h) := by
  refine bind (fun _ w => ⟨_, w, rfl, F.refl w⟩) fun _ => ?_
  exact ite (pure true) (locked (hallows.bind fun x => pure (!x)))

variable {st : StoreId} (hput : ∀ w y, F.rel w (w.putStore st y))
include hput

theorem move (id : BreakEventId) (line : Nat) : Within F (st.move id line : Act σ _) := by
  refine store fun x => ?_
  cases x.adjust id line with
  | error err => exact pure _
  | ok y => exact fun c w => Yields.setStore (Yields.pure (hput w y.1))

theorem moveRecorded (s : SessionId) (id : BreakEventId) (line : Nat) :
    Within F (s.move st id line : Act σ _) := by
  refine locked ((move hput id line).bind fun r => ?_)
  rcases r with err | (_ | a)
  · exact pure _
  · exact pure _
  · exact (recordMove s a.new).bind fun _ => pure _

end Act.Within

/-- A move through a session, which keeps a record of the event. -/
theorem Act.Yields.movedRecorded (F : World.Frame σ) (s : SessionId) (st : StoreId)
    (id : BreakEventId) (line : Nat) (c : Scope) (w : World σ) :
    Yields (s.move st id line) c w fun r w' => match r with
      | .ok (some a) => ∃ y, (w.store st).adjust id line = .ok (y, some a) ∧
          F.rel (w.putStore st y) w'
      | _ => w' = w := by
  refine Yields.bind (f := fun r => _) (Yields.moved st id line _ w) fun r w₁ hw₁ => ?_
  rcases r with err | (_ | a)
  · exact Yields.pure hw₁.2
  · exact Yields.pure hw₁.2
  · obtain ⟨y, hy, rfl⟩ := hw₁
    have hrecord : Within F (s.recordMove a.new : Act σ Unit) := Within.recordMove s a.new
    exact (hrecord _ (w.putStore st y)).bind fun _ _ hw₂ => Yields.pure ⟨y, hy, hw₂⟩

structure Host.Keeps (h : Host σ) (F : World.Frame σ) : Prop where
  answer : ∀ s q, Within F ((h.engine s).answer q).run
  allowsChanges : ∀ s, Within F (h.engine s).allowsChanges
  write : ∀ k isError text, Within F (h.write k isError text)
  handleFault : ∀ k e, Within F (h.handleFault k e)

namespace Host.Keeps

open Within

variable {F : World.Frame σ} {h : Host σ} (keeps : h.Keeps F)
include keeps

theorem log (s : SessionId) (isError : Bool) (text : String) : Within F (h.log s isError text) := by
  refine Within.session fun x => Within.bind (Within.read fun w => Within.pure _) fun r => ?_
  simp only [OutputRouter.write]
  cases r.writer .log with
  | none => exact Within.pure ()
  | some k => exact keeps.write k isError text

theorem offerFault (s : SessionId) (e : SessionError) : Within F (s.offerFault h e) := by
  refine Within.session fun x => ?_
  cases x.handlers.fault with
  | none => exact Within.pure false
  | some k => exact keeps.handleFault k e

theorem addBreakEvent (s : SessionId) (e : BreakEvent) : Within F (s.addBreakEvent h e) := by
  have hinsert (r : BindingRecord) : Within F (s.modifyBindings (·.insert r) : Act σ Unit) :=
    Within.modifySession s _
  refine Within.bind (keeps.answer s (.insert e)) fun x => ?_
  cases x with
  | ok b => exact (hinsert _).bind fun _ => Within.pure true
  | error err =>
      refine Within.bind ?_ fun _ => Within.pure false
      refine (keeps.log s false _).bind fun _ => (hinsert _).bind fun _ => ?_
      exact (keeps.offerFault s _).discard

theorem reportEditFailure (s : SessionId) (e : BreakEvent) (err : EngineError) :
    Within F (s.reportEditFailure h e err) := by
  have hoffer := (keeps.offerFault s (.breakEvent e.text err)).discard
  refine Within.bind (Within.session fun x => Within.pure _) fun started => ?_
  cases started with
  | true => exact (keeps.log s false _).bind fun _ => hoffer
  | false => exact hoffer

theorem removeBreakEvent (s : SessionId) (id : BreakEventId) :
    Within F (s.removeBreakEvent h id) := by
  have hremove : Within F (s.modifyBindings (·.remove id) : Act σ Unit) :=
    Within.modifySession s _
  refine Within.bindings fun t => ?_
  cases t.get? id with
  | none => exact Within.pure ()
  | some r =>
      cases hhandle : r.handle with
      | none =>
          simp only [hhandle]
          exact hremove
      | some handle =>
          simp only [hhandle]
          refine Within.bind (keeps.answer s (.remove handle)) fun x => ?_
          cases x with
          | ok _ => exact hremove
          | error err => exact keeps.reportEditFailure s r.breakEvent err

theorem changeBreakEvent (s : SessionId) (e : BreakEvent) (change : BindingHandle → EngineRequest)
    (record : BreakEvent → BreakEvent) : Within F (s.changeBreakEvent h e change record) := by
  refine Within.bindings fun t => ?_
  cases t.get? e.id with
  | none => exact Within.pure ()
  | some r =>
      cases hhandle : r.handle with
      | none =>
          simp only [hhandle]
          exact Within.pure ()
      | some handle =>
          simp only [hhandle]
          refine Within.bind (keeps.answer s (change handle)) fun x => ?_
          cases x with
          | ok _ => exact Within.modifySession s _
          | error err => exact keeps.reportEditFailure s e err

theorem follow (s : SessionId) (a : Announcement) : Within F (s.follow h a) := by
  have hunless {b : Act σ Unit} (hb : Within F b) :
      Within F (do unless ← s.isAdjusting do s.whenStarted b : Act σ Unit) :=
    (Within.isAdjusting s).bind fun _ => Within.ite (Within.pure ()) hb.whenStarted
  simp only [SessionId.follow]
  cases a.change with
  | added => exact hunless (keeps.addBreakEvent s a.event).discard
  | removed => exact hunless (keeps.removeBreakEvent s a.event.id)
  | modified => exact (keeps.changeBreakEvent s a.event _ _).whenStarted
  | enableChanged => exact (keeps.changeBreakEvent s a.event _ _).whenStarted
  | statusChanged => exact Within.pure ()

variable {st : StoreId}

theorem storeIsReadOnly (hvetoes : ∀ k, Within F (h.vetoes k st)) :
    Within F (st.isReadOnly h) := by
  refine Within.store fun x => Within.anyM fun l => ?_
  obtain ⟨id, listener⟩ := l
  cases listener with
  | session s => exact Within.entering (Within.isReadOnly (keeps.allowsChanges s))
  | external k => exact hvetoes k

variable (htold : ∀ k a, Within F (h.storeChanged k st a))
include htold

theorem announce (a : Announcement) : Within F (st.announce h a) := by
  refine Within.store fun x => Within.forM fun l => ?_
  obtain ⟨id, listener⟩ := l
  cases listener with
  | session s => exact keeps.follow s a
  | external k => exact htold k a

theorem announceAll (as : List Announcement) : Within F (st.announceAll h as) :=
  Within.forM (keeps.announce htold)

theorem moveAndTell (hput : ∀ w y, F.rel w (w.putStore st y)) (s : SessionId) (id : BreakEventId)
    (line : Nat) : Within F (SessionId.adjust.moveAndTell h s id line st) := by
  refine (Within.moveRecorded hput s id line).bind fun r => ?_
  rcases r with err | (_ | a)
  · exact Within.pure _
  · exact Within.pure _
  · exact (keeps.announceAll htold a.announcements).bind fun _ => Within.pure _

end Host.Keeps

end DebugSession
