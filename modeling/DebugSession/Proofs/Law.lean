import DebugSession.Proofs.Rule

namespace DebugSession

/-- A property of programs that the smallest steps of sessions and stores have, and that stays when
programs are put together. -/
structure Act.Law (σ : Type) where
  Holds : {α : Type} → Act σ α → Prop
  pure : ∀ {α : Type} (x : α), Holds (Pure.pure x : Act σ α)
  throw : ∀ {α : Type} (p : Panic), Holds (MonadExcept.throw p : Act σ α)
  bind : ∀ {α β : Type} {a : Act σ α} {f : α → Act σ β}, Holds a → (∀ x, Holds (f x)) →
    Holds (a >>= f)
  locked : ∀ {α : Type} (s : SessionId) {a : Act σ α}, Holds a → Holds (Act.locked s a)
  keeping : ∀ {α : Type} (s : SessionId) {a : Act σ α}, Holds a → Holds (Act.keeping s a)
  editing : ∀ {α : Type} (s : SessionId) {a : Act σ α}, Holds a → Holds (s.editing a)
  isLive : ∀ s : SessionId, Holds (Act.isLive s : Act σ Bool)
  lockedElsewhere : ∀ s : SessionId, Holds (Act.lockedElsewhere s : Act σ Bool)
  isAdjusting : ∀ s : SessionId, Holds (s.isAdjusting : Act σ Bool)
  get : ∀ {β : Type} {f : World σ → Act σ β}, (∀ w, f w.bare = f w) → (∀ w, Holds (f w)) →
    Holds (MonadState.get >>= f)
  modifySession : ∀ (s : SessionId) {m : Session → Session}, Session.Inner m →
    Holds (Act.modifySession s m : Act σ Unit)
  setStore : ∀ (st : StoreId) (x : BreakpointStore Listener), Holds (Act.setStore st x : Act σ Unit)
  newStore : Holds (Act.newStore : Act σ StoreId)

structure Act.Law.Eventful {σ : Type} (L : Act.Law σ) : Prop where
  transition : ∀ (s : SessionId) (t : Transition), L.Holds (Act.transition s t : Act σ Unit)
  noting : ∀ (s : SessionId) (e : TargetEvent),
    L.Holds (Act.modifySession s (SessionId.noting · e) : Act σ Unit)

def Act.Law.rule {σ : Type} (L : Act.Law σ) : Act.Rule σ where
  Holds := L.Holds
  pure := L.pure
  throw := L.throw
  bind := L.bind
  locked := L.locked
  keeping := L.keeping
  editing := L.editing
  isLive := L.isLive
  lockedElsewhere := L.lockedElsewhere
  isAdjusting := L.isAdjusting
  get := L.get
  modifySession := fun s _ hm => L.modifySession s hm.toInner
  setStore := L.setStore
  newStore := L.newStore

theorem Act.Law.Eventful.lively {σ : Type} {L : Act.Law σ} (eventful : L.Eventful) :
    L.rule.Lively := ⟨eventful.transition⟩

def Act.Obeys {σ α : Type} (L : Act.Law σ) (a : Act σ α) : Prop := L.Holds a

namespace Act.Obeys

variable {σ α β : Type} {L : Act.Law σ} {a b : Act σ α} {f : α → Act σ β}

theorem pure (x : α) : Obeys L (Pure.pure x : Act σ α) := L.pure x

theorem throw (p : Panic) : Obeys L (MonadExcept.throw p : Act σ α) := L.throw p

theorem bind (ha : Obeys L a) (hf : ∀ x, Obeys L (f x)) : Obeys L (a >>= f) := L.bind ha hf

theorem discard (ha : Obeys L a) : Obeys L (discard a) := Satisfies.discard (R := L.rule) ha

theorem ite {p : Prop} [Decidable p] (ha : Obeys L a) (hb : Obeys L b) :
    Obeys L (if p then a else b) := Satisfies.ite (R := L.rule) ha hb

theorem forM {xs : List α} {f : α → Act σ Unit} (hf : ∀ x, Obeys L (f x)) :
    Obeys L (xs.forM f) := Satisfies.forM (R := L.rule) hf

theorem locked (s : SessionId) (ha : Obeys L a) : Obeys L (Act.locked s a) := L.locked s ha

theorem entering {s : SessionId} {otherwise : α} (ha : Obeys L a) :
    Obeys L (Act.entering s otherwise a) := Satisfies.entering (R := L.rule) ha

theorem get {f : World σ → Act σ β} (hf : ∀ w, f w.bare = f w) (ha : ∀ w, Obeys L (f w)) :
    Obeys L (MonadState.get >>= f) := L.get hf ha

theorem session {s : SessionId} {f : Session → Act σ β} (hf : ∀ x, f x.bare = f x)
    (ha : ∀ x, Obeys L (f x)) : Obeys L (Act.session s >>= f) :=
  Satisfies.session (R := L.rule) hf ha

theorem modifySession {s : SessionId} {m : Session → Session} (hm : Session.Inner m) :
    Obeys L (Act.modifySession s m : Act σ Unit) := L.modifySession s hm

end Act.Obeys

/-- A change of a session that leaves alone how it is configured, where it is in its life, and what
is queued: its handlers and subscribers, say, its options, and whether its users still have it. -/
structure Session.Aside (m : Session → Session) : Prop where
  config : ∀ x, (m x).config = x.config := by intro; rfl
  lifecycle : ∀ x, (m x).lifecycle = x.lifecycle := by intro; rfl
  queue : ∀ x, (m x).queue = x.queue := by intro; rfl

theorem Session.Inner.aside {m : Session → Session} (hm : Session.Inner m) : Session.Aside m :=
  ⟨hm.config, hm.lifecycle, fun x => congrArg HiddenState.queue (hm.hidden x)⟩

structure World.Course {σ : Type} (R : World σ → World σ → Prop) : Prop where
  same : ∀ {w w'}, w'.host = w.host → w'.sessions = w.sessions → R w w'
  trans : ∀ {w w' w''}, R w w' → R w' w'' → R w w''
  aside : ∀ w s {m}, Session.Aside m → R w (w.withSession s m)

def World.Course.law {σ : Type} {R : World σ → World σ → Prop} (course : World.Course R) :
    Act.Law σ where
  Holds a := ∀ c w, R w (Act.run a c w).2
  pure := fun _ _ _ => course.same rfl rfl
  throw := fun _ _ _ => course.same rfl rfl
  bind := Act.Makes.bind (R := R) course.trans
  locked := @Act.Makes.locked σ R
  keeping := @Act.Makes.keeping σ R
  editing := by
    intro α s a ha c w
    exact Act.Makes.editing (R := R) course.trans (fun w s _ => course.aside w s {})
      (fun w s _ => course.aside w s {}) s ha c w
  isLive := fun _ _ _ => course.same rfl rfl
  lockedElsewhere := fun _ _ _ => course.same rfl rfl
  isAdjusting := Act.Makes.isAdjusting (R := R) fun _ => course.same rfl rfl
  get := fun _ ha c w => ha w c w
  modifySession := fun s _ hm _ w => course.aside w s hm.aside
  setStore := fun _ _ _ _ => course.same rfl rfl
  newStore := fun _ _ => course.same rfl rfl

structure Host.Abides {σ : Type} (h : Host σ) (L : Act.Law σ) : Prop where
  answer : ∀ t q, Act.Obeys L ((h.engine t).answer q).run
  allowsChanges : ∀ t, Act.Obeys L (h.engine t).allowsChanges
  resolveExpression : ∀ t expression location ask, (∀ name, Act.Obeys L (ask name)) →
    Act.Obeys L ((h.engine t).resolveExpression expression location ask).run
  observe : ∀ t k e, Act.Obeys L (h.observe t k e)
  storeChanged : ∀ k st a, Act.Obeys L (h.storeChanged k st a)
  vetoes : ∀ k st, Act.Obeys L (h.vetoes k st)
  write : ∀ k isError text, Act.Obeys L (h.write k isError text)
  handleFault : ∀ k e, Act.Obeys L (h.handleFault k e)
  trace : ∀ k e text, Act.Obeys L (h.trace k e text)
  customHit : ∀ k action e, Act.Obeys L (h.customHit k action e)
  resolveType : ∀ k name l, Act.Obeys L (h.resolveType k name l)
  provideEvaluator : ∀ k extension, Act.Obeys L (h.provideEvaluator k extension)

theorem Host.Respects.abides {σ : Type} {L : Act.Law σ} {h : Host σ}
    (respects : h.Respects L.rule) : h.Abides L :=
  ⟨respects.answer, respects.allowsChanges, respects.resolveExpression, respects.observe,
    respects.storeChanged, respects.vetoes, respects.write, respects.handleFault, respects.trace,
    respects.customHit, respects.resolveType, respects.provideEvaluator⟩

namespace Host.Abides

open Act Act.Obeys

variable {σ : Type} {L : Act.Law σ} {h : Host σ} (abides : h.Abides L)

theorem move (s : SessionId) (st : StoreId) (id : BreakEventId) (line : Nat) :
    Obeys L (s.move st id line : Act σ _) := Respects.move (R := L.rule) s st id line

theorem takeOptions (s : SessionId) (k : Command) : Obeys L (s.takeOptions k : Act σ Unit) :=
  Respects.takeOptions (R := L.rule) s k

include abides

theorem respects : h.Respects L.rule :=
  ⟨abides.answer, abides.allowsChanges, abides.resolveExpression, abides.observe,
    abides.storeChanged, abides.vetoes, abides.write, abides.handleFault, abides.trace,
    abides.customHit, abides.resolveType, abides.provideEvaluator⟩

theorem offerFault (s : SessionId) (e : SessionError) : Obeys L (s.offerFault h e) :=
  abides.respects.offerFault s e

theorem addBreakEvent (s : SessionId) (e : BreakEvent) : Obeys L (s.addBreakEvent h e) :=
  abides.respects.addBreakEvent s e

theorem removeBreakEvent (s : SessionId) (id : BreakEventId) :
    Obeys L (s.removeBreakEvent h id) := abides.respects.removeBreakEvent s id

theorem follow (s : SessionId) (a : Announcement) : Obeys L (s.follow h a) :=
  abides.respects.follow s a

theorem bindEvents (s : SessionId) (st : StoreId) : Obeys L (s.bindEvents h st) :=
  abides.respects.bindEvents s st

theorem setStore (s : SessionId) (new : Option StoreId) : Obeys L (s.setStore h new) :=
  abides.respects.setStore s new

theorem breakpoints (s : SessionId) : Obeys L (s.breakpoints h) := abides.respects.breakpoints s

theorem emitTo (s : SessionId) (e : SessionEvent) :
    Obeys L (Observers.emit s.observers (h.observe s) e) := abides.respects.emitTo s e

/-- Most of what can be asked of a session leaves its life alone. -/
theorem perform_uneventful (s : SessionId) {o : Operation} (ho : o.isEventful = false) :
    Obeys L (o.perform h s) := by
  by_cases hlist : o = .processes
  · subst hlist
    exact abides.respects.processes s fun _ => modifySession {}
  · exact abides.respects.perform_uneventful s ho hlist

variable (eventful : L.Eventful)

include eventful

theorem execute (s : SessionId) (k : Command) : Obeys L (s.execute h k) :=
  abides.respects.execute eventful.lively (eventful.noting s) k

theorem announceStart (s : SessionId) : Obeys L (s.announceStart h) :=
  abides.respects.announceStart eventful.lively s

theorem perform (s : SessionId) {o : Operation} (ho : ∀ k, o ≠ .command k) :
    Obeys L (o.perform h s) := by
  have hnoting : ∀ e, Obeys L (Act.modifySession s (SessionId.noting · e) : Act σ Unit) :=
    eventful.noting s
  cases o with
  | command k => exact absurd rfl (ho k)
  | targetEvent e => exact entering (abides.respects.targetEvent hnoting e)
  | started t => exact entering (abides.respects.engineStarted eventful.lively hnoting t)
  | _ => exact abides.perform_uneventful s rfl

end Host.Abides

end DebugSession
