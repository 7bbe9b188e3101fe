import DebugSession.Proofs.Attachment

namespace DebugSession

def EngineRequest.isBinding : EngineRequest → Bool
  | insert _ | remove _ | update _ _ | enable _ _ => true
  | _ => false

theorem Lifecycle.started_of_after {l : Lifecycle} {t : Transition} (ht : t ≠ .initialized)
    (hstarted : (l.after t).started = true) : l.started = true := by
  cases t with
  | initialized => exact absurd rfl ht
  | reported kind =>
      simp only [after, reported] at hstarted
      split at hstarted
      · exact hstarted
      · split at hstarted
        · cases hstarted
        · exact hstarted
  | _ => exact hstarted

/-- The store that an operation edits, and whether it changes events only where they stand. -/
def Operation.edits : Operation → Option (StoreId × Bool)
  | edit st e => some (st, e.inPlace)
  | adjustLine st _ _ => some (st, false)
  | resetAdjusted st => some (st, true)
  | _ => none

def Turn.edits : Turn → Option (StoreId × Bool)
  | perform _ o => o.edits
  | work | choose _ _ => none

namespace Standing

/-- Nothing has happened that the bindings depend on, but that a run may have ended. -/
structure Spared (v v' : Standing) : Prop where
  stores : v'.stores = v.stores
  directory : v'.directory = v.directory
  bindings : v'.bindings = v.bindings
  attached : v'.session.store = v.session.store
  owned : v'.session.ownsStore = v.session.ownsStore
  subscription : v'.session.subscription = v.session.subscription
  config : v'.session.config = v.session.config
  held : v'.session.held = v.session.held
  started : v'.started = true → v.started = true
  exchanges : ∃ added, v'.exchanges = v.exchanges ++ added ∧
    ∀ x ∈ added, x.request.isBinding = false

variable {s : SessionId} {v v' v'' : Standing}

namespace Spared

theorem refl (v : Standing) : Spared v v :=
  ⟨rfl, rfl, rfl, rfl, rfl, rfl, rfl, rfl, id, [], by simp, by simp⟩

theorem trans (hv : Spared v v') (hv' : Spared v' v'') : Spared v v'' := by
  obtain ⟨added, hadded, hbinding⟩ := hv.exchanges
  obtain ⟨added', hadded', hbinding'⟩ := hv'.exchanges
  refine ⟨hv'.stores.trans hv.stores, hv'.directory.trans hv.directory,
    hv'.bindings.trans hv.bindings, hv'.attached.trans hv.attached, hv'.owned.trans hv.owned,
    hv'.subscription.trans hv.subscription, hv'.config.trans hv.config, hv'.held.trans hv.held,
    fun hstarted => hv.started (hv'.started hstarted), added ++ added', ?_, ?_⟩
  · rw [hadded', hadded, List.append_assoc]
  · intro x hx
    rcases List.mem_append.mp hx with hx | hx
    · exact hbinding x hx
    · exact hbinding' x hx

theorem asked (v : Standing) {q : EngineRequest} (x : Except EngineError q.Answer)
    (hq : q.isBinding = false) : Spared v (v.asked q x) :=
  ⟨rfl, rfl, rfl, rfl, rfl, rfl, rfl, rfl, id, [⟨q, x⟩], rfl, by simpa using hq⟩

theorem store (hv : Spared v v') (st : StoreId) : v'.store st = v.store st := by
  simp only [Standing.store]
  rw [hv.stores]

theorem grown (hv : Spared v v') : v.exchanges <+: v'.exchanges := by
  obtain ⟨added, hadded, -⟩ := hv.exchanges
  exact hadded ▸ List.prefix_append _ _

end Spared

/-- Changes of a session that its bindings do not depend on. -/
theorem Spared.of_session {x : Session} (hbindings : x.bindings = v.session.bindings)
    (hstore : x.store = v.session.store) (howns : x.ownsStore = v.session.ownsStore)
    (hsubscription : x.subscription = v.session.subscription)
    (hconfig : x.config = v.session.config) (hheld : x.held = v.session.held)
    (hstarted : x.lifecycle.started = true → v.started = true) :
    Spared v { v with session := x } :=
  ⟨rfl, rfl, hbindings, hstore, howns, hsubscription, hconfig, hheld, hstarted, [], by simp, by simp⟩

theorem Spared.chosen (v : Standing) {m : Session → Session} (hm : Session.Choice m) :
    Spared v { v with session := m v.session } := by
  have hstarted : (m v.session).lifecycle.started = v.started :=
    hm.keeps (f := (·.lifecycle.started)) (fun _ _ _ _ _ _ => rfl) v.session
  refine .of_session (hm.keeps ?_ _) (hm.keeps ?_ _) (hm.keeps ?_ _) (hm.keeps ?_ _)
    (hm.keeps ?_ _) (hm.keeps ?_ _) hstarted.symm.trans
  all_goals exact fun _ _ _ _ _ _ => rfl

theorem Wired.of_spared (hwired : Wired s v) (hv : Spared v v') : Wired s v' := by
  refine ⟨hv.held.trans hwired.held, fun st => ?_⟩
  rw [hv.store]
  exact hwired.once st

def initialized (v : Standing) : Standing :=
  { v with session :=
      { v.session with lifecycle := v.session.lifecycle.after .initialized } }

def Started (s : SessionId) (t : Thread) (v v' : Standing) : Prop :=
  ∃ v₁ st v₂, Spared v v₁ ∧ Provided s t v₁.initialized st v₂ ∧ BoundAll (v₂.store st).events v₂ v'

def Dispatched (s : SessionId) (t : Thread) (v v' : Standing) : Prop :=
  Spared v v' ∨ ∃ v₁ v₂, Spared v v₁ ∧ Swapped s t none v₁ v₂ ∧ Spared v₂ v'

theorem Dispatched.held {v v' : Standing} {s : SessionId} {t : Thread} (hv : Dispatched s t v v')
    (hheld : v.session.held = true) : v'.session.held = true := by
  rcases hv with hv | ⟨v₁, v₂, hv₁, hv₂, hv₃⟩
  · exact hv.held.trans hheld
  · exact hv₃.held.trans ((Tended.swapped hv₂).held.trans (hv₁.held.trans hheld))

theorem Spared.dispatched {v v' v'' : Standing} {s : SessionId} {t : Thread}
    (hv : Spared v v') (hv' : Dispatched s t v' v'') : Dispatched s t v v'' := by
  rcases hv' with hv' | ⟨v₁, v₂, hv₁, hv₂, hv₃⟩
  · exact .inl (hv.trans hv')
  · exact .inr ⟨v₁, v₂, hv.trans hv₁, hv₂, hv₃⟩

theorem Dispatched.spared {v v' v'' : Standing} {s : SessionId} {t : Thread}
    (hv : Dispatched s t v v') (hv' : Spared v' v'') : Dispatched s t v v'' := by
  rcases hv with hv | ⟨v₁, v₂, hv₁, hv₂, hv₃⟩
  · exact .inl (hv.trans hv')
  · exact .inr ⟨v₁, v₂, hv₁, hv₂, hv₃.trans hv'⟩

def Effect (s : SessionId) (t : Thread) (v : Standing) : Operation → Standing → Prop
  | .command _, v' => Dispatched s t v v'
  | .started _, v' => Started s t v v'
  | .fileLoaded file, v' =>
    if v.session.config.autoRetry then BoundAll ((v.waiting file).map (·.breakEvent)) v v' else v' = v
  | .fileUnloaded file, v' =>
    if v.session.config.autoRetry then Forgotten (v.stale file) v v' else v' = v
  | .setStatus handle status message, v' =>
    v' = v.rebind (v.bindings.setStatus handle status message)
  | .adjust id line, v' =>
    match v.session.store with
    | none => v' = v
    | some st => Adjusted s t st id line v v'
  | .attach new, v' => Swapped s t new v v'
  | .breakpoints, v' => ∃ st, Provided s t v st v'
  | .edit st e, v' => v' = v ∨ ∃ x, (v.store st).apply e = .ok x ∧ Edited s t st x v v'
  | .adjustLine st id line, v' =>
    v' = v ∨ ∃ x a, (v.store st).adjust id line = .ok (x, some a) ∧
      Edited s t st (x, a.announcements) v v'
  | .resetAdjusted st, v' => Revisions s t st true v v'
  | _, v' => Spared v v'

/-- All edits come to revisions of one store. -/
theorem Effect.revisions {t : Thread} {o : Operation} {st : StoreId} {inPlace : Bool}
    (ho : o.edits = some (st, inPlace)) (heffect : Effect s t v o v') :
    Revisions s t st inPlace v v' := by
  cases o with
  | edit st' e =>
      cases ho
      rcases heffect with rfl | ⟨x, happly, hedited⟩
      · exact .refl
      · exact .single ⟨x, BreakpointStore.told_apply happly, hedited⟩
  | adjustLine st' id line =>
      cases ho
      rcases heffect with rfl | ⟨x, a, hadjust, hedited⟩
      · exact .refl
      · exact .single ⟨_, BreakpointStore.told_adjust hadjust, hedited⟩
  | resetAdjusted st' =>
      cases ho
      exact heffect
  | _ => cases ho

end Standing

namespace Ledger

open Act Standing

variable {σ α β : Type} (L : Ledger σ)

def Spares (a : Act σ α) (c : Scope) : Prop :=
  ∀ v, v.session.held = true → L.Leads a c v fun _ v' => Spared v v'

variable {L} {c : Scope} {a : Act σ α} {f : α → Act σ β}

theorem Inert.spares (ha : L.Inert a c) : L.Spares a c := fun v _ =>
  (ha v).mono fun _ _ hv => hv ▸ Spared.refl v

namespace Spares

theorem pure (x : α) : L.Spares (Pure.pure x) c := (Inert.pure x c).spares

theorem bind (ha : L.Spares a c) (hf : ∀ x, L.Spares (f x) c) : L.Spares (a >>= f) c := by
  intro v hheld
  apply (ha v hheld).bind
  intro x v' hv
  exact (hf x v' (hv.held.trans hheld)).mono fun _ _ hv' => hv.trans hv'

theorem locked {s : SessionId} (ha : ∀ c', L.Spares a c') : L.Spares (Act.locked s a) c := ha _

theorem keeping {s : SessionId} (ha : ∀ c', L.Spares a c') : L.Spares (Act.keeping s a) c := ha _

theorem entering {otherwise : α} (ha : ∀ c', L.Spares a c') :
    L.Spares (Act.entering L.session otherwise a) c :=
  fun v hheld => Leads.entering hheld fun c' _ => ha c' v hheld

theorem modifySession {g : Session → Session}
    (hg : ∀ v, Spared v { v with session := g v.session }) :
    L.Spares (Act.modifySession L.session g) c := fun v _ =>
  (Leads.modifySession g).mono fun _ _ hv => hv ▸ hg v

theorem transition {t : Transition} (ht : t ≠ .initialized) :
    L.Spares (Act.transition L.session t) c :=
  Spares.modifySession fun _ => Spared.of_session rfl rfl rfl rfl rfl rfl
    (Lifecycle.started_of_after ht)

theorem settle (k : Command) : L.Spares (L.session.settle k) c := by
  simp only [SessionId.settle]
  split
  · exact transition (by simp)
  · exact transition (by simp)
  · exact Spares.pure _

end Spares

theorem Leads.dispatched {v : Standing} (ha : L.Spares a c) (hheld : v.session.held = true) :
    L.Leads a c v fun _ v' => Dispatched L.session c.thread v v' :=
  (ha v hheld).mono fun _ _ hv => .inl hv

end Ledger

namespace Ledger.Quiet

open Act Standing

variable {σ : Type} {L : Ledger σ} {h : Host σ} (quiet : L.Quiet h) {c : Scope} {v : Standing}
include quiet

theorem asks {q : EngineRequest} (hq : q.isBinding = false) :
    L.Spares ((h.engine L.session).answer q).run c := by
  intro v _
  apply (quiet.asked q).mono
  rintro _ v' ⟨m, -, rfl⟩
  exact Spared.asked v (m q) hq

theorem emitTo (s : SessionId) (e : SessionEvent) :
    L.Inert (Observers.emit s.observers (h.observe s) e) c :=
  ((Inert.session s).bind fun _ => Inert.pure _ c).bind fun _ =>
    Inert.forM fun k _ => (quiet.observe s k e).inert c

theorem emit (s : SessionId) (e : SessionEvent) : L.Inert (s.emit h e) c := quiet.emitTo s e

theorem targetEvent (e : TargetEvent) : L.Spares (L.session.targetEvent h e) c := by
  refine Spares.bind (Spares.modifySession fun v => ?_) fun _ => ?_
  · exact Spared.of_session rfl rfl rfl rfl rfl rfl (Lifecycle.started_of_after (by simp))
  · exact ((quiet.emitTo L.session _).bind fun _ => quiet.emitTo L.session _).spares

theorem recover (k : Command) (err : EngineError) : L.Spares (L.session.recover h k err) c := by
  have hfault : L.Spares (do
      return if ← L.session.offerFault h (.command k.name err) then Except.ok ()
        else Except.error (SessionError.command k.name err)) c :=
    ((quiet.offerFault L.session _).bind fun _ => Inert.pure _ c).spares
  simp only [SessionId.recover]
  cases k.recovery with
  | none => exact hfault
  | some kind => exact (quiet.targetEvent _).bind fun _ => hfault

theorem tearDown (hwired : Wired L.session v) :
    L.Leads (L.session.tearDown h) c v fun _ v' => Dispatched L.session c.thread v v' := by
  apply Leads.session.bind
  rintro x v' ⟨rfl, rfl⟩
  cases v'.session.lifecycle.disposed with
  | true => exact Leads.pure (.inl (Spared.refl v'))
  | false =>
      apply Leads.bind (Spares.transition (by simp) v' hwired.held)
      intro _ v₁ hv₁
      cases v'.session.ownsStore with
      | true => exact Leads.pure (.inl hv₁)
      | false =>
          apply (quiet.setStore (hwired.of_spared hv₁) none).mono
          intro _ v₂ hv₂
          exact .inr ⟨v₁, v₂, hv₁, hv₂, Spared.refl v₂⟩

theorem body (hwired : Wired L.session v) (k : Command) :
    L.Leads (L.session.body h k).run c v fun _ v' => Dispatched L.session c.thread v v' := by
  by_cases hk : k = .dispose
  · subst hk
    rw [SessionId.run_body_dispose]
    apply (quiet.tearDown hwired).bind
    intro _ v' hv'
    exact Leads.pure hv'
  · rw [SessionId.run_body h L.session hk]
    refine Leads.dispatched (Spares.bind (quiet.asks rfl) fun x => ?_) hwired.held
    cases x with
    | ok _ => exact (Spares.settle k).bind fun _ => Spares.pure _
    | error err => exact Spares.pure _

theorem execute (hwired : Wired L.session v) (k : Command) :
    L.Leads (L.session.execute h k) c v fun _ v' => Dispatched L.session c.thread v v' := by
  refine Leads.locked fun c' hc' => ?_
  rw [← hc']
  apply (quiet.body hwired k).bind
  intro x v' hv'
  cases x with
  | ok _ => exact Leads.pure hv'
  | error err =>
      apply (quiet.recover k err v' (hv'.held hwired.held)).mono
      intro _ v'' hv''
      exact hv'.spared hv''

theorem handOver (hwired : Wired L.session v) (k : Command) (dispatch : Dispatch) :
    L.Leads (L.session.handOver h k dispatch) c v fun _ v' =>
      Dispatched L.session c.thread v v' := by
  cases dispatch with
  | inline => exact quiet.execute hwired k
  | worker =>
      apply (Leads.modifySession _).bind
      rintro _ v' rfl
      exact Leads.pure (.inl (Spared.of_session rfl rfl rfl rfl rfl rfl id))

theorem accept (hwired : Wired L.session v) (k : Command) :
    L.Leads (L.session.accept h k) c v fun _ v' => Dispatched L.session c.thread v v' := by
  refine Leads.locked fun c' hc' => ?_
  rw [← hc']
  apply Leads.session.bind
  rintro x v' ⟨rfl, rfl⟩
  split
  · exact Leads.pure (.inl (Spared.refl v'))
  · cases k.resumes with
    | false => exact quiet.handOver hwired k _
    | true =>
        have hstart : L.Spares (L.session.announceStart h) c' :=
          (Spares.transition (by simp)).bind fun _ => (quiet.emit L.session .started).spares
        refine (hstart v' hwired.held).bind fun _ v₁ hv₁ => ?_
        apply (quiet.handOver (hwired.of_spared hv₁) k _).mono
        intro _ v'' hv''
        exact hv₁.dispatched hv''

theorem command (hwired : Wired L.session v) (k : Command) :
    L.Leads (L.session.command h k) c v fun _ v' => Dispatched L.session c.thread v v' := by
  simp only [SessionId.command]
  cases k.check with
  | error err => exact Leads.pure (.inl (Spared.refl v))
  | ok _ =>
      refine Leads.entering hwired.held fun c' hc' => Leads.locked fun c'' hc'' => ?_
      rw [← hc', ← hc'']
      have hoptions : L.Spares (L.session.takeOptions k) c'' := by
        simp only [SessionId.takeOptions]
        cases k.options? with
        | none => exact Spares.pure _
        | some options =>
            refine Spares.modifySession fun v => ?_
            split
            · exact Spared.refl v
            · exact Spared.of_session rfl rfl rfl rfl rfl rfl id
      apply (hoptions v hwired.held).bind
      intro _ v₁ hv₁
      apply (quiet.accept (hwired.of_spared hv₁) k).mono
      intro _ v' hv'
      exact hv₁.dispatched hv'

theorem work (hwired : Wired L.session v) (k : Command) :
    L.Leads (L.session.work h k) c v fun _ v' => Dispatched L.session c.thread v v' := by
  apply (quiet.execute hwired k).outcome.bind
  rintro _ v' ⟨x, rfl, hv'⟩
  cases x with
  | ok _ => exact Leads.pure hv'
  | error err =>
      apply (Leads.modifySession _).mono
      rintro _ v'' rfl
      exact hv'.spared (Spared.of_session rfl rfl rfl rfl rfl rfl id)

theorem workNext (hwired : Wired L.session v) (hthread : c.thread = .worker L.session) :
    L.Leads (L.session.workNext h) c v fun _ v' => Dispatched L.session c.thread v v' := by
  apply Leads.session.bind
  rintro x v' ⟨rfl, rfl⟩
  cases v'.session.queue.take? with
  | none => exact Leads.pure (.inl (Spared.refl v'))
  | some taken =>
      obtain ⟨k, queue⟩ := taken
      apply (Leads.modifySession _).bind
      rintro _ v₁ rfl
      have htaken : Spared v' { v' with session := { v'.session with queue := queue } } :=
        Spared.of_session rfl rfl rfl rfl rfl rfl id
      apply Leads.bind (Leads.withReader (quiet.work (hwired.of_spared htaken) k))
      intro _ v₂ hv₂
      apply (Leads.modifySession _).bind
      rintro _ v₃ rfl
      rw [hthread]
      exact Leads.pure (htaken.dispatched (hv₂.spared
        (Spared.of_session rfl rfl rfl rfl rfl rfl id)))

theorem engineStarted (hwired : Wired L.session v) (thread : Option ThreadInfo) :
    L.Leads (L.session.engineStarted h thread) c v fun _ v' => Started L.session c.thread v v' := by
  apply Leads.bind (quiet.targetEvent _ v hwired.held)
  intro _ v₁ hv₁
  refine Leads.locked fun c' hc' => ?_
  rw [← hc']
  apply (Leads.modifySession _).bind
  rintro _ v' rfl
  have hwired₁ := hwired.of_spared hv₁
  have hwired' : Wired L.session v₁.initialized := ⟨hwired₁.held, hwired₁.once⟩
  apply (quiet.breakpoints hwired').bind
  intro st v₂ hv₂
  apply (quiet.bindEvents st).mono
  intro _ v₃ hv₃
  exact ⟨v₁, st, v₂, hv₁, hv₂, hv₃⟩

theorem ask {q : EngineRequest} (hq : q.isBinding = false) : L.Spares (L.session.ask h q) c := by
  refine Spares.entering fun c' => Spares.locked fun c'' => (quiet.asks hq).bind fun x => ?_
  cases x with
  | ok x => exact Spares.pure _
  | error err => exact Spares.pure _

theorem setActiveThread (t : ThreadInfo) : L.Spares (L.session.setActiveThread h t) c := by
  refine Spares.entering fun c' => Spares.locked fun c'' => ?_
  refine (Spares.modifySession fun v => Spared.of_session rfl rfl rfl rfl rfl rfl id).bind fun _ => ?_
  refine (quiet.ask rfl).bind fun x => ?_
  cases x with
  | ok _ => exact Spares.pure _
  | error fault => exact ((quiet.offerFault L.session fault).bind fun _ => Inert.pure _ c'').spares

theorem processes : L.Spares (L.session.processes h) c := by
  refine Spares.entering fun c' => Spares.locked fun c'' => ?_
  refine (Inert.session L.session).spares.bind fun x => ?_
  cases x.processes with
  | some ps => exact Spares.pure _
  | none =>
      refine (quiet.ask rfl).bind fun answer => ?_
      cases answer with
      | error fault => exact Spares.pure _
      | ok ps =>
          refine (Spares.modifySession fun v => ?_).bind fun _ => Spares.pure _
          exact Spared.of_session rfl rfl rfl rfl rfl rfl id

theorem resolvesExpression (expression : String) (l : SourceLocation) :
    L.Spares (L.session.resolveExpression h expression l) c := by
  refine Spares.keeping fun c' => (Inert.session L.session).spares.bind fun x => ?_
  cases x.handlers.typeNames with
  | none => exact Spares.pure _
  | some resolver =>
      dsimp only
      cases x.expressions.find? (SessionId.expressionKey expression l) with
      | some known => exact Spares.pure _
      | none =>
          refine Spares.bind (Inert.spares ?_) fun answer => ?_
          · refine ((quiet.resolveExpression L.session expression l _
              (quiet.resolveType resolver · l)).inert c').bind fun x => ?_
            cases x with
            | ok answer => exact Inert.pure _ c'
            | error err => exact (quiet.log L.session true _).bind fun _ => Inert.pure _ c'
          · refine (Spares.modifySession fun v => ?_).bind fun _ => ?_
            · exact Spared.of_session rfl rfl rfl rfl rfl rfl id
            · exact ((Inert.session L.session).bind fun _ => Inert.pure _ c').spares

theorem evaluatorFor (extension : Option String) :
    L.Spares (L.session.evaluatorFor h extension) c := by
  refine Spares.bind (Spares.keeping fun c' => ?_) fun x => Spares.pure _
  refine (Inert.session L.session).spares.bind fun x => ?_
  split
  · rename_i provider ext hprovider hext
    cases x.evaluators.known.find? ext with
    | some known => exact Spares.pure _
    | none =>
        refine ((quiet.provideEvaluator provider ext).inert c').spares.bind fun answer => ?_
        refine (Spares.modifySession fun v => ?_).bind fun _ => ?_
        · exact Spared.of_session rfl rfl rfl rfl rfl rfl id
        · exact ((Inert.session L.session).bind fun _ => Inert.pure _ c').spares
  · exact Spares.pure _

theorem traces (handle : BindingHandle) (text : String) :
    L.Spares (L.session.reporter.trace h handle text) c := by
  refine Spares.entering fun c' => Inert.spares ?_
  refine ((Inert.session L.session).bind fun _ => Inert.pure _ c').bind fun t => ?_
  cases t.byHandle? handle with
  | none => exact Inert.pure _ c'
  | some record =>
      refine (Inert.session L.session).bind fun x => ?_
      cases x.handlers.trace with
      | none => exact quiet.log L.session false _
      | some k => exact (quiet.trace k _ text).inert c'

theorem asksCustomHit (action : String) (handle : BindingHandle) :
    L.Spares (L.session.reporter.customHit h action handle) c := by
  refine Spares.entering fun c' => Inert.spares ?_
  refine ((Inert.session L.session).bind fun _ => Inert.pure _ c').bind fun t => ?_
  cases t.byHandle? handle with
  | none => exact Inert.pure _ c'
  | some record =>
      refine (Inert.session L.session).bind fun x => ?_
      cases x.handlers.customHit with
      | none => exact Inert.pure _ c'
      | some k => exact (quiet.customHit k action _).inert c'

theorem perform (hwired : Wired L.session v) (o : Operation) :
    L.Leads (o.perform h L.session) c v fun _ v' => Effect L.session c.thread v o v' := by
  have hspares {α : Type} {a : Act σ α} (ha : L.Spares a c) :
      L.Leads a c v fun _ v' => Spared v v' := ha v hwired.held
  have hread {α : Type} (f : Session → α) : L.Inert (return f (← Act.session L.session)) c :=
    (Inert.session L.session).bind fun _ => Inert.pure _ c
  cases o with
  | command k => exact quiet.command hwired k
  | targetEvent e => exact hspares (Spares.entering fun _ => quiet.targetEvent e)
  | started thread =>
      refine Leads.entering hwired.held fun c' hc' => ?_
      have hstarted := quiet.engineStarted (c := c') hwired thread
      rw [hc'] at hstarted
      exact hstarted
  | write sink isError text =>
      exact hspares (Spares.entering fun c' => Inert.spares
        ((Inert.session L.session).bind fun x => quiet.writeTo x.output sink isError text))
  | fileLoaded file => exact Leads.entering hwired.held fun _ _ => quiet.fileLoaded file
  | fileUnloaded file => exact Leads.entering hwired.held fun _ _ => quiet.fileUnloaded file
  | busy state => exact hspares (Spares.entering fun _ => (quiet.emit L.session _).spares)
  | setStatus handle status message =>
      exact Leads.entering hwired.held fun _ _ => quiet.setStatus handle status message
  | recordFor handle =>
      exact hspares (Spares.entering fun c' => Inert.spares
        (((Inert.session L.session).bind fun _ => Inert.pure _ c').bind fun _ => Inert.pure _ c'))
  | trace handle text => exact hspares (quiet.traces handle text)
  | customHit action handle => exact hspares (quiet.asksCustomHit action handle)
  | adjust id line =>
      refine Leads.entering hwired.held fun c' hc' => ?_
      have hadjusted := quiet.adjust (c := c') hwired id line
      rw [hc'] at hadjusted
      exact hadjusted
  | attach st => exact quiet.setStore hwired st
  | breakpoints => exact (quiet.breakpoints hwired).mono fun st _ hv => ⟨st, hv⟩
  | edit st e => exact quiet.edit hwired st e
  | adjustLine st id line => exact quiet.adjustLine hwired st id line
  | resetAdjusted st => exact quiet.resetAdjusted hwired st
  | announceStatus st id => exact hspares (quiet.announceStatus st id).spares
  | isReadOnly st => exact hspares (quiet.isReadOnly st).spares
  | phase => exact hspares (hread _).spares
  | status id =>
      exact hspares ((Inert.session L.session).bind fun _ =>
        Inert.ite (Inert.pure _ c) (Inert.pure _ c)).spares
  | message id =>
      exact hspares ((Inert.session L.session).bind fun _ =>
        Inert.ite (Inert.pure _ c) (Inert.pure _ c)).spares
  | activeThread => exact hspares (hread _).spares
  | setActiveThread t => exact hspares (quiet.setActiveThread t)
  | options => exact hspares (hread _).spares
  | processes => exact hspares quiet.processes
  | threads process => exact hspares ((quiet.ask rfl).bind fun _ => Spares.pure _)
  | backtrace process thread => exact hspares ((quiet.ask rfl).bind fun _ => Spares.pure _)
  | disassembleFile file => exact hspares (quiet.ask rfl)
  | resolveExpression expression l => exact hspares (quiet.resolvesExpression expression l)
  | evaluatorFor extension => exact hspares (quiet.evaluatorFor extension)

end Ledger.Quiet

end DebugSession
