import DebugSession.Proofs.BindingTask

namespace DebugSession

def Session.swapping (x : Session) (stores : StoreId → BreakpointStore Listener)
    (new : Option StoreId) : List BindingTask :=
  (x.attachedEvents stores).map (.unbind ·.id) ++
    if x.lifecycle.started then new.toList.flatMap fun st => (x.left stores st).events.map .bind
    else []

namespace World

variable {σ : Type} (w : World σ) (s : SessionId)

def desk : Desk := (w.session s).desk w.routers

def chores (st : StoreId) (as : List Announcement) : List BindingTask :=
  if (w.session s).store = some st ∧ st.index < w.stores.size ∧ (w.session s).lifecycle.started
  then as.flatMap (·.tasks) else []

end World

namespace Monitor

open Act Standing

variable {σ α : Type} (M : Monitor σ)

/-- A program comes to an end, with tasks carried out that may depend on its answer. -/
def Completes (a : Act σ α) (c : Scope) (w : World σ) (es : α → List BindingTask)
    (Q : α → World σ → Prop) : Prop :=
  ∃ x w' is, run a c w = (.ok x, w') ∧ M.items w'.host = M.items w.host ++ is ∧
    Carried (w'.desk M.session) (es x) (w.session M.session).bindings
      (w'.session M.session).bindings is ∧ Q x w'

variable {M} {h : Host σ} {R : Array (OutputRouter CallbackId)} {c : Scope} {v : Standing}
variable {w : World σ} {a : Act σ α}

theorem Notes.completed {es : α → List BindingTask} {Q : α → World σ → Prop}
    (hw : M.ledger.Shows w v) (ha : M.Notes w.routers a c v fun x v' is =>
      Carried (v'.session.desk w.routers) (es x) v.bindings v'.bindings is ∧
        ∀ w', M.ledger.Shows w' v' → Q x w') : M.Completes a c w es Q := by
  obtain ⟨x, w', v', is, hrun, hw', hrouters, his, hcarried, hQ⟩ := ha w hw rfl
  refine ⟨x, w', is, hrun, his, ?_, hQ w' hw'⟩
  rwa [World.desk, hw.world_session, hw'.world_session, hrouters]

variable (kept : M.KeptBy h)
include kept

omit kept in
/-- Tasks for many events, one after another. -/
theorem Notes.forM_runs {β : Type} {xs : List β} {f : β → Act σ Unit} {g : β → BindingTask}
    (hf : ∀ x v, M.Notes R (f x) c v fun _ v' is => Runs R [g x] v v' is) :
    M.Notes R (xs.forM f) c v fun _ v' is => Runs R (xs.map g) v v' is := by
  induction xs generalizing v with
  | nil => exact Notes.pure (Runs.refl R v)
  | cons x rest ih =>
      refine (hf x v).bind ?_
      intro _ v' is hv'
      refine ih.mono ?_
      intro _ v'' is' hv''
      exact hv'.trans hv''

omit kept in
/-- News come of no task. -/
theorem Runs.tidings (v : Standing) (id : BreakEventId) :
    Runs R [] v v (v.session.tidings v.store id) := by
  refine ⟨Dealt.refl v, ?_⟩
  simp only [Session.tidings]
  cases v.session.store with
  | none => exact Carried.nil _
  | some st =>
      rw [Option.toList_some, List.flatMap_singleton]
      exact Carried.statusNews _ st _ _ _

theorem KeptBy.tells (st : StoreId) (id : BreakEventId) :
    M.Notes R (st.announceStatus h id) c v fun _ v' is => Runs R [] v v' is := by
  refine (kept.announceStatus st id).mono ?_
  rintro _ v' is ⟨rfl, rfl⟩
  exact ⟨Dealt.refl v', Carried.statusNews _ st id _ _⟩

theorem KeptBy.bindEvents (hc : c.isOf M.session = true) (st : StoreId) :
    M.Notes R (M.session.bindEvents h st) c v fun _ v' is =>
      Runs R ((v.store st).events.map .bind) v v' is :=
  Notes.store (Notes.forM_runs fun e _ => (kept.bindEvent hc e).discard)

structure Left (R : Array (OutputRouter CallbackId)) (v v' : Standing) (is : List Observation) :
    Prop where
  session : v'.session =
    { v.session with store := none, subscription := none, bindings := v'.session.bindings }
  stores : ∀ st, v'.store st = v.session.left v.store st
  carried : Carried (v.session.desk R) ((v.session.attachedEvents v.store).map (.unbind ·.id))
    v.bindings v'.bindings is

theorem KeptBy.release (hc : c.isOf M.session = true) (sound : Sound M.session v) {old : StoreId}
    (hold : v.session.store = some old) :
    M.Notes R (M.session.release h old v.session.subscription) c v.detached fun _ v' is =>
      Left R v v' is := by
  obtain ⟨l, hl⟩ := Option.isSome_iff_exists.mp (sound.subscribed (by simp [hold]))
  have hleaving : v.session.leaving (v.store old) = (v.store old).unsubscribe l := by
    simp only [Session.leaving, hl]
  have hdeaf : hooks M.session ((v.store old).unsubscribe l) = [] := by
    by_cases hlt : old.index < v.stores.size
    · rw [hooks_unsubscribe, sound.attached old ⟨hold, hlt⟩, hl]
      simp
    · rw [unsubscribe_of_size_le v (Nat.le_of_not_lt hlt)]
      rfl
  have hevents : v.session.attachedEvents v.store = (v.store old).events := by
    simp only [Session.attachedEvents, hold]
  rw [hl]
  refine Notes.store (Notes.bind (P := fun _ v₁ is =>
    Runs R ((v.store old).events.map (.unbind ·.id)) v.detached v₁ is) ?_ ?_)
  · refine Notes.forM_runs fun e v₀ => (kept.unbindEvent hc e.id).bind ?_
    intro _ v₁ is hv₁
    exact (kept.tells old e.id).mono fun _ v₂ is' hv₂ => hv₁.trans hv₂
  intro _ v₁ is hv₁
  have hstore : v₁.store old = v.store old := hv₁.dealt.store old
  refine Notes.bind (P := fun _ v₂ is => v₂ = v₁.unsubscribed old (some l) ∧ is = []) ?_ ?_
  · exact Notes.still (Ledger.Leads.unsubscribe old l) (fun _ => rfl) fun _ => rfl
  rintro _ v₂ is' ⟨rfl, rfl⟩
  have hdetached : Ready M.session v.detached := ⟨⟨sound.held, sound.once⟩, sound.idle⟩
  have hready : Ready M.session (v₁.unsubscribed old (some l)) :=
    ⟨(hdetached.of_dealt hv₁.dealt).toWired.unsubscribed old (some l),
      (hdetached.of_dealt hv₁.dealt).idle⟩
  have hput : (v₁.unsubscribed old (some l)).store old = (v.store old).unsubscribe l := by
    rw [← hstore, Standing.unsubscribed, store_putStore_of_empty, if_pos rfl]
    exact fun hle => unsubscribe_of_size_le v₁ hle l
  refine (kept.resetAdjusted hready old (by rw [hput]; exact sound.unique old)).mono ?_
  intro _ v₃ is'' hv₃
  rw [chores, hput, if_neg fun hne => hne.1 hdeaf, Standing.unsubscribed, putStore_putStore] at hv₃
  refine ⟨?_, fun st => ?_, ?_⟩
  · have hsession : v₃.session = { v₁.session with bindings := v₃.session.bindings } :=
      hv₃.dealt.session
    rw [hsession, hv₁.dealt.session]
    rfl
  · rw [hv₃.dealt.store, store_putStore_of_empty, hv₁.dealt.store]
    · simp only [Session.left, hold, Option.some.injEq]
      by_cases hst : old = st
      · subst hst
        rw [if_pos rfl, if_pos rfl, hleaving]
      · rw [if_neg (Ne.symm hst), if_neg hst]
        rfl
    · intro hle
      rw [← hstore, unsubscribe_of_size_le v₁ hle]
      rfl
  · rw [hevents, ← List.append_nil ((v.store old).events.map _)]
    have hdesk : (v₁.putStore old ((v.store old).unsubscribe l).restored).session.desk R =
        v.session.desk R := hv₁.dealt.desk R
    have hlast := hv₃.carried
    rw [hdesk] at hlast
    exact hv₁.carried.append hlast

theorem KeptBy.pointAt (hc : c.isOf M.session = true) (new : Option StoreId) :
    M.Notes R (M.session.pointAt h new) c v fun _ v' is =>
      Carried (v.session.desk R) (if v.started then
        new.toList.flatMap fun st => (v.store st).events.map .bind else []) v.bindings v'.bindings is ∧
      ∀ st, (v'.store st).events = (v.store st).events := by
  refine Notes.modifySession ?_
  cases new with
  | none =>
      refine Notes.pure ⟨?_, fun _ => rfl⟩
      rw [Option.toList_none, List.flatMap_nil, ite_self]
      exact Carried.nil _
  | some st =>
      rw [Option.toList_some, List.flatMap_singleton]
      have hsubscribe (v₁ : Standing) : M.Notes R (do
          let l ← st.subscribe (.session M.session)
          Act.modifySession M.session ({ · with subscription := some l })) c v₁ fun _ v' is =>
          v' = v₁.subscribed M.session st ∧ is = [] := by
        refine (Notes.still (Ledger.Leads.subscribe st) (fun _ => rfl) fun _ => rfl).bind ?_
        rintro l v₂ is ⟨⟨rfl, rfl⟩, rfl⟩
        refine (Notes.still (Ledger.Leads.modifySession _) (fun _ => rfl) fun _ => rfl).mono ?_
        rintro _ v₃ is ⟨rfl, rfl⟩
        exact ⟨rfl, rfl⟩
      have hevents (v₁ : Standing) (st' : StoreId) :
          ((v₁.subscribed M.session st).store st').events = (v₁.store st').events := by
        rw [store_subscribed]
        split
        · rename_i hst
          rw [hst.1]
          rfl
        · rfl
      refine (Notes.still Ledger.Leads.isStarted (fun _ => rfl) fun _ => rfl).bind ?_
      rintro started _ _ ⟨⟨hstarted, rfl⟩, rfl⟩
      have hstarted : v.started = started := hstarted.symm
      rw [hstarted]
      cases started with
      | true =>
          refine (kept.bindEvents (v := v.pointedAt (some st)) hc st).bind ?_
          intro _ v₁ is hv₁
          refine (hsubscribe v₁).mono ?_
          rintro _ v₂ _ ⟨rfl, rfl⟩
          refine ⟨?_, fun st' => ?_⟩
          · rw [List.append_nil]
            exact hv₁.carried
          · rw [hevents, hv₁.dealt.store]
            rfl
      | false =>
          refine (hsubscribe _).mono ?_
          rintro _ v₂ _ ⟨rfl, rfl⟩
          exact ⟨Carried.nil _, hevents _⟩

theorem KeptBy.setStore (sound : Sound M.session v) (new : Option StoreId) :
    M.Notes R (M.session.setStore h new) c v fun _ v' is =>
      Carried (v.session.desk R) (v.session.swapping v.store new) v.bindings v'.bindings is ∧
      ∀ st, (v'.store st).events = (v.session.left v.store st).events := by
  refine Notes.keeping fun c' hc' => Notes.locked fun c'' hc'' => Notes.session
    (Notes.modifySession ?_)
  have hc : c''.isOf M.session = true := by rwa [Scope.isOf, hc'']
  have hpoint (v₁ : Standing) (is : List Observation) (hleft : Left R v v₁ is) :
      M.Notes R (M.session.pointAt h new) c'' v₁ fun _ v' is' =>
        Carried (v.session.desk R) (v.session.swapping v.store new) v.bindings v'.bindings
          (is ++ is') ∧
        ∀ st, (v'.store st).events = (v.session.left v.store st).events := by
    refine (kept.pointAt hc new).mono ?_
    rintro _ v' is' ⟨hcarried, hevents⟩
    have hdesk : v₁.session.desk R = v.session.desk R := by rw [hleft.session]; rfl
    have hstarted : v₁.started = v.session.lifecycle.started := by
      rw [Standing.started, hleft.session]
    rw [hdesk, hstarted, funext hleft.stores] at hcarried
    exact ⟨hleft.carried.append hcarried, fun st => by rw [hevents, hleft.stores]⟩
  cases hstore : v.session.store with
  | none =>
      refine hpoint v.detached [] ⟨rfl, fun st => ?_, ?_⟩
      · simp only [Session.left, hstore]
        rfl
      · simp only [Session.attachedEvents, hstore]
        exact Carried.nil _
  | some old =>
      refine (kept.release hc sound hstore).bind ?_
      intro _ v₁ is hleft
      exact hpoint v₁ is hleft

omit kept in
theorem desk_of_tended {v v' : Standing} (hv : Tended v v') :
    v'.session.desk R = v.session.desk R := by rw [hv.session]; rfl

/-- A session that has no store makes one for itself, with nothing to bind in it. -/
theorem KeptBy.breakpoints (sound : Sound M.session v) :
    M.Notes R (M.session.breakpoints h) c v fun st v' is =>
      Carried (v.session.desk R) [] v.bindings v'.bindings is ∧
      (v'.store st).events = v.session.attachedEvents v.store ∧
      v'.session.desk R = v.session.desk R := by
  refine Notes.locked fun c' _ => Notes.session ?_
  cases hstore : v.session.store with
  | some st =>
      refine Notes.pure ⟨Carried.nil _, ?_, rfl⟩
      simp only [Session.attachedEvents, hstore]
  | none =>
      have hnothing : v.session.attachedEvents v.store = [] := by
        simp only [Session.attachedEvents, hstore]
      have hfresh : v.store ⟨v.stores.size⟩ = {} := store_of_size_le v (Nat.le_refl _)
      have hempty : (v.withNewStore.store ⟨v.stores.size⟩).events = [] := by
        rw [store_withNewStore, hfresh]
      rw [hnothing]
      refine (Notes.still Ledger.Leads.newStore (fun _ => rfl) fun _ => rfl).bind ?_
      rintro _ _ _ ⟨⟨rfl, rfl⟩, rfl⟩
      cases v.session.lifecycle.disposed with
      | true => exact Notes.pure ⟨Carried.nil _, hempty, rfl⟩
      | false =>
          have hnew := sound.withNewStore hstore
          have hleft (st : StoreId) : v.withNewStore.session.left v.withNewStore.store st =
              v.withNewStore.store st := if_neg fun h => by cases hstore.symm.trans h
          have hswapping : v.withNewStore.session.swapping v.withNewStore.store
              (some ⟨v.stores.size⟩) = [] := by
            have hevents : v.withNewStore.session.attachedEvents v.withNewStore.store = [] := by
              have hnone : v.withNewStore.session.store = none := hstore
              simp only [Session.attachedEvents, hnone]
            simp [Session.swapping, hevents, hleft, hempty]
          refine ((kept.setStore hnew _).and (kept.quiet.setStore hnew.wired _)).bind ?_
          rintro _ v₁ is ⟨⟨hcarried, hevents⟩, hswapped⟩
          rw [hswapping] at hcarried
          have hdesk : v₁.session.desk R = v.withNewStore.session.desk R :=
            desk_of_tended (Tended.swapped hswapped)
          refine Notes.modifySession (Notes.pure ⟨?_, ?_, hdesk⟩)
          · rw [List.append_nil]
            exact hcarried
          · exact (hevents ⟨v.stores.size⟩).trans (by rw [hleft, hempty])

theorem KeptBy.mute_emit (e : SessionEvent) :
    M.Mute (Observers.emit M.session.observers (h.observe M.session) e) c :=
  (Mute.session fun x => Mute.pure x.observers).bind fun _ =>
    Mute.forM fun k => (kept.observe M.session k e).mute fun _ _ => rfl

theorem KeptBy.engineStarted (hc : c.isOf M.session = true) (sound : Sound M.session v)
    (thread : Option ThreadInfo) :
    M.Notes R (M.session.engineStarted h thread) c v fun _ v' is =>
      Carried (v'.session.desk R) ((v.session.attachedEvents v.store).map .bind) v.bindings
        v'.bindings is := by
  let e := M.session.attachEvent { kind := .ready, thread := thread }
  let v₁ : Standing := { v with session := SessionId.noting v.session e }
  have sound₁ : Sound M.session v₁ := sound.of_spared
    (Spared.of_session rfl rfl rfl rfl rfl rfl (Lifecycle.started_of_after (by simp)))
  refine Notes.bind (P := fun _ v' is => v' = v₁ ∧ is = []) ?_ ?_
  · refine Notes.modifySession (Notes.of_inert ?_ ?_)
    · exact (kept.quiet.emitTo M.session _).bind fun _ => kept.quiet.emitTo M.session _
    · exact (kept.mute_emit _).bind fun _ => kept.mute_emit _
  rintro _ _ _ ⟨rfl, rfl⟩
  refine Notes.locked fun c' hc' => Notes.modifySession ?_
  have hc' : c'.isOf M.session = true := by rwa [Scope.isOf, hc']
  refine (kept.breakpoints (v := v₁.initialized) sound₁.initialized).bind ?_
  rintro st v₂ is ⟨hcarried, hevents, hdesk⟩
  refine (kept.bindEvents hc' st).mono ?_
  intro _ v₃ is' hv₃
  have hcarried' := hv₃.carried
  rw [hdesk, hevents] at hcarried'
  rw [List.nil_append, hv₃.dealt.desk, hdesk]
  exact hcarried.append hcarried'

theorem KeptBy.fileLoaded (hc : c.isOf M.session = true) (file : String) :
    M.Notes R (M.session.fileLoaded h file) c v fun _ v' is =>
      Runs R (if v.session.config.autoRetry then (v.waiting file).map (.bind ·.breakEvent) else [])
        v v' is := by
  refine Notes.session ?_
  cases v.session.config.autoRetry with
  | false => exact Notes.pure (Runs.refl R v)
  | true =>
      refine Notes.get fun w hw => ?_
      simp only [waiting, ← hw.directory]
      refine Notes.forM_runs fun r v₀ => (kept.bindEvent hc r.breakEvent).bind ?_
      intro bound v₁ is hv₁
      cases bound with
      | false => exact Notes.pure (hv₁.trans (Runs.refl R v₁))
      | true =>
          refine (kept.announcesStatus r.id).mono ?_
          rintro _ v₂ is' ⟨rfl, rfl⟩
          exact hv₁.trans (Runs.tidings v₂ r.id)

omit kept in
theorem chores_shown (hw : M.ledger.Shows w v) (sound : Sound M.session v) (st : StoreId)
    (as : List Announcement) : w.chores M.session st as = v.chores M.session st as := by
  have hattached : hooks M.session (v.store st) ≠ [] ↔ v.Attached st :=
    sound.toHooked.hooks_ne_nil
  simp only [World.chores, Standing.chores, hattached, Attached, hw.world_session, hw.stores,
    and_assoc]

omit kept in
/-- What comes of an edit of a store, when its announcements are dealt with. -/
theorem Runs.shown {st : StoreId} {x : BreakpointStore Listener} {es : List BindingTask}
    {v' : Standing} {is : List Observation} (hw : M.ledger.Shows w v)
    (hv : Runs R es (v.putStore st x) v' is) :
    Carried (v'.session.desk R) es v.bindings v'.bindings is ∧
      ∀ w', M.ledger.Shows w' v' → w'.stores = w.stores.setIfInBounds st.index x := by
  refine ⟨?_, fun w' hw' => ?_⟩
  · rw [hv.dealt.desk]
    exact hv.carried
  · rw [hw'.stores, hv.dealt.stores, hw.stores]
    rfl

/-- Whatever the engine refuses, each refusal is logged and offered once and alters no more than the
record of an event that it would not bind, all tasks are carried out in their order, and edits of
stores are made. -/
theorem refusals_contained (hw : w.InUse h M.session) (c : Scope) :
    (∀ t e err, ((BindingTask.bind e).refused t err).records =
      t.records.filter (·.id != e.id) ++ [.failed e err.message]) ∧
    (∀ thread, M.Completes (Operation.perform h M.session (.started thread)) c w
      (fun _ => ((w.session M.session).attachedEvents w.store).map .bind) fun _ _ => True) ∧
    (∀ new, M.Completes (Operation.perform h M.session (.attach new)) c w
      (fun _ => (w.session M.session).swapping w.store new)
      fun _ w' => (w'.session M.session).store = new) ∧
    (∀ file, M.Completes (Operation.perform h M.session (.fileLoaded file)) c w
      (fun _ => if (w.session M.session).config.autoRetry then
        (w.waiting M.session file).map (.bind ·.breakEvent) else []) fun _ _ => True) ∧
    (∀ st e, M.Completes (Operation.perform h M.session (.edit st e)) c w
      (fun
        | .error _ => []
        | .ok as => w.chores M.session st as)
      fun
        | .error err, w' =>
          (err = .readOnly ∨ (w.store st).apply e = .error err) ∧ w'.stores = w.stores
        | .ok as, w' => ∃ x, (w.store st).apply e = .ok (x, as) ∧
          w'.stores = w.stores.setIfInBounds st.index x) ∧
    (∀ st id line, M.Completes (Operation.perform h M.session (.adjustLine st id line)) c w
      (fun _ => match (w.store st).adjust id line with
        | .error _ => []
        | .ok (_, a) => w.chores M.session st (a.toList.flatMap (·.announcements)))
      fun r w' => match (w.store st).adjust id line with
        | .error err => r = .error err ∧ w'.stores = w.stores
        | .ok (x, _) => r = .ok () ∧ w'.stores = w.stores.setIfInBounds st.index x) ∧
    ∀ st, M.Completes (Operation.perform h M.session (.resetAdjusted st)) c w
      (fun _ => w.chores M.session st ((w.store st).restorations (w.store st).adjusted))
      fun _ w' => w'.stores = w.stores.setIfInBounds st.index (w.store st).restored := by
  obtain ⟨v, hw, sound⟩ := kept.quiet.inUse hw
  have hlive (c : Scope) : v.session.livesIn M.session c = true := by
    simp only [Session.livesIn, sound.held, Bool.true_or]
  rw [hw.world_session, funext hw.world_store]
  refine ⟨fun t e err => t.insert_records _, fun thread => ?_, fun new => ?_, fun file => ?_,
    fun st e => ?_, fun st id line => ?_, fun st => ?_⟩
  · refine Notes.completed hw (Notes.entering (hlive c) fun c' hc => ?_)
    exact (kept.engineStarted hc sound thread).mono fun _ _ _ hv' => ⟨hv', fun _ _ => trivial⟩
  · refine Notes.completed hw (((kept.setStore sound new).and
      (kept.quiet.setStore sound.wired new)).mono ?_)
    rintro _ v' is ⟨⟨hcarried, -⟩, hswapped⟩
    refine ⟨?_, fun w' hw' => ?_⟩
    · rwa [desk_of_tended (Tended.swapped hswapped)]
    · rw [hw'.world_session]
      exact hswapped.store
  · refine Notes.completed hw (Notes.entering (hlive c) fun c' hc => ?_)
    refine (kept.fileLoaded hc file).mono ?_
    intro _ v' is hv'
    rw [hw.waiting]
    refine ⟨?_, fun _ _ => trivial⟩
    rw [hv'.dealt.desk]
    exact hv'.carried
  · refine Notes.completed hw ((kept.edit sound.ready st e).mono ?_)
    intro r v' is hr
    cases r with
    | error err =>
        obtain ⟨herr, rfl, rfl⟩ := hr
        exact ⟨Carried.nil _, fun w' hw' => ⟨herr, hw'.stores.trans hw.stores.symm⟩⟩
    | ok as =>
        obtain ⟨x, happly, hv'⟩ := hr
        obtain ⟨hcarried, hstores⟩ := Runs.shown hw hv'
        simp only [chores_shown hw sound]
        exact ⟨hcarried, fun w' hw' => ⟨x, happly, hstores w' hw'⟩⟩
  · refine Notes.completed hw ((kept.adjustLine sound.ready st id line).mono ?_)
    intro r v' is hr
    cases hadjust : (v.store st).adjust id line with
    | error err =>
        rw [hadjust] at hr
        obtain ⟨rfl, rfl, rfl⟩ := hr
        exact ⟨Carried.nil _, fun w' hw' => ⟨rfl, hw'.stores.trans hw.stores.symm⟩⟩
    | ok xa =>
        rw [hadjust] at hr
        obtain ⟨rfl, hv'⟩ := hr
        obtain ⟨hcarried, hstores⟩ := Runs.shown hw hv'
        refine ⟨?_, fun w' hw' => ⟨rfl, hstores w' hw'⟩⟩
        simp only [chores_shown hw sound]
        exact hcarried
  · refine Notes.completed hw ((kept.resetAdjusted sound.ready st (sound.unique st)).mono ?_)
    intro _ v' is hv'
    simp only [chores_shown hw sound]
    exact Runs.shown hw hv'

end Monitor

def Observation.report? : Observation → Option (CallbackId × (String ⊕ SessionError))
  | wrote k _ text => some (k, .inl text)
  | offered k e => some (k, .inr e)
  | _ => none

namespace Scripted

open Act

def unyielding : List Exchange → Mood := complying fun past => past.length == 1 || past.length == 2

def supervised : World Monitored :=
  { host := (default, [])
    sessions := #[Session.new {} ⟨0⟩]
    routers := #[{ log := some ⟨8⟩ }]
    stores := #[{ events := [breakpoint 1 10, breakpoint 2 20] }] }

theorem supervised_self : supervised.Opened self {} where
  session := ⟨⟨0⟩, rfl⟩
  unknown := fun ⟨i⟩ l hl => by
    match i with
    | 0 | _ + 1 => cases hl
  distinct := fun ⟨i⟩ => by
    match i with
    | 0 =>
        rw [BreakpointStore.Distinct]
        decide
    | _ + 1 => exact List.nodup_nil

def handling (x : Session) : Session := { x with handlers := { x.handlers with fault := some ⟨9⟩ } }

def halfBound : World Monitored := Turn.afterAll (monitored unyielding) self
  (supervised.withSession self handling) (calls [.attach (some ⟨0⟩), .started none])

theorem halfBound_inUse : halfBound.InUse (monitored unyielding) self :=
  ((World.InUse.opened supervised_self).set (m := handling) {}).turns _

end Scripted

open Scripted in
/-- Of the first event the engine does not let go. -/
theorem Monitor.refusals_contained_by_script :
    monitor.Completes (Operation.perform (monitored unyielding) self (.attach none))
      ⟨.caller 0, [], []⟩ halfBound (fun _ => (halfBound.session self).swapping halfBound.store none)
      (fun _ w' => (w'.session self).store = none) ∧
    (Act.run (Operation.perform (monitored unyielding) self (.attach none)) ⟨.caller 0, [], []⟩
        halfBound).2.host.2.filterMap Observation.report? =
      [(⟨8⟩, .inl "Could not set breakpoint at location '/src/foo.cs:20' (target is not running)\n"),
        (⟨9⟩, .inr (.breakEvent "/src/foo.cs:20" .notRunning)),
        (⟨8⟩, .inl "target is not running\n"),
        (⟨9⟩, .inr (.breakEvent "/src/foo.cs:10" .notRunning))] :=
  ⟨(refusals_contained (monitor_kept unyielding) halfBound_inUse _).2.2.1 none, by decide +kernel⟩

end DebugSession
