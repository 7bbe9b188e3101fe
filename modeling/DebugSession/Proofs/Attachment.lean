import DebugSession.Proofs.Announcement

namespace DebugSession

namespace Standing

def detached (v : Standing) : Standing :=
  { v with session := { v.session with store := none, subscription := none } }

def unsubscribed (v : Standing) (st : StoreId) : Option ListenerId → Standing
  | none => v
  | some l => v.putStore st ((v.store st).unsubscribe l)

def pointedAt (v : Standing) (new : Option StoreId) : Standing :=
  { v with session := { v.session with store := new, ownsStore := false } }

def subscribed (s : SessionId) (st : StoreId) (v : Standing) : Standing :=
  let x := (v.store st).subscribe (.session s)
  let v := v.putStore st x.2
  { v with session := { v.session with subscription := some x.1 } }

def Released (s : SessionId) (t : Thread) (st : StoreId) (subscription : Option ListenerId)
    (v v' : Standing) : Prop :=
  ∃ v₁, UnboundAll (v.store st).events v v₁ ∧
    Revisions s t st true (v₁.unsubscribed st subscription) v'

def LetGo (s : SessionId) (t : Thread) (v v' : Standing) : Prop :=
  match v.session.store with
  | none => v' = v.detached
  | some old => Released s t old v.session.subscription v.detached v'

def BoundIfStarted (st : StoreId) (v v' : Standing) : Prop :=
  if v.started then BoundAll (v.store st).events v v' else v' = v

def Swapped (s : SessionId) (t : Thread) (new : Option StoreId) (v v' : Standing) : Prop :=
  ∃ v₁, LetGo s t v v₁ ∧
    match new with
    | none => v' = v₁.pointedAt none
    | some st => ∃ v₂, BoundIfStarted st (v₁.pointedAt (some st)) v₂ ∧ v' = v₂.subscribed s st

def withNewStore (v : Standing) : Standing := { v with stores := v.stores.push {} }

def owning (v : Standing) : Standing := { v with session := { v.session with ownsStore := true } }

/-- Having a store. What a session makes for itself it is attached to, unless it is disposed. -/
def Provided (s : SessionId) (t : Thread) (v : Standing) (st : StoreId) (v' : Standing) : Prop :=
  match v.session.store with
  | some attached => st = attached ∧ v' = v
  | none =>
    st = ⟨v.stores.size⟩ ∧
      if v.session.lifecycle.disposed then v' = v.withNewStore
      else ∃ v₁, Swapped s t (some st) v.withNewStore v₁ ∧ v' = v₁.owning

def Forgotten : List BindingRecord → Standing → Standing → Prop :=
  Chain fun r v v' => v' = v.rebind (v.bindings.remove r.id)

def waiting (v : Standing) (file : String) : List BindingRecord :=
  v.bindings.recordsWhere fun r =>
    (r.status == .notBound || r.status == .bindError) && SessionId.isIn v.directory file r

def stale (v : Standing) (file : String) : List BindingRecord :=
  v.bindings.recordsWhere fun r => r.status == .bound && SessionId.isIn v.directory file r

def moved (e : BreakEvent) (v : Standing) : Standing :=
  match v.bindings.get? e.id with
  | none => v
  | some r => v.rebind (v.bindings.insert { r with breakEvent := e })

def editing (t : Thread) (v : Standing) : Standing := v.rebind (v.bindings.beginEdit t)

def doneEditing (t : Thread) (v : Standing) : Standing := v.rebind (v.bindings.endEdit t)

/-- A move for the engine: the record follows at once, and the session is deaf to its own news. -/
def Adjusted (s : SessionId) (t : Thread) (st : StoreId) (id : BreakEventId) (line : Nat)
    (v v' : Standing) : Prop :=
  match (v.store st).adjust id line with
  | .error _ => v' = v
  | .ok (_, none) => v' = v
  | .ok (x, some a) =>
    ∃ v₁, Chain (Announced s t st) a.announcements ((v.editing t).putStore st x |>.moved a.new) v₁ ∧
      v' = v₁.doneEditing t

variable {s : SessionId} {t : Thread} {st : StoreId} {v v' : Standing}

theorem Dealt.moved (e : BreakEvent) (v : Standing) : Dealt v (v.moved e) := by
  simp only [Standing.moved]
  cases v.bindings.get? e.id with
  | none => exact Dealt.refl v
  | some r => exact Dealt.insert v _

/-- A scope that was opened and is closed leaves no trace. -/
theorem editing_doneEditing (t : Thread) (v : Standing) : (v.editing t).doneEditing t = v := by
  simp only [editing, doneEditing, rebind, BindingTable.beginEdit, BindingTable.endEdit]
  simp

theorem moved_editing (t : Thread) (e : BreakEvent) (v : Standing) :
    ((v.editing t).moved e).doneEditing t = v.moved e := by
  have hget : (v.editing t).bindings.get? e.id = v.bindings.get? e.id := rfl
  simp only [moved]
  rw [hget]
  cases v.bindings.get? e.id with
  | none => exact editing_doneEditing t v
  | some r =>
      apply congrArg v.rebind
      exact BindingTable.endEdit_insert_beginEdit v.bindings t _

theorem hooks_unsubscribe (x : BreakpointStore Listener) (l : ListenerId) :
    hooks s (x.unsubscribe l) = (hooks s x).filter (· != l) := by
  simp only [hooks, BreakpointStore.unsubscribe]
  rw [List.filter_filter, List.filter_map, List.filter_filter]
  congr 2
  funext y
  simp [Bool.and_comm]

theorem Wired.unsubscribed (hwired : Wired s v) (st : StoreId) (subscription : Option ListenerId) :
    Wired s (v.unsubscribed st subscription) := by
  cases subscription with
  | none => exact hwired
  | some l =>
      refine ⟨hwired.held, fun st' => ?_⟩
      simp only [Standing.unsubscribed]
      rw [store_putStore]
      split
      · rw [hooks_unsubscribe]
        exact Nat.le_trans (List.length_filter_le _ _) (hwired.once st)
      · exact hwired.once st'

theorem store_withNewStore (v : Standing) (st : StoreId) : v.withNewStore.store st = v.store st := by
  simp only [store, withNewStore, Array.getD_eq_getD_getElem?, Array.getElem?_push]
  split
  · rename_i hindex
    simp [hindex]
  · rfl

theorem Wired.withNewStore (hwired : Wired s v) : Wired s v.withNewStore := by
  refine ⟨hwired.held, fun st => ?_⟩
  rw [store_withNewStore]
  exact hwired.once st

/-- What binding, attaching and editing leave alone, whatever else they do. -/
structure Tended (v v' : Standing) : Prop where
  directory : v'.directory = v.directory
  session : v'.session =
    { v.session with
      store := v'.session.store
      ownsStore := v'.session.ownsStore
      subscription := v'.session.subscription
      bindings := v'.session.bindings }
  openEdits : v'.bindings.openEdits = v.bindings.openEdits
  distinct : v.bindings.Distinct → v'.bindings.Distinct
  grown : v.exchanges <+: v'.exchanges

namespace Tended

theorem refl (v : Standing) : Tended v v := ⟨rfl, rfl, rfl, id, List.prefix_refl _⟩

/-- The session may point at another store, or at none. -/
theorem of_session {x : Session} (hsession : x =
      { v.session with
        store := x.store
        ownsStore := x.ownsStore
        subscription := x.subscription }) : Tended v { v with session := x } := by
  refine ⟨rfl, ?_, ?_, ?_, List.prefix_refl _⟩
  · rw [hsession]
  · rw [hsession]
  · rw [hsession]
    exact id

theorem trans {v'' : Standing} (hv : Tended v v') (hv' : Tended v' v'') : Tended v v'' where
  directory := hv'.directory.trans hv.directory
  session := by rw [hv'.session, hv.session]
  openEdits := hv'.openEdits.trans hv.openEdits
  distinct := fun hdistinct => hv'.distinct (hv.distinct hdistinct)
  grown := hv.grown.trans hv'.grown

theorem held (hv : Tended v v') : v'.session.held = v.session.held := by rw [hv.session]

theorem started (hv : Tended v v') : v'.started = v.started := by
  simp only [Standing.started]
  rw [hv.session]

theorem config (hv : Tended v v') : v'.session.config = v.session.config := by rw [hv.session]

theorem of_dealt (hv : Dealt v v') : Tended v v' where
  directory := hv.directory
  session := by rw [hv.session]
  openEdits := hv.openEdits
  distinct := hv.distinct
  grown := hv.grown

theorem chain {α : Type} {f : α → Standing → Standing → Prop} {xs : List α}
    (hchain : Chain f xs v v') (hf : ∀ x v v', f x v v' → Tended v v') : Tended v v' := by
  induction hchain with
  | nil v => exact refl v
  | cons hx _ ih => exact (hf _ _ _ hx).trans ih

theorem putStore (v : Standing) (st : StoreId) (x : BreakpointStore Listener) :
    Tended v (v.putStore st x) := ⟨rfl, rfl, rfl, id, List.prefix_refl _⟩

theorem unsubscribed (v : Standing) (st : StoreId) (subscription : Option ListenerId) :
    Tended v (v.unsubscribed st subscription) := by
  cases subscription with
  | none => exact refl v
  | some l => exact putStore v st _

theorem revised {inPlace : Bool} (hv : Revised s t st inPlace v v') : Tended v v' := by
  obtain ⟨x, -, hedited⟩ := hv
  exact (putStore v st x.1).trans (of_dealt hedited.dealt)

theorem revisions {inPlace : Bool} (hv : Revisions s t st inPlace v v') : Tended v v' := by
  induction hv with
  | refl => exact refl v
  | tail _ hlast ih => exact ih.trans (revised hlast)

theorem boundAll {es : List BreakEvent} (hv : BoundAll es v v') : Tended v v' :=
  chain hv fun e v _ hm => by
    obtain ⟨m, rfl⟩ := hm
    exact of_dealt (Dealt.bound e m v)

theorem unboundAll {es : List BreakEvent} (hv : UnboundAll es v v') : Tended v v' :=
  chain hv fun e v _ hm => by
    obtain ⟨m, rfl⟩ := hm
    exact of_dealt (Dealt.unbound e.id m v)

theorem letGo (hv : LetGo s t v v') : Tended v v' := by
  simp only [LetGo] at hv
  cases hstore : v.session.store with
  | none =>
      rw [hstore] at hv
      exact hv ▸ of_session rfl
  | some old =>
      rw [hstore] at hv
      obtain ⟨v₁, hv₁, hv₂⟩ := hv
      have hdetached : Tended v v.detached := of_session rfl
      exact (hdetached.trans (unboundAll hv₁)).trans ((unsubscribed v₁ old _).trans (revisions hv₂))

theorem boundIfStarted (hv : BoundIfStarted st v v') : Tended v v' := by
  simp only [BoundIfStarted] at hv
  split at hv
  · exact boundAll hv
  · exact hv ▸ refl v

theorem swapped {new : Option StoreId} (hv : Swapped s t new v v') : Tended v v' := by
  obtain ⟨v₁, hv₁, hv₂⟩ := hv
  apply (letGo hv₁).trans
  have hpointed : Tended v₁ (v₁.pointedAt new) := of_session rfl
  cases new with
  | none => exact hv₂ ▸ hpointed
  | some st =>
      obtain ⟨v₂, hv₂, rfl⟩ := hv₂
      exact hpointed.trans ((boundIfStarted hv₂).trans ((putStore v₂ st _).trans (of_session rfl)))

theorem provided (hv : Provided s t v st v') : Tended v v' := by
  simp only [Provided] at hv
  split at hv
  · exact hv.2 ▸ refl v
  · obtain ⟨-, hv⟩ := hv
    have hnew : Tended v v.withNewStore := ⟨rfl, rfl, rfl, id, List.prefix_refl _⟩
    split at hv
    · exact hv ▸ hnew
    · obtain ⟨v₁, hv₁, rfl⟩ := hv
      exact hnew.trans ((swapped hv₁).trans (of_session rfl))

theorem adjusted {id : BreakEventId} {line : Nat} (hv : Adjusted s t st id line v v') :
    Tended v v' := by
  simp only [Adjusted] at hv
  split at hv
  · exact hv ▸ refl v
  · exact hv ▸ refl v
  · obtain ⟨v₁, hv₁, rfl⟩ := hv
    have hchain := chain hv₁ fun _ _ _ h => of_dealt h.dealt
    have hmoved := (of_dealt (Dealt.moved _ _)).trans hchain
    refine ⟨hmoved.directory, ?_, ?_, fun hdistinct => hmoved.distinct hdistinct, hmoved.grown⟩
    · simp only [doneEditing, rebind]
      rw [hmoved.session]
      rfl
    · have hopen : v₁.bindings.openEdits = t :: v.bindings.openEdits := hmoved.openEdits
      simp [doneEditing, rebind, BindingTable.endEdit, hopen]

theorem forgotten {rs : List BindingRecord} (hv : Forgotten rs v v') : Tended v v' :=
  chain hv fun r v _ hm => hm ▸ of_dealt (Dealt.remove v r.id)

end Tended

end Standing

namespace Ledger

open Act Standing

variable {σ : Type} {L : Ledger σ} {c : Scope} {v : Standing}

theorem Leads.subscribe (st : StoreId) :
    L.Leads (st.subscribe (.session L.session)) c v fun l v' =>
      l = ((v.store st).subscribe (.session L.session)).1 ∧
        v' = v.putStore st ((v.store st).subscribe (.session L.session)).2 := by
  apply (Leads.store st).bind
  rintro x v' ⟨rfl, rfl⟩
  apply (Leads.setStore st _).bind
  rintro _ v'' rfl
  exact Leads.pure ⟨rfl, rfl⟩

theorem Leads.unsubscribe (st : StoreId) (l : ListenerId) :
    L.Leads (st.unsubscribe l) c v fun _ v' =>
      v' = v.putStore st ((v.store st).unsubscribe l) := by
  apply (Leads.store st).bind
  rintro x v' ⟨rfl, rfl⟩
  exact Leads.setStore st _

theorem Leads.recordMove (e : BreakEvent) :
    L.Leads (L.session.recordMove e) c v fun _ v' => v' = v.moved e := by
  apply Leads.bindings.bind
  rintro t v' ⟨rfl, rfl⟩
  simp only [moved]
  cases v'.bindings.get? e.id with
  | none => exact Leads.pure rfl
  | some r => exact Leads.modifyBindings _

theorem Leads.moveRecorded (st : StoreId) (id : BreakEventId) (line : Nat) :
    L.Leads (L.session.move st id line) c v fun r v' =>
      match (v.store st).adjust id line with
      | .error err => r = .error err ∧ v' = v
      | .ok (x, none) => r = .ok none ∧ v' = v.putStore st x
      | .ok (x, some a) => r = .ok (some a) ∧ v' = (v.putStore st x).moved a.new := by
  refine Leads.locked fun c' _ => (Leads.move st id line).bind ?_
  intro r v' hr
  cases hadjust : (v.store st).adjust id line with
  | error err =>
      rw [hadjust] at hr
      obtain ⟨rfl, rfl⟩ := hr
      exact Leads.pure ⟨rfl, rfl⟩
  | ok xa =>
      obtain ⟨x, a⟩ := xa
      rw [hadjust] at hr
      obtain ⟨rfl, rfl⟩ := hr
      cases a with
      | none => exact Leads.pure ⟨rfl, rfl⟩
      | some a =>
          apply (Leads.recordMove a.new).bind
          rintro _ v' rfl
          exact Leads.pure ⟨rfl, rfl⟩

end Ledger

namespace Ledger.Quiet

open Act Standing

variable {σ : Type} {L : Ledger σ} {h : Host σ} (quiet : L.Quiet h) {c : Scope} {v : Standing}
include quiet

theorem bindEvents (st : StoreId) :
    L.Leads (L.session.bindEvents h st) c v fun _ v' => BoundAll (v.store st).events v v' := by
  apply (Leads.store st).bind
  rintro x v' ⟨rfl, rfl⟩
  exact Leads.chain (fun _ => True) trivial fun e _ _ =>
    ((quiet.addBreakEvent e).mono fun _ _ hv => ⟨trivial, hv⟩).discard

theorem release (hwired : Wired L.session v) (st : StoreId) (subscription : Option ListenerId) :
    L.Leads (L.session.release h st subscription) c v fun _ v' =>
      Released L.session c.thread st subscription v v' := by
  apply (Leads.store st).bind
  rintro x v' ⟨rfl, rfl⟩
  refine Leads.bind (P := fun _ v₁ => UnboundAll (v'.store st).events v' v₁) ?_ ?_
  · refine Leads.chain (fun _ => True) trivial fun e v _ => ?_
    apply (quiet.removeBreakEvent e.id).bind
    rintro _ v'' hv''
    apply (quiet.announceStatus st e.id v'').mono
    rintro _ _ rfl
    exact ⟨trivial, hv''⟩
  · intro _ v₁ hv₁
    have hwired₁ := hwired.of_dealt (UnboundAll.dealt hv₁)
    have hreset {v₂ : Standing} (hv₂ : v₂ = v₁.unsubscribed st subscription) :
        L.Leads (st.resetAdjusted h) c v₂ fun _ v'' =>
          Released L.session c.thread st subscription v' v'' := by
      subst hv₂
      apply (quiet.resetAdjusted (hwired₁.unsubscribed st subscription) st).mono
      intro _ v'' hv''
      exact ⟨v₁, hv₁, hv''⟩
    cases subscription with
    | none => exact hreset rfl
    | some l => exact (Leads.unsubscribe st l).bind fun _ v₂ hv₂ => hreset hv₂

/-- Pointing at a store comes after the one before is let go of. -/
theorem pointAt {v₁ : Standing} (hv₁ : LetGo L.session c.thread v v₁) (new : Option StoreId) :
    L.Leads (L.session.pointAt h new) c v₁ fun _ v' => Swapped L.session c.thread new v v' := by
  apply (Leads.modifySession _).bind
  rintro _ v' rfl
  cases new with
  | none => exact Leads.pure ⟨v₁, hv₁, rfl⟩
  | some st =>
      have hsubscribe {v₂ : Standing} (hv₂ : BoundIfStarted st (v₁.pointedAt (some st)) v₂) :
          L.Leads (do
            let l ← st.subscribe (.session L.session)
            Act.modifySession L.session ({ · with subscription := some l })) c v₂ fun _ v'' =>
          Swapped L.session c.thread (some st) v v'' := by
        apply (Leads.subscribe st).bind
        rintro l v₃ ⟨rfl, rfl⟩
        apply (Leads.modifySession _).mono
        rintro _ v₃ rfl
        exact ⟨v₁, hv₁, v₂, hv₂, rfl⟩
      apply Leads.isStarted.bind
      rintro b v'' ⟨hb, rfl⟩
      cases b with
      | true =>
          apply (quiet.bindEvents st).bind
          intro _ v₂ hv₂
          exact hsubscribe ((if_pos hb.symm).mpr hv₂)
      | false =>
          have hstarted : (v₁.pointedAt (some st)).started = false := hb.symm
          exact hsubscribe ((if_neg (by simp [hstarted])).mpr rfl)

theorem setStore (hwired : Wired L.session v) (new : Option StoreId) :
    L.Leads (L.session.setStore h new) c v fun _ v' => Swapped L.session c.thread new v v' := by
  refine Leads.keeping fun c' hc' => Leads.locked fun c'' hc'' => ?_
  rw [← hc', ← hc'']
  apply Leads.session.bind
  rintro x v' ⟨rfl, rfl⟩
  apply (Leads.modifySession _).bind
  rintro _ v₀ rfl
  cases hstore : v'.session.store with
  | none => exact quiet.pointAt (by simp [LetGo, hstore, detached]) new
  | some old =>
      have hwired' : Wired L.session v'.detached := ⟨hwired.held, hwired.once⟩
      apply (quiet.release hwired' old v'.session.subscription).bind
      intro _ v₁ hv₁
      exact quiet.pointAt (by simpa only [LetGo, hstore] using hv₁) new

theorem breakpoints (hwired : Wired L.session v) :
    L.Leads (L.session.breakpoints h) c v fun st v' => Provided L.session c.thread v st v' := by
  refine Leads.locked fun c' hc' => ?_
  rw [← hc']
  apply Leads.session.bind
  rintro x v' ⟨rfl, rfl⟩
  simp only [Provided]
  cases v'.session.store with
  | some st => exact Leads.pure ⟨rfl, rfl⟩
  | none =>
      apply Leads.newStore.bind
      rintro st v'' ⟨rfl, rfl⟩
      cases v'.session.lifecycle.disposed with
      | true => exact Leads.pure ⟨rfl, rfl⟩
      | false =>
          apply (quiet.setStore (hwired.withNewStore) (some _)).bind
          intro _ v₁ hv₁
          apply (Leads.modifySession _).bind
          rintro _ v₂ rfl
          exact Leads.pure ⟨rfl, v₁, hv₁, rfl⟩

theorem setStatus (handle : BindingHandle) (status : BindingStatus) (message : Option String) :
    L.Leads (L.session.setStatus h handle status message) c v fun _ v' =>
      v' = v.rebind (v.bindings.setStatus handle status message) := by
  apply Leads.bindings.bind
  rintro t v' ⟨rfl, rfl⟩
  cases howner : v'.bindings.owner? handle with
  | none =>
      apply Leads.pure
      simp only [BindingTable.setStatus, howner]
      rfl
  | some id =>
      apply (Leads.modifyBindings _).bind
      rintro _ v'' rfl
      refine (Inert.session L.session).bind (fun x => ?_) _
      cases x.store with
      | none => exact Inert.pure _ c
      | some st => exact quiet.announceStatus st id

/-- What is done for an adjustment while its scope is open. -/
theorem moveAndTell (hwired : Wired L.session v) (st : StoreId) (id : BreakEventId) (line : Nat) :
    L.Leads (SessionId.adjust.moveAndTell h L.session id line st) c v fun _ v' =>
      match (v.store st).adjust id line with
      | .error _ => v' = v
      | .ok (_, none) => v' = v
      | .ok (x, some a) =>
        Chain (Announced L.session c.thread st) a.announcements ((v.putStore st x).moved a.new) v' := by
  apply (Leads.moveRecorded st id line).bind
  intro r v' hr
  cases hadjust : (v.store st).adjust id line with
  | error err =>
      rw [hadjust] at hr
      obtain ⟨rfl, rfl⟩ := hr
      exact Leads.pure rfl
  | ok xa =>
      obtain ⟨x, a⟩ := xa
      rw [hadjust] at hr
      cases a with
      | none =>
          obtain ⟨rfl, rfl⟩ := hr
          exact Leads.pure (by rw [BreakpointStore.adjust_none hadjust, putStore_self])
      | some a =>
          obtain ⟨rfl, rfl⟩ := hr
          have hlisteners := BreakpointStore.listeners_adjust hadjust
          have hwired' := (hwired.putStore hlisteners).of_dealt (Dealt.moved a.new _)
          apply (quiet.announceAll hwired' st a.announcements).bind
          intro _ v' hv'
          exact Leads.pure hv'

theorem adjust (hwired : Wired L.session v) (id : BreakEventId) (line : Nat) :
    L.Leads (L.session.adjust h id line) c v fun _ v' =>
      match v.session.store with
      | none => v' = v
      | some st => Adjusted L.session c.thread st id line v v' := by
  apply Leads.session.bind
  rintro x v' ⟨rfl, rfl⟩
  cases v'.session.store with
  | none => exact Leads.pure rfl
  | some st =>
      apply Leads.thread.bind
      rintro t v ⟨rfl, rfl⟩
      apply (Leads.modifyBindings _).bind
      rintro _ v₀ rfl
      have hwired' : Wired L.session (v.editing c.thread) := ⟨hwired.held, hwired.once⟩
      apply (quiet.moveAndTell hwired' st id line).followedBy
      intro r v₁ hv₁
      apply (Leads.modifyBindings _).mono
      rintro _ v₂ rfl
      change Adjusted L.session c.thread st id line v (v₁.doneEditing c.thread)
      simp only [Adjusted]
      change match (v.store st).adjust id line with
        | .error _ => _
        | .ok (_, none) => _
        | .ok (_, some a) => _ at hv₁
      cases hadjust : (v.store st).adjust id line with
      | error err =>
          rw [hadjust] at hv₁
          subst hv₁
          exact editing_doneEditing c.thread v
      | ok xa =>
          obtain ⟨x, a⟩ := xa
          rw [hadjust] at hv₁
          cases a with
          | none =>
              subst hv₁
              exact editing_doneEditing c.thread v
          | some a => exact ⟨v₁, hv₁, rfl⟩

theorem fileLoaded (file : String) :
    L.Leads (L.session.fileLoaded h file) c v fun _ v' =>
      if v.session.config.autoRetry then BoundAll ((v.waiting file).map (·.breakEvent)) v v'
      else v' = v := by
  apply Leads.session.bind
  rintro x v' ⟨rfl, rfl⟩
  cases v'.session.config.autoRetry with
  | false => exact Leads.pure rfl
  | true =>
      apply Leads.get.bind
      rintro w v'' ⟨hw, rfl⟩
      simp only [waiting, ← hw.directory]
      refine Leads.mono (Leads.chain (fun _ => True) trivial fun r w _ => ?_) fun _ _ hw =>
        hw.map BindingRecord.breakEvent
      apply (quiet.addBreakEvent r.breakEvent).bind
      rintro b w' hw'
      have hannounce : L.Inert (L.session.announceStatus h r.id) c := by
        refine (Inert.session L.session).bind fun x => ?_
        cases x.store with
        | none => exact Inert.pure _ c
        | some st => exact quiet.announceStatus st r.id
      apply (Inert.ite hannounce (Inert.pure _ c) w').mono
      rintro _ _ rfl
      exact ⟨trivial, hw'⟩

theorem fileUnloaded (file : String) :
    L.Leads (L.session.fileUnloaded h file) c v fun _ v' =>
      if v.session.config.autoRetry then Forgotten (v.stale file) v v' else v' = v := by
  apply Leads.session.bind
  rintro x v' ⟨rfl, rfl⟩
  cases v'.session.config.autoRetry with
  | false => exact Leads.pure rfl
  | true =>
      apply Leads.get.bind
      rintro w v'' ⟨hw, rfl⟩
      simp only [stale, ← hw.directory]
      refine Leads.chain (fun _ => True) trivial fun r w _ => ?_
      apply (Leads.modifyBindings _).bind
      rintro _ w' rfl
      cases v''.session.store with
      | none => exact Leads.pure ⟨trivial, rfl⟩
      | some st =>
          apply (quiet.announceStatus st r.id _).mono
          rintro _ _ rfl
          exact ⟨trivial, rfl⟩

end Ledger.Quiet

end DebugSession
