import DebugSession.Proofs.Binding
import DebugSession.Proofs.Store
import Mathlib.Logic.Relation

namespace DebugSession

namespace Standing

def hooks (s : SessionId) (x : BreakpointStore Listener) : List ListenerId :=
  (x.listeners.filter (·.2 == .session s)).map (·.1)

/-- The session lives, and hears of no change twice. -/
structure Wired (s : SessionId) (v : Standing) : Prop where
  held : v.session.held = true
  once : ∀ st, (hooks s (v.store st)).length ≤ 1

def Announced (s : SessionId) (t : Thread) (st : StoreId) (a : Announcement)
    (v v' : Standing) : Prop :=
  if hooks s (v.store st) = [] then v' = v else ∃ m, v' = v.followed t a m

def Edited (s : SessionId) (t : Thread) (st : StoreId)
    (x : BreakpointStore Listener × List Announcement) (v v' : Standing) : Prop :=
  Chain (Announced s t st) x.2 (v.putStore st x.1) v'

def Revised (s : SessionId) (t : Thread) (st : StoreId) (inPlace : Bool) (v v' : Standing) : Prop :=
  ∃ x, (v.store st).Told inPlace x ∧ Edited s t st x v v'

abbrev Revisions (s : SessionId) (t : Thread) (st : StoreId) (inPlace : Bool) :
    Standing → Standing → Prop :=
  Relation.ReflTransGen (Revised s t st inPlace)

variable {s : SessionId} {t : Thread} {st : StoreId} {v v' : Standing}

theorem Announced.dealt {a : Announcement} (hv : Announced s t st a v v') : Dealt v v' := by
  simp only [Announced] at hv
  split at hv
  · rw [hv]
    exact Dealt.refl v
  · obtain ⟨m, rfl⟩ := hv
    exact Dealt.followed t a m v

theorem Wired.of_dealt (hwired : Wired s v) (hv : Dealt v v') : Wired s v' := by
  refine ⟨hv.held.trans hwired.held, fun st => ?_⟩
  rw [hv.store]
  exact hwired.once st

theorem store_putStore (v : Standing) (st st' : StoreId) (x : BreakpointStore Listener) :
    (v.putStore st x).store st' =
      if st' = st ∧ st.index < v.stores.size then x else v.store st' := by
  obtain ⟨i⟩ := st
  obtain ⟨j⟩ := st'
  simp only [store, putStore, Array.getD_eq_getD_getElem?, Array.getElem?_setIfInBounds,
    StoreId.mk.injEq]
  by_cases hij : j = i
  · subst hij
    by_cases hlt : j < v.stores.size
    · simp [hlt]
    · simp [hlt]
  · simp [hij, Ne.symm hij]

theorem store_of_size_le (v : Standing) {st : StoreId} (hst : v.stores.size ≤ st.index) :
    v.store st = {} := by
  simp [store, Array.getD_eq_getD_getElem?, Array.getElem?_eq_none hst]

theorem putStore_self (v : Standing) (st : StoreId) : v.putStore st (v.store st) = v := by
  obtain ⟨i⟩ := st
  have hstores : v.stores.setIfInBounds i (v.stores.getD i {}) = v.stores := by
    apply Array.ext_getElem?
    intro j
    rw [Array.getElem?_setIfInBounds, Array.getD_eq_getD_getElem?]
    by_cases hij : i = j
    · subst hij
      by_cases hlt : i < v.stores.size
      · simp [hlt]
      · simp [hlt]
    · simp [hij]
  simp only [putStore, store]
  rw [hstores]

theorem hooks_putStore {x : BreakpointStore Listener}
    (hx : x.listeners = (v.store st).listeners) (st' : StoreId) :
    hooks s ((v.putStore st x).store st') = hooks s (v.store st') := by
  rw [store_putStore]
  split
  · rename_i h
    rw [h.1]
    simp only [hooks, hx]
  · rfl

theorem Wired.putStore (hwired : Wired s v) {x : BreakpointStore Listener}
    (hx : x.listeners = (v.store st).listeners) : Wired s (v.putStore st x) := by
  refine ⟨hwired.held, fun st' => ?_⟩
  rw [hooks_putStore hx]
  exact hwired.once st'

structure Kept (s : SessionId) (v v' : Standing) : Prop where
  session : v'.session = { v.session with bindings := v'.session.bindings }
  size : v'.stores.size = v.stores.size
  hooks : ∀ st, hooks s (v'.store st) = hooks s (v.store st)
  distinct : (∀ st, (v.store st).Distinct) → ∀ st, (v'.store st).Distinct

namespace Kept

theorem refl (v : Standing) : Kept s v v := ⟨rfl, rfl, fun _ => rfl, id⟩

theorem trans {v'' : Standing} (hv : Kept s v v') (hv' : Kept s v' v'') : Kept s v v'' :=
  ⟨by rw [hv'.session, hv.session], hv'.size.trans hv.size,
    fun st => (hv'.hooks st).trans (hv.hooks st),
    fun hdistinct => hv'.distinct (hv.distinct hdistinct)⟩

theorem of_dealt (hv : Dealt v v') : Kept s v v' :=
  ⟨hv.session, by rw [hv.stores], fun st => by rw [hv.store],
    fun hdistinct st => hv.store st ▸ hdistinct st⟩

theorem putStore {x : BreakpointStore Listener} (hx : x.listeners = (v.store st).listeners)
    (hdistinct : (v.store st).Distinct → x.Distinct) : Kept s v (v.putStore st x) := by
  refine ⟨rfl, by simp [Standing.putStore], hooks_putStore hx, fun hall st' => ?_⟩
  rw [store_putStore]
  split
  · exact hdistinct (hall st)
  · exact hall st'

theorem chain {α : Type} {f : α → Standing → Standing → Prop} {xs : List α}
    (hchain : Chain f xs v v') (hf : ∀ x v v', f x v v' → Kept s v v') : Kept s v v' := by
  induction hchain with
  | nil v => exact refl v
  | cons hx _ ih => exact (hf _ _ _ hx).trans ih

theorem revised {inPlace : Bool} (hv : Revised s t st inPlace v v') : Kept s v v' := by
  obtain ⟨x, hx, hedited⟩ := hv
  exact (putStore hx.listeners hx.distinct).trans (chain hedited fun _ _ _ h => of_dealt h.dealt)

theorem revisions {inPlace : Bool} (hv : Revisions s t st inPlace v v') : Kept s v v' := by
  induction hv with
  | refl => exact refl v
  | tail _ hlast ih => exact ih.trans (revised hlast)

end Kept

theorem Edited.dealt {x : BreakpointStore Listener × List Announcement}
    (hv : Edited s t st x v v') : Dealt (v.putStore st x.1) v' :=
  Chain.dealt hv fun _ _ _ h => h.dealt

theorem Wired.revised {inPlace : Bool} (hwired : Wired s v) (hv : Revised s t st inPlace v v') :
    Wired s v' := by
  obtain ⟨x, hx, hedited⟩ := hv
  exact (hwired.putStore hx.listeners).of_dealt hedited.dealt

end Standing

namespace Ledger

open Act Standing

variable {σ : Type} {L : Ledger σ} {c : Scope} {v : Standing}

theorem Leads.move (st : StoreId) (id : BreakEventId) (line : Nat) :
    L.Leads (st.move id line) c v fun r v' =>
      match (v.store st).adjust id line with
      | .error err => r = .error err ∧ v' = v
      | .ok (x, a) => r = .ok a ∧ v' = v.putStore st x := by
  apply (Leads.store st).bind
  rintro x v' ⟨rfl, rfl⟩
  cases (v'.store st).adjust id line with
  | error err => exact Leads.pure ⟨rfl, rfl⟩
  | ok xa =>
      apply (Leads.setStore st xa.1).bind
      rintro _ v'' rfl
      exact Leads.pure ⟨rfl, rfl⟩

end Ledger

namespace Ledger.Quiet

open Act Standing

variable {σ : Type} {L : Ledger σ} {h : Host σ} (quiet : L.Quiet h) {c : Scope} {v : Standing}
include quiet

/-- An announcement reaches the session as often as it is among those that are told. -/
theorem announce_listeners (st : StoreId) (a : Announcement)
    (listeners : List (ListenerId × Listener)) (hheld : v.session.held = true)
    (honce : (listeners.filter (·.2 == .session L.session)).length ≤ 1) :
    L.Leads (listeners.forM fun (_, listener) =>
        match listener with
        | .session s => s.follow h a
        | .external k => h.storeChanged k st a) c v fun _ v' =>
      if listeners.filter (·.2 == .session L.session) = [] then v' = v
      else ∃ m, v' = v.followed c.thread a m := by
  induction listeners with
  | nil => exact Leads.pure (by simp)
  | cons l rest ih =>
      obtain ⟨i, listener⟩ := l
      by_cases hself : listener = .session L.session
      · subst hself
        have hrest : rest.filter (·.2 == .session L.session) = [] := by
          simpa using honce
        have hothers : L.Inert (rest.forM fun (_, listener) =>
            match listener with
            | .session s => s.follow h a
            | .external k => h.storeChanged k st a) c := by
          refine Inert.forM fun x hx => ?_
          obtain ⟨j, listener⟩ := x
          cases listener with
          | session s =>
              refine quiet.follow_other ?_ a
              rintro rfl
              simpa using List.filter_eq_nil_iff.mp hrest _ hx
          | external k => exact (quiet.storeChanged k st a).inert c
        apply (quiet.follow hheld a).bind
        rintro _ v' ⟨m, rfl⟩
        apply (hothers _).mono
        rintro _ v' rfl
        rw [if_neg (by simp)]
        exact ⟨m, rfl⟩
      · have hskip : ((i, listener) :: rest).filter (·.2 == .session L.session) =
            rest.filter (·.2 == .session L.session) :=
          List.filter_cons_of_neg (by simpa using hself)
        rw [hskip] at honce ⊢
        refine Leads.bind (P := fun _ v' => v' = v) ?_ ?_
        · cases listener with
          | session s => exact quiet.follow_other (fun hs => hself (by rw [hs])) a v
          | external k => exact (quiet.storeChanged k st a).inert c v
        · rintro _ v' rfl
          exact ih honce

theorem announce (hwired : Wired L.session v) (st : StoreId) (a : Announcement) :
    L.Leads (st.announce h a) c v fun _ v' => Announced L.session c.thread st a v v' := by
  apply (Leads.store st).bind
  rintro x v' ⟨rfl, rfl⟩
  have honce := hwired.once st
  simp only [hooks, List.length_map] at honce
  apply (quiet.announce_listeners st a _ hwired.held honce).mono
  intro _ v'' hv''
  simpa only [Announced, hooks, List.map_eq_nil_iff] using hv''

theorem announceAll (hwired : Wired L.session v) (st : StoreId) (as : List Announcement) :
    L.Leads (st.announceAll h as) c v fun _ v' => Chain (Announced L.session c.thread st) as v v' :=
  Leads.chain (Wired L.session) hwired fun a _ hv' =>
    (quiet.announce hv' st a).mono fun _ _ hv'' => ⟨hv'.of_dealt hv''.dealt, hv''⟩

/-- News of a status is no matter for sessions. -/
theorem announceStatus (st : StoreId) (id : BreakEventId) : L.Inert (st.announceStatus h id) c := by
  refine (Inert.store st).bind fun x => ?_
  cases x.get? id with
  | none => exact Inert.pure _ c
  | some e =>
      refine (Inert.store st).bind fun y => Inert.forM fun l _ => ?_
      obtain ⟨i, listener⟩ := l
      cases listener with
      | session s => exact Inert.pure _ c
      | external k => exact (quiet.storeChanged k st _).inert c

theorem isReadOnly (st : StoreId) : L.Inert (st.isReadOnly h) c := by
  refine (Inert.store st).bind fun x => Inert.anyM fun l _ => ?_
  obtain ⟨i, listener⟩ := l
  cases listener with
  | external k => exact (quiet.vetoes k st).inert c
  | session s =>
      refine Inert.entering fun c' => ?_
      refine (Inert.read.bind fun _ => Inert.pure _ c').bind fun elsewhere => ?_
      refine Inert.ite (Inert.pure _ c') (Inert.locked fun c'' => ?_)
      exact ((quiet.allowsChanges s).inert c'').bind fun _ => Inert.pure _ c''

theorem edit (hwired : Wired L.session v) (st : StoreId) (e : Edit) :
    L.Leads (st.edit h e) c v fun _ v' =>
      v' = v ∨ ∃ x, (v.store st).apply e = .ok x ∧ Edited L.session c.thread st x v v' := by
  apply (quiet.isReadOnly st v).bind
  rintro readOnly v' rfl
  cases readOnly with
  | true => exact Leads.pure (.inl rfl)
  | false =>
      apply (Leads.store st).bind
      rintro x v'' ⟨rfl, rfl⟩
      cases happly : (v''.store st).apply e with
      | error err =>
          exact Leads.pure (.inl rfl)
      | ok x =>
          obtain ⟨y, as⟩ := x
          apply (Leads.setStore st y).bind
          rintro _ v' rfl
          have hlisteners := BreakpointStore.listeners_apply happly
          apply (quiet.announceAll (hwired.putStore hlisteners) st as).bind
          intro _ v' hv'
          exact Leads.pure (.inr ⟨_, rfl, hv'⟩)

theorem adjustLine (hwired : Wired L.session v) (st : StoreId) (id : BreakEventId) (line : Nat) :
    L.Leads (st.adjust h id line) c v fun _ v' =>
      v' = v ∨ ∃ x a, (v.store st).adjust id line = .ok (x, some a) ∧
        Edited L.session c.thread st (x, a.announcements) v v' := by
  apply (Leads.move st id line).bind
  rintro r v' hr
  cases hadjust : (v.store st).adjust id line with
  | error err =>
      rw [hadjust] at hr
      obtain ⟨rfl, rfl⟩ := hr
      exact Leads.pure (.inl rfl)
  | ok xa =>
      obtain ⟨x, a⟩ := xa
      rw [hadjust] at hr
      obtain ⟨rfl, rfl⟩ := hr
      cases a with
      | none => exact Leads.pure (.inl (by rw [BreakpointStore.adjust_none hadjust, putStore_self]))
      | some a =>
          have hlisteners := BreakpointStore.listeners_adjust hadjust
          apply (quiet.announceAll (hwired.putStore hlisteners) st a.announcements).bind
          intro _ v' hv'
          exact Leads.pure (.inr ⟨_, _, rfl, hv'⟩)

theorem resetAdjusted (hwired : Wired L.session v) (st : StoreId) :
    L.Leads (st.resetAdjusted h) c v fun _ v' => Revisions L.session c.thread st true v v' := by
  apply (Leads.store st).bind
  rintro x v' ⟨rfl, rfl⟩
  apply (Leads.setStore st _).bind
  rintro _ v₀ rfl
  have hforgotten : Revised L.session c.thread st true v' (v'.putStore st _) :=
    ⟨_, (v'.store st).told_forgotten true, Chain.nil _⟩
  refine (Leads.forM (fun _ w => Wired L.session w ∧ Revisions L.session c.thread st true v' w)
    ⟨hwired.revised hforgotten, .single hforgotten⟩ ?_).mono fun _ _ hw => hw.2
  rintro ⟨id, line⟩ rest w ⟨hw, hrevisions⟩
  apply (Leads.store st).bind
  rintro x w ⟨rfl, rfl⟩
  have htold := (w.store st).told_restore id line
  apply (Leads.setStore st _).bind
  rintro _ w' rfl
  apply (quiet.announceAll (hw.putStore htold.listeners) st _).mono
  intro _ w' hw'
  have hrevised : Revised L.session c.thread st true w w' := ⟨_, htold, hw'⟩
  exact ⟨hw.revised hrevised, hrevisions.tail hrevised⟩

end Ledger.Quiet

end DebugSession
