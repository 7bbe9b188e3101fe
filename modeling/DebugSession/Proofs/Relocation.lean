import DebugSession.Proofs.StoreNews
import DebugSession.Proofs.Yield

namespace DebugSession

structure BreakpointStore.Moved (old : BreakEvent) (before line : Nat)
    (x x' : BreakpointStore Listener) : Prop where
  rest : x' = { x with events := x'.events, adjusted := x'.adjusted }
  order : x'.events.map (·.id) = x.events.map (·.id)
  found : ∀ id, x'.get? id = if id = old.id then some (old.withLine line) else x.get? id
  remembered : x'.adjusted =
    if old.id ∈ x.adjusted.map (·.1) then x.adjusted else x.adjusted ++ [(old.id, before)]

theorem BreakpointStore.moved {x : BreakpointStore Listener} {old : BreakEvent}
    (hold : x.get? old.id = some old) (before line : Nat) :
    Moved old before line x ((x.remember old.id before).replace (old.withLine line)) where
  rest := by
    simp only [replace, remember]
    split <;> rfl
  order := by
    change ((x.remember old.id before).events.map (replaced (old.withLine line))).map (·.id) = _
    rw [Keyed.map_key_map _ (replaced_id _), remember_events]
  found := fun id => by
    change ((x.remember old.id before).replace (old.withLine line)).view id = _
    rw [view_replace, view_remember, old.withLine_id]
    simp only [StoreView.modify, view]
    split
    · rename_i hid
      rw [hid, hold]
      rfl
    · rfl
  remembered := by
    simp only [replace, remember, List.any_eq_true, beq_iff_eq, List.mem_map]
    split <;> rfl

theorem Standing.follows_editing (s : SessionId) (c : Scope) (v : Standing) :
    (v.editing c.thread).session.follows s c = false := by
  simp [Session.follows, editing, rebind, BindingTable.beginEdit, BindingTable.isEditing]

namespace Logbook

open Act Standing

variable {σ α : Type} {B : Logbook σ} {h : Host σ} {c : Scope} {v : Standing}

/-- A program in a scope of edits, seen by a session that is the editor or another. -/
theorem Notes.editing {s : SessionId} {a : Act σ α} (opened closed : Standing → Standing)
    (hopen : B.ledger.Leads (s.modifyBindings (·.beginEdit c.thread)) c v fun _ v' => v' = opened v)
    (hclose : ∀ v', B.ledger.Leads (s.modifyBindings (·.endEdit c.thread)) c v'
      fun _ v'' => v'' = closed v')
    {Q : α → Standing → List Remark → Prop}
    (ha : B.Notes a c (opened v) fun x v' rs => Q x (closed v') rs) :
    B.Notes (s.editing a) c v Q := by
  intro w hw
  obtain ⟨_, w₁, _, hbegin, hw₁, rfl⟩ := hopen w hw
  obtain ⟨x, w₂, v₂, rs, hrun, hw₂, hrs, hx⟩ := ha w₁ hw₁
  obtain ⟨_, w₃, _, hend, hw₃, rfl⟩ := hclose v₂ w₂ hw₂
  obtain rfl : w.beginEdit s c.thread = w₁ := congrArg Prod.snd hbegin
  obtain rfl : w₂.endEdit s c.thread = w₃ := congrArg Prod.snd hend
  exact ⟨x, _, _, rs, by rw [Oblivious.run_editing, hrun], hw₃, hrs, hx⟩

/-- The news of a move are told once it is made, whatever the session sees of that. -/
theorem Notes.moveAndTell {s : SessionId} {st : StoreId} {id : BreakEventId} {line : Nat}
    {a : LineAdjustment} {v₁ : Standing} {P Q : Standing → List Remark → Prop}
    (hmove : B.ledger.Leads (s.move st id line) c v fun r v' => r = .ok (some a) ∧ v' = v₁)
    (hexchanges : v₁.exchanges = v.exchanges)
    (hremoved : B.Notes (st.announce h ⟨.removed, a.old⟩) c v₁ fun _ v' rs => P v' rs)
    (hadded : ∀ v' rs, P v' rs → B.Notes (st.announce h ⟨.added, a.new⟩) c v' fun _ v'' rs' =>
      Q v'' (rs ++ rs')) :
    B.Notes (SessionId.adjust.moveAndTell h s id line st) c v fun r v' rs =>
      r = .ok () ∧ Q v' rs := by
  refine (Notes.of_leads hmove (Host.Abides.move s st id line)).bind ?_
  rintro _ _ rs ⟨⟨rfl, rfl⟩, xs, hxs, rfl⟩
  obtain rfl : xs = [] := by simpa [hexchanges] using hxs.symm
  refine Notes.bind (P := fun _ v' rs => Q v' rs) ?_ fun _ v' rs hrs => Notes.pure ?_
  · refine hremoved.bind fun _ v' rs hrs => ?_
    refine (hadded v' rs hrs).bind fun _ v'' rs' hrs' => Notes.pure ?_
    rw [List.append_nil]
    exact hrs'
  · rw [List.map_nil, List.nil_append, List.append_nil]
    exact ⟨rfl, hrs⟩

variable {st : StoreId} {id : BreakEventId} {line : Nat} {a : LineAdjustment}
  {x : BreakpointStore Listener}

theorem moveRecorded_other {s : SessionId} (hs : s ≠ B.session)
    (hadjust : (v.store st).adjust id line = .ok (x, some a)) :
    B.ledger.Leads (s.move st id line) c v fun r v' => r = .ok (some a) ∧ v' = v.putStore st x := by
  refine Ledger.Leads.locked fun c' _ => (Ledger.Leads.move st id line).bind ?_
  intro r v' hr
  rw [hadjust] at hr
  obtain ⟨rfl, rfl⟩ := hr
  have hrecord : B.ledger.Inert (s.recordMove a.new) c' := by
    refine ((Ledger.Inert.session s).bind fun _ => Ledger.Inert.pure _ c').bind fun t => ?_
    cases t.get? a.new.id with
    | none => exact Ledger.Inert.pure _ c'
    | some r => exact Ledger.Inert.modifySession hs _
  refine (hrecord _).bind ?_
  rintro _ v' rfl
  exact Ledger.Leads.pure ⟨rfl, rfl⟩

theorem Notes.relocateOther {s : SessionId} (hs : s ≠ B.session)
    {P Q : Standing → List Remark → Prop}
    (hadjust : (v.store st).adjust id line = .ok (x, some a))
    (hremoved : B.Notes (st.announce h ⟨.removed, a.old⟩) c (v.putStore st x) fun _ v' rs =>
      P v' rs)
    (hadded : ∀ v' rs, P v' rs → B.Notes (st.announce h ⟨.added, a.new⟩) c v' fun _ v'' rs' =>
      Q v'' (rs ++ rs')) :
    B.Notes (s.editing (SessionId.adjust.moveAndTell h s id line st)) c v
      fun r v' rs => r = .ok () ∧ Q v' rs :=
  Notes.editing (fun v => v) (fun v => v) (Ledger.Inert.modifySession hs _ v)
    (fun v' => Ledger.Inert.modifySession hs _ v')
    (Notes.moveAndTell (moveRecorded_other hs hadjust) rfl hremoved hadded)

variable (kept : B.KeptBy h)
include kept

/-- Only its own record follows the move. -/
theorem KeptBy.relocateOwn (hadjust : (v.store st).adjust id line = .ok (x, some a))
    (hst : st.index < v.stores.size) :
    B.Notes (B.session.editing (SessionId.adjust.moveAndTell h B.session id line st)) c v
      fun r v' rs => r = .ok () ∧ v' = (v.putStore st x).moved a.new ∧
        rs = a.announcements.flatMap ((v.store st).news st) := by
  let v₁ := ((v.putStore st x).editing c.thread).moved a.new
  have hmove : B.ledger.Leads (B.session.move st id line) c (v.editing c.thread) fun r v' =>
      r = .ok (some a) ∧ v' = v₁ := by
    refine (Ledger.Leads.moveRecorded st id line).mono fun r v' hr => ?_
    have hadjust' : ((v.editing c.thread).store st).adjust id line = .ok (x, some a) := hadjust
    rw [hadjust'] at hr
    exact hr
  have hdealt : Dealt ((v.putStore st x).editing c.thread) v₁ := Dealt.moved a.new _
  have hexchanges : v₁.exchanges = v.exchanges := by
    simp only [v₁, moved]
    split <;> rfl
  have hdeaf : v₁.session.follows B.session c = false := by
    rw [hdealt.follows, follows_editing]
  have hnews (a : Announcement) : (v₁.store st).news st a = (v.store st).news st a := by
    have hstore : v₁.store st = x := by
      rw [hdealt.store]
      exact (store_putStore v st st x).trans (if_pos ⟨rfl, hst⟩)
    rw [hstore]
    simp only [BreakpointStore.news, BreakpointStore.outside,
      BreakpointStore.listeners_adjust hadjust]
  refine Notes.editing (·.editing c.thread) (·.doneEditing c.thread)
    (Ledger.Leads.modifyBindings _) (fun _ => Ledger.Leads.modifyBindings _) ?_
  refine (Notes.moveAndTell (Q := fun v' rs => v' = v₁ ∧
      rs = a.announcements.flatMap ((v.store st).news st)) hmove hexchanges
    (kept.announceIgnored st (.inr rfl) (.inr hdeaf)) ?_).mono ?_
  · rintro v' rs ⟨rfl, rfl⟩
    refine (kept.announceIgnored st (.inl rfl) (.inr hdeaf)).mono ?_
    rintro _ v'' rs ⟨rfl, rfl⟩
    refine ⟨rfl, ?_⟩
    simp only [hnews, LineAdjustment.announcements, List.flatMap_cons, List.flatMap_nil,
      List.append_nil]
  · rintro r v' rs ⟨rfl, rfl, rfl⟩
    exact ⟨rfl, moved_editing c.thread a.new _, rfl⟩

/-- A session that shares the store unbinds the event where it was and binds it where it is. -/
theorem KeptBy.relocateSibling {s : SessionId} (hs : s ≠ B.session)
    (hadjust : (v.store st).adjust id line = .ok (x, some a)) (hid : a.new.id = a.old.id)
    (hst : st.index < v.stores.size) (honce : (hooks B.session (v.store st)).length = 1)
    (hfollows : v.session.follows B.session c = true) :
    B.Notes (s.editing (SessionId.adjust.moveAndTell h s id line st)) c v fun r v' rs =>
      r = .ok () ∧ Dealt (v.putStore st x) v' ∧
      ∃ (freed : Except EngineError Unit) (taken : Except EngineError Binding),
        rs = (v.store st).heard B.session st ⟨.removed, a.old⟩
            ((v.bindings.handleOf a.old.id).toList.map (.asked ⟨.remove ·, freed⟩)) ++
          (v.store st).heard B.session st ⟨.added, a.new⟩ [.asked ⟨.insert a.new, taken⟩] ∧
        ∀ id, v'.bindings.get? id =
          if id = a.old.id then some (.ofAnswer a.new taken) else v.bindings.get? id := by
  have hlisteners := BreakpointStore.listeners_adjust hadjust
  have hstore : (v.putStore st x).store st = x :=
    (store_putStore v st st x).trans (if_pos ⟨rfl, hst⟩)
  have hheard (a : Announcement) (own : List Remark) :
      x.heard B.session st a own = (v.store st).heard B.session st a own := by
    simp only [BreakpointStore.heard, hlisteners]
  have honce' : (hooks B.session x).length = 1 := by
    simpa only [hooks, hlisteners] using honce
  refine Notes.relocateOther hs hadjust (kept.announceOnce st (by rw [hstore]; exact honce')
    (kept.followRemoved (v := v.putStore st x) hfollows a.old)) ?_
  rintro v₁ rs ⟨_, ⟨hdealt, freed, rfl, hget⟩, rfl⟩
  have hstore₁ : v₁.store st = x := (hdealt.store st).trans hstore
  refine (kept.announceOnce st (by rw [hstore₁]; exact honce')
    (kept.followAdded ((hdealt.follows _ c).trans hfollows) a.new)).mono ?_
  rintro _ v₂ rs ⟨_, ⟨hdealt', taken, rfl, hget'⟩, rfl⟩
  refine ⟨hdealt.trans hdealt', freed, taken, ?_, fun id => ?_⟩
  · rw [hstore, hstore₁, hheard, hheard]
    rfl
  · rw [hget', hget, hid]
    split <;> rfl

/-- A session that does not hear of the move, or does not follow it. -/
theorem KeptBy.relocateBystander {s : SessionId} (hs : s ≠ B.session)
    (hadjust : (v.store st).adjust id line = .ok (x, some a)) (hst : st.index < v.stores.size)
    (hdeaf : hooks B.session (v.store st) = [] ∨ v.session.follows B.session c = false) :
    B.Notes (s.editing (SessionId.adjust.moveAndTell h s id line st)) c v fun r v' rs =>
      r = .ok () ∧ v' = v.putStore st x ∧ rs = a.announcements.flatMap ((v.store st).news st) := by
  have hlisteners := BreakpointStore.listeners_adjust hadjust
  have hstore : (v.putStore st x).store st = x :=
    (store_putStore v st st x).trans (if_pos ⟨rfl, hst⟩)
  have hnews (a : Announcement) : x.news st a = (v.store st).news st a := by
    simp only [BreakpointStore.news, BreakpointStore.outside, hlisteners]
  have hdeaf' : hooks B.session ((v.putStore st x).store st) = [] ∨
      (v.putStore st x).session.follows B.session c = false := by
    have hhooks : hooks B.session x = hooks B.session (v.store st) := by
      simp only [hooks, hlisteners]
    rw [hstore, hhooks]
    exact hdeaf
  refine Notes.relocateOther (Q := fun v' rs => v' = v.putStore st x ∧
    rs = a.announcements.flatMap ((v.store st).news st)) hs hadjust
    (kept.announceIgnored st (.inr rfl) hdeaf') ?_
  rintro v₁ rs ⟨rfl, rfl⟩
  refine (kept.announceIgnored st (.inl rfl) hdeaf').mono ?_
  rintro _ v₂ rs ⟨rfl, rfl⟩
  refine ⟨rfl, ?_⟩
  simp only [hstore, hnews, LineAdjustment.announcements, List.flatMap_cons, List.flatMap_nil,
    List.append_nil]

end Logbook

structure Archive (σ : Type) where
  remarks : SessionId → σ → List Remark

namespace Archive

variable {σ : Type} (R : Archive σ)

abbrev logbook (s : SessionId) : Logbook σ := ⟨s, R.remarks s⟩

def KeptBy (h : Host σ) : Prop := ∀ s, (R.logbook s).KeptBy h

def Adds (w w' : World σ) (s : SessionId) (rs : List Remark) : Prop :=
  R.remarks s w'.host = R.remarks s w.host ++ rs

structure Follows (w w' : World σ) (s : SessionId) (st : StoreId) (a : LineAdjustment) : Prop where
  remarks : R.Adds w w' s (a.announcements.flatMap ((w.store st).news st))
  session : w'.session s = { w.session s with bindings := (w'.session s).bindings }
  records : ∀ id, (w'.session s).bindings.get? id =
    if id = a.old.id then
      ((w.session s).bindings.get? id).map fun r => { r with breakEvent := a.new }
    else (w.session s).bindings.get? id

/-- What becomes of a session that follows the move. Its engine may refuse what it is asked for. -/
structure Rebinds (w w' : World σ) (s : SessionId) (st : StoreId) (a : LineAdjustment)
    (freed : Except EngineError Unit) (taken : Except EngineError Binding) : Prop where
  remarks : R.Adds w w' s <|
    (w.store st).heard s st ⟨.removed, a.old⟩
      (((w.session s).bindings.handleOf a.old.id).toList.map (.asked ⟨.remove ·, freed⟩)) ++
    (w.store st).heard s st ⟨.added, a.new⟩ [.asked ⟨.insert a.new, taken⟩]
  session : w'.session s = { w.session s with bindings := (w'.session s).bindings }
  records : ∀ id, (w'.session s).bindings.get? id =
    if id = a.old.id then some (.ofAnswer a.new taken) else (w.session s).bindings.get? id

/-- What becomes of a session that does not follow the move. -/
structure StandsBy (w w' : World σ) (s : SessionId) (st : StoreId) (a : LineAdjustment) : Prop where
  remarks : R.Adds w w' s (a.announcements.flatMap ((w.store st).news st))
  session : w'.session s = w.session s

structure Relocated (c : Scope) (s : SessionId) (st : StoreId) (a : LineAdjustment)
    (before line : Nat) (w w' : World σ) : Prop where
  store : (w.store st).Moved a.old before line (w'.store st)
  stores : ∀ st', st' ≠ st → w'.store st' = w.store st'
  mover : R.Follows w w' s st a
  siblings : ∀ t, t ≠ s → t.index < w.sessions.size → w.ListensOnce t →
    (w.session t).store = some st → (w.session t).follows t c = true →
      ∃ freed taken, R.Rebinds w w' t st a freed taken
  bystanders : ∀ t, t ≠ s → t.index < w.sessions.size → w.ListensOnce t →
    ((w.session t).store ≠ some st ∨ (w.session t).follows t c = false) → R.StandsBy w w' t st a

inductive Relocation (c : Scope) (s : SessionId) (id : BreakEventId) (line : Nat) (w : World σ) :
    Except StoreError Unit → World σ → Prop
  | unknown (hunknown : ∀ st, (w.session s).store = some st → (w.store st).get? id = none) :
      Relocation c s id line w (.error (.unknownBreakEvent id)) w
  | still {st : StoreId} {old : BreakEvent} (hst : (w.session s).store = some st)
      (hold : (w.store st).get? id = some old) (hline : old.line = none ∨ old.line = some line) :
      Relocation c s id line w (.ok ()) w
  | moved {st : StoreId} {old : BreakEvent} {before : Nat} {w' : World σ}
      (hst : (w.session s).store = some st) (hold : (w.store st).get? id = some old)
      (hbefore : old.line = some before) (hline : before ≠ line)
      (hmoved : R.Relocated c s st ⟨old, old.withLine line⟩ before line w w') :
      Relocation c s id line w (.ok ()) w'

/-- The engine of a session hears at once of what comes into its store and of what leaves it. -/
def Mirrors (h : Host σ) (c : Scope) (w : World σ) (s : SessionId) (st : StoreId) : Prop :=
  ∀ e : BreakEvent,
    (∃ w' taken, Act.run (st.announce h ⟨.added, e⟩) c w = (.ok (), w') ∧
      R.Adds w w' s ((w.store st).heard s st ⟨.added, e⟩ [.asked ⟨.insert e, taken⟩])) ∧
    ∃ (w' : World σ) (freed : Except EngineError Unit),
      Act.run (st.announce h ⟨.removed, e⟩) c w = (.ok (), w') ∧
      R.Adds w w' s ((w.store st).heard s st ⟨.removed, e⟩
        (((w.session s).bindings.handleOf e.id).toList.map (.asked ⟨.remove ·, freed⟩)))

end Archive

namespace World

variable {σ : Type}

def standing (w : World σ) (L : Ledger σ) : Standing :=
  ⟨w.session L.session, w.stores, w.directory, L.entries w.host⟩

theorem shows_standing {w : World σ} {L : Ledger σ} (hs : L.session.index < w.sessions.size) :
    L.Shows w (w.standing L) := by
  refine ⟨?_, rfl, rfl, rfl⟩
  simp only [standing, session, Array.getD_eq_getD_getElem?, Array.getElem?_eq_getElem hs,
    Option.getD_some]

theorem lt_size_of_store {w : World σ} {s : SessionId} {st : StoreId}
    (hst : (w.session s).store = some st) : s.index < w.sessions.size := by
  by_contra hs
  rw [session_of_size_le (Nat.le_of_not_lt hs)] at hst
  cases hst

theorem lt_size_of_get? {w : World σ} {st : StoreId} {id : BreakEventId} {e : BreakEvent}
    (he : (w.store st).get? id = some e) : st.index < w.stores.size := by
  by_contra hst
  rw [store, Array.getD_eq_getD_getElem?, Array.getElem?_eq_none (Nat.le_of_not_lt hst)] at he
  cases he

/-- A scope of edits in which nothing was done leaves no trace. -/
theorem endEdit_beginEdit (w : World σ) (s : SessionId) (t : Thread) :
    (w.beginEdit s t).endEdit s t = w := by
  have hbegin : (w.beginEdit s t).bare = w.bare := bare_withSession_eq fun _ => rfl
  have hend : ((w.beginEdit s t).endEdit s t).bare = (w.beginEdit s t).bare :=
    bare_withSession_eq fun _ => rfl
  exact eq_of_bare_hidden (hend.trans hbegin) (hidden_endEdit rfl)

end World

namespace SessionId

open Act

variable {σ : Type} (h : Host σ) {s : SessionId} {id : BreakEventId} {line : Nat} {c : Scope}
  {w : World σ} {st : StoreId}

theorem run_adjust (hst : (w.session s).store = some st) : run (s.adjust h id line) c w =
    run (s.editing (adjust.moveAndTell h s id line st)) c w := by
  simp only [adjust]
  rw [run_session_bind, hst]
  rfl

/-- A move that does not come about leaves no trace, whatever the host. -/
theorem run_adjust_of_move {r : Except StoreError (Option LineAdjustment)}
    {x : Except StoreError Unit} (hst : (w.session s).store = some st)
    (hmove : run (s.move st id line) c (w.beginEdit s c.thread) = (.ok r, w.beginEdit s c.thread))
    (hr : (∃ err, r = .error err ∧ x = .error err) ∨ r = .ok none ∧ x = .ok ()) :
    run (s.adjust h id line) c w = (.ok x, w) := by
  have htell : run (adjust.moveAndTell h s id line st) c (w.beginEdit s c.thread) =
      (.ok x, w.beginEdit s c.thread) := by
    rw [adjust.moveAndTell, run_bind, hmove]
    obtain ⟨err, rfl, rfl⟩ | ⟨rfl, rfl⟩ := hr <;> rfl
  rw [run_adjust h hst, Oblivious.run_editing, htell, World.endEdit_beginEdit]

theorem run_moveIn (st : StoreId) (id : BreakEventId) (line : Nat) (c : Scope) (w : World σ) :
    run (st.move id line) c w = match (w.store st).adjust id line with
      | .error err => (.ok (.error err), w)
      | .ok (x, a) => (.ok (.ok a), w.putStore st x) := by
  change run (match (w.store st).adjust id line with
    | .error err => return .error err
    | .ok (x, a) => do
      Act.setStore st x
      return .ok a : Act σ (Except StoreError (Option LineAdjustment))) c w = _
  cases (w.store st).adjust id line <;> rfl

theorem run_adjust_of_error {e : StoreError} (hst : (w.session s).store = some st)
    (herr : (w.store st).adjust id line = .error e) :
    run (s.adjust h id line) c w = (.ok (.error e), w) := by
  refine run_adjust_of_move h hst (r := .error e) ?_ (.inl ⟨e, rfl, rfl⟩)
  have hmove : run (st.move id line) (c.locking s) (w.beginEdit s c.thread) =
      (.ok (.error e), w.beginEdit s c.thread) := by
    rw [run_moveIn, show ((w.beginEdit s c.thread).store st).adjust id line = _ from herr]
  change run (st.move id line >>= _) (c.locking s) _ = _
  rw [run_bind, hmove]
  rfl

theorem run_adjust_of_none {x : BreakpointStore Listener} (hst : (w.session s).store = some st)
    (hnone : (w.store st).adjust id line = .ok (x, none)) :
    run (s.adjust h id line) c w = (.ok (.ok ()), w) := by
  obtain rfl := BreakpointStore.adjust_none hnone
  refine run_adjust_of_move h hst (r := .ok none) ?_ (.inr ⟨rfl, rfl⟩)
  have hmove : run (st.move id line) (c.locking s) (w.beginEdit s c.thread) =
      (.ok (.ok none), w.beginEdit s c.thread) := by
    rw [run_moveIn, show ((w.beginEdit s c.thread).store st).adjust id line = _ from hnone]
    exact congrArg (Prod.mk _) (World.putStore_self _ st)
  change run (st.move id line >>= _) (c.locking s) _ = _
  rw [run_bind, hmove]
  rfl

end SessionId

theorem Standing.get?_moved (e : BreakEvent) (v : Standing) (id : BreakEventId) :
    (v.moved e).bindings.get? id = if id = e.id then
      (v.bindings.get? id).map fun r => { r with breakEvent := e } else v.bindings.get? id := by
  by_cases hid : id = e.id
  · subst hid
    rw [if_pos rfl]
    cases hr : v.bindings.get? e.id with
    | none =>
        simp only [moved, hr]
        rfl
    | some r =>
        simp only [moved, hr]
        change (v.bindings.insert { r with breakEvent := e }).get? e.id = _
        rw [BindingTable.get?_insert]
        exact if_pos rfl
  · rw [if_neg hid]
    simp only [moved]
    split
    · rfl
    · rename_i r _
      change (v.bindings.insert { r with breakEvent := e }).get? id = _
      rw [BindingTable.get?_insert]
      exact if_neg hid

theorem Logbook.Notes.seen {σ α : Type} {B : Logbook σ} {a : Act σ α} {c : Scope} {v : Standing}
    {Q : α → Standing → List Remark → Prop} (ha : B.Notes a c v Q) {w w' : World σ} {x : α}
    (hw : B.ledger.Shows w v) (hrun : Act.run a c w = (.ok x, w')) :
    ∃ v' rs, B.ledger.Shows w' v' ∧ B.remarks w'.host = B.remarks w.host ++ rs ∧ Q x v' rs := by
  obtain ⟨x', w₁, v', rs, hrun', hw', hrs, hx⟩ := ha w hw
  rw [hrun] at hrun'
  cases hrun'
  exact ⟨v', rs, hw', hrs, hx⟩

namespace Archive

open Act Standing

variable {σ : Type} {R : Archive σ} {h : Host σ} {c : Scope} {w w' : World σ} {s t : SessionId}
  {st : StoreId} {id : BreakEventId} {line : Nat} {a : LineAdjustment}
  {x : BreakpointStore Listener}

/-- So it is with a session that listens to the store once and follows what it hears. -/
theorem KeptBy.mirrors (kept : R.KeptBy h) {v : Standing} (hw : (R.logbook s).ledger.Shows w v)
    (honce : (hooks s (v.store st)).length = 1) (hfollows : v.session.follows s c = true) :
    R.Mirrors h c w s st := by
  intro e
  constructor
  · obtain ⟨_, w', _, rs, hrun, -, hrs, own, ⟨-, taken, rfl, -⟩, rfl⟩ :=
      (kept s).announceOnce st honce ((kept s).followAdded hfollows e) w hw
    rw [← hw.world_store] at hrs
    exact ⟨w', taken, hrun, hrs⟩
  · obtain ⟨_, w', _, rs, hrun, -, hrs, own, ⟨-, freed, rfl, -⟩, rfl⟩ :=
      (kept s).announceOnce st honce ((kept s).followRemoved hfollows e) w hw
    rw [← hw.world_store] at hrs
    refine ⟨w', freed, hrun, ?_⟩
    rw [hw.world_session]
    exact hrs

variable (kept : R.KeptBy h)
include kept

section Others

variable (hts : t ≠ s) (ht : t.index < w.sessions.size) (honce : w.ListensOnce t)
  (hadjust : (w.store st).adjust id line = .ok (x, some a)) (hsize : st.index < w.stores.size)
  (hrun : run (s.editing (SessionId.adjust.moveAndTell h s id line st)) c w = (.ok (.ok ()), w'))
include hts ht honce hadjust hsize hrun

theorem KeptBy.rebinds (hid : a.new.id = a.old.id) (hattached : (w.session t).store = some st)
    (hfollows : (w.session t).follows t c = true) :
    ∃ freed taken, R.Rebinds w w' t st a freed taken := by
  have hhooks := honce st
  rw [if_pos ⟨hattached, hsize⟩] at hhooks
  obtain ⟨v', rs, hw', hrs, -, hdealt, freed, taken, rfl, hget⟩ :=
    ((kept t).relocateSibling (v := w.standing (R.logbook t).ledger) (Ne.symm hts) hadjust hid
      hsize hhooks hfollows).seen (World.shows_standing ht) hrun
  refine ⟨freed, taken, hrs, ?_, fun id => ?_⟩
  · rw [hw'.world_session]
    exact hdealt.session
  · rw [hw'.world_session]
    exact hget id

theorem KeptBy.standsBy
    (hdeaf : (w.session t).store ≠ some st ∨ (w.session t).follows t c = false) :
    R.StandsBy w w' t st a := by
  have hdeaf' : hooks t (w.store st) = [] ∨ (w.session t).follows t c = false := by
    refine hdeaf.imp_left fun hattached => ?_
    have hhooks := honce st
    rw [if_neg fun h => hattached h.1] at hhooks
    exact List.eq_nil_of_length_eq_zero hhooks
  obtain ⟨v', rs, hw', hrs, -, rfl, rfl⟩ :=
    ((kept t).relocateBystander (v := w.standing (R.logbook t).ledger) (Ne.symm hts) hadjust
      hsize hdeaf').seen (World.shows_standing ht) hrun
  exact ⟨hrs, hw'.world_session⟩

end Others

theorem KeptBy.relocated {old : BreakEvent} {before : Nat} (hst : (w.session s).store = some st)
    (hold : (w.store st).get? id = some old) (hbefore : old.line = some before)
    (hline : before ≠ line) : ∃ w', run (s.adjust h id line) c w = (.ok (.ok ()), w') ∧
      R.Relocated c s st ⟨old, old.withLine line⟩ before line w w' ∧
      (w'.session s).bindings.openEdits = (w.session s).bindings.openEdits ∧
      (w.ListensOnce s → (w.session s).follows s c = true → R.Mirrors h c w' s st) := by
  obtain rfl := BreakpointStore.id_of_get? hold
  let a : LineAdjustment := ⟨old, old.withLine line⟩
  let x := ((w.store st).remember old.id before).replace (old.withLine line)
  have hadjust : (w.store st).adjust old.id line = .ok (x, some a) := by
    simp only [BreakpointStore.adjust, hold, hbefore, if_neg hline]
    rfl
  have hid : a.new.id = a.old.id := old.withLine_id line
  have hsize := World.lt_size_of_get? hold
  have hs := World.lt_size_of_store hst
  obtain ⟨_, w', v', rs, hrun, hw', hrs, rfl, rfl, rfl⟩ :=
    (kept s).relocateOwn (c := c) (v := w.standing (R.logbook s).ledger) hadjust hsize w
      (World.shows_standing hs)
  have hdealt := Dealt.moved a.new ((w.standing (R.logbook s).ledger).putStore st x)
  have hopen : (w'.session s).bindings.openEdits = (w.session s).bindings.openEdits := by
    rw [hw'.world_session]
    exact hdealt.openEdits
  have hstores (st' : StoreId) : w'.store st' = if st' = st ∧ st.index < w.stores.size then x
      else w.store st' := by
    rw [hw'.world_store, hdealt.store]
    exact store_putStore _ st st' x
  have hstore : w'.store st = x := (hstores st).trans (if_pos ⟨rfl, hsize⟩)
  refine ⟨w', (SessionId.run_adjust h hst).trans hrun, ?_, hopen, fun honce hfollows => ?_⟩
  · exact {
      store := by
        rw [hstore]
        exact BreakpointStore.moved hold before line
      stores := fun st' hst' => (hstores st').trans (if_neg fun h => hst' h.1)
      mover := {
        remarks := hrs
        session := by
          rw [hw'.world_session]
          exact hdealt.session
        records := fun id => by
          rw [hw'.world_session, ← hid]
          exact get?_moved a.new _ id }
      siblings := fun t hts ht honce => kept.rebinds hts ht honce hadjust hsize hrun hid
      bystanders := fun t hts ht honce => kept.standsBy hts ht honce hadjust hsize hrun }
  · have hhooks := honce st
    rw [if_pos ⟨hst, hsize⟩] at hhooks
    refine kept.mirrors hw' ?_ ((hdealt.follows s c).trans hfollows)
    rw [← hw'.world_store, hstore]
    simpa only [hooks, BreakpointStore.listeners_adjust hadjust] using hhooks

/-- The move of an event is no news to the engine of the session through which it is made. The other
sessions that share the store bind the event again. However it ends, the session hears the next. -/
theorem KeptBy.relocates (c : Scope) (w : World σ) (s : SessionId) (id : BreakEventId)
    (line : Nat) :
    ∃ r w', run (s.adjust h id line) c w = (.ok r, w') ∧ R.Relocation c s id line w r w' ∧
      (w'.session s).bindings.openEdits = (w.session s).bindings.openEdits ∧
      ∀ st, (w.session s).store = some st → st.index < w.stores.size → w.ListensOnce s →
        (w.session s).follows s c = true → R.Mirrors h c w' s st := by
  cases hst : (w.session s).store with
  | none =>
      refine ⟨_, w, ?_, .unknown fun st hst' => ?_, rfl, fun st hst' => by cases hst'⟩
      · simp only [SessionId.adjust]
        rw [SessionId.run_session_bind, hst]
        rfl
      · rw [hst] at hst'
        cases hst'
  | some st =>
      have hmirrors : ∀ st', some st = some st' → st'.index < w.stores.size → w.ListensOnce s →
          (w.session s).follows s c = true → R.Mirrors h c w s st' := by
        rintro _ ⟨⟩ hsize honce hfollows
        have hhooks := honce st
        rw [if_pos ⟨hst, hsize⟩] at hhooks
        exact kept.mirrors (World.shows_standing (World.lt_size_of_store hst)) hhooks hfollows
      cases hold : (w.store st).get? id with
      | none =>
          refine ⟨_, w, SessionId.run_adjust_of_error h hst (e := .unknownBreakEvent id) ?_,
            .unknown fun st' hst' => ?_, rfl, hmirrors⟩
          · simp only [BreakpointStore.adjust, hold]
          · rw [hst] at hst'
            cases hst'
            exact hold
      | some old =>
          have hstill (hline : old.line = none ∨ old.line = some line) :
              (w.store st).adjust id line = .ok (w.store st, none) := by
            rcases hline with hline | hline <;> simp [BreakpointStore.adjust, hold, hline]
          have hearly (hline : old.line = none ∨ old.line = some line) :
              ∃ r w', run (s.adjust h id line) c w = (.ok r, w') ∧
                R.Relocation c s id line w r w' ∧
                (w'.session s).bindings.openEdits = (w.session s).bindings.openEdits ∧
                ∀ st', some st = some st' → st'.index < w.stores.size → w.ListensOnce s →
                  (w.session s).follows s c = true → R.Mirrors h c w' s st' :=
            ⟨_, w, SessionId.run_adjust_of_none h hst (hstill hline), .still hst hold hline, rfl,
              hmirrors⟩
          cases hbefore : old.line with
          | none => exact hearly (.inl hbefore)
          | some before =>
              by_cases hline : before = line
              · exact hearly (.inr (hline ▸ hbefore))
              · obtain ⟨w', hrun, hrelocated, hopen, hmirrors'⟩ :=
                  kept.relocated hst hold hbefore hline
                refine ⟨_, w', hrun, .moved hst hold hbefore hline hrelocated, hopen, ?_⟩
                rintro _ ⟨⟩ - honce hfollows
                exact hmirrors' honce hfollows

end Archive

namespace Scripted

open Act

abbrev Overheard := Simulation.Memory × List (Option SessionId × Remark)

def archive : Archive Overheard :=
  ⟨fun s x => (x.2.filter fun r => r.1.all (· == s)).map (·.2)⟩

def converseAll (script : SessionId → List Exchange → Mood) :
    (x : Contact) → (String → Act Overheard (Option String)) → Act Overheard x.Answer
  | .answer s q, _ => do
    let past := (archive.logbook s).ledger.entries (← Act.host)
    modifyHost fun x => (x.1, x.2 ++ [(some s, .asked ⟨q, script s past q⟩)])
    return script s past q
  | .storeChanged k st a, _ => modifyHost fun x => (x.1, x.2 ++ [(none, .told k st a)])
  | .allowsChanges _, _ => return true
  | .vetoes _ _, _ | .handleFault _ _, _ | .customHit _ _ _, _ => return false
  | .resolveExpression _ _ _, _ => return .ok none
  | .resolveType _ _ _, _ | .provideEvaluator _ _, _ => return none
  | .observe _ _ _, _ | .write _ _ _, _ | .trace _ _ _, _ => return

def conversingAll (script : SessionId → List Exchange → Mood) : Host Overheard :=
  (Simulation.host default).calling (converseAll script)

theorem archive_kept (script : SessionId → List Exchange → Mood) :
    archive.KeptBy (conversingAll script) := fun s =>
  (archive.logbook s).kept_by_calling (Simulation.host default) (converseAll script)
    (fun t q _ _ w => by
      refine ⟨script t ((archive.logbook t).ledger.entries w.host) q, _, rfl, ?_⟩
      change ((w.host.2 ++ [(some t, Remark.asked _)]).filter _).map _ = _
      rw [List.filter_append, List.map_append]
      by_cases ht : t = s
      · subst ht
        simp [archive]
      · simp [ht, archive])
    (fun k st a _ _ w => by
      refine ⟨_, rfl, ?_⟩
      change ((w.host.2 ++ [(none, Remark.told k st a)]).filter _).map _ = _
      rw [List.filter_append, List.map_append]
      rfl)
    (fun x _ hx => by cases x <;> first | exact ⟨_, rfl⟩ | cases hx)

def stubborn (s : SessionId) : List Exchange → Mood :=
  complying fun past => s == ⟨1⟩ && past.length == 1

def neighbours : World Overheard :=
  { host := (default, [])
    sessions := #[Session.new {} ⟨0⟩, Session.new {} ⟨1⟩]
    routers := #[{}, {}]
    stores := #[
      { events := [breakpoint 1 10], listeners := [(⟨0⟩, .external ⟨7⟩)], nextListener := 1 }] }

def sharing : World Overheard :=
  [⟨0⟩, ⟨1⟩].foldl (fun w s => Turn.afterAll (conversingAll stubborn) s w
    (calls [.attach (some ⟨0⟩), .started none])) neighbours

def movedByFirst : Except Panic (Except StoreError Unit) × World Overheard :=
  run ((⟨0⟩ : SessionId).adjust (conversingAll stubborn) ⟨1⟩ 12) ⟨.caller 0, [], []⟩ sharing

end Scripted

namespace Archive

/-- The engine of the other session lets nothing go, and yet binds the event where it is now. -/
theorem relocated_among_neighbours :
    (∃ r w', Scripted.movedByFirst = (.ok r, w') ∧
      Scripted.archive.Relocation ⟨.caller 0, [], []⟩ ⟨0⟩ ⟨1⟩ 12 Scripted.sharing r w' ∧
      (w'.session ⟨0⟩).bindings.openEdits = (Scripted.sharing.session ⟨0⟩).bindings.openEdits ∧
      ∀ st, (Scripted.sharing.session ⟨0⟩).store = some st →
        st.index < Scripted.sharing.stores.size →
        Scripted.sharing.ListensOnce ⟨0⟩ →
        (Scripted.sharing.session ⟨0⟩).follows ⟨0⟩ ⟨.caller 0, [], []⟩ = true →
        Scripted.archive.Mirrors (Scripted.conversingAll Scripted.stubborn)
          ⟨.caller 0, [], []⟩ w' ⟨0⟩ st) ∧
    ((Scripted.movedByFirst.2.host.2.drop Scripted.sharing.host.2.length).map fun r =>
        (r.1, r.2.subject)) =
      [(none, .inr (⟨7⟩, ⟨0⟩, ⟨.removed, Scripted.breakpoint 1 10⟩)),
        (some ⟨1⟩, .inl (.remove ⟨0⟩)),
        (none, .inr (⟨7⟩, ⟨0⟩, ⟨.added, Scripted.breakpoint 1 12⟩)),
        (some ⟨1⟩, .inl (.insert (Scripted.breakpoint 1 12)))] :=
  ⟨KeptBy.relocates (Scripted.archive_kept Scripted.stubborn) _ _ _ _ _, by decide +kernel⟩

end Archive

end DebugSession
