import DebugSession.Proofs.Acceptance
import DebugSession.Proofs.Swap

namespace DebugSession

/-- What is heard when a listener is told of a change, if one of the sessions makes `own` of it. -/
def Listener.hears (s : SessionId) (st : StoreId) (a : Announcement) (own : List Remark) :
    Listener → List Remark
  | .session t => if t = s then own else []
  | .external k => [.told k st a]

theorem Listener.flatMap_hears {s : SessionId} (st : StoreId) (a : Announcement)
    (own : List Remark) {ls : List (ListenerId × Listener)}
    (hothers : ∀ l ∈ ls, l.2 ≠ .session s) :
    ls.flatMap (·.2.hears s st a own) = (ls.filterMap (·.2.outside?)).map (.told · st a) := by
  induction ls with
  | nil => rfl
  | cons l rest ih =>
      obtain ⟨i, listener⟩ := l
      rw [List.flatMap_cons, ih fun l hl => hothers l (List.mem_cons_of_mem _ hl)]
      cases listener with
      | session t =>
          have ht : t ≠ s := fun ht => hothers _ List.mem_cons_self (congrArg Listener.session ht)
          simp only [hears, if_neg ht]
          rfl
      | external k => rfl

def BreakpointStore.heard (x : BreakpointStore Listener) (s : SessionId) (st : StoreId)
    (a : Announcement) (own : List Remark) : List Remark :=
  x.listeners.flatMap (·.2.hears s st a own)

namespace Session

def livesIn (x : Session) (s : SessionId) (c : Scope) : Bool :=
  x.held || !x.queue.isIdle || c.entered.contains s

/-- Whether a session passes on to its engine what its store announces. -/
def follows (x : Session) (s : SessionId) (c : Scope) : Bool :=
  x.livesIn s c && x.lifecycle.started && !x.bindings.isEditing c.thread

end Session

theorem Standing.Dealt.follows {v v' : Standing} (hv : Dealt v v') (s : SessionId) (c : Scope) :
    v'.session.follows s c = v.session.follows s c := by
  have hopen : v'.session.bindings.isEditing c.thread = v.session.bindings.isEditing c.thread := by
    simp only [BindingTable.isEditing, hv.openEdits]
  simp only [Session.follows, Session.livesIn, hopen]
  rw [hv.session]

namespace SessionId

open Act

variable {σ : Type} (s : SessionId)

theorem run_entering_of_not_live {α : Type} {otherwise : α} (a : Act σ α) {c : Scope} {w : World σ}
    (hlive : w.isLive s c = false) : run (entering s otherwise a) c w = (.ok otherwise, w) := by
  have hlive' : run (isLive s) c w = (.ok false, w) := congrArg (Except.ok ·, w) hlive
  rw [entering, run_bind, hlive']
  rfl

theorem run_isAdjusting (c : Scope) (w : World σ) : run s.isAdjusting c w =
    (.ok (w.isLive s c && (w.session s).bindings.isEditing c.thread), w) := by
  cases hlive : w.isLive s c with
  | false => exact s.run_entering_of_not_live _ hlive
  | true => exact s.run_entering_of_live _ hlive

theorem run_whenStarted (a : Act σ Unit) (c : Scope) (w : World σ) : run (s.whenStarted a) c w =
    if w.isLive s c && (w.session s).lifecycle.started then run a (c.inside s) w
    else (.ok (), w) := by
  cases hlive : w.isLive s c with
  | false => exact s.run_entering_of_not_live _ hlive
  | true =>
      have hrun : run (s.whenStarted a) c w = run (do if ← s.isStarted then a) (c.inside s) w :=
        s.run_entering_of_live _ hlive
      have hstarted : run s.isStarted (c.inside s) w = (.ok (w.session s).lifecycle.started, w) :=
        rfl
      rw [hrun, run_bind, hstarted]
      cases (w.session s).lifecycle.started <;> rfl

/-- A session that moves an event does not follow the announcements of that. -/
theorem run_unlessAdjusting (a : Act σ Unit) (c : Scope) (w : World σ) :
    run (do unless ← s.isAdjusting do s.whenStarted a) c w =
      if (w.session s).follows s c then run a (c.inside s) w else (.ok (), w) := by
  have hfollows : (w.session s).follows s c = (w.isLive s c && (w.session s).lifecycle.started &&
      !(w.session s).bindings.isEditing c.thread) := rfl
  rw [hfollows, run_bind, run_isAdjusting]
  cases hlive : w.isLive s c <;> cases hediting : (w.session s).bindings.isEditing c.thread <;>
    simp only [Bool.false_and, Bool.true_and, Bool.and_true, Bool.and_false, Bool.not_false,
      Bool.not_true, Bool.false_eq_true, if_false, if_true, run_whenStarted, hlive]
  all_goals rfl

end SessionId

namespace Logbook

open Act Standing

variable {σ α : Type} {B : Logbook σ} {h : Host σ} {c : Scope} {v : Standing}

theorem Notes.of_run {a b : Act σ α} {d : Scope} {Q : α → Standing → List Remark → Prop}
    (hrun : ∀ w, B.ledger.Shows w v → run a c w = run b d w) (hb : B.Notes b d v Q) :
    B.Notes a c v Q := by
  intro w hw
  rw [hrun w hw]
  exact hb w hw

variable (kept : B.KeptBy h)
include kept

theorem KeptBy.addBreakEvent (e : BreakEvent) :
    B.Notes (discard (B.session.addBreakEvent h e)) c v fun _ v' rs => Dealt v v' ∧
      ∃ x : Except EngineError Binding, rs = [.asked ⟨.insert e, x⟩] ∧
        ∀ id, v'.bindings.get? id =
          if id = e.id then some (.ofAnswer e x) else v.bindings.get? id := by
  have hleads : B.ledger.Leads (discard (B.session.addBreakEvent h e)) c v fun _ v' =>
      ∃ m, v' = v.bound e m := (kept.quiet.addBreakEvent e).discard
  refine (Notes.of_leads hleads (kept.grown.addBreakEvent B.session e).discard).mono ?_
  rintro _ v' rs ⟨⟨m, rfl⟩, xs, hxs, rfl⟩
  obtain rfl : [⟨.insert e, m (.insert e)⟩] = xs := List.append_cancel_left hxs
  exact ⟨Dealt.bound e m v, m (.insert e), rfl, get?_bound e m v⟩

theorem KeptBy.followAdded (hfollows : v.session.follows B.session c = true) (e : BreakEvent) :
    B.Notes (B.session.follow h ⟨.added, e⟩) c v fun _ v' rs => Dealt v v' ∧
      ∃ x : Except EngineError Binding, rs = [.asked ⟨.insert e, x⟩] ∧
        ∀ id, v'.bindings.get? id =
          if id = e.id then some (.ofAnswer e x) else v.bindings.get? id := by
  refine Notes.of_run (fun w hw => ?_) (kept.addBreakEvent (c := c.inside B.session) e)
  rw [← hw.world_session] at hfollows
  exact (B.session.run_unlessAdjusting _ c w).trans (if_pos hfollows)

theorem KeptBy.followRemoved (hfollows : v.session.follows B.session c = true) (e : BreakEvent) :
    B.Notes (B.session.follow h ⟨.removed, e⟩) c v fun _ v' rs => Dealt v v' ∧
      ∃ x : Except EngineError Unit,
        rs = (v.bindings.handleOf e.id).toList.map (.asked ⟨.remove ·, x⟩) ∧
        ∀ id, v'.bindings.get? id = if id = e.id then
          (v.bindings.get? e.id).filter (·.outlives x) else v.bindings.get? id := by
  refine Notes.of_run (fun w hw => ?_) (kept.removeBreakEvent (c := c.inside B.session) e.id)
  rw [← hw.world_session] at hfollows
  exact (B.session.run_unlessAdjusting _ c w).trans (if_pos hfollows)

omit kept in
theorem follow_ignored (hdeaf : v.session.follows B.session c = false) {a : Announcement}
    (ha : a.change = .added ∨ a.change = .removed) :
    B.Notes (B.session.follow h a) c v fun _ v' rs => v' = v ∧ rs = [] := by
  refine Notes.of_run (b := pure ()) (d := c) (fun w hw => ?_) (Notes.pure ⟨rfl, rfl⟩)
  have hdeaf : ¬(w.session B.session).follows B.session c = true := by
    rw [hw.world_session, hdeaf]
    exact Bool.false_ne_true
  obtain ⟨change, e⟩ := a
  rcases ha with rfl | rfl
  · exact (B.session.run_unlessAdjusting _ c w).trans (if_neg hdeaf)
  · exact (B.session.run_unlessAdjusting _ c w).trans (if_neg hdeaf)

theorem KeptBy.announceIgnored (st : StoreId) {a : Announcement}
    (ha : a.change = .added ∨ a.change = .removed)
    (hdeaf : hooks B.session (v.store st) = [] ∨ v.session.follows B.session c = false) :
    B.Notes (st.announce h a) c v fun _ v' rs => v' = v ∧ rs = (v.store st).news st a := by
  rcases hdeaf with hhooks | hdeaf
  · exact kept.announce st a (.inr hhooks)
  · exact Notes.store (kept.round st a _ fun _ => follow_ignored hdeaf ha)

/-- An announcement that reaches the session once. -/
theorem KeptBy.roundOnce {P : Standing → List Remark → Prop} (st : StoreId) {a : Announcement}
    {ls : List (ListenerId × Listener)}
    (honce : (ls.filter (·.2 == .session B.session)).length = 1)
    (hfollow : B.Notes (B.session.follow h a) c v fun _ v' rs => P v' rs) :
    B.Notes (ls.forM fun (_, listener) => match listener with
        | .session t => t.follow h a
        | .external k => h.storeChanged k st a) c v fun _ v' rs =>
      ∃ own, P v' own ∧ rs = ls.flatMap (·.2.hears B.session st a own) := by
  induction ls with
  | nil => cases honce
  | cons l rest ih =>
      obtain ⟨i, listener⟩ := l
      by_cases hself : listener = .session B.session
      · subst hself
        have hothers : ∀ l ∈ rest, l.2 ≠ .session B.session := by simpa using honce
        refine hfollow.bind ?_
        intro _ v' own hown
        refine (kept.round st a rest fun ⟨l, hl, hself⟩ => absurd hself (hothers l hl)).mono ?_
        rintro _ v'' rs ⟨rfl, rfl⟩
        refine ⟨own, hown, ?_⟩
        rw [List.flatMap_cons, Listener.flatMap_hears st a own hothers, Listener.hears, if_pos rfl]
      · rw [List.filter_cons_of_neg (by simpa using hself)] at honce
        cases listener with
        | session t =>
            have ht : t ≠ B.session := fun ht => hself (congrArg Listener.session ht)
            refine (kept.follow t (.inr ht)).bind ?_
            rintro _ v' rs ⟨rfl, rfl⟩
            refine (ih honce).mono ?_
            rintro _ v'' rs ⟨own, hown, rfl⟩
            refine ⟨own, hown, ?_⟩
            rw [List.flatMap_cons, Listener.hears, if_neg ht]
        | external k =>
            refine (kept.storeChanged k st a).bind ?_
            rintro _ v' rs ⟨rfl, rfl⟩
            refine (ih honce).mono ?_
            rintro _ v'' rs ⟨own, hown, rfl⟩
            exact ⟨own, hown, rfl⟩

theorem KeptBy.announceOnce {P : Standing → List Remark → Prop} (st : StoreId) {a : Announcement}
    (honce : (hooks B.session (v.store st)).length = 1)
    (hfollow : B.Notes (B.session.follow h a) c v fun _ v' rs => P v' rs) :
    B.Notes (st.announce h a) c v fun _ v' rs =>
      ∃ own, P v' own ∧ rs = (v.store st).heard B.session st a own := by
  rw [hooks, List.length_map] at honce
  exact Notes.store (kept.roundOnce st honce hfollow)

end Logbook

end DebugSession
